import Criteria.Value

/-!
# The values of one field

## What is here

* `Criterion` — one entry in the list of values of a field.
* `Bag` — the entries of a field, sorted by kind; within a kind they keep the order in which they
  were added.
* `Bag.toList` — all entries, kind after kind; `Bag.count` is its length (`length_toList`).
-/

set_option autoImplicit false

namespace Criteria

/-- One entry in the list of values of a field. -/
inductive Criterion where
  | simple (value : Value)
  | excluded (value : Value)
  | range (range : Range)
  | excludedRange (range : Range)
  | comparison (comparison : Comparison)
  | pattern (pattern : Pattern)

/-- The entries of one field, sorted by kind. -/
structure Bag where
  simple : Array Value := #[]
  excluded : Array Value := #[]
  ranges : Array Range := #[]
  excludedRanges : Array Range := #[]
  comparisons : Array Comparison := #[]
  patterns : Array Pattern := #[]
deriving BEq, Inhabited

namespace Bag

/-- Adds an entry behind those of its kind. -/
def add : Bag → Criterion → Bag
  | ⟨s, e, r, er, c, p⟩, .simple v => ⟨s.push v, e, r, er, c, p⟩
  | ⟨s, e, r, er, c, p⟩, .excluded v => ⟨s, e.push v, r, er, c, p⟩
  | ⟨s, e, r, er, c, p⟩, .range v => ⟨s, e, r.push v, er, c, p⟩
  | ⟨s, e, r, er, c, p⟩, .excludedRange v => ⟨s, e, r, er.push v, c, p⟩
  | ⟨s, e, r, er, c, p⟩, .comparison v => ⟨s, e, r, er, c.push v, p⟩
  | ⟨s, e, r, er, c, p⟩, .pattern v => ⟨s, e, r, er, c, p.push v⟩

/-- The entries in the order in which they are written: kind after kind. -/
def toList (b : Bag) : List Criterion :=
  b.simple.toList.map .simple ++ b.excluded.toList.map .excluded ++
    b.ranges.toList.map .range ++ b.excludedRanges.toList.map .excludedRange ++
    b.comparisons.toList.map .comparison ++ b.patterns.toList.map .pattern

/-- The number of entries. -/
def count (b : Bag) : Nat :=
  b.simple.size + b.excluded.size + b.ranges.size + b.excludedRanges.size +
    b.comparisons.size + b.patterns.size

/-- Whether there is no entry at all. -/
def isEmpty (b : Bag) : Bool :=
  b.count == 0

@[simp] theorem length_toList (b : Bag) : b.toList.length = b.count := by
  simp [toList, count, Nat.add_assoc]

theorem isEmpty_iff (b : Bag) : b.isEmpty = true ↔ b.toList = [] := by
  rw [isEmpty, beq_iff_eq, ← length_toList, List.length_eq_zero_iff]

@[simp] theorem count_add (b : Bag) (c : Criterion) : (b.add c).count = b.count + 1 := by
  obtain ⟨s, e, r, er, cs, p⟩ := b
  cases c <;> simp [add, count] <;> omega

end Bag
end Criteria
