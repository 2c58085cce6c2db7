import Criteria.Group
import Criteria.Stored.Value

/-!
# Condition trees as documents

The fields of a group are stored as an object, in their order.  Of several members with one name,
the last one counts, in the place of the first.

## What is here

* `toJson` and `ofJson?` for `Bag`, `Logical` and `Group`.
-/

set_option autoImplicit false

namespace Criteria

namespace Bag

/-- The document of the entries of a field. -/
def toJson (b : Bag) : Json :=
  .object [("simple_values", .array (b.simple.toList.map Value.toJson)),
    ("excluded_simple_values", .array (b.excluded.toList.map Value.toJson)),
    ("ranges", .array (b.ranges.toList.map Range.toJson)),
    ("excluded_ranges", .array (b.excludedRanges.toList.map Range.toJson)),
    ("comparisons", .array (b.comparisons.toList.map Comparison.toJson)),
    ("pattern_matchers", .array (b.patterns.toList.map Pattern.toJson))]

/-- The items of an array, each of them read. -/
def list? {α : Type} (read : Nat → Json → Option α) (room : Nat) (j : Json) : Option (Array α) := do
  let items ← Json.items? room j
  return (← items.mapM (read (room - 1))).toArray

/-- The entries that a document stands for. -/
def ofJson? (room : Nat) (j : Json) : Option Bag := do
  match ← Json.record? ["simple_values", "excluded_simple_values", "ranges", "excluded_ranges",
    "comparisons", "pattern_matchers"] room j with
  | [s, e, r, er, c, p] =>
    return ⟨← list? (fun _ => Value.ofJson?) (room - 1) s,
      ← list? (fun _ => Value.ofJson?) (room - 1) e, ← list? Range.ofJson? (room - 1) r,
      ← list? Range.ofJson? (room - 1) er, ← list? Comparison.ofJson? (room - 1) c,
      ← list? Pattern.ofJson? (room - 1) p⟩
  | _ => none

end Bag

namespace Logical

/-- The document of a logical. -/
def toJson (l : Logical) : Json :=
  .text l.name

/-- The logical that a document stands for. -/
def ofJson? : Nat → Json → Option Logical :=
  Json.tag? [("AND", and), ("OR", or)]

end Logical

namespace Group

mutual

/-- The document of a group. -/
def toJson : Group → Json
  | ⟨logical, fields, groups⟩ =>
    .object [("logical", logical.toJson),
      ("fields", .object (fields.entries.map fun f => (f.1, f.2.toJson))),
      ("groups", .array (listToJson groups))]

/-- The documents of subgroups. -/
def listToJson : List Group → List Json
  | [] => []
  | g :: gs => toJson g :: listToJson gs

end

/-- The fields that a document stands for. -/
def fieldsOfJson? (room : Nat) (j : Json) : Option (NameMap Bag) := do
  let members ← Json.members? room j
  let fields ← members.mapM fun m => (Bag.ofJson? (room - 1) m.2).map fun b => (m.1, b)
  return NameMap.ofList fields

/-- The group that a document stands for.  It takes two levels: its own, and that of its
subgroups. -/
def ofJson? : Nat → Json → Option Group
  | room + 2, j => do
    match ← Json.record? ["logical", "fields", "groups"] (room + 2) j with
    | [l, f, g] =>
      let logical ← Logical.ofJson? (room + 1) l
      let fields ← fieldsOfJson? (room + 1) f
      let items ← Json.items? (room + 1) g
      let groups ← items.mapM (ofJson? room)
      return ⟨logical, fields, groups⟩
    | _ => none
  | _, _ => none

end Group

end Criteria
