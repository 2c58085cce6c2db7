import Criteria.Export.Text
import Criteria.Proofs.Grammar.Run
import Criteria.Proofs.Tree

/-!
# Written entries are values of the grammar

Every written entry is a value of the grammar whatever text follows it, so entries can be put side
by side.

The statements are about a written entry in front of any other text, and not about the entry alone.
This is how they are used, since entries stand in a list; and it is only possible because the
grammar does not look behind a value.

## What is here

* `Criterion.TakenBack` — the field reads back the values that it writes.
* `Literal.literalText_write`, `Criterion.valueText_write` — one text, one entry.
* `Bag.foldl_toList`, `Bag.valueList_write` — all entries of a field, which are those of its bag.
-/

set_option autoImplicit false

namespace Criteria

open Grammar

/-- The field writes the values of an entry as texts without line breaks, and reads these as the
same values; the text of a pattern has no line breaks either. -/
def Criterion.TakenBack (field : Field) : Criterion → Prop :=
  Holds (fun v => OneLine (field.converter.write v) ∧
    field.converter.read (field.converter.write v) = .ok v) OneLine

/-! ## One entry

One lemma for each part of an entry: its texts, the brackets of a range, the operator of a
pattern. -/

namespace Literal

variable {s : String}

/-- A text is written without quotes if it is one in the grammar without them. -/
theorem isQuoted_eq_false_iff :
    isQuoted s = false ↔ s.toList ≠ [] ∧ ∀ x ∈ s.toList, isPlain x = true := by
  simp [isQuoted, isPlain, List.any_eq_false, and_comm]

/-- A written text of one line is a text of the grammar, in quotes or without. -/
theorem literalText_write (h : OneLine s) (rest : List Char) :
    LiteralText ((write s).toList ++ rest) rest s := by
  rw [write]
  split
  · refine .quoted h ?_
    rw [String.toList_ofList, List.cons_append, List.append_assoc]
    rfl
  · next hq =>
    obtain ⟨hne, hplain⟩ := isQuoted_eq_false_iff.1 (Bool.eq_false_iff.2 hq)
    exact .bare hne hplain rfl

end Literal

section Entry

variable {field : Field} {v : Value}

/-- A written value is one of the grammar, if the field reads it back. -/
theorem literalValue_write (h : OneLine (field.converter.write v) ∧
    field.converter.read (field.converter.write v) = .ok v) (rest : List Char) :
    LiteralValue field ((Literal.write (field.converter.write v)).toList ++ rest) rest v :=
  ⟨_, Literal.literalText_write h.1 rest, h.2⟩

/-- The bracket in front of a range, if one is written. -/
theorem rangeStart_write (loose included : Bool) (rest : List Char) :
    RangeStart loose ((if included then "" else "]").toList ++ rest) rest included := by
  cases included with
  | true => exact .bare
  | false => exact .excluded (Run.refl ..)

theorem rangeEnd_write (included : Bool) (rest : List Char) :
    RangeEnd ((if included then "" else "[").toList ++ rest) rest included := by
  cases included with
  | true => exact .bare
  | false => exact .excluded (Run.refl ..)

/-- A written range is one of the grammar. -/
theorem Range.rangeText_write (loose : Bool) {r : Range}
    (h : (Criterion.range r).TakenBack field) (rest : List Char) :
    RangeText loose field ((r.write field.converter.write).toList ++ rest) rest r := by
  rw [Range.write]
  simp only [String.toList_append, List.append_assoc]
  exact .mk (rangeStart_write ..) (literalValue_write h.1 _) (run_cons rfl _) (run_cons rfl _)
    (literalValue_write h.2 _) (rangeEnd_write ..)

theorem Pattern.toList_write (p : Pattern) :
    p.write.toList = patternMark p ++ (Literal.write p.text).toList := by
  obtain ⟨⟨place, negated⟩, text, ignoresCase⟩ := p
  cases ignoresCase <;> cases negated <;>
    simp [Pattern.write, patternMark, String.toList_append]

/-- A written entry is a value of the grammar, whatever follows it. -/
theorem Criterion.valueText_write (loose : Bool) {c : Criterion} (h : c.TakenBack field)
    (rest : List Char) :
    ValueText loose field ((c.write field.converter.write).toList ++ rest) rest c := by
  cases c with
  | simple v => exact .simple (literalValue_write h rest)
  | excluded v =>
    rw [write, String.toList_append, List.append_assoc]
    exact .excluded (literalValue_write h rest)
  | range r => exact .range (Range.rangeText_write loose h rest)
  | excludedRange r =>
    rw [write, String.toList_append, List.append_assoc]
    exact .excludedRange (Range.rangeText_write loose h rest)
  | comparison c =>
    rw [write, Comparison.write, String.toList_append, List.append_assoc]
    exact .comparison rfl (Run.refl ..) (literalValue_write h rest)
  | pattern p =>
    rw [write, Pattern.toList_write, List.append_assoc]
    exact .pattern rfl (Run.refl ..) (Literal.literalText_write h rest)

end Entry

/-! ## All entries of a field

Entries are written kind by kind.  Adding them in this order gives the bag back, since a bag keeps
only the order within each kind. -/

namespace Bag

/-- Entries of one kind are added behind those of their kind. -/
theorem foldl_add_map {α : Type} {k : α → Criterion} {f : Array α → Bag}
    (h : ∀ a x, (f a).add (k x) = f (a.push x)) (a : Array α) :
    (a.toList.map k).foldl add (f #[]) = f a := by
  have hall : ∀ (l : List α) (b : Array α), (l.map k).foldl add (f b) = f (b ++ l.toArray) := by
    intro l
    induction l with
    | nil => simp
    | cons x l ih =>
      intro b
      rw [List.map_cons, List.foldl_cons, h, ih]
      simp
  rw [hall]
  simp

/-- Adding the entries of a bag one after another gives the bag. -/
theorem foldl_toList (b : Bag) : b.toList.foldl add {} = b := by
  obtain ⟨s, e, r, er, c, p⟩ := b
  have hs := foldl_add_map (k := .simple) (f := fun a => ⟨a, #[], #[], #[], #[], #[]⟩)
    (fun _ _ => rfl) s
  have he := foldl_add_map (k := .excluded) (f := fun a => ⟨s, a, #[], #[], #[], #[]⟩)
    (fun _ _ => rfl) e
  have hr := foldl_add_map (k := .range) (f := fun a => ⟨s, e, a, #[], #[], #[]⟩)
    (fun _ _ => rfl) r
  have her := foldl_add_map (k := .excludedRange) (f := fun a => ⟨s, e, r, a, #[], #[]⟩)
    (fun _ _ => rfl) er
  have hc := foldl_add_map (k := .comparison) (f := fun a => ⟨s, e, r, er, a, #[]⟩)
    (fun _ _ => rfl) c
  have hp := foldl_add_map (k := .pattern) (f := fun a => ⟨s, e, r, er, c, a⟩)
    (fun _ _ => rfl) p
  simp only [toList, List.foldl_append]
  rw [hs, he, hr, her, hc, hp]

/-- The written entries are values of the grammar with commas between them, whatever follows. -/
theorem valueList_write (loose : Bool) {field : Field} {b : Bag} (hb : b.isEmpty = false)
    (h : ∀ c ∈ b.toList, c.TakenBack field) (rest : List Char) :
    ValueList loose field ((b.write field.converter.write).toList ++ rest) rest b.toList := by
  have hne : b.toList ≠ [] := fun he => by
    rw [(isEmpty_iff b).2 he] at hb
    cases hb
  rw [write, String.toList_intercalate, List.map_map]
  revert hne h
  generalize b.toList = vs
  intro h hne
  induction vs with
  | nil => exact absurd rfl hne
  | cons v vs ih =>
    have hv := h v (by simp)
    cases vs with
    | nil =>
      rw [List.map_singleton, List.intercalate_singleton]
      exact .one (Criterion.valueText_write loose hv rest)
    | cons w vs =>
      rw [List.map_cons, List.map_cons, List.intercalate_cons_cons, List.append_assoc,
        List.append_assoc]
      exact .more (Criterion.valueText_write loose hv _) (Run.refl ..) (run_cons rfl _)
        (ih (fun c hc => h c (List.mem_cons_of_mem _ hc)) (by simp))

end Bag

end Criteria
