import Criteria.Proofs.Grammar.FieldToken
import Criteria.Text.Opening

/-!
# How the items of a group start

An item is told by its first characters: the sign of a group, or the name of a field.  So the items
at a given place are all of one sort, which `Items` itself leaves open.

The inversion at the end is what the proofs about reading use: the reader decides by the next
characters which sort of item it is going to read, and the grammar has to be made to decide in the
same way.  For this, no first character may start two sorts of items, and the white space in front
of an item has to be left out first.

## What is here

* `GroupStart.at?`, `groupStart_of_at?` — the starts of groups are those that looking ahead finds.
* `GroupStart.head`, `Pair.not_mem` — the first characters of groups and of fields.
* `Items.of_spaces`, `Items.dropWhile` — the white space in front of the items does not matter.
* `Items.inversion` — the items at a place without white space: none, a field, or a group.
-/

set_option autoImplicit false

namespace Criteria
namespace Grammar

variable {cs rest : List Char} {logical : Logical}

/-! ## The start of a group

Looking ahead is done on the text, and gives a marker and a number of characters; the grammar speaks
of the text behind. -/

/-- Looking ahead finds a parenthesis behind the marker and the characters that may follow it. -/
theorem at?_of_gaps (cs : List Char) {c₁ : List Char}
    (hm : cs.drop (Opening.marker? cs).toList.length = c₁) (h : Gaps c₁ ('(' :: rest)) :
    ∃ length, Opening.at? cs = some (Opening.marker? cs, length) ∧ cs.drop length = rest := by
  have hd : c₁.drop (c₁.takeWhile Text.isGap).length = '(' :: rest := by
    rw [drop_length_takeWhile, ← h.eq_dropWhile ((stops_cons ..).2 rfl)]
  refine ⟨(Opening.marker? cs).toList.length + (c₁.takeWhile Text.isGap).length + 1, ?_, ?_⟩
  · rw [Opening.at?, hm, hd]
    rfl
  · rw [← List.drop_drop, ← List.drop_drop, hm, hd]
    rfl

/-- If looking ahead finds the start of a group, there is one: behind the marker and the gaps stands
the `(`. -/
theorem gaps_of_at? {marker : Option Logical} {length : Nat}
    (h : Opening.at? cs = some (marker, length)) :
    marker = Opening.marker? cs ∧
      Gaps (cs.drop (Opening.marker? cs).toList.length) ('(' :: cs.drop length) := by
  rw [Opening.at?] at h
  split at h
  · next hp =>
    cases h
    obtain ⟨tail, ht⟩ := List.head?_eq_some_iff.1 hp
    refine ⟨rfl, ?_⟩
    rw [← List.drop_drop, ← List.drop_drop, ht, List.drop_one, List.tail_cons, ← ht,
      drop_length_takeWhile]
    exact run_dropWhile ..
  · cases h

/-- A `(` behind gaps only has no marker. -/
theorem marker?_of_gaps (h : Gaps cs ('(' :: rest)) : Opening.marker? cs = none := by
  cases cs with
  | nil => rfl
  | cons x xs =>
    rw [Opening.marker?.eq_def]
    split
    · next he =>
      rw [(List.cons.inj he).1] at h
      exact absurd h.head (by decide)
    · next he =>
      rw [(List.cons.inj he).1] at h
      exact absurd h.head (by decide)
    · rfl

/-- The start of a group is found by looking ahead. -/
theorem GroupStart.at? (h : GroupStart cs rest logical) :
    ∃ marker length, Opening.at? cs = some (marker, length) ∧ marker.getD .and = logical ∧
      cs.drop length = rest := by
  cases h with
  | @or cs _ gaps =>
    obtain ⟨length, ha, hd⟩ := at?_of_gaps ('*' :: cs) rfl gaps
    exact ⟨_, length, ha, rfl, hd⟩
  | @and cs _ gaps =>
    obtain ⟨length, ha, hd⟩ := at?_of_gaps ('&' :: cs) rfl gaps
    exact ⟨_, length, ha, rfl, hd⟩
  | bare gaps =>
    have hm := marker?_of_gaps gaps
    obtain ⟨length, ha, hd⟩ := at?_of_gaps cs (by rw [hm]; rfl) gaps
    exact ⟨_, length, ha, by rw [hm]; rfl, hd⟩

theorem groupStart_of_at? {marker : Option Logical} {length : Nat}
    (h : Opening.at? cs = some (marker, length)) :
    GroupStart cs (cs.drop length) (marker.getD .and) := by
  obtain ⟨rfl, gaps⟩ := gaps_of_at? h
  rw [Opening.marker?.eq_def] at gaps ⊢
  split at gaps
  · exact .or gaps
  · exact .and gaps
  · exact .bare gaps

/-- Where no group starts, looking ahead finds none. -/
theorem at?_eq_none (h : ∀ rest logical, ¬GroupStart cs rest logical) :
    Opening.at? cs = none := by
  cases ha : Opening.at? cs with
  | none => rfl
  | some found => exact absurd (groupStart_of_at? ha) (h _ _)

/-- A group starts with its marker or with its `(`, if it does not start with white space. -/
theorem GroupStart.head (h : GroupStart cs rest logical) (hs : Stops Unicode.isSpace cs) :
    ∃ x xs, cs = x :: xs ∧ x ∈ ['*', '&', '('] := by
  cases h with
  | @or cs => exact ⟨'*', cs, rfl, by simp⟩
  | @and cs => exact ⟨'&', cs, rfl, by simp⟩
  | bare gaps =>
    rw [← gaps.eq_of_stops (hs.mono fun _ => Text.isSpace_of_isGap)]
    exact ⟨'(', rest, rfl, by simp⟩

/-- The white space in front of a group can be left out. -/
theorem GroupStart.dropWhile (h : GroupStart cs rest logical) :
    GroupStart (cs.dropWhile Unicode.isSpace) rest logical := by
  cases h with
  | or gaps =>
    rw [dropWhile_of_stops ((stops_cons ..).2 rfl)]
    exact .or gaps
  | and gaps =>
    rw [dropWhile_of_stops ((stops_cons ..).2 rfl)]
    exact .and gaps
  | bare gaps =>
    have hspaces : Spaces cs ('(' :: rest) := gaps.mono fun _ => Text.isSpace_of_isGap
    rw [← hspaces.eq_dropWhile ((stops_cons ..).2 rfl)]
    exact .bare (Run.refl ..)

/-! ## White space in front of the items

White space between two items belongs to either of them.  So it can be left out in front of the
items altogether, and added again. -/

section Items

variable {settings : Settings} {fields : FieldSet} {depth : Nat} {g g' : Group}

/-- The white space in front of a field can be left out. -/
theorem Pair.dropWhile {loose : Bool} {naming : Naming} {field : Field} {vs : List Criterion}
    (h : Pair loose naming fields cs rest field vs) :
    Pair loose naming fields (cs.dropWhile Unicode.isSpace) rest field vs := by
  obtain ⟨htoken, hbefore, hvs, hbehind, hend⟩ := h
  exact ⟨htoken.dropWhile, hbefore, hvs, hbehind, hend⟩

/-- A field that does not start with white space starts with no sign of a group. -/
theorem Pair.head {loose : Bool} {naming : Naming} {field : Field} {vs : List Criterion}
    (h : Pair loose naming fields cs rest field vs) (hs : Stops Unicode.isSpace cs) :
    ∃ x xs, cs = x :: xs ∧ x ∉ ['*', '&', '(', ')', ';'] := by
  obtain ⟨htoken, -, -, -, -⟩ := h
  rw [← dropWhile_of_stops hs]
  exact htoken.head

/-- A field does not start with a sign of a group, white space or not. -/
theorem Pair.not_mem {loose : Bool} {naming : Naming} {field : Field} {vs : List Criterion}
    {x : Char} (h : Pair loose naming fields (x :: cs) rest field vs) :
    x ∉ ['*', '&', '(', ')', ';'] := by
  intro hx
  have hall : ∀ y ∈ ['*', '&', '(', ')', ';'], Unicode.isSpace y = false :=
    forall_mem_of_all (by decide)
  obtain ⟨y, ys, hy, hm⟩ := h.head ((stops_cons ..).2 (hall x hx))
  cases hy
  exact hm hx

variable {loose : Bool}

/-- White space can be added in front of the items. -/
theorem Items.of_spaces {c₁ : List Char} (h : Spaces cs c₁)
    (k : Items loose settings fields depth c₁ rest g g') :
    Items loose settings fields depth cs rest g g' := by
  cases k with
  | done spaces => exact .done (h.trans spaces)
  | pair spaces hp hn hl hi => exact .pair (h.trans spaces) hp hn hl hi
  | group spaces hs hd hl hb hf hi => exact .group (h.trans spaces) hs hd hl hb hf hi

/-- Items that end where the text stops may start behind the white space. -/
theorem Items.dropWhile (h : Items loose settings fields depth cs rest g g')
    (hr : Stops Unicode.isSpace rest) :
    Items loose settings fields depth (cs.dropWhile Unicode.isSpace) rest g g' := by
  cases h with
  | done spaces =>
    rw [← spaces.eq_dropWhile hr]
    exact .done (Run.refl ..)
  | pair spaces hp hn hl hi =>
    rw [spaces.dropWhile_eq]
    exact .pair (Run.refl ..) hp.dropWhile hn hl hi
  | group spaces hs hd hl hb hf hi =>
    rw [spaces.dropWhile_eq]
    exact .group (Run.refl ..) hs.dropWhile hd hl hb hf hi

/-- At a place without white space there are no items, or a field follows, or a group. -/
theorem Items.inversion (h : Items loose settings fields depth cs rest g g')
    (hc : Stops Unicode.isSpace cs) :
    (cs = rest ∧ g' = g) ∨
    (∃ field vs c₁, Pair loose settings.naming fields cs c₁ field vs ∧
      g.fields.contains field.name = false ∧ vs.length ≤ settings.maxValues ∧
      Items loose settings fields depth c₁ rest
        (g.addField field.name (vs.foldl Bag.add {})) g') ∨
    (∃ logical sub c₁ c₂ c₃, GroupStart cs c₁ logical ∧ depth < settings.maxDepth ∧
      g.groups.length < settings.maxGroups ∧
      Items loose settings fields (depth + 1) c₁ (')' :: c₂) { logical } sub ∧ GroupEnd c₂ c₃ ∧
      Items loose settings fields depth c₃ rest (g.addGroup sub) g') := by
  cases h with
  | done spaces => exact .inl ⟨(spaces.eq_of_stops hc).symm, rfl⟩
  | pair spaces hp hn hl hi =>
    cases spaces.eq_of_stops hc
    exact .inr (.inl ⟨_, _, _, hp, hn, hl, hi⟩)
  | group spaces hs hd hl hb hf hi =>
    cases spaces.eq_of_stops hc
    exact .inr (.inr ⟨_, _, _, _, _, hs, hd, hl, hb, hf, hi⟩)

end Items

end Grammar
end Criteria
