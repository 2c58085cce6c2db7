import Criteria.Proofs.Grammar.FieldToken

/-!
# What fields are called in a written condition

A condition refers to a field by its name or by its label.  Names can always be read back; a label
can if it looks like one, and if the set finds the field under it.

Two things are asked of a caption.  In front of its colon it must be read as the field, and behind
the marker of a condition it must not be taken for what may stand there, since the first field
follows the `*` of an OR root.  Names have both by themselves.  A label can be any text, and which
labels have them is said in terms of their characters.

## What is here

* `StartsItem` — the text cannot be taken for what stands between the marker of a group and its
  parenthesis.
* `Captions` — in front of a colon the text is read as the field.
* `captions_name` — the name of a field.
* `Field.ReadsByLabel`, `captions_label` — the label of a field, and what is asked of it.
-/

set_option autoImplicit false

namespace Criteria

open Grammar

/-- A field that is found by a name has this name, and the name is writable. -/
theorem field_of_find? {fields : FieldSet} {name : String} {field : Field}
    (h : fields.find? name = some field) :
    field.name = name ∧ Text.isFieldName name = true := by
  have hname : field.name = name := by simpa using List.find?_some h
  exact ⟨hname, hname ▸ fields.writable field (List.mem_of_find?_eq_some h)⟩

/-! ## The start of an item

The first character of an item is neither a gap nor a parenthesis, so the item does not continue the
start of a group. -/

/-- The text starts with a character that cannot stand between a marker and its parenthesis, and is
not the parenthesis. -/
def StartsItem (text : String) : Prop :=
  ∃ x xs, text.toList = x :: xs ∧ Text.isGap x = false ∧ x ≠ '('

theorem isGap_of_isSpace {x : Char} (h : Unicode.isSpace x = false) : Text.isGap x = false := by
  rw [Bool.eq_false_iff]
  intro hg
  rw [Text.isSpace_of_isGap hg] at h
  cases h

namespace StartsItem

variable {text : String}

/-- What follows the start of an item does not matter. -/
theorem append (h : StartsItem text) (more : String) : StartsItem (text ++ more) := by
  obtain ⟨x, xs, hx, hgap, hparen⟩ := h
  exact ⟨x, xs ++ more.toList, by rw [String.toList_append, hx]; rfl, hgap, hparen⟩

/-- Several items start like the first one. -/
theorem intercalate (h : StartsItem text) (items : List String) :
    StartsItem ("; ".intercalate (text :: items)) := by
  cases items with
  | nil => rwa [String.intercalate_singleton]
  | cons item items =>
    rw [String.intercalate_cons_cons]
    exact (h.append _).append _

/-- Behind a marker and a space, such a text is not the rest of the start of a group. -/
theorem not_gaps (h : StartsItem text) (cs : List Char) :
    ¬Gaps (' ' :: text.toList) ('(' :: cs) := by
  obtain ⟨x, xs, hx, hgap, hparen⟩ := h
  intro gaps
  have he := gaps.eq_dropWhile ((stops_cons ..).2 rfl)
  rw [List.dropWhile_cons_of_pos rfl, hx, dropWhile_of_stops ((stops_cons ..).2 hgap)] at he
  exact hparen (List.cons.inj he).1.symm

end StartsItem

/-! ## Captions

Fields are found by what is read in front of the colon, by a name or by a trimmed label. -/

/-- Where the text stands in front of a colon, it is read as the field. -/
structure Captions (fields : FieldSet) (naming : Naming) (text : String) (field : Field) :
    Prop where
  start : StartsItem text
  token : ∀ rest, FieldToken fields naming (text.toList ++ ':' :: rest) rest field

variable {fields : FieldSet} {field : Field}

/-- Every field is read back under its name. -/
theorem captions_name {name : String} (h : fields.find? name = some field) :
    Captions fields .byName name field := by
  obtain ⟨-, hwritable⟩ := field_of_find? h
  obtain ⟨x, xs, hx, hstart, -⟩ := exists_of_isFieldName hwritable
  refine ⟨⟨x, xs, hx, isGap_of_isSpace (Text.isSpace_of_isNameStart hstart), ?_⟩, fun rest => ?_⟩
  · exact Text.ne_of_isNameStart hstart (by decide)
  · exact .name hwritable rfl (Run.refl ..) (.inl rfl) h

/-- A text without white space at its ends is left as it is. -/
theorem Unicode.trim_of_stops_both {cs : List Char} (hfirst : Stops isSpace cs)
    (hlast : Stops isSpace cs.reverse) : trim cs = cs := by
  rw [trim, dropWhile_of_stops hfirst, dropWhile_of_stops hlast, List.reverse_reverse]

/-- The label of the field, or its name if it has none, can be told from the signs of a condition
and leads back to the field: it is not empty, has no white space at its ends, holds none of the
characters that no label holds, does not start like the marker of a group, and is found in the set
as the label of this field. -/
structure Field.ReadsByLabel (fields : FieldSet) (f : Field) : Prop where
  nonempty : f.caption ≠ ""
  first : ∀ x ∈ f.caption.toList.head?, Unicode.isSpace x = false
  last : ∀ x ∈ f.caption.toList.getLast?, Unicode.isSpace x = false
  chars : ∀ x ∈ f.caption.toList, Text.isLabelChar x = true
  unmarked : f.caption.toList.head? ≠ some '&'
  found : fields.findByLabel? f.caption = some f

/-- A label that meets the conditions on its characters is read back. -/
theorem captions_label (h : field.ReadsByLabel fields) :
    Captions fields .byLabel field.caption field := by
  obtain ⟨hne, hfirst, hlast, hchars, hmark, hfound⟩ := h
  obtain ⟨x, xs, hx⟩ := List.exists_cons_of_ne_nil fun he => hne (String.toList_eq_nil_iff.1 he)
  have htrim : Unicode.trim field.caption.toList = x :: xs := by
    refine (Unicode.trim_of_stops_both hfirst fun y hy => hlast y ?_).trans hx
    rwa [← List.head?_reverse]
  have hspace : Unicode.isSpace x = false := hfirst x (by rw [hx]; rfl)
  have hlabel : Text.isLabelChar x = true := hchars x (by rw [hx]; exact List.mem_cons_self)
  refine ⟨⟨x, xs, hx, isGap_of_isSpace hspace, ?_⟩, fun rest => ?_⟩
  · rintro rfl
    exact absurd hlabel (by decide)
  · refine .label hchars rfl htrim ?_ ?_
    · rintro rfl
      exact hmark (by rw [hx]; rfl)
    · rwa [← hx, String.ofList_toList]

end Criteria
