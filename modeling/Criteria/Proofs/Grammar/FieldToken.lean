import Criteria.Proofs.Grammar.Run
import Criteria.Proofs.Text.Character

/-!
# The start of a field

A field starts with its name or with its label.  Names are easy: they start with a letter or an
underscore and have no white space.  A label may be any text up to the `:`, with white space inside,
and is trimmed on both sides before it is looked up; so its first character is known only behind the
trimming, and the lemmas about trimming are here to say that this is the first character that is no
white space.

## What is here

* `Unicode.trim_of_stops`, `Unicode.trim_dropWhile` — trimming a label that starts with no white
  space keeps its first character.
* `FieldToken.dropWhile` — the white space in front of a name or label can be left out.
* `FieldToken.head` — what follows it is no sign of a group and no `;`.
-/

set_option autoImplicit false

namespace Criteria

open Grammar

/-! ## Trimming -/

namespace Unicode

variable {x : Char} {cs : List Char}

/-- White space in front is trimmed in any case. -/
theorem trim_dropWhile (cs : List Char) : trim (cs.dropWhile isSpace) = trim cs := by
  rw [trim, dropWhile_of_stops (stops_dropWhile isSpace cs), trim]

/-- The first character that is no white space is the first one of the trimmed text. -/
theorem trim_of_stops (cs : List Char) (hx : isSpace x = false) : ∃ t, trim (x :: cs) = x :: t := by
  have hne : ¬isSpace x = true := by simp [hx]
  have hlast : ((x :: cs).reverse.dropWhile isSpace) = cs.reverse.dropWhile isSpace ++ [x] := by
    rw [List.reverse_cons, List.dropWhile_append]
    split
    · next he => rw [List.isEmpty_iff.1 he, List.dropWhile_cons_of_neg hne, List.nil_append]
    · rfl
  exact ⟨(cs.reverse.dropWhile isSpace).reverse, by
    rw [trim, List.dropWhile_cons_of_neg hne, hlast, List.reverse_append]
    rfl⟩

/-- The first character of a trimmed text is the first one of the text that is no white space. -/
theorem head_of_trim {first : Char} {trimmed : List Char} (h : trim cs = first :: trimmed) :
    ∃ xs, cs.dropWhile isSpace = first :: xs := by
  rw [← trim_dropWhile] at h
  cases hd : cs.dropWhile isSpace with
  | nil =>
    rw [hd] at h
    cases h
  | cons y ys =>
    have hy := stops_dropWhile isSpace cs
    rw [hd, stops_cons] at hy
    obtain ⟨t, ht⟩ := trim_of_stops ys hy
    rw [hd, ht] at h
    exact ⟨ys, by rw [(List.cons.inj h).1]⟩

end Unicode

/-! ## The start of a field -/

namespace Grammar

variable {fields : FieldSet} {naming : Naming} {cs rest : List Char} {field : Field}

/-- A name has a first character, which may start one, and others, which may go on with it. -/
theorem exists_of_isFieldName {name : String} (h : Text.isFieldName name = true) :
    ∃ x xs, name.toList = x :: xs ∧ Text.isNameStart x = true ∧
      ∀ y ∈ xs, Text.isNameChar y = true := by
  rw [Text.isFieldName] at h
  split at h
  · cases h
  · next x xs hn =>
    rw [Bool.and_eq_true, List.all_eq_true] at h
    exact ⟨x, xs, hn, h⟩

/-- The white space in front of a name or label can be left out. -/
theorem FieldToken.dropWhile (h : FieldToken fields naming cs rest field) :
    FieldToken fields naming (cs.dropWhile Unicode.isSpace) rest field := by
  cases h with
  | name hw ht hb hc hf =>
    obtain ⟨x, xs, hx, hstart, -⟩ := exists_of_isFieldName hw
    rw [dropWhile_of_stops]
    · exact .name hw ht hb hc hf
    · rw [ht, hx, List.cons_append, stops_cons]
      exact Text.isSpace_of_isNameStart hstart
  | @label _ label _ trimmed first _ hl ht htrim hm hf =>
    have htext : cs.dropWhile Unicode.isSpace = label.dropWhile Unicode.isSpace ++ ':' :: rest := by
      obtain ⟨xs, hxs⟩ := Unicode.head_of_trim htrim
      rw [ht, List.dropWhile_append, if_neg (by simp [hxs])]
    exact .label (fun y hy => hl y ((List.dropWhile_suffix _).subset hy)) htext
      ((Unicode.trim_dropWhile label).trans htrim) hm hf

/-- A field starts with none of the signs of groups, and with no `;`. -/
theorem FieldToken.head (h : FieldToken fields naming cs rest field) :
    ∃ x xs, cs.dropWhile Unicode.isSpace = x :: xs ∧ x ∉ ['*', '&', '(', ')', ';'] := by
  cases h.dropWhile with
  | name hw ht hb hc hf =>
    obtain ⟨x, xs, hx, hstart, -⟩ := exists_of_isFieldName hw
    have hall : ∀ y ∈ ['*', '&', '(', ')', ';'], y ∈ '"' :: '&' :: ':' :: Text.reserved :=
      forall_mem_of_all (by decide)
    exact ⟨x, xs ++ _, by rw [ht, hx]; rfl, fun hm =>
      Text.ne_of_isNameStart hstart (hall x hm) rfl⟩
  | @label _ label _ trimmed first _ hl ht htrim hm hf =>
    obtain ⟨xs, hxs⟩ := Unicode.head_of_trim htrim
    have hlabel : label = first :: xs := by
      rw [← hxs]
      refine (dropWhile_of_stops fun y hy => stops_dropWhile Unicode.isSpace cs y ?_).symm
      rw [ht, List.head?_append, Option.mem_def.1 hy]
      rfl
    refine ⟨first, xs ++ ':' :: rest, by rw [ht, hlabel]; rfl, fun hm' => ?_⟩
    have hall : ∀ y ∈ ['*', '&', '(', ')', ';'], y = '&' ∨ Text.isLabelChar y = false :=
      forall_mem_of_all (by decide)
    rcases hall first hm' with he | he
    · exact hm he
    · rw [hl first (by simp [hlabel])] at he
      cases he

end Grammar

end Criteria
