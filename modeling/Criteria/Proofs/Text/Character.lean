import Criteria.Proofs.Grammar

/-!
# How the classes of characters lie to each other

The readers ask about one class of characters at a time, and the grammar about others.  What both
need is how the classes lie to each other: which of them are white space, which of them are
disjoint, and which signs belong to none.  The classes of letters, digits and white space are tables
of ranges, so nothing here is tried on all characters: either the ranges are compared with each
other, or a property is tested on the few signs of the grammar.

## What is here

* `forall_mem_of_all` — a property of a few characters, which can be tested.
* `isSpace_of_isBlank`, `isSpace_of_isGap`, `isSpace_of_isLineBreak` — the narrow sorts of white
  space are white space.
* `isPlain_iff`, `endsLiteral_of_isPlain` — the characters of a text without quotes.
* `isSpace_of_isNameStart`, `ne_of_isNameStart` — a name starts neither with white space nor with a
  sign of the grammar.
-/

set_option autoImplicit false

namespace Criteria

/-- A property of a few characters is tested on these, and not on all characters. -/
theorem forall_mem_of_all {p : Char → Prop} [DecidablePred p] {cs : List Char}
    (h : (cs.all fun c => decide (p c)) = true) : ∀ c ∈ cs, p c :=
  fun c hc => of_decide_eq_true (List.all_eq_true.1 h c hc)

/-- Two tables of which no range meets one of the other have no character in common; whether any
meet is a test on the tables. -/
theorem Unicode.inRanges_eq_false_of_disjoint {rs ss : List (Nat × Nat)} {c : Char}
    (h : (rs.all fun r => ss.all fun s => decide (r.2 < s.1) || decide (s.2 < r.1)) = true)
    (hc : inRanges rs c = true) : inRanges ss c = false := by
  obtain ⟨r, hr, hl, hu⟩ := inRanges_iff.1 hc
  rw [Bool.eq_false_iff]
  intro hs
  obtain ⟨s, hs, hl', hu'⟩ := inRanges_iff.1 hs
  have hd := List.all_eq_true.1 (List.all_eq_true.1 h r hr) s hs
  simp only [Bool.or_eq_true, decide_eq_true_eq] at hd
  omega

namespace Text

variable {c : Char}

/-! ## White space

Three classes of characters are skipped in different places, and each is part of what the language
calls white space. -/

theorem isSpace_of_isBlank (h : isBlank c = true) : Unicode.isSpace c = true := by
  simp only [isBlank, Bool.or_eq_true, beq_iff_eq] at h
  rcases h with rfl | rfl <;> decide

theorem isSpace_of_isGap (h : isGap c = true) : Unicode.isSpace c = true := by
  simp only [isGap, Bool.or_eq_true, beq_iff_eq] at h
  rcases h with ((rfl | rfl) | rfl) | rfl <;> decide

theorem isSpace_of_isLineBreak (h : isLineBreak c = true) : Unicode.isSpace c = true := by
  simp only [isLineBreak, Bool.or_eq_true, beq_iff_eq] at h
  rcases h with rfl | rfl <;> decide

/-! ## Texts without quotes

A text without quotes goes on to the first character that ends it.  That may be one more near the
bounds of a range, where a bracket ends it too; the characters that the grammar calls plain end it
nowhere. -/

/-- A plain character is neither white space nor a quote nor a sign of the grammar. -/
theorem isPlain_iff : Grammar.isPlain c = true ↔
    Unicode.isSpace c = false ∧ c ≠ '"' ∧ isReserved c = false := by
  simp [Grammar.isPlain, needsQuotes]

/-- The characters at which reading stops, next to a range or elsewhere. -/
theorem endsLiteral_iff {bound : Bool} : endsLiteral bound c = true ↔
    Unicode.isSpace c = true ∨ c ∈ [',', ';', ')', '~'] ∨ (bound = true ∧ c ∈ ['[', ']']) := by
  simp only [endsLiteral, Bool.or_eq_true, Bool.and_eq_true, beq_iff_eq, List.mem_cons,
    List.not_mem_nil, or_false]
  grind

/-- A plain character is never where reading stops. -/
theorem endsLiteral_of_isPlain (bound : Bool) (h : Grammar.isPlain c = true) :
    endsLiteral bound c = false := by
  obtain ⟨hs, -, hr⟩ := isPlain_iff.1 h
  rw [Bool.eq_false_iff]
  intro he
  rcases endsLiteral_iff.1 he with hs' | hm | ⟨-, hm⟩
  · rw [hs] at hs'
    cases hs'
  · have hall : ∀ x ∈ [',', ';', ')', '~'], isReserved x = true := forall_mem_of_all rfl
    rw [hall c hm] at hr
    cases hr
  · have hall : ∀ x ∈ ['[', ']'], isReserved x = true := forall_mem_of_all rfl
    rw [hall c hm] at hr
    cases hr

/-! ## Names and labels

The first character of a name tells it from everything else that may stand in the same place. -/

theorem isSpace_of_isNameStart (h : isNameStart c = true) : Unicode.isSpace c = false := by
  simp only [isNameStart, Bool.or_eq_true, beq_iff_eq] at h
  rcases h with h | rfl
  · exact Unicode.inRanges_eq_false_of_disjoint (by decide +kernel) h
  · decide

theorem isNameChar_of_isNameStart (h : isNameStart c = true) : isNameChar c = true := by
  rw [isNameStart, Bool.or_eq_true] at h
  rcases h with h | h <;> simp [isNameChar, h]

/-- A blank ends a name. -/
theorem isNameChar_of_isBlank (h : isBlank c = true) : isNameChar c = false := by
  have hall : ∀ x ∈ [' ', '\t'], isNameChar x = false := forall_mem_of_all (by decide +kernel)
  rw [isBlank, Bool.or_eq_true, beq_iff_eq, beq_iff_eq] at h
  exact hall c (by simpa using h)

/-- A name starts with none of the signs of the grammar. -/
theorem ne_of_isNameStart {x : Char} (h : isNameStart c = true)
    (hx : x ∈ '"' :: '&' :: ':' :: reserved) : c ≠ x := by
  rintro rfl
  have hall : ∀ x ∈ '"' :: '&' :: ':' :: reserved, isNameStart x = false :=
    forall_mem_of_all (by decide +kernel)
  rw [hall c hx] at h
  cases h

end Text
end Criteria
