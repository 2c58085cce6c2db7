import Criteria.Proofs.Writing.Literal
import Mathlib.Algebra.Group.Nat.Defs
import Mathlib.Algebra.Ring.Int.Defs

/-!
# Fields of whole numbers

A field of whole numbers takes an optional sign and decimal digits, with any white space around
them, as long as the number has 64 bits.  What it writes, it reads back, and it writes no text that
needs quotes.

What number a text stands for is defined here once more, and not by a function: digits have a value
place by place, a sign turns it round, and white space is no part of it.  The texts that a field
takes are then compared with those that stand for a number, and the limit of 64 bits is compared
with the number, so that no text in between can be taken for a wrong number or refused although its
number fits.

## What is here

* `Unicode.exists_append_trim`, `Unicode.trim_append` — trimming takes off the white space at the
  ends and nothing else.
* `Integer.Digits`, `Integer.Spells`, `Integer.Denotes` — which number a text stands for: digits, a
  sign in front of them, white space around both.
* `Integer.ofDigits?_eq_some_iff`, `Integer.toInt64?_eq_some_iff` — reading signs and digits gives
  that number, and the range of a word is all that limits it.
* `Integer.spells_digits` — the digits of a number stand for it.
* `Converter.integer_exact` — which texts a field of whole numbers takes, and as what.

Leading zeros and a plus sign are taken, so many texts stand for one number; only one of them is
written.  That it needs no quotes, at any place in a condition, follows from its characters.
-/

set_option autoImplicit false

namespace Criteria

open Grammar

/-! ## Trimming

Trimming is described by what it takes off, so that texts with white space around them can be put
together and taken apart. -/

namespace Unicode

variable {cs before behind : List Char}

/-- Trimming takes white space off at both ends. -/
theorem exists_append_trim (text : List Char) : ∃ before behind,
    text = before ++ trim text ++ behind ∧ (∀ c ∈ before, isSpace c = true) ∧
      ∀ c ∈ behind, isSpace c = true := by
  have hlast : text.dropWhile isSpace =
      trim text ++ ((text.dropWhile isSpace).reverse.takeWhile isSpace).reverse := by
    rw [trim, ← List.reverse_append, List.takeWhile_append_dropWhile, List.reverse_reverse]
  refine ⟨text.takeWhile isSpace, ((text.dropWhile isSpace).reverse.takeWhile isSpace).reverse, ?_,
    List.all_eq_true.1 List.all_takeWhile, fun c hc => ?_⟩
  · rw [List.append_assoc, ← hlast, List.takeWhile_append_dropWhile]
  · exact List.all_eq_true.1 List.all_takeWhile c (List.mem_reverse.1 hc)

/-- White space around a text that has none at its ends is taken off, and no more. -/
theorem trim_append (hbefore : ∀ c ∈ before, isSpace c = true)
    (hbehind : ∀ c ∈ behind, isSpace c = true) (hne : cs ≠ []) (hfirst : Stops isSpace cs)
    (hlast : Stops isSpace cs.reverse) : trim (before ++ cs ++ behind) = cs := by
  have hstart : Stops isSpace (cs ++ behind) := by
    obtain ⟨c, cs, rfl⟩ := List.exists_cons_of_ne_nil hne
    exact hfirst
  have hreverse : ∀ c ∈ behind.reverse, isSpace c = true := fun c hc =>
    hbehind c (List.mem_reverse.1 hc)
  rw [trim, List.append_assoc, List.dropWhile_append_of_pos hbefore, dropWhile_of_stops hstart,
    List.reverse_append, List.dropWhile_append_of_pos hreverse, dropWhile_of_stops hlast,
    List.reverse_reverse]

end Unicode

/-! ## Numbers in digits

The relations follow the text from the left, and the functions do so too, with an accumulator; core
Lean knows the value of digits in the form that connects the two. -/

namespace Integer

/-- Decimal digits, one or more of them, stand for a number: each counts the power of ten that
belongs to its place. -/
inductive Digits : List Char → Nat → Prop
  | last {d : Nat} (hd : d < 10) : Digits [d.digitChar] d
  | cons {d n : Nat} {cs : List Char} (hd : d < 10) (behind : Digits cs n) :
      Digits (d.digitChar :: cs) (d * 10 ^ cs.length + n)

/-- Decimal digits stand for a number, with a sign in front of them or without. -/
inductive Spells : List Char → Int → Prop
  | plain {cs : List Char} {n : Nat} (h : Digits cs n) : Spells cs n
  | plus {cs : List Char} {n : Nat} (h : Digits cs n) : Spells ('+' :: cs) n
  | minus {cs : List Char} {n : Nat} (h : Digits cs n) : Spells ('-' :: cs) (-n)

/-- A text stands for a number, white space around it aside. -/
inductive Denotes : List Char → Int → Prop
  | mk {before cs behind : List Char} {n : Int} (hbefore : ∀ c ∈ before, Unicode.isSpace c = true)
      (h : Spells cs n) (hbehind : ∀ c ∈ behind, Unicode.isSpace c = true) :
      Denotes (before ++ cs ++ behind) n

variable {cs : List Char} {n : Nat} {m : Int}

/-- A digit is the character of its value. -/
theorem exists_digitChar_of_isDigit {c : Char} (h : c.isDigit = true) :
    ∃ d < 10, c = d.digitChar := by
  have hbounds : 48 ≤ c.toNat ∧ c.toNat ≤ 57 := Char.isDigit_iff_toNat.1 h
  refine ⟨c.toNat - 48, by omega, Char.toNat_inj.1 ?_⟩
  rw [Nat.toNat_digitChar_of_lt_ten (by omega)]
  omega

theorem Digits.ne_nil (h : Digits cs n) : cs ≠ [] := by
  cases h <;> exact List.cons_ne_nil _ _

theorem Digits.isDigit (h : Digits cs n) : ∀ c ∈ cs, c.isDigit = true := by
  induction h with
  | last hd =>
    rw [List.forall_mem_singleton, Nat.isDigit_digitChar]
    exact decide_eq_true hd
  | cons hd _ ih =>
    rw [List.forall_mem_cons, Nat.isDigit_digitChar]
    exact ⟨decide_eq_true hd, ih⟩

/-- Reading digits from the left, the first one counts the power of ten of those behind it. -/
theorem ofDigitChars_digitChar_cons {d : Nat} (hd : d < 10) (cs : List Char) :
    Nat.ofDigitChars 10 (d.digitChar :: cs) 0 =
      d * 10 ^ cs.length + Nat.ofDigitChars 10 cs 0 := by
  rw [Nat.ofDigitChars_cons_digitChar_of_lt_ten hd, Nat.ofDigitChars_eq_ofDigitChars_zero,
    Nat.mul_zero, Nat.zero_add, Nat.mul_comm]

theorem Digits.ofDigitChars (h : Digits cs n) : Nat.ofDigitChars 10 cs 0 = n := by
  induction h with
  | last hd =>
    rw [ofDigitChars_digitChar_cons hd, Nat.ofDigitChars_nil, List.length_nil, Nat.pow_zero,
      Nat.mul_one, Nat.add_zero]
  | cons hd _ ih => rw [ofDigitChars_digitChar_cons hd, ih]

/-- Any digits stand for the number that is computed from them. -/
theorem digits_ofDigitChars (hne : cs ≠ []) (h : ∀ c ∈ cs, c.isDigit = true) :
    Digits cs (Nat.ofDigitChars 10 cs 0) := by
  induction cs with
  | nil => exact absurd rfl hne
  | cons c cs ih =>
    rw [List.forall_mem_cons] at h
    obtain ⟨d, hd, rfl⟩ := exists_digitChar_of_isDigit h.1
    rw [ofDigitChars_digitChar_cons hd]
    cases cs with
    | nil => simpa [Nat.ofDigitChars_nil] using Digits.last hd
    | cons c' cs => exact .cons hd (ih (List.cons_ne_nil _ _) h.2)

/-- Reading digits gives the number that they stand for. -/
theorem natural?_eq_some_iff : natural? cs = some n ↔ Digits cs n := by
  rw [natural?]
  constructor
  · intro h
    split at h
    · next hcs =>
      cases h
      rw [Bool.and_eq_true, Bool.not_eq_true', List.isEmpty_eq_false_iff, List.all_eq_true] at hcs
      exact digits_ofDigitChars hcs.1 hcs.2
    · cases h
  · intro h
    have hcs : (!cs.isEmpty && cs.all Char.isDigit) = true := by
      rw [Bool.and_eq_true, Bool.not_eq_true', List.isEmpty_eq_false_iff, List.all_eq_true]
      exact ⟨h.ne_nil, h.isDigit⟩
    rw [if_pos hcs, h.ofDigitChars]

/-- Digits do not start with a sign. -/
theorem Digits.ne_sign_cons (h : Digits cs n) {x : Char} (hx : x.isDigit = false)
    (ds : List Char) : cs ≠ x :: ds := by
  rintro rfl
  have := h.isDigit x List.mem_cons_self
  rw [hx] at this
  cases this

/-- Reading a sign and digits gives the number that they spell. -/
theorem ofDigits?_eq_some_iff : ofDigits? cs = some m ↔ Spells cs m := by
  constructor
  · intro h
    rw [ofDigits?.eq_def] at h
    split at h
    all_goals
      obtain ⟨k, hk, rfl⟩ := Option.map_eq_some_iff.1 h
      obtain ⟨n, hn, hcast⟩ := Option.bind_eq_some_iff.1 hk
      cases hcast
      rw [natural?_eq_some_iff] at hn
    · exact .minus hn
    · exact .plus hn
    · exact .plain hn
  · intro h
    cases h with
    | plain h =>
      rw [ofDigits?, natural?_eq_some_iff.2 h]
      · rfl
      · exact h.ne_sign_cons rfl
      · exact h.ne_sign_cons rfl
    | plus h => rw [ofDigits?, natural?_eq_some_iff.2 h]; rfl
    | minus h => rw [ofDigits?, natural?_eq_some_iff.2 h]; rfl

theorem Spells.ne_nil (h : Spells cs m) : cs ≠ [] := by
  cases h with
  | plain h => exact h.ne_nil
  | plus _ | minus _ => exact List.cons_ne_nil _ _

/-- Digits and signs need no quotes. -/
theorem Spells.isPlain (h : Spells cs m) : ∀ c ∈ cs, isPlain c = true := by
  have hdigit : ∀ c : Char, c.isDigit = true → Grammar.isPlain c = true := fun c hc => by
    obtain ⟨d, hd, rfl⟩ := exists_digitChar_of_isDigit hc
    have hall : ∀ d < 10, Grammar.isPlain (Nat.digitChar d) = true := by decide
    exact hall d hd
  cases h with
  | plain h => exact fun c hc => hdigit c (h.isDigit c hc)
  | plus h | minus h =>
    rw [List.forall_mem_cons]
    exact ⟨by decide, fun c hc => hdigit c (h.isDigit c hc)⟩

/-- A text is read as the number for which it stands. -/
theorem denotes_iff_spells_trim : Denotes cs m ↔ Spells (Unicode.trim cs) m := by
  constructor
  · rintro ⟨hbefore, h, hbehind⟩
    have hspace : ∀ c ∈ _, Unicode.isSpace c = false := fun c hc =>
      (Text.isPlain_iff.1 (h.isPlain c hc)).1
    rwa [Unicode.trim_append hbefore hbehind h.ne_nil
      (fun c hc => hspace c (List.mem_of_mem_head? hc))
      fun c hc => hspace c (List.mem_reverse.1 (List.mem_of_mem_head? hc))]
  · intro h
    obtain ⟨before, behind, htext, hbefore, hbehind⟩ := Unicode.exists_append_trim cs
    rw [htext]
    exact .mk hbefore h hbehind

/-- A number that is spelled out without white space is denoted. -/
theorem Spells.denotes (h : Spells cs m) : Denotes cs m := by
  have hdenotes := @Denotes.mk [] cs [] m (by simp) h (by simp)
  rwa [List.nil_append, List.append_nil] at hdenotes

/-- A number is taken as a word if it is the value of one. -/
theorem toInt64?_eq_some_iff {w : Int64} : toInt64? m = some w ↔ w.toInt = m := by
  rw [toInt64?]
  constructor
  · intro h
    split at h
    · next hm =>
      cases h
      rw [Int64.toInt_maxValue] at hm
      exact Int64.toInt_ofInt_of_le hm.1 (by omega)
    · cases h
  · rintro rfl
    rw [if_pos ⟨Int64.minValue_le_toInt w, Int64.toInt_le w⟩, Int64.ofInt_toInt]

/-! ### Writing numbers

The decimal digits of a number spell it. -/

/-- The decimal digits of a natural number stand for it. -/
theorem digits_toDigits (n : Nat) : Digits (Nat.toDigits 10 n) n := by
  have h := digits_ofDigitChars (Nat.toDigits_ne_nil (n := n) (b := 10)) fun c hc =>
    Nat.isDigit_of_mem_toDigits (by decide) (by decide) hc
  rwa [Nat.ofDigitChars_ten_toDigits] at h

/-- The digits of a number, behind its sign, stand for it. -/
theorem spells_digits (m : Int) : Spells (digits m) m := by
  rw [digits]
  split
  · next hm =>
    have h := Spells.minus (digits_toDigits m.natAbs)
    rwa [Int.ofNat_natAbs_of_nonpos (Int.le_of_lt hm), Int.neg_neg] at h
  · next hm =>
    have h := Spells.plain (digits_toDigits m.natAbs)
    rwa [Int.natAbs_of_nonneg (Int.not_lt.1 hm)] at h

end Integer

/-! ## The field

The three parts are put together: white space, sign and digits, range. -/

namespace Converter

/-- A text is taken as a value if it stands for the number of this value. -/
theorem readInteger_eq_ok_iff {s : String} {v : Value} :
    integer.read s = .ok v ↔ ∃ n : Int64, v = .integer n ∧ Integer.Denotes s.toList n.toInt := by
  have hread (n : Int64) : (Integer.ofDigits? (Unicode.trim s.toList)).bind Integer.toInt64? =
      some n ↔ Integer.Denotes s.toList n.toInt := by
    rw [Option.bind_eq_some_iff, Integer.denotes_iff_spells_trim]
    simp only [Integer.toInt64?_eq_some_iff, Integer.ofDigits?_eq_some_iff]
    constructor
    · rintro ⟨m, h, rfl⟩
      exact h
    · exact fun h => ⟨_, h, rfl⟩
  show readInteger s = .ok v ↔ _
  rw [readInteger]
  split
  · next n hn =>
    -- a text denotes one number at most, since it is read as one
    have hdenotes (m : Int64) : Integer.Denotes s.toList m.toInt ↔ n = m := by
      rw [← hread, hn, Option.some_inj]
    constructor
    · intro h
      cases h
      exact ⟨n, rfl, (hdenotes n).2 rfl⟩
    · rintro ⟨m, rfl, hm⟩
      rw [(hdenotes m).1 hm]
  · next hn =>
    refine iff_of_false (fun h => nomatch h) ?_
    rintro ⟨m, -, hm⟩
    rw [← hread, hn] at hm
    cases hm

/-- Only the range of a word limits the numbers that are taken. -/
theorem exists_readInteger_iff {s : String} : (∃ v, integer.read s = .ok v) ↔
    ∃ m : Int, Integer.Denotes s.toList m ∧ -2 ^ 63 ≤ m ∧ m ≤ 2 ^ 63 - 1 := by
  simp only [readInteger_eq_ok_iff]
  constructor
  · rintro ⟨_, n, rfl, h⟩
    have hle := n.le_toInt
    have hlt := n.toInt_lt
    exact ⟨n.toInt, h, hle, by omega⟩
  · rintro ⟨m, h, hle, hlt⟩
    have hm : (Int64.ofInt m).toInt = m := Int64.toInt_ofInt_of_le hle (by omega)
    exact ⟨_, .ofInt m, rfl, hm.symm ▸ h⟩

theorem toList_write_integer (n : Int64) :
    (integer.write (.integer n)).toList = Integer.digits n.toInt :=
  String.toList_ofList

/-- **A field of whole numbers takes the numbers of 64 bits, and keeps them.**  It takes a text just
if this is an optional sign and one or more decimal digits, with any white space around them, and
the number for which they stand lies in the range of 64 bits; then the value is that number.  The
text that is written for a value is read as this value, and stands in a condition without quotes. -/
theorem integer_exact :
    (∀ s v, integer.read s = .ok v ↔
      ∃ n : Int64, v = .integer n ∧ Integer.Denotes s.toList n.toInt) ∧
    (∀ s, (∃ v, integer.read s = .ok v) ↔
      ∃ m : Int, Integer.Denotes s.toList m ∧ -2 ^ 63 ≤ m ∧ m ≤ 2 ^ 63 - 1) ∧
    ∀ n : Int64, integer.read (integer.write (.integer n)) = .ok (.integer n) ∧
      Literal.write (integer.write (.integer n)) = integer.write (.integer n) := by
  refine ⟨fun s v => readInteger_eq_ok_iff, fun s => exists_readInteger_iff, fun n => ?_⟩
  have hspells := Integer.spells_digits n.toInt
  rw [← toList_write_integer] at hspells
  constructor
  · exact readInteger_eq_ok_iff.2 ⟨n, rfl, hspells.denotes⟩
  · rw [Literal.write_eq_self_iff, Literal.isQuoted_eq_false_iff]
    exact ⟨hspells.ne_nil, hspells.isPlain⟩

/-- The least number, with more digits than it needs. -/
example : integer.read "\t-009223372036854775808 " = .ok (.integer Int64.minValue) := by rfl

/-- The greatest number is one less than the least one without its sign. -/
example : integer.read "9223372036854775808" =
    .error "\"9223372036854775808\" is not a valid integer" := by rfl

end Converter

end Criteria
