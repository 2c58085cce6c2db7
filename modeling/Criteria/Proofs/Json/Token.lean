import Criteria.Json.Token
import Criteria.Proofs.Grammar.Run

/-!
# Texts and numbers in documents, written and read

A text and a whole number of 64 bits are read from what is written of them, each as one token.

A token is written without looking at what follows, and read until it ends.  A text ends at its
quote, so there is nothing to say about what follows it.  A number ends where the text does not go
on with a digit, a point or an exponent, and this has to be known; in a document it is so, because a
comma, a bracket or the end follows.

## What is here

* `Json.readText?_escape`, `Json.readText?_flatMap_escape` — a character, and a text, is read where
  it is written.
* `Json.Numeral.EndsNumber` — the text goes on in a way that ends a number in front of it.
* `Json.Numeral.exists_read?_digits` — a whole number is read where it is written.
* `Json.Token.collect_text`, `Json.Token.collect_whole` — the tokens.
-/

set_option autoImplicit false

namespace Criteria
namespace Json

open Grammar (Stops stops_cons stops_nil takeWhile_append_of_stops dropWhile_of_stops)

variable {cs rest : List Char}

/-! ## Texts

Each character is written as itself or as an escape, and read back from either.  A character beyond
the first 65536 is written as itself, too, so that no pair of escapes occurs. -/

/-- The escape of a control character tells its number. -/
theorem hex?_digitChar : ∀ n < 32,
    hex? '0' '0' (Nat.digitChar (n / 16)) (Nat.digitChar (n % 16)) = some n := by
  decide

/-- The code unit of a control character is not half of a surrogate pair. -/
theorem pushUnit_toNat {c : Char} (h : c.toNat < 32) (p : Partial) :
    p.pushUnit c.toNat = p.push c := by
  rw [Partial.pushUnit.eq_def, if_neg, if_neg, Char.ofNat_toNat]
  · simp only [Bool.and_eq_true, decide_eq_true_eq]
    omega
  · simp only [Bool.and_eq_true, decide_eq_true_eq]
    omega

/-- A character is read where it is written. -/
theorem readText?_escape (p : Partial) (c : Char) (cs : List Char) :
    readText? p (escape c ++ cs) = readText? (p.push c) cs := by
  rw [escape]
  -- seven characters have an escape of their own
  iterate 7
    split
    · next h =>
      subst h
      rfl
  split
  · next h =>
    simp only [List.cons_append, List.nil_append]
    rw [readText?, hex?_digitChar _ h]
    exact congrArg (readText? · cs) (pushUnit_toNat h p)
  · next hquote hslash _ _ _ _ _ h =>
    rw [List.singleton_append, readText?, if_neg h]
    · exact hquote
    · rintro _ _ _ _ _ rfl
      exact absurd rfl hslash
    · rintro _ _ rfl
      exact absurd rfl hslash

/-- A text is read where it is written. -/
theorem readText?_flatMap_escape (text : String) (cs rest : List Char) :
    readText? ⟨some text, none⟩ (cs.flatMap escape ++ '"' :: rest) =
      some (some (text ++ .ofList cs), rest) := by
  induction cs generalizing text with
  | nil =>
    rw [List.flatMap_nil, List.nil_append, readText?, String.ofList_nil, String.append_empty]
    rfl
  | cons c cs ih =>
    rw [List.flatMap_cons, List.append_assoc, readText?_escape, Partial.push, Option.map_some, ih,
      String.ofList_cons, String.push_eq_append, String.append_assoc]

/-! ## Numbers

A number is read as a list of digits, and then made into a value.  Its digits are the decimal ones
of core Lean, so what they stand for is known; that all of them fit is where the 64 bits matter. -/

namespace Numeral

/-- The text goes on in a way that ends a number in front of it. -/
def EndsNumber (rest : List Char) : Prop :=
  Stops (fun c => c.isDigit || c == '.' || c == 'e' || c == 'E') rest

/-- A number that ends has no fraction. -/
theorem readFraction?_of_ends (h : EndsNumber rest) : readFraction? rest = some (none, rest) := by
  rw [readFraction?]
  rintro cs rfl
  simp [EndsNumber] at h

/-- A number that ends has no exponent. -/
theorem readExponent?_of_ends (h : EndsNumber rest) : readExponent? rest = some (none, rest) := by
  cases rest with
  | nil => rfl
  | cons c cs =>
    rw [readExponent?, if_neg]
    intro he
    rw [Bool.or_eq_true, decide_eq_true_eq, decide_eq_true_eq] at he
    rcases he with rfl | rfl <;> simp [EndsNumber] at h

/-- The first digit of a number is zero only if the number is. -/
theorem exists_toDigits_eq_cons (n : Nat) : ∃ d ds, Nat.toDigits 10 n = d :: ds ∧
    d.isDigit = true ∧ (d = '0' → n = 0) := by
  induction n using Nat.strongRecOn with
  | ind n ih =>
    by_cases hn : n < 10
    · have hall : ∀ n < 10, (Nat.digitChar n).isDigit = true ∧
          (Nat.digitChar n = '0' → n = 0) := by decide
      exact ⟨_, [], Nat.toDigits_of_lt_base hn, hall n hn⟩
    · have hle : 10 ≤ n := Nat.le_of_not_lt hn
      obtain ⟨d, ds, hds, hdigit, hzero⟩ := ih (n / 10) (by omega)
      refine ⟨d, ds ++ [(n % 10).digitChar], ?_, hdigit, fun hd => ?_⟩
      · rw [Nat.toDigits_of_base_le (by decide) hle, hds, List.cons_append]
      · have := hzero hd
        omega

/-- The digits of a number are taken off a text that goes on in another way. -/
theorem readUnsigned?_toDigits (negative : Bool) (n : Nat) (h : EndsNumber rest) :
    readUnsigned? negative (Nat.toDigits 10 n ++ rest) =
      some (⟨negative, Nat.toDigits 10 n, none, none⟩, rest) := by
  have hdigits : ∀ c ∈ Nat.toDigits 10 n, c.isDigit = true := fun c hc =>
    Nat.isDigit_of_mem_toDigits (by decide) (by decide) hc
  have hstops : Stops Char.isDigit rest := Grammar.Stops.mono (by simp +contextual) h
  have hzero : ¬((Nat.toDigits 10 n).isEmpty ||
      ((Nat.toDigits 10 n).head? == some '0' && (Nat.toDigits 10 n).length != 1)) = true := by
    obtain ⟨d, ds, hds, -, hzero⟩ := exists_toDigits_eq_cons n
    by_cases hd : d = '0'
    · rw [hzero hd]
      decide
    · simp [hds, hd]
  rw [readUnsigned?, takeWhile_append_of_stops hdigits hstops, if_neg hzero,
    List.dropWhile_append_of_pos hdigits, dropWhile_of_stops hstops, readFraction?_of_ends h]
  simp only [Option.bind_eq_bind, Option.bind_some, readExponent?_of_ends h]

theorem le_ofDigitChars (ds : List Char) (n : Nat) : n ≤ Nat.ofDigitChars 10 ds n := by
  induction ds generalizing n with
  | nil => exact Nat.le_refl n
  | cons d ds ih =>
    rw [Nat.ofDigitChars_cons]
    have := ih (10 * n + (d.toNat - '0'.toNat))
    omega

/-- Digits of a number of 64 bits fit, all of them. -/
theorem fit_of_lt {ds : List Char} {n : Nat} (h : Nat.ofDigitChars 10 ds n < Nat.pow 2 64) :
    fit n ds = (Nat.ofDigitChars 10 ds n, []) := by
  induction ds generalizing n with
  | nil => rfl
  | cons d ds ih =>
    rw [Nat.ofDigitChars_cons] at h ⊢
    rw [fit, if_pos (Nat.lt_of_le_of_lt (le_ofDigitChars ..) h), ih h]

/-- The digits of a number of 64 bits give the number. -/
theorem fit_toDigits {n : Nat} (h : n < Nat.pow 2 64) : fit 0 (Nat.toDigits 10 n) = (n, []) := by
  have hn : Nat.ofDigitChars 10 (Nat.toDigits 10 n) 0 = n := Nat.ofDigitChars_ten_toDigits
  rw [fit_of_lt (by rwa [hn]), hn]

/-- The digits of a number of 64 bits stand for a whole number. -/
theorem value_toDigits {n : Nat} (h : n < Nat.pow 2 64) :
    value ⟨false, Nat.toDigits 10 n, none, none⟩ = .whole n := by
  rw [value, fit_toDigits h]
  rfl

/-- Digits with a sign in front stand for the negative number. -/
theorem value_neg_toDigits {n : Nat} (h : n ≤ Nat.pow 2 63) (hn : 0 < n) :
    value ⟨true, Nat.toDigits 10 n, none, none⟩ = .whole (-n) := by
  have hlt : n < Nat.pow 2 64 := Nat.lt_of_le_of_lt h (by decide)
  rw [value, fit_toDigits hlt]
  simp [hn, h]

theorem ne_minus_of_isDigit {c : Char} (h : c.isDigit = true) : c ≠ '-' := by
  rintro rfl
  cases h

/-- A whole number is read where it is written. -/
theorem exists_read?_digits {n : Int} (hl : Int64.minValue.toInt ≤ n) (hu : n < UInt64.size)
    (h : EndsNumber rest) : ∃ m, read? (Integer.digits n ++ rest) = some (m, rest) ∧
      m.value = .whole n := by
  have hmin : Int64.minValue.toInt = -9223372036854775808 := by decide
  have hsize : UInt64.size = 18446744073709551616 := rfl
  rw [Integer.digits]
  split
  · next hn =>
    have hle : n.natAbs ≤ Nat.pow 2 63 := by
      change _ ≤ 9223372036854775808
      omega
    have hvalue := value_neg_toDigits hle (by omega)
    rw [Int.ofNat_natAbs_of_nonpos (Int.le_of_lt hn), Int.neg_neg] at hvalue
    exact ⟨_, readUnsigned?_toDigits true n.natAbs h, hvalue⟩
  · next hn =>
    have hlt : n.natAbs < Nat.pow 2 64 := by
      change _ < UInt64.size
      omega
    have hvalue := value_toDigits hlt
    rw [Int.natAbs_of_nonneg (Int.not_lt.1 hn)] at hvalue
    refine ⟨_, ?_, hvalue⟩
    rw [read?]
    · exact readUnsigned?_toDigits false n.natAbs h
    · -- the text would start with a sign
      intro cs hcs
      obtain ⟨d, ds, hds, hdigit, -⟩ := exists_toDigits_eq_cons n.natAbs
      rw [hds] at hcs
      exact ne_minus_of_isDigit hdigit (List.cons.inj hcs).1

/-- A whole number is written with a digit or a sign in front. -/
theorem exists_digits_eq_cons (n : Int) : ∃ d ds, Integer.digits n = d :: ds ∧
    (d.isDigit = true ∨ d = '-') := by
  rw [Integer.digits]
  split
  · exact ⟨'-', _, rfl, .inr rfl⟩
  · obtain ⟨d, ds, hds, hdigit, -⟩ := exists_toDigits_eq_cons n.natAbs
    exact ⟨d, ds, hds, .inl hdigit⟩

end Numeral

/-! ## Tokens -/

namespace Token

variable {read : List Token}

/-- A text is one token. -/
theorem collect_text (read : List Token) (s : String) (rest : List Char) :
    collect read ((renderText s).toList ++ rest) = collect (string (some s) :: read) rest := by
  have htext : (renderText s).toList ++ rest =
      '"' :: (s.toList.flatMap escape ++ '"' :: rest) := by
    simp [renderText]
  have hread : readText? {} (s.toList.flatMap escape ++ '"' :: rest) = some (some s, rest) := by
    have h := readText?_flatMap_escape "" s.toList rest
    rwa [String.empty_append, String.ofList_toList] at h
  rw [htext, collect]
  split
  · next s' rest' h =>
    cases hread.symm.trans h
    rfl
  · next h => cases hread.symm.trans h

/-- A whole number is one token. -/
theorem collect_whole (read : List Token) {n : Int} (hl : Int64.minValue.toInt ≤ n)
    (hu : n < UInt64.size) (h : Numeral.EndsNumber rest) :
    collect read (Integer.digits n ++ rest) = collect (other (.whole n) :: read) rest := by
  obtain ⟨m, hread, hm⟩ := Numeral.exists_read?_digits hl hu h
  obtain ⟨d, ds, hds, hd⟩ := Numeral.exists_digits_eq_cons n
  rw [hds, List.cons_append] at hread ⊢
  rw [collect]
  · split
    · next n' rest' h =>
      cases hread.symm.trans h
      rw [hm]
    · next h => cases hread.symm.trans h
  -- no other token starts with a digit or a sign
  all_goals
    intros
    subst d
    exact absurd hd (by decide)

end Token

end Json
end Criteria
