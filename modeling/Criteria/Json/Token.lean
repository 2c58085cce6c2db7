import Criteria.Json.Number

/-!
# The tokens of JSON documents

## What is here

* `Json.Token`, `Json.Token.ofText?` — the tokens of a text.
* `Json.readText?` — the text behind an opening quote.  Escapes for the two halves of a surrogate
  pair stand for one character; a half without the other leaves the text without a value.
-/

set_option autoImplicit false

namespace Criteria
namespace Json

/-- A token of a document. -/
inductive Token where
  | openArray
  | closeArray
  | openObject
  | closeObject
  | comma
  | colon
  | string (s : Option String)
  | other (j : Json)

/-! ## Texts -/

/-- The character that a letter behind a backslash stands for. -/
def unescape? : Char → Option Char
  | '"' => some '"'
  | '\\' => some '\\'
  | '/' => some '/'
  | 'b' => some '\x08'
  | 'f' => some '\x0c'
  | 'n' => some '\n'
  | 'r' => some '\r'
  | 't' => some '\t'
  | _ => none

/-- The value of a hexadecimal digit. -/
def hexDigit? (c : Char) : Option Nat :=
  if c.isDigit then some (c.toNat - '0'.toNat)
  else if 'a' ≤ c && c ≤ 'f' then some (c.toNat - 'a'.toNat + 10)
  else if 'A' ≤ c && c ≤ 'F' then some (c.toNat - 'A'.toNat + 10)
  else none

/-- The value of four hexadecimal digits. -/
def hex? (a b c d : Char) : Option Nat := do
  return ((← hexDigit? a) * 16 + (← hexDigit? b)) * 256 + (← hexDigit? c) * 16 + (← hexDigit? d)

/-- A text being read: the characters so far, unless it has no value, and the first half of a
surrogate pair, if that was read last. -/
structure Partial where
  text : Option String := some ""
  half : Option Nat := none

namespace Partial

/-- Adds a character. -/
def push (p : Partial) (c : Char) : Partial :=
  match p with
  | ⟨text, none⟩ => ⟨text.map (·.push c), none⟩
  | ⟨_, some _⟩ => ⟨none, none⟩

/-- Adds a code unit, which may be half of a surrogate pair. -/
def pushUnit (p : Partial) (n : Nat) : Partial :=
  if 0xD800 ≤ n && n < 0xDC00 then
    match p with
    | ⟨text, none⟩ => ⟨text, some n⟩
    | ⟨_, some _⟩ => ⟨none, none⟩
  else if 0xDC00 ≤ n && n < 0xE000 then
    match p with
    | ⟨text, some m⟩ =>
      let c := Char.ofNat (0x10000 + (m - 0xD800) * 0x400 + (n - 0xDC00))
      ⟨text.map (·.push c), none⟩
    | ⟨_, none⟩ => ⟨none, none⟩
  else p.push (Char.ofNat n)

/-- The text, if it has a value. -/
def finish (p : Partial) : Option String :=
  if p.half.isSome then none else p.text

end Partial

/-- The text behind an opening quote, and what follows the closing quote. -/
def readText? (p : Partial) : List Char → Option (Option String × List Char)
  | [] => none
  | '"' :: cs => some (p.finish, cs)
  | '\\' :: 'u' :: a :: b :: c :: d :: cs =>
    match hex? a b c d with
    | some n => readText? (p.pushUnit n) cs
    | none => none
  | '\\' :: c :: cs =>
    match unescape? c with
    | some x => readText? (p.push x) cs
    | none => none
  | c :: cs => if c.toNat < 0x20 then none else readText? (p.push c) cs

theorem length_lt_of_readText? {p : Partial} {cs rest : List Char} {s : Option String}
    (h : readText? p cs = some (s, rest)) : rest.length < cs.length := by
  fun_induction readText? p cs with
  | case1 => cases h
  | case2 => cases h; simp
  | case3 p a b c d cs n _ ih => have := ih h; simp only [List.length_cons]; omega
  | case4 => cases h
  | case5 p c cs _ x _ ih => have := ih h; simp only [List.length_cons]; omega
  | case6 => cases h
  | case7 => cases h
  | case8 p c cs _ _ _ _ ih => have := ih h; simp only [List.length_cons]; omega

/-! ## Numbers -/

namespace Numeral

theorem length_dropWhile_le (p : Char → Bool) (cs : List Char) :
    (cs.dropWhile p).length ≤ cs.length :=
  (List.dropWhile_sublist p).length_le

theorem length_le_of_readFraction? {cs rest : List Char} {f : Option (List Char)}
    (h : readFraction? cs = some (f, rest)) : rest.length ≤ cs.length := by
  rw [readFraction?.eq_def] at h
  split at h
  · next cs =>
    dsimp only at h
    split at h
    · cases h
    · cases h
      have := length_dropWhile_le Char.isDigit cs
      simp only [List.length_cons]
      omega
  · cases h
    exact Nat.le_refl _

theorem length_readSign_le (cs : List Char) : (readSign cs).2.length ≤ cs.length := by
  rw [readSign.eq_def]
  split <;> simp

theorem length_le_of_readExponent? {cs rest : List Char} {e : Option Int}
    (h : readExponent? cs = some (e, rest)) : rest.length ≤ cs.length := by
  rw [readExponent?.eq_def] at h
  split at h
  · next c cs =>
    split at h
    · dsimp only at h
      split at h
      · cases h
      · cases h
        have h₁ := length_dropWhile_le Char.isDigit (readSign cs).2
        have h₂ := length_readSign_le cs
        simp only [List.length_cons]
        omega
    · cases h
      exact Nat.le_refl _
  · cases h
    exact Nat.le_refl _

theorem length_lt_of_readUnsigned? {negative : Bool} {cs rest : List Char} {n : Numeral}
    (h : readUnsigned? negative cs = some (n, rest)) : rest.length < cs.length := by
  rw [readUnsigned?] at h
  dsimp only at h
  split at h
  · cases h
  · next hw =>
    simp only [Option.bind_eq_bind, Option.bind_eq_some_iff] at h
    obtain ⟨⟨f, fs⟩, hf, ⟨e, es⟩, he, h⟩ := h
    obtain rfl : es = rest := congrArg Prod.snd (Option.some.inj h)
    have h₁ := length_le_of_readFraction? hf
    have h₂ := length_le_of_readExponent? he
    dsimp only at h₁ h₂
    have h₃ : cs.takeWhile Char.isDigit ≠ [] := fun e => by simp [e] at hw
    have h₄ := congrArg List.length (List.takeWhile_append_dropWhile (p := Char.isDigit) (l := cs))
    have h₅ := List.length_pos_iff.2 h₃
    rw [List.length_append] at h₄
    omega

theorem length_lt_of_read? {cs rest : List Char} {n : Numeral} (h : read? cs = some (n, rest)) :
    rest.length < cs.length := by
  rw [read?.eq_def] at h
  split at h
  · have := length_lt_of_readUnsigned? h
    simp only [List.length_cons]
    omega
  · exact length_lt_of_readUnsigned? h

end Numeral

/-! ## Tokens -/

namespace Token

/-- The tokens of a text, behind those already read, of which the last one comes first. -/
def collect (read : List Token) (cs : List Char) : Option (List Token) :=
  match cs with
  | [] => some read.reverse
  | ' ' :: cs | '\t' :: cs | '\n' :: cs | '\r' :: cs => collect read cs
  | '[' :: cs => collect (openArray :: read) cs
  | ']' :: cs => collect (closeArray :: read) cs
  | '\x7b' :: cs => collect (openObject :: read) cs
  | '\x7d' :: cs => collect (closeObject :: read) cs
  | ',' :: cs => collect (comma :: read) cs
  | ':' :: cs => collect (colon :: read) cs
  | 'n' :: 'u' :: 'l' :: 'l' :: cs => collect (other .null :: read) cs
  | 't' :: 'r' :: 'u' :: 'e' :: cs => collect (other (.bool true) :: read) cs
  | 'f' :: 'a' :: 'l' :: 's' :: 'e' :: cs => collect (other (.bool false) :: read) cs
  | '"' :: cs =>
    match _h : readText? {} cs with
    | some (s, rest) => collect (string s :: read) rest
    | none => none
  | c :: cs =>
    match _h : Numeral.read? (c :: cs) with
    | some (n, rest) => collect (other n.value :: read) rest
    | none => none
termination_by cs.length
decreasing_by
  all_goals simp only [List.length_cons]
  all_goals first
    | omega
    | exact Nat.lt_succ_of_lt (length_lt_of_readText? _h)
    | exact Numeral.length_lt_of_read? _h

/-- The tokens of a text. -/
def ofText? (s : String) : Option (List Token) :=
  collect [] s.toList

end Token
end Json
end Criteria
