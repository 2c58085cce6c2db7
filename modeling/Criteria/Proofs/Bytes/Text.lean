import Criteria.Proofs.Reading.Literal

/-!
# Texts measured in bytes

A place in a text can be given by the number of bytes of UTF-8 in front of it.  Not every number
gives one: a text can be cut only between two characters.

Where characters are taken off the front of a list, nothing can go wrong.  Where a text is cut at a
number of bytes, it can: the number may lie inside of a character or behind the end.  So `cut?` may
fail, and it does so exactly where cutting a string would.  Everything below is there to show that
the numbers which are computed while reading are never such.

Numbers of bytes are sums of the sizes of characters, so a property of a place is proved by naming
the characters in front of it.  The one exception is the end of a text in quotes, which is looked
for among the bytes themselves.  That this finds no byte inside of a character is a property of
UTF-8: the byte of a quote occurs in no other character.

## What is here

* `Bytes.cut?` — cuts a text behind a number of bytes, where that is possible;
  `Bytes.isSome_cut?_iff` says where it is.
* `Bytes.find?`, `Bytes.endAt` — the first character with a property, and the bytes in front of it.
* `Bytes.scanQuoted` — the end of a text in quotes, found byte by byte: `Bytes.scanQuoted_eq` says
  that it is the end found character by character.
* `Bytes.decode` — a text in quotes with its length in bytes and its first line break;
  `Bytes.decode_eq` relates it to `Quoted.split`.
-/

set_option autoImplicit false

namespace Criteria
namespace Bytes

open Cursor (utf8Length)

variable {cs front rest : List Char} {p : Char → Bool} {n : Nat}

/-! ## Sizes

The size of a text is that of its characters. -/

@[simp] theorem utf8Length_nil : utf8Length [] = 0 := rfl

@[simp] theorem utf8Length_cons (c : Char) (cs : List Char) :
    utf8Length (c :: cs) = c.utf8Size + utf8Length cs := rfl

@[simp] theorem utf8Length_append (cs ds : List Char) :
    utf8Length (cs ++ ds) = utf8Length cs + utf8Length ds := by
  induction cs with
  | nil => simp
  | cons c cs ih => simp [ih, Nat.add_assoc]

/-- The sizes of two parts of a text add up. -/
theorem utf8Length_take_add_drop (n : Nat) (cs : List Char) :
    utf8Length (cs.take n) + utf8Length (cs.drop n) = utf8Length cs := by
  rw [← utf8Length_append, List.take_append_drop]

/-- Every character has at least one byte. -/
theorem utf8Length_eq_zero_iff : utf8Length cs = 0 ↔ cs = [] := by
  cases cs with
  | nil => simp
  | cons c cs =>
    have hpos := c.utf8Size_pos
    simp only [utf8Length_cons, reduceCtorEq, iff_false]
    omega

theorem utf8ByteSize_ofList (cs : List Char) : (String.ofList cs).utf8ByteSize = utf8Length cs := by
  induction cs with
  | nil => simp
  | cons c cs ih =>
    have hsplit : String.ofList (c :: cs) = .singleton c ++ .ofList cs := by
      rw [← String.toList_inj]
      simp
    rw [hsplit, String.utf8ByteSize_append, String.utf8ByteSize_singleton, ih, utf8Length_cons]

/-- The size of a string is that of its characters. -/
theorem utf8Length_toList (s : String) : utf8Length s.toList = s.utf8ByteSize := by
  rw [← utf8ByteSize_ofList, String.ofList_toList]

/-! ## Cutting

To cut a text is to know a number of bytes; to know where it was cut is to know the characters in
front. -/

/-- The text in front of byte `n` and the text behind it.  There are none if a character reaches
across that place, or if the text is shorter. -/
def cut? : Nat → List Char → Option (List Char × List Char)
  | 0, cs => some ([], cs)
  | _ + 1, [] => none
  | n + 1, c :: cs =>
    if c.utf8Size ≤ n + 1 then
      (cut? (n + 1 - c.utf8Size) cs).map fun parts => (c :: parts.1, parts.2)
    else none

/-- A text is cut behind its first part, at the size of this part. -/
theorem cut?_append (front rest : List Char) :
    cut? (utf8Length front) (front ++ rest) = some (front, rest) := by
  induction front with
  | nil => rw [utf8Length_nil, List.nil_append, cut?]
  | cons c front ih =>
    have hpos := c.utf8Size_pos
    obtain ⟨k, hk⟩ : ∃ k, c.utf8Size + utf8Length front = k + 1 :=
      ⟨_, (Nat.succ_pred_eq_of_pos (by omega)).symm⟩
    rw [utf8Length_cons, hk, List.cons_append, cut?, if_pos (by omega), ← hk,
      Nat.add_sub_cancel_left, ih]
    rfl

/-- A text is cut behind any number of characters. -/
theorem cut?_take (n : Nat) (cs : List Char) :
    cut? (utf8Length (cs.take n)) cs = some (cs.take n, cs.drop n) := by
  have h := cut?_append (cs.take n) (cs.drop n)
  rwa [List.take_append_drop] at h

/-- What is cut off has the size that was asked for. -/
theorem cut?_eq_some_iff :
    cut? n cs = some (front, rest) ↔ cs = front ++ rest ∧ n = utf8Length front := by
  constructor
  · intro h
    fun_induction cut? n cs generalizing front with
    | case1 cs =>
      cases h
      exact ⟨rfl, rfl⟩
    | case2 => cases h
    | case3 n c cs hc ih =>
      obtain ⟨⟨front', rest'⟩, hcut, he⟩ := Option.map_eq_some_iff.1 h
      cases he
      obtain ⟨rfl, hn⟩ := ih hcut
      refine ⟨rfl, ?_⟩
      rw [utf8Length_cons, ← hn, Nat.add_sub_cancel' hc]
    | case4 => cases h
  · rintro ⟨rfl, rfl⟩
    exact cut?_append front rest

/-- A text can be cut at the places between its characters and at its ends, and nowhere else. -/
theorem isSome_cut?_iff (s : String) (n : Nat) :
    (cut? n s.toList).isSome = true ↔ String.Pos.Raw.IsValid s ⟨n⟩ := by
  rw [String.Pos.Raw.isValid_iff_exists_append, Option.isSome_iff_exists]
  constructor
  · rintro ⟨⟨front, rest⟩, h⟩
    obtain ⟨hs, rfl⟩ := cut?_eq_some_iff.1 h
    refine ⟨.ofList front, .ofList rest, ?_, ?_⟩
    · rw [← String.toList_inj, hs]
      simp
    · rw [← utf8ByteSize_ofList]
      rfl
  · rintro ⟨s₁, s₂, rfl, h⟩
    refine ⟨(s₁.toList, s₂.toList), cut?_eq_some_iff.2 ⟨String.toList_append, ?_⟩⟩
    rw [utf8Length_toList]
    exact congrArg String.Pos.Raw.byteIdx h

/-! ## Searching

A search counts the bytes that it goes over, so what it finds is told by the characters in front of
it. -/

/-- The first character with a property, and the bytes in front of it, counted from `n`. -/
def find? (p : Char → Bool) (n : Nat) : List Char → Option (Nat × Char)
  | [] => none
  | c :: cs => if p c then some (n, c) else find? p (n + c.utf8Size) cs

/-- The bytes in front of the first character with a property, or all bytes. -/
def endAt (p : Char → Bool) (cs : List Char) : Nat :=
  ((find? p 0 cs).map Prod.fst).getD (utf8Length cs)

/-- What is found is the first character with the property, behind the size of those in front of
it. -/
theorem find?_eq (p : Char → Bool) (n : Nat) (cs : List Char) :
    find? p n cs = (cs.find? p).map fun c => (n + utf8Length (cs.take (cs.findIdx p)), c) := by
  induction cs generalizing n with
  | nil => rfl
  | cons c cs ih =>
    rw [find?]
    split
    · next hc => simp [hc, List.findIdx_cons]
    · next hc => simp [hc, ih, List.findIdx_cons, Nat.add_assoc]

/-- Where it is found is told by the index of that character. -/
theorem map_fst_find?_eq (p : Char → Bool) (n : Nat) (cs : List Char) :
    (find? p n cs).map Prod.fst = (cs.findIdx? p).map fun i => n + utf8Length (cs.take i) := by
  induction cs generalizing n with
  | nil => rfl
  | cons c cs ih =>
    rw [find?, List.findIdx?_cons]
    split
    · rfl
    · rw [ih, Option.map_map]
      exact congrArg (Option.map · _) (funext fun i => Nat.add_assoc ..)

/-- A word ends behind the size of the characters that it has. -/
theorem endAt_eq (p : Char → Bool) (cs : List Char) :
    endAt p cs = utf8Length (cs.takeWhile fun c => !p c) := by
  have h : ∀ n, ((find? p n cs).map Prod.fst).getD (n + utf8Length cs) =
      n + utf8Length (cs.takeWhile fun c => !p c) := by
    induction cs with
    | nil => exact fun _ => rfl
    | cons c cs ih =>
      intro n
      rw [find?]
      split
      · next hc => simp [hc]
      · next hc => simp [hc, ← Nat.add_assoc, ih]
  rw [endAt, ← Nat.zero_add (utf8Length cs), h 0, Nat.zero_add]

/-! ## The end of a text in quotes, byte by byte

The bytes of a character are a block in those of the text.  A block with no quote is passed, and a
block which is a quote is looked at together with the next one. -/

/-- The bytes of a text. -/
def encode (cs : List Char) : List UInt8 :=
  cs.flatMap String.utf8EncodeChar

/-- The byte that stands for a quote. -/
def quote : UInt8 := 34

/-- The number of bytes up to and with the closing quote; `n` bytes have been counted already. -/
def closing? (n : Nat) : List UInt8 → Option Nat
  | [] => none
  | [b] => if b = quote then some (n + 1) else none
  | b :: b' :: bs =>
    if b = quote then
      if b' = quote then closing? (n + 2) bs else some (n + 1)
    else closing? (n + 1) (b' :: bs)

/-- A byte that is no quote is passed. -/
theorem closing?_cons_of_ne {b : UInt8} (hb : b ≠ quote) (n : Nat) (bs : List UInt8) :
    closing? n (b :: bs) = closing? (n + 1) bs := by
  cases bs with
  | nil => simp [closing?, hb]
  | cons b' bs => simp [closing?, hb]

/-- A block of bytes without a quote is passed. -/
theorem closing?_append {bs : List UInt8} (hbs : ∀ b ∈ bs, b ≠ quote) (n : Nat)
    (more : List UInt8) : closing? n (bs ++ more) = closing? (n + bs.length) more := by
  induction bs generalizing n with
  | nil => rfl
  | cons b bs ih =>
    rw [List.cons_append, closing?_cons_of_ne (hbs b (by simp)),
      ih fun x hx => hbs x (by simp [hx]), List.length_cons, Nat.add_assoc, Nat.add_comm 1]

/-- The byte of a quote is none of those of another character. -/
theorem ne_quote_of_mem_utf8EncodeChar {c : Char} (hc : c ≠ '"') {b : UInt8}
    (hb : b ∈ String.utf8EncodeChar c) : b ≠ quote := by
  rintro rfl
  have hofNat : ∀ n, quote = UInt8.ofNat n → n % 256 = 34 := fun n h =>
    (UInt8.toNat_ofNat' ▸ congrArg UInt8.toNat h).symm
  rw [String.utf8EncodeChar] at hb
  split at hb
  · next hsmall =>
    have hval := hofNat _ (List.mem_singleton.1 hb)
    refine hc (Char.ext (UInt32.toNat_inj.1 ?_))
    show c.val.toNat = 34
    omega
  · split at hb
    · simp only [List.mem_cons, List.not_mem_nil, or_false] at hb
      rcases hb with hb | hb <;> have hval := hofNat _ hb <;> omega
    · split at hb
      · simp only [List.mem_cons, List.not_mem_nil, or_false] at hb
        rcases hb with hb | hb | hb <;> have hval := hofNat _ hb <;> omega
      · simp only [List.mem_cons, List.not_mem_nil, or_false] at hb
        rcases hb with hb | hb | hb | hb <;> have hval := hofNat _ hb <;> omega

/-- A text that does not start with a quote does not start with its byte. -/
theorem head?_encode_ne_quote {c : Char} (hc : c ≠ '"') (cs : List Char) :
    (encode (c :: cs)).head? ≠ some quote := by
  intro h
  cases hb : String.utf8EncodeChar c with
  | nil =>
    have hlength := String.length_utf8EncodeChar c
    have hpos := c.utf8Size_pos
    rw [hb, List.length_nil] at hlength
    omega
  | cons b bs =>
    rw [encode, List.flatMap_cons, hb] at h
    exact ne_quote_of_mem_utf8EncodeChar hc (hb ▸ List.mem_cons_self) (Option.some.inj h)

/-- A quote with no other behind it is the closing one. -/
theorem closing?_quote {bs : List UInt8} (h : bs.head? ≠ some quote) (n : Nat) :
    closing? n (quote :: bs) = some (n + 1) := by
  cases bs with
  | nil => rfl
  | cons b bs =>
    have hb : b ≠ quote := by simpa using h
    rw [closing?, if_pos rfl, if_neg hb]

/-- The text behind the closing quote, which is found byte by byte, and then cut off. -/
def scanQuoted (cs : List Char) : Option (Option (List Char)) :=
  match closing? 0 (encode cs) with
  | none => some none
  | some n => (cut? n cs).map fun parts => some parts.2

/-- The closing quote is found among the bytes if it is found among the characters, behind the size
of those in front of it. -/
theorem closing?_encode (n : Nat) (cs : List Char) :
    match Text.Quoted.skip cs with
    | none => closing? n (encode cs) = none
    | some rest => ∃ front, cs = front ++ rest ∧
        closing? n (encode cs) = some (n + utf8Length front) := by
  fun_induction Text.Quoted.skip cs generalizing n with
  | case1 => rfl
  | case2 cs ih =>
    have hstep : closing? n (encode ('"' :: '"' :: cs)) = closing? (n + 2) (encode cs) := rfl
    have h := ih (n + 2)
    rw [hstep]
    split at h
    · exact h
    · obtain ⟨front, rfl, hclosing⟩ := h
      refine ⟨'"' :: '"' :: front, rfl, hclosing.trans ?_⟩
      rw [utf8Length_cons, utf8Length_cons, ← Nat.add_assoc, ← Nat.add_assoc]
      rfl
  | case3 cs hne =>
    -- the closing quote; the byte behind it is not that of a quote
    refine ⟨['"'], rfl, ?_⟩
    cases cs with
    | nil => rfl
    | cons c cs =>
      have hc : c ≠ '"' := fun h => hne cs (by rw [h])
      exact closing?_quote (head?_encode_ne_quote hc cs) n
  | case4 c cs _ hne ih =>
    -- no byte of another character is that of a quote
    have hstep : closing? n (encode (c :: cs)) = closing? (n + c.utf8Size) (encode cs) := by
      rw [encode, List.flatMap_cons,
        closing?_append fun b hb => ne_quote_of_mem_utf8EncodeChar hne hb,
        String.length_utf8EncodeChar]
      rfl
    have h := ih (n + c.utf8Size)
    rw [hstep]
    split at h
    · exact h
    · obtain ⟨front, rfl, hclosing⟩ := h
      exact ⟨c :: front, rfl, hclosing.trans (by rw [Nat.add_assoc]; rfl)⟩

/-- Byte by byte the same closing quote is found as character by character, and the text can be cut
behind it. -/
theorem scanQuoted_eq (cs : List Char) : scanQuoted cs = some (Text.Quoted.skip cs) := by
  have h := closing?_encode 0 cs
  rw [scanQuoted]
  cases hskip : Text.Quoted.skip cs with
  | none =>
    rw [hskip] at h
    rw [h]
  | some rest =>
    rw [hskip] at h
    obtain ⟨front, rfl, hclosing⟩ := h
    rw [hclosing, Nat.zero_add]
    dsimp only
    rw [cut?_append]
    rfl

/-! ## What a text in quotes stands for

Decoding goes over the text once, and remembers the first line break, if there is any, until the
closing quote has been found. -/

/-- The text that is written behind an opening quote, the place of its first line break, and the
number of bytes up to and with the closing quote; `n` bytes have been read already. -/
def decode (n : Nat) (text : String) (lineBreak : Option Nat) :
    List Char → Option (String × Option Nat × Nat)
  | [] => none
  | '"' :: '"' :: cs => decode (n + 2) (text.push '"') lineBreak cs
  | '"' :: _ => some (text, lineBreak, n + 1)
  | c :: cs =>
    decode (n + c.utf8Size) (text.push c)
      (lineBreak.or (if Text.isLineBreak c then some n else none)) cs

/-- Decoding finds the closing quote where cutting does; the text in front of it, and the first line
break in that, are told from what was cut off. -/
theorem decode_eq (n : Nat) (text : String) (lineBreak : Option Nat) (cs : List Char) :
    decode n text lineBreak cs = (Text.Quoted.split [] cs).map fun parts =>
      (Text.Quoted.undouble text parts.1,
        lineBreak.or ((find? Text.isLineBreak n parts.1).map Prod.fst),
        n + utf8Length parts.1 + 1) := by
  fun_induction decode n text lineBreak cs with
  | case1 => rfl
  | case2 n text lineBreak cs ih =>
    rw [ih, Text.Quoted.split, Text.Quoted.split_eq_map ['"', '"'], Option.map_map]
    refine congrArg (Option.map · _) (funext fun parts => ?_)
    have hbreak : Text.isLineBreak '"' = false := by decide
    have hsize : '"'.utf8Size = 1 := rfl
    simp [Text.Quoted.undouble, find?, hbreak, hsize]
    omega
  | case3 n text lineBreak cs hne => simp [Text.Quoted.split, Text.Quoted.undouble, find?]
  | case4 n text lineBreak c cs _ hne ih =>
    rw [ih, Text.Quoted.split_cons hne, Text.Quoted.split_eq_map [c], Option.map_map]
    refine congrArg (Option.map · _) (funext fun parts => ?_)
    have hor : ((lineBreak.or (if Text.isLineBreak c then some n else none)).or
        ((find? Text.isLineBreak (n + c.utf8Size) parts.1).map Prod.fst)) =
        lineBreak.or ((find? Text.isLineBreak n (c :: parts.1)).map Prod.fst) := by
      rw [find?, Option.or_assoc]
      split <;> rfl
    simp [Text.Quoted.undouble_cons hne, hor, Nat.add_assoc]

end Bytes
end Criteria
