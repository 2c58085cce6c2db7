import Criteria.Proofs.Grammar.Run
import Criteria.Proofs.Text.Character
import Criteria.Text.Literal

/-!
# Reading texts

`Literal.read` reads what `LiteralText` describes.  The grammar does not say how far a text without
quotes goes, so the converse needs to know what follows the text.

A text in quotes is closed by the first quote that is not doubled, and everything about such texts
comes down to this quote.  It is found in two ways, by skipping and by cutting, of which only the
latter keeps what is in between; and it is characterised without either of them, as the quote behind
a text in which every quote is doubled.  The lemmas about `double` lead from the one to the other.

## What is here

* `Quoted.split_double`, `Quoted.exists_of_split`, `Quoted.skip_double`, `Quoted.undouble_double` —
  cutting a text at its closing quote finds exactly the bodies in which every quote is doubled.
* `Quoted.split_eq_map` — what was read before the cut stands in front of it.
* `Quoted.skip_eq_map_split` — skipping a text in quotes and cutting it end at the same quote.
* `Literal.QuotedRead`, `Literal.quotedRead` — how reading a text in quotes ends.
* `Literal.literalText_of_read` — what is read is a text of the grammar.
* `Literal.read_of_literalText` — a text of the grammar is read, if the text behind it ends it.

Reading a text in quotes has three outcomes.  They are the constructors of `QuotedRead`, each with
all that is known about the text then, so that whoever needs to know how such a reading ends takes
cases on `quotedRead` and does not open the reader.
-/

set_option autoImplicit false

namespace Criteria

open Grammar

/-! ## Quotes

A doubled quote is one of the text.  Writing a text doubles its quotes, and reading it back takes
every second one away; in between, the length of the text does not matter, so all of this is by
induction on it. -/

namespace Text
namespace Quoted

@[simp] theorem double_nil : double [] = [] := rfl

@[simp] theorem double_quote (s : List Char) : double ('"' :: s) = '"' :: '"' :: double s := rfl

/-- Any other character is written once. -/
theorem double_cons {c : Char} (hc : c ≠ '"') (s : List Char) :
    double (c :: s) = c :: double s := by
  simp [double, hc]

/-- Doubling quotes adds no other characters. -/
@[simp] theorem mem_double {c : Char} {s : List Char} : c ∈ double s ↔ c ∈ s := by
  induction s with
  | nil => simp
  | cons d s ih =>
    by_cases hd : d = '"'
    · subst hd
      simp [ih]
    · simp [double_cons hd, ih]

/-- A body in which every quote is doubled goes up to the first quote that is not. -/
theorem split_double (read s : List Char) {rest : List Char} (hr : rest.head? ≠ some '"') :
    split read (double s ++ '"' :: rest) = some (read.reverse ++ double s, rest) := by
  induction s generalizing read with
  | nil =>
    cases rest with
    | nil => simp [split]
    | cons x rest =>
      have hx : x ≠ '"' := by simpa using hr
      simp [split, hx]
  | cons c s ih =>
    by_cases hc : c = '"'
    · subst hc
      simp [split, ih]
    · simp [double_cons hc, split, hc, ih]

/-- What was cut off is a text with its quotes doubled, behind what was read before. -/
theorem exists_of_split {read cs body rest : List Char} (h : split read cs = some (body, rest)) :
    ∃ s, body = read.reverse ++ double s ∧ cs = double s ++ '"' :: rest := by
  fun_induction split read cs with
  | case1 => cases h
  | case2 read cs ih =>
    obtain ⟨s, hb, hcs⟩ := ih h
    exact ⟨'"' :: s, by simpa using hb, by simp [hcs]⟩
  | case3 read cs =>
    cases h
    exact ⟨[], by simp, rfl⟩
  | case4 read c cs _ hc ih =>
    obtain ⟨s, hb, hcs⟩ := ih h
    have hne : c ≠ '"' := hc
    exact ⟨c :: s, by simpa [double_cons hne] using hb, by simp [double_cons hne, hcs]⟩

theorem split_cons {c : Char} (hc : c ≠ '"') (read cs : List Char) :
    split read (c :: cs) = split (c :: read) cs := by
  simp [split, hc]

theorem undouble_cons {c : Char} (hc : c ≠ '"') (text : String) (cs : List Char) :
    undouble text (c :: cs) = undouble (text.push c) cs := by
  simp [undouble, hc]

/-- What was read before stands in front of the body, and changes nothing else. -/
theorem split_eq_map (read cs : List Char) : split read cs =
    (split [] cs).map fun parts => (read.reverse ++ parts.1, parts.2) := by
  fun_induction skip cs generalizing read with
  | case1 => rfl
  | case2 cs ih =>
    rw [split, split, ih, ih ['"', '"'], Option.map_map]
    simp [Function.comp_def]
  | case3 cs hne => simp [split]
  | case4 c cs _ hne ih =>
    rw [split_cons hne, split_cons hne, ih, ih [c], Option.map_map]
    simp [Function.comp_def]

/-- Skipping to the closing quote is cutting there, without the text in front. -/
theorem skip_eq_map_split (read cs : List Char) : skip cs = (split read cs).map Prod.snd := by
  fun_induction split read cs with
  | case1 => rfl
  | case2 read cs ih => exact ih
  | case3 read cs => simp [skip]
  | case4 read c cs _ _ ih => simp [skip, ih]

/-- What was skipped is a text with its quotes doubled, and the quote behind it. -/
theorem exists_of_skip {cs rest : List Char} (h : skip cs = some rest) :
    ∃ s, cs = double s ++ '"' :: rest := by
  rw [skip_eq_map_split [], Option.map_eq_some_iff] at h
  obtain ⟨parts, hparts, rfl⟩ := h
  obtain ⟨s, -, hcs⟩ := exists_of_split hparts
  exact ⟨s, hcs⟩

/-- A text with its quotes doubled is skipped with the quote behind it, if no other quote
follows. -/
theorem skip_double (s : List Char) {rest : List Char} (hr : rest.head? ≠ some '"') :
    skip (double s ++ '"' :: rest) = some rest := by
  induction s with
  | nil =>
    cases rest with
    | nil => simp [skip]
    | cons x rest =>
      have hx : x ≠ '"' := by simpa using hr
      simp [skip, hx]
  | cons c s ih =>
    by_cases hc : c = '"'
    · subst hc
      simp [skip, ih]
    · simp [double_cons hc, skip, hc, ih]

/-- Taking every second quote away gives back what was doubled. -/
theorem undouble_double (done : String) (s : List Char) :
    undouble done (double s) = done ++ .ofList s := by
  rw [← String.toList_inj, String.toList_append, String.toList_ofList]
  induction s generalizing done with
  | nil => simp [undouble]
  | cons c s ih =>
    by_cases hc : c = '"'
    · subst hc
      simp [undouble, ih]
    · simp [double_cons hc, undouble, hc, ih]

end Quoted
end Text

/-! ## Texts

What is read is found in the grammar, once for texts in quotes and once for the others. -/

namespace Literal

variable {bound : Bool} {c d : Cursor} {l : Literal}

/-- How reading a text in quotes ends, where `cs` stands behind the opening quote: the closing quote
is missing, a line break stands in front of it, or the text is read. -/
inductive QuotedRead (c : Cursor) (cs : List Char) :
    EStateM.Result Diagnostic Cursor Literal → Prop
  | unclosed (none : Text.Quoted.skip cs = none) :
      QuotedRead c cs (.error (Fault.unterminated.inColumn c.column) c)
  | broken {s before behind rest : List Char} {x : Char}
      (skips : Text.Quoted.skip cs = some rest) (text : cs = Text.Quoted.double s ++ '"' :: rest)
      (body : Text.Quoted.double s = before ++ x :: behind)
      (first : ∀ y ∈ before, Text.isLineBreak y = false) (found : Text.isLineBreak x = true) :
      QuotedRead c cs (.error (Fault.lineBreak.inColumn (c.column + 1 + before.length)) c)
  | closed {s : String} {rest : List Char} (skips : Text.Quoted.skip cs = some rest)
      (text : cs = Text.Quoted.double s.toList ++ '"' :: rest) (line : OneLine s) :
      QuotedRead c cs
        (.ok ⟨s, c.column, true⟩ (c.advance ((Text.Quoted.double s.toList).length + 2)))

/-- Reading a text in quotes ends in one of the three ways. -/
theorem quotedRead {cs : List Char} (hc : c.rest = '"' :: cs) : QuotedRead c cs (readQuoted c) := by
  have hskip := Text.Quoted.skip_eq_map_split [] cs
  rw [readQuoted, hc, List.drop_succ_cons, List.drop_zero]
  split
  · next hsplit =>
    rw [hsplit] at hskip
    exact .unclosed hskip
  · next body rest hsplit =>
    rw [hsplit] at hskip
    obtain ⟨s, rfl, htext⟩ := Text.Quoted.exists_of_split hsplit
    rw [List.reverse_nil, List.nil_append]
    split
    · next i hi =>
      obtain ⟨hlt, hfound, hfirst⟩ := List.findIdx?_eq_some_iff_getElem.1 hi
      have hbody : Text.Quoted.double s = (Text.Quoted.double s).take i ++
          (Text.Quoted.double s)[i] :: (Text.Quoted.double s).drop (i + 1) := by
        rw [List.getElem_cons_drop, List.take_append_drop]
      -- the first line break: there is none in front of it
      have hbroken := QuotedRead.broken (c := c) hskip htext hbody (fun y hy => ?_) hfound
      · rwa [List.length_take_of_le (Nat.le_of_lt hlt)] at hbroken
      · obtain ⟨j, hj, rfl⟩ := List.mem_take_iff_getElem.1 hy
        exact Bool.eq_false_iff.2 (hfirst j (Nat.lt_of_lt_of_le hj (Nat.min_le_left ..)))
    · next hi =>
      have hline : OneLine (.ofList s) := fun x hx => by
        rw [String.toList_ofList] at hx
        exact List.findIdx?_eq_none_iff.1 hi x (Text.Quoted.mem_double.2 hx)
      rw [Text.Quoted.undouble_double, String.empty_append]
      have hclosed := QuotedRead.closed (c := c) (s := .ofList s) hskip
      rw [String.toList_ofList] at hclosed
      exact hclosed htext hline

/-- Behind its closing quote, the text in quotes is passed. -/
theorem rest_advance_quoted {cs s rest : List Char} (hc : c.rest = '"' :: cs)
    (text : cs = Text.Quoted.double s ++ '"' :: rest) :
    (c.advance ((Text.Quoted.double s).length + 2)).rest = rest := by
  rw [Cursor.rest_advance, hc, text, List.drop_succ_cons, List.drop_length_add_append]
  rfl

/-- A text in quotes that was read is one of the grammar. -/
theorem literalText_of_readQuoted (hc : c.rest.head? = some '"') (h : readQuoted c = .ok l d) :
    LiteralText c.rest d.rest l.text := by
  obtain ⟨cs, hcs⟩ : ∃ cs, c.rest = '"' :: cs := List.head?_eq_some_iff.1 hc
  have hread := quotedRead hcs
  rw [h] at hread
  cases hread with
  | closed _ text line => exact .quoted line (by rw [rest_advance_quoted hcs text, hcs, text])

/-- A text without quotes that was read is one of the grammar. -/
theorem literalText_of_readBare (h : readBare bound c = .ok l d) :
    LiteralText c.rest d.rest l.text := by
  rw [readBare] at h
  split at h
  · cases h
  · next hempty =>
    split at h
    · cases h
    · next hfind =>
      cases h
      rw [show (c.advance _).rest = _ from Cursor.rest_skipWhile _ c]
      refine .bare ?_ (fun x hx => ?_) ?_
      · rw [String.toList_ofList]
        simpa using hempty
      · rw [String.toList_ofList] at hx
        have hends := List.all_eq_true.1 List.all_takeWhile x hx
        have hneeds := List.find?_eq_none.1 hfind x hx
        have hspace : Unicode.isSpace x ≠ true := fun hs => by
          rw [Text.endsLiteral_iff.2 (.inl hs)] at hends
          cases hends
        simp [isPlain, hneeds, hspace]
      · rw [String.toList_ofList, List.takeWhile_append_dropWhile]

/-- What is read is a text of the grammar. -/
theorem literalText_of_read (h : read bound c = .ok l d) : LiteralText c.rest d.rest l.text := by
  rw [read] at h
  split at h
  · next hc => exact literalText_of_readQuoted hc h
  · exact literalText_of_readBare h

/-! ### The other direction

Of what follows a text, one character is enough: it must end a text without quotes, and it must be
no quote behind one in quotes. -/

/-- A text, the bound of a range if `bound` holds, ends in front of `rest`. -/
def EndsBefore (bound : Bool) (rest : List Char) : Prop :=
  ∀ x ∈ rest.head?, Text.endsLiteral bound x = true

/-- A text in quotes is read as a whole, unless another quote follows. -/
theorem readQuoted_of_quoted {rest : List Char} {s : String} (hs : OneLine s)
    (hc : c.rest = '"' :: (Text.Quoted.double s.toList ++ '"' :: rest))
    (hr : rest.head? ≠ some '"') :
    readQuoted c =
      .ok ⟨s, c.column, true⟩ (c.advance ((Text.Quoted.double s.toList).length + 2)) := by
  have hsplit := Text.Quoted.split_double [] s.toList hr
  rw [List.reverse_nil, List.nil_append] at hsplit
  have hline : (Text.Quoted.double s.toList).findIdx? Text.isLineBreak = none := by
    rw [List.findIdx?_eq_none_iff]
    exact fun x hx => hs x (Text.Quoted.mem_double.1 hx)
  have htext : Text.Quoted.undouble "" (Text.Quoted.double s.toList) = s := by
    rw [Text.Quoted.undouble_double, String.ofList_toList, String.empty_append]
  simp only [readQuoted, hc, List.drop_succ_cons, List.drop_zero, hsplit, hline, htext]

/-- A text without quotes is read up to a character that ends it. -/
theorem readBare_of_plain {rest : List Char} {s : String} (hne : s.toList ≠ [])
    (hs : ∀ x ∈ s.toList, isPlain x = true) (hc : c.rest = s.toList ++ rest)
    (hr : EndsBefore bound rest) :
    readBare bound c = .ok ⟨s, c.column, false⟩ (c.advance s.toList.length) := by
  have hword : c.rest.takeWhile (fun x => !Text.endsLiteral bound x) = s.toList := by
    have hall : ∀ x ∈ s.toList, (!Text.endsLiteral bound x) = true := fun x hx => by
      rw [Text.endsLiteral_of_isPlain bound (hs x hx), Bool.not_false]
    rw [hc]
    exact takeWhile_append_of_stops hall fun x hx => by rw [hr x hx, Bool.not_true]
  have hneeds : s.toList.find? Text.needsQuotes = none := by
    rw [List.find?_eq_none]
    intro x hx
    simp [Text.needsQuotes, (Text.isPlain_iff.1 (hs x hx)).2]
  simp only [readBare, hword, List.isEmpty_iff, hne, if_false, hneeds, String.ofList_toList]

/-- What ends a text without quotes is no quote. -/
theorem head?_ne_quote_of_endsBefore {rest : List Char} (hr : EndsBefore bound rest) :
    rest.head? ≠ some '"' := by
  intro he
  have hq := hr '"' he
  revert hq
  cases bound <;> decide

theorem head?_ne_quote_of_plain {cs : List Char} (hne : cs ≠ [])
    (hs : ∀ x ∈ cs, isPlain x = true) (rest : List Char) : (cs ++ rest).head? ≠ some '"' := by
  obtain ⟨x, xs, rfl⟩ := List.exists_cons_of_ne_nil hne
  rw [List.cons_append, List.head?_cons, Ne, Option.some_inj]
  exact (Text.isPlain_iff.1 (hs x (by simp))).2.1

/-- A text of the grammar is read, if the text behind it ends it. -/
theorem read_of_literalText {rest : List Char} {s : String} (h : LiteralText c.rest rest s)
    (hr : EndsBefore bound rest) :
    ∃ l d, read bound c = .ok l d ∧ l.text = s ∧ d.rest = rest := by
  cases h with
  | bare hne hs hc =>
    rw [read, if_neg (by rw [hc]; exact head?_ne_quote_of_plain hne hs rest),
      readBare_of_plain hne hs hc hr]
    exact ⟨_, _, rfl, rfl, by rw [Cursor.rest_advance, hc, List.drop_left]⟩
  | quoted hs hc =>
    rw [read, if_pos (by rw [hc]; rfl),
      readQuoted_of_quoted hs hc (head?_ne_quote_of_endsBefore hr)]
    exact ⟨_, _, rfl, rfl, rest_advance_quoted hc rfl⟩

end Literal
end Criteria
