import Criteria.Parse.Entry
import Criteria.Proofs.Grammar.FieldToken
import Criteria.Proofs.Reading.Scanner

/-!
# Reading names and labels

A name is the longest one at its place, and blanks may follow it; whether it is the name of a field
is decided by the sign behind them.  So there are three outcomes, which `NameRead` lists: a name and
a sign, a name without one, and no name.  In the last two the fault is reported at the character
that does not fit, and this is said here as well, since what follows from it is a statement of its
own.

A label is taken up to the `:` and trimmed.  Only what is left of it is looked up, and only its
first character tells it from the marker of a group.

## What is here

* `FieldToken.Starts` — a text starts with a name, and with spaces and tabs behind it;
  `Starts.nameAt_eq`, `Starts.nameLength_eq` say what a reader finds there.
* `FieldToken.NameRead`, `FieldToken.nameRead` — how reading a name ends: it is read if a `:` or a
  `=` follows, and only then.
* `Parser.fieldToken_of_readToken`, `Parser.readToken_of_fieldToken` — what is read are the names
  and labels of the grammar.
-/

set_option autoImplicit false

namespace Criteria

open Grammar

namespace FieldToken

variable {c d : Cursor} {token : String} {cs name blanks rest : List Char} {sign : Char}

/-! ## Names

A text is cut at its first name into the name, the blanks behind it, and the rest; the three parts
tell all that a reader does with it. -/

/-- The name at a place, if there is one, is a name, and the text starts with it. -/
theorem isFieldName_nameAt {cs : List Char} (h : (nameAt cs).isEmpty = false) :
    Text.isFieldName (.ofList (nameAt cs)) = true ∧
      cs = nameAt cs ++ cs.drop (nameAt cs).length := by
  rw [nameAt.eq_def] at h ⊢
  split at h
  · cases h
  · next x xs =>
    split at h
    · next hx =>
      have hall : (xs.takeWhile Text.isNameChar).all Text.isNameChar = true := List.all_takeWhile
      refine ⟨?_, ?_⟩
      · rw [if_pos hx, Text.isFieldName, String.toList_ofList]
        simp [hx, hall]
      · simp only [hx, if_true, List.length_cons, List.drop_succ_cons, List.cons_append]
        exact congrArg (x :: ·) (List.prefix_iff_eq_append.1 (List.takeWhile_prefix _)).symm
    · cases h

/-- The text starts with the name, and with the spaces and tabs behind it, and goes on with `rest`
in another way. -/
structure Starts (name blanks rest cs : List Char) : Prop where
  text : cs = name ++ blanks ++ rest
  writable : Text.isFieldName (.ofList name) = true
  blank : ∀ x ∈ blanks, Text.isBlank x = true
  name_stops : Stops Text.isNameChar (blanks ++ rest)
  blanks_stop : Stops Text.isBlank rest

namespace Starts

theorem exists_cons (h : Starts name blanks rest cs) : ∃ x xs, name = x :: xs ∧
    Text.isNameStart x = true ∧ ∀ y ∈ xs, Text.isNameChar y = true := by
  have hname := exists_of_isFieldName h.writable
  rwa [String.toList_ofList] at hname

/-- A reader finds the name with which the text starts. -/
theorem nameAt_eq (h : Starts name blanks rest cs) : nameAt cs = name := by
  obtain ⟨x, xs, hname, hx, hxs⟩ := h.exists_cons
  rw [h.text, hname, List.append_assoc, List.cons_append, nameAt, if_pos hx,
    takeWhile_append_of_stops hxs h.name_stops]

theorem isEmpty_nameAt (h : Starts name blanks rest cs) : (nameAt cs).isEmpty = false := by
  obtain ⟨x, xs, hname, -⟩ := h.exists_cons
  rw [h.nameAt_eq, hname]
  rfl

/-- A reader takes the name and the blanks behind it. -/
theorem nameLength_eq (h : Starts name blanks rest cs) :
    nameLength cs = (name ++ blanks).length := by
  rw [nameLength, if_neg (by simp [h.isEmpty_nameAt]), h.nameAt_eq, h.text, List.append_assoc,
    List.drop_left, takeWhile_append_of_stops h.blank h.blanks_stop, List.length_append]

/-- What a reader leaves is what stands behind the blanks. -/
theorem drop_nameLength (h : Starts name blanks rest cs) : cs.drop (nameLength cs) = rest := by
  rw [h.nameLength_eq, h.text, List.drop_left]

/-- No space or tab stands in front of a name. -/
theorem stops (h : Starts name blanks rest cs) : Stops Text.isBlank cs := by
  obtain ⟨x, xs, hname, hx, -⟩ := h.exists_cons
  rw [h.text, hname, List.append_assoc, List.cons_append, stops_cons, Bool.eq_false_iff]
  exact fun hb => by simpa [Text.isSpace_of_isNameStart hx] using Text.isSpace_of_isBlank hb

/-- Another text may follow, as long as it does not start like a part of the name or like a blank
behind it. -/
theorem replace (h : Starts name blanks rest cs) {rest' : List Char}
    (hname : Stops Text.isNameChar (blanks ++ rest')) (hblanks : Stops Text.isBlank rest') :
    Starts name blanks rest' (name ++ blanks ++ rest') :=
  ⟨rfl, h.writable, h.blank, hname, hblanks⟩

end Starts

/-- A text in front of which a name is found starts with it, and with the blanks behind it. -/
theorem exists_starts (h : (nameAt cs).isEmpty = false) :
    ∃ name blanks rest, Starts name blanks rest cs := by
  obtain ⟨hwritable, htext⟩ := isFieldName_nameAt h
  have hstops : Stops Text.isNameChar (cs.drop (nameAt cs).length) := by
    cases cs with
    | nil => cases h
    | cons x xs =>
      by_cases hx : Text.isNameStart x = true
      · rw [nameAt, if_pos hx, List.length_cons, List.drop_succ_cons, drop_length_takeWhile]
        exact stops_dropWhile _ _
      · rw [nameAt, if_neg hx] at h
        cases h
  generalize nameAt cs = name, cs.drop (nameAt cs).length = behind at *
  refine ⟨name, behind.takeWhile Text.isBlank, behind.dropWhile Text.isBlank, ?_, hwritable,
    List.all_eq_true.1 List.all_takeWhile, ?_, stops_dropWhile _ _⟩
  · rwa [List.append_assoc, List.takeWhile_append_dropWhile]
  · rwa [List.takeWhile_append_dropWhile]

/-- A sign ends a name, with spaces and tabs in front of it or without. -/
theorem starts_sign (hname : Text.isFieldName (.ofList name) = true)
    (hblanks : ∀ x ∈ blanks, Text.isBlank x = true) (hsign : sign = ':' ∨ sign = '=')
    (rest : List Char) : Starts name blanks (sign :: rest) (name ++ blanks ++ sign :: rest) := by
  have hall : ∀ y ∈ [':', '='], Text.isNameChar y = false ∧ Text.isBlank y = false :=
    forall_mem_of_all (by decide +kernel)
  obtain ⟨hchar, hblank⟩ := hall sign (by simpa using hsign)
  refine ⟨rfl, hname, hblanks, ?_, (stops_cons ..).2 hblank⟩
  cases blanks with
  | nil => exact (stops_cons ..).2 hchar
  | cons y ys => exact (stops_cons ..).2 (Text.isNameChar_of_isBlank (hblanks y (by simp)))

/-- Blanks in front of a name make no difference. -/
theorem readName_skipBlanks (c : Cursor) : readName c.skipBlanks = readName c := by
  rw [readName, readName, Cursor.skipBlanks_skipBlanks]

/-- A name is read if a `:` or a `=` follows. -/
theorem readName_of_sign (h : Starts name blanks (sign :: rest) c.rest)
    (hsign : sign = ':' ∨ sign = '=') :
    readName c = .ok (.ofList name) (c.advance ((name ++ blanks).length + 1)) := by
  have hskip : c.skipBlanks = c := Cursor.skipWhile_of_stops h.stops
  rw [readName, hskip, if_pos, h.nameAt_eq, h.nameLength_eq]
  rw [h.isEmpty_nameAt, h.drop_nameLength]
  rcases hsign with rfl | rfl <;> rfl

/-- No name is read if anything else follows. -/
theorem readName_of_no_sign (h : Starts name blanks rest c.rest)
    (hsign : ∀ x ∈ rest.head?, ¬(x = ':' ∨ x = '=')) :
    readName c = .error ((Fault.expectedFieldName rest.head?).inColumn
      (c.column + (name ++ blanks).length)) c := by
  have hskip : c.skipBlanks = c := Cursor.skipWhile_of_stops h.stops
  rw [readName, hskip, if_neg, h.drop_nameLength, h.nameLength_eq]
  rw [h.drop_nameLength, Bool.and_eq_true, Bool.or_eq_true, beq_iff_eq, beq_iff_eq]
  rintro ⟨-, hhead | hhead⟩
  · exact hsign _ hhead (.inl rfl)
  · exact hsign _ hhead (.inr rfl)

theorem readName_of_no_name (hblanks : Stops Text.isBlank c.rest)
    (hname : (nameAt c.rest).isEmpty = true) :
    readName c = .error ((Fault.expectedFieldName c.rest.head?).inColumn c.column) c := by
  have hskip : c.skipBlanks = c := Cursor.skipWhile_of_stops hblanks
  rw [readName, hskip, if_neg (by simp [hname]), nameLength, if_pos hname]
  rfl

/-- How reading a name at a place ends. -/
inductive NameRead (c : Cursor) : EStateM.Result Diagnostic Cursor String → Prop
  | name {name blanks rest : List Char} {sign : Char}
      (starts : Starts name blanks (sign :: rest) c.rest) (ends : sign = ':' ∨ sign = '=') :
      NameRead c (.ok (.ofList name) (c.advance ((name ++ blanks).length + 1)))
  | noSign {name blanks rest : List Char} (starts : Starts name blanks rest c.rest)
      (ends : ∀ x ∈ rest.head?, ¬(x = ':' ∨ x = '=')) :
      NameRead c (.error ((Fault.expectedFieldName rest.head?).inColumn
        (c.column + (name ++ blanks).length)) c)
  | noName (none : (nameAt c.rest).isEmpty = true) :
      NameRead c (.error ((Fault.expectedFieldName c.rest.head?).inColumn c.column) c)

/-- A name is read behind the spaces and tabs at a place. -/
theorem nameRead (c : Cursor) : NameRead c.skipBlanks (readName c) := by
  rw [← readName_skipBlanks]
  have hstops : Stops Text.isBlank c.skipBlanks.rest := by
    rw [Cursor.rest_skipBlanks]
    exact stops_dropWhile _ _
  generalize c.skipBlanks = b at hstops ⊢
  cases hname : (nameAt b.rest).isEmpty with
  | true =>
    rw [readName_of_no_name hstops hname]
    exact .noName hname
  | false =>
    obtain ⟨name, blanks, rest, hstarts⟩ := exists_starts hname
    by_cases hsign : ∃ x ∈ rest.head?, x = ':' ∨ x = '='
    · obtain ⟨sign, hhead, hsign⟩ := hsign
      obtain ⟨tail, rfl⟩ := List.head?_eq_some_iff.1 hhead
      rw [readName_of_sign hstarts hsign]
      exact .name hstarts hsign
    · have hnone : ∀ x ∈ rest.head?, ¬(x = ':' ∨ x = '=') := fun x hx h => hsign ⟨x, hx, h⟩
      rw [readName_of_no_sign hstarts hnone]
      exact .noSign hstarts hnone

/-- A field name is read, whatever follows behind it, any blanks and a sign. -/
theorem readName_of_isFieldName {name : String} (h : Text.isFieldName name = true)
    (hblanks : ∀ x ∈ blanks, Text.isBlank x = true) (hsign : sign = ':' ∨ sign = '=')
    (hc : c.rest = name.toList ++ blanks ++ sign :: rest) :
    ∃ d, readName c = .ok name d ∧ c.Reaches d ∧ d.rest = rest := by
  have hstarts : Starts name.toList blanks (sign :: rest) c.rest :=
    hc ▸ starts_sign (by rwa [String.ofList_toList]) hblanks hsign rest
  have hread := readName_of_sign hstarts hsign
  rw [String.ofList_toList] at hread
  refine ⟨_, hread, .advance .., ?_⟩
  rw [Cursor.rest_advance, ← List.drop_drop, hc, List.drop_left]
  rfl

/-- A name that is read is one of the grammar. -/
theorem fieldToken_of_readName {fields : FieldSet} {field : Field} (h : readName c = .ok token d)
    (hf : fields.find? token = some field) (hs : Stops Unicode.isSpace c.rest) :
    Grammar.FieldToken fields .byName c.rest d.rest field := by
  have hskip : c.skipBlanks = c :=
    Cursor.skipWhile_of_stops (hs.mono fun _ => Text.isSpace_of_isBlank)
  have hread := nameRead c
  rw [hskip, h] at hread
  generalize hc : c.rest = cs
  cases hread with
  | @name name blanks rest sign hstarts hsign =>
    have hd : (c.advance ((name ++ blanks).length + 1)).rest = rest := by
      rw [Cursor.rest_advance, ← List.drop_drop, hstarts.text, List.drop_left]
      rfl
    rw [hd, ← hc]
    refine .name hstarts.writable ?_ ⟨blanks, hstarts.blank, rfl⟩ hsign hf
    rw [String.toList_ofList, hstarts.text, List.append_assoc]

/-- A name of the grammar is read. -/
theorem readName_of_fieldToken {fields : FieldSet} {field : Field} {rest : List Char}
    (h : Grammar.FieldToken fields .byName c.rest rest field) :
    ∃ token d, readName c = .ok token d ∧ fields.find? token = some field ∧ d.rest = rest := by
  generalize hc : c.rest = cs at h
  cases h with
  | @name _ _ _ sign name _ hw ht hb hcolon hf =>
    obtain ⟨blanks, hblanks, rfl⟩ := hb
    obtain ⟨d, hread, -, hd⟩ :=
      readName_of_isFieldName hw hblanks hcolon (by rw [hc, ht, List.append_assoc])
    exact ⟨name, d, hread, hf, hd⟩

/-! ## Labels

Labels end at the `:`, whatever white space they have, so the grammar and the reader take the same
characters; what is left to compare is the trimming. -/

/-- A label that is read is one of the grammar. -/
theorem fieldToken_of_readLabel {fields : FieldSet} {field : Field} (h : readLabel c = .ok token d)
    (hf : fields.findByLabel? token = some field) (hs : Stops Unicode.isSpace c.rest)
    (hm : c.rest.head? ≠ some '&') : Grammar.FieldToken fields .byLabel c.rest d.rest field := by
  have hskip : c.skipBlanks = c :=
    Cursor.skipWhile_of_stops (hs.mono fun _ => Text.isSpace_of_isBlank)
  rw [readLabel, hskip] at h
  split at h
  · next hfound =>
    dsimp only at h
    split at h
    · cases h
    · cases h
      rw [Bool.and_eq_true, Bool.not_eq_true', beq_iff_eq, drop_length_takeWhile] at hfound
      obtain ⟨hlabel, hcolon⟩ := hfound
      obtain ⟨tail, htail⟩ := List.head?_eq_some_iff.1 hcolon
      have hd : (c.advance ((c.rest.takeWhile Text.isLabelChar).length + 1)).rest = tail := by
        rw [Cursor.rest_advance, ← List.drop_drop, drop_length_takeWhile, htail]
        rfl
      have htext : c.rest = c.rest.takeWhile Text.isLabelChar ++ ':' :: tail := by
        rw [← htail, List.takeWhile_append_dropWhile]
      have hchars := List.all_eq_true.1 (List.all_takeWhile (p := Text.isLabelChar) (l := c.rest))
      rw [hd]
      -- from here on the label is any word without a colon, and it is trimmed at its end only
      generalize c.rest.takeWhile Text.isLabelChar = label at *
      cases label with
      | nil => cases hlabel
      | cons x xs =>
        rw [htext, List.cons_append, stops_cons] at hs
        obtain ⟨t, ht⟩ := Unicode.trim_of_stops xs hs
        refine .label hchars htext ht ?_ (ht ▸ hf)
        rintro rfl
        exact hm (by rw [htext]; rfl)
  · cases h

/-- A label of the grammar is read, at its first character. -/
theorem readLabel_of_fieldToken {fields : FieldSet} {field : Field} {rest : List Char}
    (h : Grammar.FieldToken fields .byLabel c.rest rest field)
    (hs : Stops Unicode.isSpace c.rest) :
    ∃ token d, readLabel c = .ok token d ∧ fields.findByLabel? token = some field ∧
      d.rest = rest := by
  have hskip : c.skipBlanks = c :=
    Cursor.skipWhile_of_stops (hs.mono fun _ => Text.isSpace_of_isBlank)
  generalize hc : c.rest = cs at h
  cases h with
  | @label _ label _ trimmed first _ hl ht htrim hm hf =>
    have hlabel : c.rest.takeWhile Text.isLabelChar = label := by
      rw [hc, ht]
      exact takeWhile_append_of_stops hl ((stops_cons ..).2 (by decide))
    have hdrop : c.rest.drop label.length = ':' :: rest := by rw [hc, ht, List.drop_left]
    have hne : label.isEmpty = false := by
      cases label with
      | nil => cases htrim
      | cons x xs => rfl
    refine ⟨.ofList (first :: trimmed), c.advance (label.length + 1), ?_, hf, ?_⟩
    · rw [readLabel, hskip, hlabel, if_pos (by rw [hdrop, hne]; rfl)]
      simp only [htrim, List.isEmpty_cons, Bool.false_eq_true, if_false]
    · rw [Cursor.rest_advance, ← List.drop_drop, hdrop]
      rfl

end FieldToken

namespace Parser

variable {naming : Naming} {fields : FieldSet} {field : Field} {c d : Cursor} {token : String}

/-- **A name or a label that was read is one of the grammar**, if it stands for a field. -/
theorem fieldToken_of_readToken (h : readToken naming c = .ok token d)
    (hf : lookUp fields token naming = some field) (hs : Stops Unicode.isSpace c.rest)
    (hm : c.rest.head? ≠ some '&') : Grammar.FieldToken fields naming c.rest d.rest field := by
  cases naming with
  | byName => exact FieldToken.fieldToken_of_readName h hf hs
  | byLabel => exact FieldToken.fieldToken_of_readLabel h hf hs hm

/-- **A name or a label of the grammar is read**, and stands for its field. -/
theorem readToken_of_fieldToken {rest : List Char}
    (h : Grammar.FieldToken fields naming c.rest rest field)
    (hs : Stops Unicode.isSpace c.rest) :
    ∃ token d, readToken naming c = .ok token d ∧ lookUp fields token naming = some field ∧
      d.rest = rest := by
  cases naming with
  | byName => exact FieldToken.readName_of_fieldToken h
  | byLabel => exact FieldToken.readLabel_of_fieldToken h hs

end Parser
end Criteria
