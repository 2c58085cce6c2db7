import Criteria.Proofs.Reading.Bookkeeping

/-!
# Skipping passes what is read

Names, labels, signs and texts without quotes are ordinary characters, and a text in quotes is read
up to the quote that skipping takes for its end.  So skipping passes all of a field up to the sign
behind its values.

Skipping counts parentheses, goes over quotes in pairs, and stops at a `;`.  What is skipped and
what is read are found in two different ways, character by character and reader by reader, and they
meet at every place that a reader comes to: skipping from the start of the field is skipping from
there.  That is what `Cursor.Passes` says of two places and `Scanner.Passes` of a reader.  It holds
of everything that can be read, but not of everything that fails, and so it is said of results only.

## What is here

* `Scanner.Passes` — skipping passes what the reader reads; `Passes.bind` derives this for a
  composed reader.
* `Form.passes_read`, `Parser.passes_readToken`, `Parser.passes_readSeparator` — values, names and
  labels, and what stands between values.
* `Parser.exists_passes_of_readField` — fields up to their end.
-/

set_option autoImplicit false

namespace Criteria

open Grammar

/-! ## Characters and texts

White space is ordinary, and so is every character of a text without quotes.  A text in quotes is
passed because each quote in it is doubled, so that skipping is outside of quotes again behind
it. -/

theorem Text.isOrdinary_of_isSpace {c : Char} (h : Unicode.isSpace c = true) :
    Recovery.isOrdinary c = true :=
  Recovery.isOrdinary_of (forall_mem_of_all (by decide)) h

/-- A text, bare or in quotes, is passed. -/
theorem Recovery.Passed.of_literalText {cs rest : List Char} {s : String}
    (h : LiteralText cs rest s) : Passed cs rest := by
  cases h with
  | bare _ plain text =>
    rw [text]
    exact .append (fun c hc => isOrdinary_of (forall_mem_of_all (by decide)) (plain c hc)) rest
  | quoted _ text =>
    rw [text]
    exact .quoted _ (.refl rest)

/-! ## Signs

The operators, and the marks of patterns, have none of the signs that skipping knows. -/

theorem isOrdinary_of_mem_symbol (o : Operator) :
    ∀ x ∈ o.symbol.toList, Recovery.isOrdinary x = true := by
  cases o <;> exact forall_mem_of_all rfl

theorem isOrdinary_of_mem_patternMark (p : Pattern) :
    ∀ x ∈ patternMark p, Recovery.isOrdinary x = true := by
  obtain ⟨⟨place, negated⟩, text, ignoresCase⟩ := p
  cases place <;> cases negated <;> cases ignoresCase <;> exact forall_mem_of_all rfl

namespace Cursor

variable {c : Cursor}

/-- Skipping passes a run of ordinary characters. -/
theorem passes_skipWhile {p : Char → Bool} (hp : ∀ x, p x = true → Recovery.isOrdinary x = true)
    (c : Cursor) : c.Passes (c.skipWhile p) := by
  refine ⟨.skipWhile p c, ?_⟩
  rw [rest_skipWhile]
  exact .of_run hp (run_dropWhile p c.rest)

theorem passes_skipBlanks (c : Cursor) : c.Passes c.skipBlanks :=
  passes_skipWhile (fun _ => Text.isOrdinary_of_isBlank) c

theorem passes_skipSpace (c : Cursor) : c.Passes c.skipSpace :=
  passes_skipWhile (fun _ => Text.isOrdinary_of_isSpace) c

/-- Skipping passes one ordinary character. -/
theorem passes_next {x : Char} (h : c.rest.head? = some x) (hx : Recovery.isOrdinary x = true) :
    c.Passes c.next := by
  obtain ⟨cs, hcs⟩ := List.head?_eq_some_iff.1 h
  refine ⟨.next c, ?_⟩
  rw [rest_next hcs, hcs]
  exact .ordinary hx (.refl cs)

/-- A place behind ordinary characters and a sign. -/
theorem passes_advance_succ {n : Nat} {x : Char}
    (ho : ∀ y ∈ c.rest.take n, Recovery.isOrdinary y = true)
    (h : (c.rest.drop n).head? = some x) (hx : Recovery.isOrdinary x = true) :
    c.Passes (c.advance (n + 1)) := by
  rw [← advance_add]
  exact (passes_advance ho).trans (passes_next (by rwa [rest_advance]) hx)

end Cursor

/-! ## Readers

A reader passes if each of its parts does. -/

namespace Scanner

variable {α β : Type} {x : Scanner α} {f : α → Scanner β}

/-- Skipping passes what the reader reads. -/
def Passes (x : Scanner α) : Prop :=
  ∀ (c d : Cursor) (a : α), x c = .ok a d → c.Passes d

namespace Passes

theorem pure (a : α) : Passes (pure a : Scanner α) := by
  intro c d b h
  cases h
  exact .refl c

/-- One part is passed after the other. -/
theorem bind (hx : x.Passes) (hf : ∀ a, (f a).Passes) : (x >>= f).Passes := by
  intro c e b h
  obtain ⟨a, d, ha, hb⟩ := ok_of_bind h
  exact (hx c d a ha).trans (hf a d e b hb)

theorem map {g : α → β} (hx : x.Passes) : Passes (x.map g) := by
  intro c d b h
  obtain ⟨a, ha, -⟩ := ok_of_map h
  exact hx c d a ha

theorem fail (g : Option Char → Fault) : Passes (fail g : Scanner α) := by
  intro c d a h
  cases h

theorem skipBlanks : Passes skipBlanks := by
  intro c d a h
  cases h
  exact c.passes_skipBlanks

/-- A token of ordinary characters is passed, and so are the blanks in front of it. -/
theorem accept {token : String} (ht : ∀ x ∈ token.toList, Recovery.isOrdinary x = true) :
    Passes (accept token) := by
  intro c d found h
  rw [Scanner.accept] at h
  split at h
  · next hp =>
    cases h
    obtain ⟨rest, hrest⟩ := List.isPrefixOf_iff_prefix.1 hp
    refine c.passes_skipBlanks.trans (Cursor.passes_advance ?_)
    rwa [← hrest, ← String.length_toList, List.take_left]
  · cases h
    exact c.passes_skipBlanks

theorem expect {token : String} (ht : ∀ x ∈ token.toList, Recovery.isOrdinary x = true) :
    Passes (expect token) := by
  refine bind (accept ht) fun found => ?_
  cases found
  · exact fail _
  · exact pure _

/-- A reader passes what it reads if this is made of ordinary characters and texts in quotes. -/
theorem of_forward (forward : x.Forward)
    (h : ∀ (c d : Cursor) (a : α), x c = .ok a d → Recovery.Passed c.rest d.rest) : x.Passes :=
  fun c d a ha => ⟨reaches_of_ok forward ha, h c d a ha⟩

end Passes
end Scanner

/-! ## Values

One lemma for each reader in a value, composed as the readers are. -/

/-- Texts are passed, in quotes or not. -/
theorem Literal.passes_read (bound : Bool) : (read bound).Passes :=
  .of_forward (forward_read bound) fun _ _ _ h => .of_literalText (literalText_of_read h)

namespace Form

theorem passes_readOperator : readOperator.Passes := by
  refine .of_forward forward_readOperator fun c d o h => ?_
  rw [operator_of_readOperator h]
  exact .append (isOrdinary_of_mem_symbol o) d.rest

theorem passes_readComparison : readComparison.Passes :=
  passes_readOperator.bind fun _ => Scanner.Passes.skipBlanks.bind fun _ =>
    (Literal.passes_read false).bind fun _ => .pure _

theorem passes_readMatcher : readMatcher.Passes := by
  refine .of_forward forward_readMatcher fun c d ⟨ignoresCase, m⟩ h => ?_
  rw [mark_of_readMatcher "" h]
  exact .append (isOrdinary_of_mem_patternMark _) d.rest

theorem passes_readPattern : readPattern.Passes :=
  passes_readMatcher.bind fun _ => Scanner.Passes.skipBlanks.bind fun _ =>
    (Literal.passes_read false).bind fun _ => .pure _

theorem passes_readOpeningBracket : readOpeningBracket.Passes := by
  intro c d included h
  rw [readOpeningBracket] at h
  split at h
  · next hc =>
    cases h
    exact Cursor.passes_next (by rw [hc]; rfl) (x := '[') rfl
  · next hc =>
    cases h
    exact Cursor.passes_next (by rw [hc]; rfl) (x := ']') rfl
  · cases h
    exact .refl c

theorem passes_readClosingBracket : readClosingBracket.Passes := by
  intro c d included h
  rw [readClosingBracket] at h
  split at h
  · next hc =>
    cases h
    exact c.passes_skipBlanks.trans (Cursor.passes_next (by rw [hc]; rfl) (x := '[') rfl)
  · next hc =>
    cases h
    exact c.passes_skipBlanks.trans (Cursor.passes_next (by rw [hc]; rfl) (x := ']') rfl)
  · cases h
    exact .refl c

theorem passes_readRange : readRange.Passes :=
  passes_readOpeningBracket.bind fun _ => Scanner.Passes.skipBlanks.bind fun _ =>
    (Literal.passes_read true).bind fun _ => Scanner.Passes.skipBlanks.bind fun _ =>
      (Scanner.Passes.expect (forall_mem_of_all rfl)).bind fun _ =>
        Scanner.Passes.skipBlanks.bind fun _ => (Literal.passes_read true).bind fun _ =>
          passes_readClosingBracket.bind fun _ => .pure _

/-- Simple values and ranges are passed, excluded or not. -/
theorem passes_readPlain (isRange : Bool) : (readPlain isRange).Passes := by
  refine (Scanner.Passes.accept (forall_mem_of_all rfl)).bind fun _ => ?_
  cases isRange
  · exact (Literal.passes_read false).bind fun _ => .pure _
  · exact passes_readRange.bind fun _ => .pure _

/-- Skipping passes a value. -/
theorem passes_read : read.Passes := by
  intro c d form h
  rw [read] at h
  split at h
  · exact passes_readComparison.map c d form h
  · exact passes_readPattern.map c d form h
  · exact passes_readPlain true c d form h
  · exact passes_readPlain false c d form h

end Form

/-! ## Names and labels

The sign behind a name is ordinary; neither `:` nor `=` means anything to skipping. -/

namespace FieldToken

theorem passes_readName : readName.Passes := by
  intro c d name h
  rw [readName] at h
  split at h
  · next hfound =>
    cases h
    rw [Bool.and_eq_true, Bool.or_eq_true, beq_iff_eq, beq_iff_eq] at hfound
    refine c.passes_skipBlanks.trans ?_
    rcases hfound.2 with hsign | hsign
    · exact Cursor.passes_advance_succ (fun _ => isOrdinary_of_mem_take) hsign rfl
    · exact Cursor.passes_advance_succ (fun _ => isOrdinary_of_mem_take) hsign rfl
  · cases h

theorem passes_readLabel : readLabel.Passes := by
  intro c d label h
  rw [readLabel] at h
  split at h
  · next hfound =>
    dsimp only at h
    split at h
    · cases h
    · cases h
      rw [Bool.and_eq_true, beq_iff_eq] at hfound
      refine c.passes_skipBlanks.trans (Cursor.passes_advance_succ (fun x hx => ?_) hfound.2 rfl)
      rw [← List.prefix_iff_eq_take.1 (List.takeWhile_prefix _)] at hx
      have hlabel := List.all_eq_true.1 List.all_takeWhile x hx
      exact Recovery.isOrdinary_of (forall_mem_of_all (by decide)) hlabel
  · cases h

end FieldToken

/-! ## Fields

All of a field is passed up to the sign behind it.  The sign itself is a matter of skipping, which
takes a `;` and leaves a `)`, as reading does. -/

namespace Parser

variable {settings : Settings} {fields : FieldSet} {field : Field} {s t : Session}

theorem passes_readToken (naming : Naming) : (readToken naming).Passes := by
  cases naming
  · exact FieldToken.passes_readName
  · exact FieldToken.passes_readLabel

/-- Commas and white space are passed. -/
theorem passes_readSeparator (bare : Bool) : (readSeparator bare).Passes := by
  intro c d more h
  rw [readSeparator] at h
  dsimp only at h
  split at h
  · next hcomma =>
    split at h <;> cases h
    exact (c.passes_skipSpace.trans (Cursor.passes_next hcomma rfl)).trans
      (Cursor.passes_skipSpace _)
  · split at h
    · cases h
      exact c.passes_skipSpace
    · split at h <;> cases h

theorem passes_of_scan {α : Type} {x : Scanner α} (hx : x.Passes) {a : α}
    (h : scan x s = .ok a t) : s.cursor.Passes t.cursor :=
  hx _ _ _ (cursor_of_scan h)

/-- An operation on the tree does not move. -/
theorem cursor_of_edit {column : Nat} {x : Assembly.Edit} (h : edit column x s = .ok () t) :
    t.cursor = s.cursor := by
  obtain ⟨b, hb⟩ := ok_of_edit h
  cases h.symm.trans (edit_of_ok column hb)
  rfl

/-- A value is passed, taken by its field or not. -/
theorem passes_readEntry {bare : Bool} (h : readEntry field s = .ok bare t) :
    s.cursor.Passes t.cursor := by
  obtain ⟨_, _, ⟨⟩, h⟩ := ok_of_bind h
  obtain ⟨form, u, hscan, h⟩ := ok_of_bind h
  have hform := passes_of_scan Form.passes_read hscan
  split at h
  · obtain ⟨_, _, hedit, ⟨⟩⟩ := ok_of_bind h
    rwa [cursor_of_edit hedit]
  · next ds _ =>
    rw [bind_of_ok (report_eq ds u)] at h
    cases h
    exact hform

theorem passes_readStep {more : Bool} (h : readStep field s = .ok more t) :
    s.cursor.Passes t.cursor := by
  obtain ⟨bare, u, hentry, hscan⟩ := ok_of_bind h
  exact (passes_readEntry hentry).trans (passes_of_scan (passes_readSeparator bare) hscan)

/-- Skipping passes the values of a field, whether the field takes them or not. -/
theorem passes_readEntries {count : Nat} (h : readEntries settings field count s = .ok () t) :
    s.cursor.Passes t.cursor ∧ FieldEnds t.cursor.rest := by
  fun_induction readEntries settings field count s with
  | case1 => cases h
  | case2 _ _ _ _ hstep ih =>
    obtain ⟨hpasses, hends⟩ := ih h
    exact ⟨(passes_readStep hstep).trans hpasses, hends⟩
  | case3 _ _ _ _ hstep =>
    cases h
    obtain ⟨_, _, -, hscan⟩ := ok_of_bind hstep
    exact ⟨passes_readStep hstep, (end_of_readSeparator (cursor_of_scan hscan)).2⟩
  | case4 => cases h

/-- The values are passed up to the end of the field. -/
theorem exists_passes_of_readValues {column : Nat}
    (h : readValues settings field column s = .ok () t) :
    ∃ e, s.cursor.Passes e ∧ FieldEnds e.rest ∧ t.cursor = e.skipTerminator := by
  obtain ⟨_, u, hopen, h⟩ := ok_of_bind h
  obtain ⟨_, _, ⟨⟩, h⟩ := ok_of_bind h
  obtain ⟨_, _, ⟨⟩, h⟩ := ok_of_bind h
  obtain ⟨_, _, ⟨⟩, h⟩ := ok_of_bind h
  split at h
  · cases h
  · obtain ⟨_, v, hread, h⟩ := ok_of_bind h
    obtain ⟨_, w, hclose, ⟨⟩⟩ := ok_of_bind h
    obtain ⟨hpasses, hends⟩ := passes_readEntries hread
    have hspace : s.cursor.Passes u.cursor.skipSpace := by
      rw [← cursor_of_edit hopen]
      exact u.cursor.passes_skipSpace
    exact ⟨v.cursor, hspace.trans hpasses, hends,
      congrArg Cursor.skipTerminator (cursor_of_edit hclose)⟩

/-- Skipping passes a field up to the end of its values. -/
theorem exists_passes_of_readField (h : readField settings fields s = .ok () t) :
    ∃ e, s.cursor.Passes e ∧ FieldEnds e.rest ∧ t.cursor = e.skipTerminator := by
  obtain ⟨_, _, ⟨⟩, h⟩ := ok_of_bind h
  obtain ⟨token, u, hscan, h⟩ := ok_of_bind h
  have htoken := passes_of_scan (passes_readToken settings.naming) hscan
  cases hfield : lookUp fields token settings.naming with
  | some field =>
    rw [hfield] at h
    obtain ⟨e, hpasses, hends, ht⟩ := exists_passes_of_readValues h
    exact ⟨e, htoken.trans hpasses, hends, ht⟩
  | none =>
    rw [hfield] at h
    cases h

end Parser
end Criteria
