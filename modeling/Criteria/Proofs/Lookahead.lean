import Criteria.Proofs.Reading.Form

/-!
# Looking ahead against reading

The form of a value is told by a scan of its own, in front of the value.  Here it is compared with
the readers, from any place in a text.

The scan has to find out whether a `~` follows the first text, without knowing yet that this is the
bound of a range.  It takes the text for a bound, that is, as ending before a bracket, and it skips
quotes without looking at what is inside.  The readers are stricter: they refuse signs in a text,
and line breaks between quotes.  So where the scan sees a range the reader of ranges comes to the
`~`, or has found a fault in the characters of the bound before; and where the scan sees none, a
text that can be read has no `~` behind it.

## What is here

* `Form.behindBang`, `Cursor.skipBang` — the text and the place behind a `!`, if one follows.
* `Form.kindAt_eq_of_head` — with `!` or without, looking ahead for a range decides.
* `Form.startsRange_of_read` — where a text is read, looking ahead finds its end as well.
* `Form.ReadsTilde`, `Form.readsTilde_of_isRangeAt` — how reading a range ends where looking ahead
  has seen one.
* `Form.kindAt_agrees` — what looking ahead tells about the readers of ranges and of texts.

Blanks are where the two differ.  The reader of ranges skips blanks in front of the lower bound,
with or without a bracket, and the scan does not, so a range behind `!` and a blank is one for the
reader only.  This is the case that `not_kindAt_eq_of_readRange` shows, and `kindAt_agrees` says
that there is no other.
-/

set_option autoImplicit false

namespace Criteria

open Grammar

/-! ## Texts

A text that was read without quotes ends before a bracket if it is a bound, and before any other end
in any case.  Faults in a text that has started are lexical, whichever reader it was. -/

namespace Literal

variable {bound : Bool} {c d : Cursor} {l : Literal}

/-- A text without quotes goes on up to a character that ends it. -/
theorem endsBefore_of_readBare (h : readBare bound c = .ok l d) : EndsBefore bound d.rest := by
  rw [readBare] at h
  split at h
  · cases h
  · split at h
    · cases h
    · cases h
      rw [show (c.advance _).rest = _ from Cursor.rest_skipWhile _ c]
      intro x hx
      have hstops := stops_dropWhile (fun y => !Text.endsLiteral bound y) c.rest x hx
      simpa using hstops

theorem EndsBefore.to_bound {rest : List Char} (h : EndsBefore bound rest) :
    EndsBefore true rest := fun x hx =>
  Text.endsLiteral_iff.2 ((Text.endsLiteral_iff.1 (h x hx)).imp_right (.imp_right (.imp_left
    fun _ => rfl)))

/-- Inside quotes, whatever is wrong with a text is wrong with its characters. -/
theorem lexical_of_readQuoted {e : Diagnostic} (h : readQuoted c = .error e d) :
    e.kind = .lexical := by
  rw [readQuoted] at h
  split at h
  · cases h
    rfl
  · split at h <;> cases h
    rfl

/-- A fault in a text without quotes that has started is lexical. -/
theorem lexical_of_readBare {e : Diagnostic} {x : Char} {cs : List Char} (hc : c.rest = x :: cs)
    (hx : Text.endsLiteral bound x = false) (h : readBare bound c = .error e d) :
    e.kind = .lexical := by
  rw [readBare] at h
  split at h
  · next hempty => simp [hc, hx] at hempty
  · split at h <;> cases h
    rfl

end Literal

/-! ## The place behind a sign of exclusion

The scan leaves out a `!` before it looks for a range, and so does the comparison. -/

/-- The text behind a `!`, if it starts with one. -/
def Form.behindBang : List Char → List Char
  | '!' :: cs => cs
  | cs => cs

/-- The place behind a `!`, if one follows. -/
def Cursor.skipBang (c : Cursor) : Cursor :=
  match c.rest with
  | '!' :: _ => c.next
  | _ => c

/-- The text at the place behind a `!` is the text behind it. -/
theorem Cursor.rest_skipBang (c : Cursor) : c.skipBang.rest = Form.behindBang c.rest := by
  rw [skipBang, Form.behindBang.eq_def]
  split
  · next cs hc => rw [rest_next hc]
  · rfl

namespace Form

variable {c d : Cursor} {cs : List Char} {l : Literal} {r : RangeForm}

/-- Where no `!` is, nothing is left out. -/
theorem behindBang_of_head (h : cs.head? ≠ some '!') : behindBang cs = cs := by
  rw [behindBang.eq_def]
  split
  · exact absurd rfl h
  · rfl

/-- Unless a comparison or a pattern starts, looking ahead for a range decides. -/
theorem kindAt_eq_of_head (h : ∀ x ∈ (behindBang cs).head?, x ∉ ['~', '<', '>']) :
    kindAt cs = if isRangeAt (behindBang cs) then .range else .simple := by
  by_cases hbang : cs.head? = some '!'
  · obtain ⟨tail, rfl⟩ := List.head?_eq_some_iff.1 hbang
    rfl
  · rw [behindBang_of_head hbang] at h ⊢
    refine kindAt_eq fun x hx hm => ?_
    have hne : x ≠ '!' := by
      rintro rfl
      exact hbang hx
    exact h x hx (by simpa [hne] using hm)

/-- Where the form is a range, one is seen behind the `!`. -/
theorem isRangeAt_behindBang (h : kindAt cs = .range) : isRangeAt (behindBang cs) = true := by
  rcases isRangeAt_of_kindAt h with ⟨tail, rfl, hr⟩ | ⟨hbang, hr⟩
  · exact hr
  · rwa [behindBang_of_head hbang]

/-- Where the form is simple, none is seen there. -/
theorem isRangeAt_behindBang_of_simple (h : kindAt cs = .simple) :
    isRangeAt (behindBang cs) = false := by
  rw [kindAt.eq_def] at h
  split at h
  · cases h
  · cases h
  · cases h
  · split at h
    · cases h
    · next hr => exact Bool.eq_false_iff.2 hr
  · next hbang =>
    rw [behindBang_of_head fun hh => ?_]
    · split at h
      · cases h
      · next hr => exact Bool.eq_false_iff.2 hr
    · obtain ⟨tail, rfl⟩ := List.head?_eq_some_iff.1 hh
      exact hbang tail rfl

/-! ## Ranges

From what the readers do to what the scan sees, and back: a text that was read is where the scan has
ended, and a scan that has ended at a `~` is where a text is read or has a fault. -/

/-- Where a text is read, looking ahead finds its end as well, although it stops at a bracket. -/
theorem startsRange_of_read {bound : Bool} (h : Literal.read bound c = .ok l d) :
    startsRange c.rest = ((d.rest.dropWhile Text.isBlank).head? == some '~') := by
  rw [Literal.read] at h
  split at h
  · next hquote =>
    obtain ⟨cs, hcs⟩ := List.head?_eq_some_iff.1 hquote
    have hread := Literal.quotedRead hcs
    rw [h] at hread
    cases hread with
    | closed skips text _ =>
      rw [hcs, startsRange, skips, Literal.rest_advance_quoted hcs text]
  · exact startsRange_literal (Literal.literalText_of_readBare h)
      (Literal.endsBefore_of_readBare h).to_bound

/-- A range that is read without white space in front of it is seen by looking ahead. -/
theorem isRangeAt_of_readRange (h : readRange c = .ok r d) (hs : Stops Text.isBlank c.rest) :
    isRangeAt c.rest = true ∧ ∀ x ∈ c.rest.head?, x ∉ ['~', '<', '>', '!'] := by
  obtain ⟨included, c₁, hopen, h⟩ := ok_of_bind h
  obtain ⟨_, _, ⟨⟩, h⟩ := ok_of_bind h
  obtain ⟨lower, c₃, hlower, h⟩ := ok_of_bind h
  obtain ⟨_, _, ⟨⟩, h⟩ := ok_of_bind h
  obtain ⟨_, c₅, htilde, -⟩ := ok_of_bind h
  rw [readOpeningBracket] at hopen
  split at hopen
  · next hc =>
    rw [hc]
    exact ⟨rfl, fun x hx => by cases hx; decide⟩
  · next hc =>
    rw [hc]
    exact ⟨rfl, fun x hx => by cases hx; decide⟩
  · cases hopen
    rw [Cursor.skipBlanks, Cursor.skipWhile_of_stops hs] at hlower
    have htext := Literal.literalText_of_read hlower
    have hblanks := c₃.blanks_skipBlanks.trans (Scanner.blanks_of_expect rfl htilde)
    refine ⟨?_, fun x hx hm => head_ne_of_literalText htext (mem_reserved_of_mark hm) hx⟩
    rw [isRangeAt_literal htext (endsBefore_of_blanks (by decide) hblanks),
      ← hblanks.eq_dropWhile ((stops_cons ..).2 rfl)]
    rfl

/-- Looking ahead sees a range only where a text starts. -/
theorem exists_of_startsRange (h : startsRange cs = true) (hq : cs.head? ≠ some '"') :
    ∃ x tail, cs = x :: tail ∧ Text.endsLiteral true x = false := by
  cases cs with
  | nil => cases h
  | cons x tail =>
    have hx : x ≠ '"' := by simpa using hq
    cases he : Text.endsLiteral true x with
    | false => exact ⟨x, tail, rfl, he⟩
    | true => simp [startsRange, hx, he] at h

/-- A text with a `~` behind it is seen as a range. -/
theorem isRangeAt_of_startsRange (h : startsRange cs = true) : isRangeAt cs = true := by
  rw [isRangeAt.eq_def]
  split
  · rfl
  · rfl
  · exact h

/-- Where a range is seen, a fault in the lower bound is one in its characters. -/
theorem lexical_of_startsRange {e : Diagnostic} (h : startsRange c.rest = true)
    (hread : Literal.read true c = .error e d) : e.kind = .lexical := by
  rw [Literal.read] at hread
  split at hread
  · exact Literal.lexical_of_readQuoted hread
  · next hq =>
    obtain ⟨x, tail, hc, hx⟩ := exists_of_startsRange h hq
    exact Literal.lexical_of_readBare hc hx hread

/-- Looking for the closing bracket does not fail. -/
theorem exists_of_readClosingBracket (c : Cursor) : ∃ b d, readClosingBracket c = .ok b d := by
  rw [readClosingBracket]
  split <;> exact ⟨_, _, rfl⟩

/-- The ways in which reading a range ends if no `~` is missing: the range is read, or there is a
lexical fault in the lower bound, or a fault in the upper bound, behind the `~`. -/
inductive ReadsTilde (c : Cursor) : Prop
  | range {r : RangeForm} {d : Cursor} (read : readRange c = .ok r d)
  | lower {e : Diagnostic} {d : Cursor} (fault : Literal.read true c = .error e d)
      (lexical : e.kind = .lexical) (fails : readRange c = .error e d)
  | upper {lower : Literal} {mid behind : Cursor} {e : Diagnostic} {d : Cursor}
      (read : Literal.read true c = .ok lower mid)
      (tilde : Scanner.expect "~" mid = .ok () behind)
      (fault : Literal.read true behind.skipBlanks = .error e d)
      (fails : readRange c = .error e d)

/-- Where looking ahead sees a range without a bracket, a `~` is found behind the lower bound,
unless there is a fault in the characters of the bound. -/
theorem readsTilde_of_isRangeAt (h : isRangeAt c.rest = true) (ho : c.rest.head? ≠ some '[')
    (hc : c.rest.head? ≠ some ']') : ReadsTilde c := by
  have hstarts : startsRange c.rest = true := by
    rw [isRangeAt.eq_def] at h
    split at h
    · next he => exact absurd (by rw [he]; rfl) ho
    · next he => exact absurd (by rw [he]; rfl) hc
    · exact h
  have hopen : readOpeningBracket c = .ok true c := by
    rw [readOpeningBracket]
    split
    · next he => exact absurd (by rw [he]; rfl) ho
    · next he => exact absurd (by rw [he]; rfl) hc
    · rfl
  have hskip : c.skipBlanks = c :=
    Cursor.skipWhile_of_stops ((stops_of_isRangeAt h).mono fun _ => Text.isSpace_of_isBlank)
  have hblanks : Scanner.skipBlanks c = .ok () c := by rw [Scanner.skipBlanks_eq, hskip]
  -- no bracket stands here, so nothing is read in front of the lower bound
  have hrest : readRange c = (do
      let lower ← Literal.read true
      Scanner.skipBlanks
      Scanner.expect "~"
      Scanner.skipBlanks
      let upper ← Literal.read true
      let upperInclusive ← readClosingBracket
      return RangeForm.mk lower upper true (upperInclusive.getD true) upperInclusive.isSome) c := by
    rw [readRange, bind_of_ok hopen, bind_of_ok hblanks]
  cases hlower : Literal.read true c with
  | error e d =>
    exact .lower hlower (lexical_of_startsRange hstarts hlower) (hrest.trans (bind_of_error hlower))
  | ok lower mid =>
    rw [startsRange_of_read hlower, beq_iff_eq, ← Cursor.rest_skipBlanks] at hstarts
    obtain ⟨tail, htail⟩ := List.head?_eq_some_iff.1 hstarts
    obtain ⟨behind, htilde, -⟩ := Scanner.expect_of_blanks "~" rfl rfl
      (htail ▸ mid.blanks_skipBlanks)
    rw [bind_of_ok hlower, bind_of_ok (Scanner.skipBlanks_eq mid),
      bind_of_ok ((Scanner.expect_skipBlanks "~" mid).trans htilde),
      bind_of_ok (Scanner.skipBlanks_eq behind)] at hrest
    cases hupper : Literal.read true behind.skipBlanks with
    | error e d => exact .upper hlower htilde hupper (hrest.trans (bind_of_error hupper))
    | ok upper last =>
      obtain ⟨included, d, hclose⟩ := exists_of_readClosingBracket last
      rw [bind_of_ok hupper, bind_of_ok hclose] at hrest
      exact .range hrest

/-! ## Every form

The first character tells comparisons and patterns, so for these there is nothing to compare but
that. -/

/-- **Looking ahead agrees with the readers**, at every place.  Take the place behind a `!`, if one
follows.  If a range is read from there, then looking ahead sees it, unless a space or a tab comes
first.  Where looking ahead sees a range that does not start with a bracket, the range is read up to
its `~`, unless there is a lexical fault in the lower bound, and then it is read or there is a fault
in the upper bound.  Where looking ahead sees a single text and it is read, no `~` follows. -/
theorem kindAt_agrees (c : Cursor) :
    (∀ r d, readRange c.skipBang = .ok r d →
        (kindAt c.rest = .range ↔ Stops Text.isBlank c.skipBang.rest)) ∧
      (kindAt c.rest = .range → c.skipBang.rest.head? ≠ some '[' →
        c.skipBang.rest.head? ≠ some ']' → ReadsTilde c.skipBang) ∧
      (kindAt c.rest = .simple → ∀ l d, Literal.read false c.skipBang = .ok l d →
        (d.rest.dropWhile Text.isBlank).head? ≠ some '~') := by
  refine ⟨fun r d hr => ⟨fun hk => ?_, fun hs => ?_⟩, fun hk ho hc => ?_,
    fun hk l d hl htilde => ?_⟩
  · have hrange := isRangeAt_behindBang hk
    rw [← Cursor.rest_skipBang] at hrange
    exact (stops_of_isRangeAt hrange).mono fun _ => Text.isSpace_of_isBlank
  · obtain ⟨hrange, hhead⟩ := isRangeAt_of_readRange hr hs
    rw [Cursor.rest_skipBang] at hrange hhead
    rw [kindAt_eq_of_head fun x hx hm => hhead x hx (List.mem_append_left ['!'] hm), hrange]
    rfl
  · have hrange := isRangeAt_behindBang hk
    rw [← Cursor.rest_skipBang] at hrange
    exact readsTilde_of_isRangeAt hrange ho hc
  · have hsimple := isRangeAt_behindBang_of_simple hk
    have hstarts := startsRange_of_read hl
    rw [htilde, Cursor.rest_skipBang, beq_self_eq_true] at hstarts
    rw [isRangeAt_of_startsRange hstarts] at hsimple
    cases hsimple

/-- A `~` in quotes, in a range and in a text, and a range whose lower bound has a bracket in it. -/
theorem kindAt_agrees_sample :
    kindAt (Cursor.start "!\"~\" ~ ]").rest = .range ∧
      ReadsTilde (Cursor.start "!\"~\" ~ ]").skipBang ∧
      (∃ r d, readRange (Cursor.start "!\"a\"\"~\"~b[").skipBang = .ok r d ∧
        kindAt (Cursor.start "!\"a\"\"~\"~b[").rest = .range) ∧
      ∃ l d, Literal.read false (Cursor.start "\"~\"\"\" ;").skipBang = .ok l d ∧
        (d.rest.dropWhile Text.isBlank).head? ≠ some '~' := by
  refine ⟨by decide +kernel, (kindAt_agrees (.start "!\"~\" ~ ]")).2.1 (by decide +kernel)
    (by decide +kernel) (by decide +kernel), ?_, ?_⟩
  · obtain ⟨r, d, hr⟩ := exists_ok_of_run' (x := readRange)
      (s := (Cursor.start "!\"a\"\"~\"~b[").skipBang) (by decide +kernel)
    exact ⟨r, d, hr, ((kindAt_agrees _).1 r d hr).2 ((stops_cons ..).2 rfl)⟩
  · obtain ⟨l, d, hl⟩ := exists_ok_of_run' (x := Literal.read false)
      (s := (Cursor.start "\"~\"\"\" ;").skipBang) (by decide +kernel)
    exact ⟨l, d, hl, (kindAt_agrees _).2.2 (by decide +kernel) l d hl⟩

/-- Behind a `!` and a space a range is read, and looking ahead sees none. -/
theorem not_kindAt_eq_of_readRange :
    ¬∀ (c : Cursor) (r : RangeForm) (d : Cursor), readRange c.skipBang = .ok r d →
      kindAt c.rest = .range := by
  intro h
  obtain ⟨r, d, hr⟩ := exists_ok_of_run' (x := readRange) (s := (Cursor.start "! 1~2").skipBang)
    (by decide +kernel)
  exact absurd (h (.start "! 1~2") r d hr) (by decide +kernel)

end Form
end Criteria
