import Criteria.Proofs.Bytes.Reading

/-!
# Skipping and reading a text in quotes

Where only the end of a text in quotes matters, it is skipped; where the text matters, it is read.
Both ways end at the same quote, however many quotes are doubled in front of it, and a text that is
read says what was in between.

A text in quotes is skipped when the form of a value is looked for and when a field is left behind
that cannot be read; it is read as a value.  If the two did not agree, a value could be taken for a
range because of a `~` inside of quotes, or reading could go on in the middle of a text.  Whatever
is wrong with the text, they have to agree on where it ends: a line break inside of it is a fault
for reading only.

## What is here

* `Literal.skip_eq_none_iff` — the closing quote is missing for both or for none.
* `Literal.exists_lineBreak_of_readQuoted`, `Literal.text_of_readQuoted` — otherwise the first line
  break is reported, or the text is read up to the quote at which skipping ends.
* `Literal.readQuoted_agrees_skip` — all this together.
-/

set_option autoImplicit false

namespace Criteria
namespace Literal

/-- The two faults of a text in quotes can be told apart. -/
theorem lineBreak_ne_unterminated (column column' : Nat) :
    Fault.lineBreak.inColumn column ≠ Fault.unterminated.inColumn column' := fun h =>
  have hmessage : Fault.lineBreak.message = Fault.unterminated.message :=
    congrArg Diagnostic.message h
  absurd hmessage (by decide)

variable {q rest : List Char} {c d : Cursor} {e : Diagnostic} {l : Literal}

/-- The closing quote is missed by skipping just if reading reports it as missing. -/
theorem skip_eq_none_iff (hc : c.rest = '"' :: q) : Text.Quoted.skip q = none ↔
    readQuoted c = .error (Fault.unterminated.inColumn c.column) c := by
  have hread := quotedRead hc
  generalize readQuoted c = r at hread ⊢
  cases hread with
  | unclosed hnone => exact iff_of_true hnone rfl
  | broken hskip =>
    refine iff_of_false (by simp [hskip]) fun h => ?_
    injection h with h
    exact lineBreak_ne_unterminated _ _ h
  | closed hskip => exact iff_of_false (by simp [hskip]) fun h => nomatch h

/-- Where the closing quote is found, reading fails at the first line break in front of it. -/
theorem exists_lineBreak_of_readQuoted {body : List Char} (hc : c.rest = '"' :: q)
    (hskip : Text.Quoted.skip q = some rest) (hq : q = body ++ '"' :: rest)
    (h : readQuoted c = .error e d) : ∃ before x behind, body = before ++ x :: behind ∧
      (∀ y ∈ before, Text.isLineBreak y = false) ∧ Text.isLineBreak x = true ∧
      e = Fault.lineBreak.inColumn (c.column + 1 + before.length) ∧ d = c := by
  have hread := quotedRead hc
  rw [h] at hread
  cases hread with
  | unclosed hnone =>
    rw [hskip] at hnone
    cases hnone
  | @broken s before behind _ x hskip' htext hbody hfirst hfound =>
    obtain rfl := Option.some.inj (hskip.symm.trans hskip')
    obtain rfl : body = Text.Quoted.double s := List.append_cancel_right (hq.symm.trans htext)
    exact ⟨before, x, behind, hbody, hfirst, hfound, rfl, rfl⟩

/-- What is read leaves the text behind the closing quote, has no line breaks, and is what was
written with its quotes doubled. -/
theorem text_of_readQuoted (hc : c.rest = '"' :: q) (hskip : Text.Quoted.skip q = some rest)
    (h : readQuoted c = .ok l d) : d.rest = rest ∧ Grammar.OneLine l.text ∧
      q = Text.Quoted.double l.text.toList ++ '"' :: rest := by
  have hread := quotedRead hc
  rw [h] at hread
  cases hread with
  | closed hskip' htext hline =>
    obtain rfl := Option.some.inj (hskip.symm.trans hskip')
    exact ⟨rest_advance_quoted hc htext, hline, htext⟩

/-- **Skipping and reading a text in quotes end alike.**  Take a text behind an opening quote.  The
closing quote is missed by skipping just if reading reports it as missing.  If something is left
behind the closing quote, reading fails just if there is a line break in front of that quote, and
then the first one is reported; otherwise the same is left by reading, and the text that is read,
with its quotes doubled, a quote and what is left are the text that was there.  In both ways it
makes no difference whether bytes or characters are counted. -/
theorem readQuoted_agrees_skip {q : List Char} {c : Cursor} (hc : c.rest = '"' :: q) :
    (Bytes.scanQuoted q = some (Text.Quoted.skip q) ∧
      ∀ bound, Bytes.Does (Bytes.readLiteral bound) c (readQuoted c)) ∧
    (Text.Quoted.skip q = none ↔
      readQuoted c = .error (Fault.unterminated.inColumn c.column) c) ∧
    ∀ rest, Text.Quoted.skip q = some rest → ∃ body, q = body ++ '"' :: rest ∧
      ((∃ e d, readQuoted c = .error e d) ↔ ∃ x ∈ body, Text.isLineBreak x = true) ∧
      (∀ e d, readQuoted c = .error e d → ∃ before x behind, body = before ++ x :: behind ∧
        (∀ y ∈ before, Text.isLineBreak y = false) ∧ Text.isLineBreak x = true ∧
        e = Fault.lineBreak.inColumn (c.column + 1 + before.length) ∧ d = c) ∧
      ∀ l d, readQuoted c = .ok l d →
        d.rest = rest ∧ q = Text.Quoted.double l.text.toList ++ '"' :: rest := by
  refine ⟨⟨Bytes.scanQuoted_eq q, fun bound => Bytes.does_readLiteral_quoted (by rw [hc]; rfl)⟩,
    skip_eq_none_iff hc, fun rest hskip => ?_⟩
  obtain ⟨s, hq⟩ := Text.Quoted.exists_of_skip hskip
  refine ⟨Text.Quoted.double s, hq, ⟨fun ⟨e, d, h⟩ => ?_, fun ⟨x, hx, hbreak⟩ => ?_⟩,
    fun e d h => exists_lineBreak_of_readQuoted hc hskip hq h, fun l d h => ?_⟩
  · obtain ⟨before, x, behind, hbody, -, hbreak, -⟩ :=
      exists_lineBreak_of_readQuoted hc hskip hq h
    exact ⟨x, by simp [hbody], hbreak⟩
  · cases h : readQuoted c with
    | error e d => exact ⟨e, d, rfl⟩
    | ok l d =>
      obtain ⟨-, hline, hq'⟩ := text_of_readQuoted hc hskip h
      have hbody : Text.Quoted.double s = Text.Quoted.double l.text.toList :=
        List.append_cancel_right (hq.symm.trans hq')
      rw [hbody, Text.Quoted.mem_double] at hx
      rw [hline x hx] at hbreak
      cases hbreak
  · obtain ⟨hd, -, hq'⟩ := text_of_readQuoted hc hskip h
    exact ⟨hd, hq'⟩

/-- The three ways in which reading ends, each with a doubled quote on the way: the text is read up
to the `;`, or the line break in it is reported, or its closing quote is missing.  The doubled quote
at the very end of the last text does not close it. -/
theorem readQuoted_agrees_skip_sample :
    ((Cursor.start "\"é\"\"\";").rest = '"' :: ['é', '"', '"', '"', ';'] ∧
      Text.Quoted.skip ['é', '"', '"', '"', ';'] = some [';'] ∧
      ∃ l d, readQuoted (.start "\"é\"\"\";") = .ok l d ∧ d.rest = [';'] ∧
        ['é', '"', '"', '"', ';'] = Text.Quoted.double l.text.toList ++ '"' :: [';']) ∧
    ((Cursor.start "\"é\"\"\n\";").rest = '"' :: ['é', '"', '"', '\n', '"', ';'] ∧
      Text.Quoted.skip ['é', '"', '"', '\n', '"', ';'] = some [';'] ∧
      ∃ before x behind, ['é', '"', '"', '\n'] = before ++ x :: behind ∧
        (∀ y ∈ before, Text.isLineBreak y = false) ∧ Text.isLineBreak x = true ∧
        readQuoted (.start "\"é\"\"\n\";") =
          .error (Fault.lineBreak.inColumn (2 + before.length)) (.start "\"é\"\"\n\";")) ∧
    (Cursor.start "\"é\"\"").rest = '"' :: ['é', '"', '"'] ∧
      Text.Quoted.skip ['é', '"', '"'] = none ∧
      readQuoted (.start "\"é\"\"") =
        .error (Fault.unterminated.inColumn 1) (.start "\"é\"\"") := by
  refine ⟨⟨rfl, by decide, ?_⟩, ⟨rfl, by decide, ?_⟩, rfl, by decide, ?_⟩
  · obtain ⟨body, hbody, hfails, -, hreads⟩ :=
      (readQuoted_agrees_skip (c := .start "\"é\"\"\";") rfl).2.2 [';'] (by decide)
    obtain rfl : ['é', '"', '"'] = body := List.append_cancel_right hbody
    cases h : readQuoted (.start "\"é\"\"\";") with
    | ok l d => exact ⟨l, d, rfl, hreads l d h⟩
    | error e d => exact absurd (List.any_eq_true.2 (hfails.1 ⟨e, d, h⟩)) (by decide)
  · obtain ⟨body, hbody, hfails, hfirst, -⟩ :=
      (readQuoted_agrees_skip (c := .start "\"é\"\"\n\";") rfl).2.2 [';'] (by decide)
    obtain rfl : ['é', '"', '"', '\n'] = body := List.append_cancel_right hbody
    obtain ⟨e, d, h⟩ := hfails.2 ⟨'\n', by decide, rfl⟩
    obtain ⟨before, x, behind, hbefore, hnone, hbreak, rfl, rfl⟩ := hfirst e d h
    exact ⟨before, x, behind, hbefore, hnone, hbreak, h⟩
  · exact (readQuoted_agrees_skip (c := .start "\"é\"\"") rfl).2.1.1 (by decide)

end Literal
end Criteria
