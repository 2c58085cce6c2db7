import Criteria.Proofs.Reading.Literal
import Criteria.Proofs.Writing.Entry

/-!
# Texts with quotes and without

A text is written without quotes just when it is read back without them, and with quotes it is read
back whatever it holds.

Writing asks three questions about a text, and each has a place in reading where the answer matters:
an empty text would not be seen, white space would end it, and a sign would end it or be refused.
If none of them applies, the text is read as it stands.  The converse needs an argument, since a
text with signs could be read by some accident: it is read only if it is all there is in front of
what follows, and then it has none of them.

## What is here

* `Literal.write_eq_self_iff` — the texts that are written as they are.
* `Literal.read_write_append` — a written text is read back, up to the text behind it.
* `Literal.isQuoted_of_read` — a text that is read back as it stands needs no quotes.
* `Literal.read_write` — both for the texts and the bounds of ranges in a condition.

Bounds of ranges end before brackets as well, so there are two readers.  A bracket in a text makes
it one that needs quotes, for both of them alike, and so there is one way of writing.
-/

set_option autoImplicit false

namespace Criteria

open Grammar

namespace Literal

variable {s : String} {bound : Bool} {rest : List Char}

/-- Doubling quotes does not make a text shorter. -/
theorem length_le_length_double (cs : List Char) :
    cs.length ≤ (Text.Quoted.double cs).length := by
  induction cs with
  | nil => exact Nat.le_refl 0
  | cons c cs ih =>
    by_cases hc : c = '"'
    · subst hc
      rw [Text.Quoted.double_quote, List.length_cons, List.length_cons, List.length_cons]
      omega
    · rw [Text.Quoted.double_cons hc, List.length_cons, List.length_cons]
      omega

/-- With its quotes a text is longer than it was, however it goes on. -/
theorem ne_quoted (cs rest : List Char) :
    cs ++ rest ≠ '"' :: (Text.Quoted.double cs ++ '"' :: rest) := by
  intro h
  have hlength := congrArg List.length h
  have hdouble := length_le_length_double cs
  simp only [List.length_append, List.length_cons] at hlength
  omega

/-- A text is written as it is if it does not have to be in quotes. -/
theorem write_eq_self_iff : write s = s ↔ isQuoted s = false := by
  rw [write]
  split
  · next hq =>
    rw [hq]
    refine iff_of_false (fun h => ?_) Bool.noConfusion
    have hlist := congrArg String.toList h
    rw [String.toList_ofList] at hlist
    exact ne_quoted s.toList [] (by rw [List.append_nil, hlist])
  · next hq => exact iff_of_true rfl (by simpa using hq)

/-- A written text is read back, up to the text behind it. -/
theorem read_write_append (hs : OneLine s) (hr : EndsBefore bound rest) (offset column : Nat) :
    read bound ⟨(write s).toList ++ rest, offset, column⟩ = .ok ⟨s, column, isQuoted s⟩
      (Cursor.advance (write s).toList.length ⟨(write s).toList ++ rest, offset, column⟩) := by
  by_cases hq : isQuoted s = true
  · have hw : (write s).toList = '"' :: (Text.Quoted.double s.toList ++ ['"']) := by
      rw [write, if_pos hq, String.toList_ofList]
    have htext : (write s).toList ++ rest =
        '"' :: (Text.Quoted.double s.toList ++ '"' :: rest) := by simp [hw]
    rw [read, if_pos (by rw [hw]; rfl),
      readQuoted_of_quoted hs htext (head?_ne_quote_of_endsBefore hr), hq, hw, List.length_cons,
      List.length_append]
    rfl
  · rw [Bool.not_eq_true] at hq
    obtain ⟨hne, hplain⟩ := isQuoted_eq_false_iff.1 hq
    rw [write_eq_self_iff.2 hq, read, if_neg (head?_ne_quote_of_plain hne hplain rest),
      readBare_of_plain hne hplain rfl hr, hq]

/-- A text that is read back as it stands needs no quotes.  If it started with a quote, it would be
read up to the quote that closes it, and the text that is read would be shorter. -/
theorem isQuoted_of_read {offset column : Nat} {l : Literal} {d : Cursor}
    (h : read bound ⟨s.toList ++ rest, offset, column⟩ = .ok l d) (ht : l.text = s)
    (hd : d.rest = rest) : isQuoted s = false := by
  have htext := literalText_of_read h
  rw [ht, hd] at htext
  cases htext with
  | bare hne hplain _ => exact isQuoted_eq_false_iff.2 ⟨hne, hplain⟩
  | quoted _ hquoted => exact absurd hquoted (ne_quoted s.toList rest)

/-- **A text is written so that it is read back, and in quotes only if it has to be.**  Take any
text without line breaks, and behind it any text that starts with a character at which a text ends,
or none.  What is written for the first one is read as that text, as one in quotes just if quotes
were written, and reading takes exactly what was written.  Quotes are left out just if the text as
it stands is read back, up to the one behind it. -/
theorem read_write (s : String) (hs : OneLine s) (bound : Bool) (rest : List Char)
    (hr : ∀ x ∈ rest.head?, Unicode.isSpace x = true ∨ x ∈ [',', ';', ')', '~'] ∨
      bound = true ∧ x ∈ ['[', ']']) (offset column : Nat) :
    (∃ l, read bound ⟨(write s).toList ++ rest, offset, column⟩ =
        .ok l (Cursor.advance (write s).toList.length
          ⟨(write s).toList ++ rest, offset, column⟩) ∧
        l.text = s ∧ (l.quoted = true ↔ write s ≠ s)) ∧
      (write s = s ↔ ∃ l d, read bound ⟨s.toList ++ rest, offset, column⟩ = .ok l d ∧
        l.text = s ∧ d.rest = rest) := by
  have hends : EndsBefore bound rest := fun x hx => Text.endsLiteral_iff.2 (hr x hx)
  have hwritten := read_write_append hs hends offset column
  refine ⟨⟨_, hwritten, rfl, ?_⟩, fun hw => ?_, fun ⟨l, d, hl, ht, hd⟩ => ?_⟩
  · rw [Ne, write_eq_self_iff, Bool.not_eq_false]
  · rw [hw] at hwritten
    exact ⟨_, _, hwritten, rfl, by rw [Cursor.rest_advance, List.drop_left]⟩
  · exact write_eq_self_iff.2 (isQuoted_of_read hl ht hd)

/-- A text that starts and ends with a quote, as the bound of a range in front of a bracket. -/
theorem read_write_sample :
    (∃ l, read true ⟨(write "\"a\"").toList ++ ['['], 4, 5⟩ =
        .ok l (Cursor.advance (write "\"a\"").toList.length
          ⟨(write "\"a\"").toList ++ ['['], 4, 5⟩) ∧
        l.text = "\"a\"" ∧ (l.quoted = true ↔ write "\"a\"" ≠ "\"a\"")) ∧
      (write "\"a\"" = "\"a\"" ↔ ∃ l d, read true ⟨"\"a\"".toList ++ ['['], 4, 5⟩ = .ok l d ∧
        l.text = "\"a\"" ∧ d.rest = ['[']) :=
  read_write "\"a\"" (by decide) true ['[']
    (fun x hx => .inr (.inr ⟨rfl, by cases hx; exact List.mem_cons_self⟩)) 4 5

end Literal
end Criteria
