import Criteria.Parse.State
import Criteria.Proofs.Reading.Recovery
import Criteria.Proofs.Reading.Scanner

/-!
# Where readers report their faults

A reader that fails reports a place it has passed, or one ahead of it that is skipped afterwards.
So the next fault, behind what is skipped, stands behind this one.

That faults are reported in the order of the text is not obvious, since a reader often fails at a
place other than where it stopped.  A wrong character in a name or in a text, and a line break
between quotes, are reported ahead of the reader, which stays in front of the name or of the text; a
text that its field refuses is reported behind the whole value.  What makes the order right is
recovery.  Behind a fault the text is skipped up to the end of the field, and the next reader starts
there; so it is enough that each fault lies between the start of its reader and what is skipped
behind it.

For faults inside of what is read, this is `Reaches.column_le`.  For faults ahead of where the
reader stopped, the characters up to there have to be such that recovery skips them, which is why so
much is said here of ordinary characters.

## What is here

* `Fault.DueToText` — the fault is not one of putting the tree together.
* `Diagnostic.Between` — the fault stands behind one place and in front of another one.
* `Scanner.Raises` — the faults of a reader stand between its start and what is skipped behind it;
  `Raises.bind` derives this for a composed reader.
* `Ascending`, `Form.ascending_of_resolve` — several faults in the order of their places; so are
  those in the texts of a value that was read.
-/

set_option autoImplicit false

namespace Criteria

open Grammar

/-! ## Places

Columns only grow, whatever is read or skipped. -/

namespace Cursor

/-- A later place has no smaller column. -/
theorem Reaches.column_le {a b : Cursor} (h : a.Reaches b) : a.column ≤ b.column := by
  obtain ⟨cs, -, -, hc⟩ := reaches_iff.1 h
  omega

/-- Skipping the rest of a field does not go back. -/
theorem column_le_skipPair (c : Cursor) : c.column ≤ c.skipPair.column :=
  Reaches.column_le (.advance ..)

end Cursor

/-! ## Faults -/

/-- The text is at fault.  Of what an assembly refuses this holds only for a field that its group
has already. -/
def Fault.DueToText : Fault → Prop
  | .misuse (.duplicateField _) => True
  | .misuse _ => False
  | _ => True

/-- The fault is due to the text and stands behind `low` and in front of `high`. -/
structure Diagnostic.Between (low high : Nat) (d : Diagnostic) : Prop where
  low : low ≤ d.column
  high : d.column ≤ high
  cause : ∃ f : Fault, f.DueToText ∧ d = f.inColumn d.column

namespace Diagnostic.Between

variable {low low' high high' : Nat} {d : Diagnostic} {c e : Cursor} {f : Fault}

/-- A fault in a column between two others lies between them. -/
theorem inColumn {column : Nat} (hf : f.DueToText) (hl : low ≤ column)
    (hh : column ≤ high) : Between low high (f.inColumn column) :=
  ⟨hl, hh, f, hf, rfl⟩

/-- A fault stays between two columns if these move apart. -/
theorem mono (h : Between low high d) (hl : low' ≤ low) (hh : high ≤ high') :
    Between low' high' d :=
  ⟨Nat.le_trans hl h.low, Nat.le_trans h.high hh, h.cause⟩

/-- A fault at the place where the reader stops. -/
theorem here (hf : f.DueToText) (h : c.Reaches e) :
    (f.inColumn e.column).Between c.column e.skipPair.column :=
  .inColumn hf h.column_le e.column_le_skipPair

/-- A fault ahead of the place where the reader stops, behind ordinary characters. -/
theorem ahead {n : Nat} (hf : f.DueToText) (h : c.Reaches e) (hn : n ≤ e.rest.length)
    (ho : ∀ x ∈ e.rest.take n, Recovery.isOrdinary x = true) :
    (f.inColumn (e.column + n)).Between c.column e.skipPair.column :=
  .inColumn hf (Nat.le_add_right_of_le h.column_le) (Cursor.le_column_skipPair hn ho)

end Diagnostic.Between

/-- The faults stand between two columns, in their order. -/
structure Ascending (low high : Nat) (ds : List Diagnostic) : Prop where
  order : (ds.map Diagnostic.column).Pairwise (· ≤ ·)
  between : ∀ d ∈ ds, d.Between low high

namespace Ascending

variable {low mid high : Nat} {d : Diagnostic} {ds es : List Diagnostic}

/-- Without faults there is no order to keep. -/
theorem nil : Ascending low high [] :=
  ⟨.nil, by simp⟩

/-- One fault has to lie between the two columns, and that is all. -/
theorem singleton (h : d.Between low high) : Ascending low high [d] :=
  ⟨List.pairwise_singleton .., by simpa using h⟩

/-- Faults up to a column, and faults from there on. -/
theorem append (h : Ascending low mid ds) (h' : Ascending mid high es) (hl : low ≤ mid)
    (hh : mid ≤ high) : Ascending low high (ds ++ es) := by
  refine ⟨?_, fun d hd => ?_⟩
  · rw [List.map_append, List.pairwise_append]
    refine ⟨h.order, h'.order, fun m hm n hn => ?_⟩
    obtain ⟨d, hd, rfl⟩ := List.mem_map.1 hm
    obtain ⟨e, he, rfl⟩ := List.mem_map.1 hn
    exact Nat.le_trans (h.between d hd).high (h'.between e he).low
  · rcases List.mem_append.1 hd with hd | hd
    · exact (h.between d hd).mono (Nat.le_refl _) hh
    · exact (h'.between d hd).mono hl (Nat.le_refl _)

end Ascending

/-! ## Readers

The property of a reader that all its faults are in place goes through composition, since the second
part starts where the first one ended and the first one never moves back. -/

namespace Scanner

variable {α β : Type} {x : Scanner α} {f : α → Scanner β}

/-- A reader that fails reports a place between its start and the end of what is skipped then. -/
def Raises (x : Scanner α) : Prop :=
  ∀ (c e : Cursor) (d : Diagnostic), x c = .error d e → d.Between c.column e.skipPair.column

/-- A reader that does not move back has ended further on. -/
theorem reaches_of_ok (forward : x.Forward) {c e : Cursor} {a : α} (h : x c = .ok a e) :
    c.Reaches e := by
  have hreach := forward c
  rwa [h] at hreach

/-- A reader that does not move back has ended in a column that is not smaller. -/
theorem column_le_of_ok (forward : x.Forward) {c e : Cursor} {a : α} (h : x c = .ok a e) :
    c.column ≤ e.column :=
  (reaches_of_ok forward h).column_le

namespace Raises

theorem pure (a : α) : Raises (pure a : Scanner α) := by
  intro c e d h
  cases h

/-- The faults of the second part lie behind its start, which lies behind the start of the first
part. -/
theorem bind (forward : x.Forward) (hx : x.Raises) (hf : ∀ a, (f a).Raises) :
    (x >>= f).Raises := by
  intro c e d h
  change EStateM.bind x f c = .error d e at h
  rw [EStateM.bind] at h
  split at h
  · next a c' hxc =>
    exact (hf a c' e d h).mono (column_le_of_ok forward hxc) (Nat.le_refl _)
  · next hxc =>
    cases h
    exact hx _ _ _ hxc

theorem map {g : α → β} (hx : x.Raises) : Raises (x.map g) := by
  intro c e d h
  rw [EStateM.map] at h
  split at h
  · cases h
  · next hxc =>
    cases h
    exact hx _ _ _ hxc

theorem move (g : Cursor → Cursor) : (move g).Raises := by
  intro c e d h
  cases h

theorem accept (token : String) : (accept token).Raises := by
  intro c e d h
  rw [Scanner.accept] at h
  split at h <;> cases h

/-- A missing token is reported where it should have been. -/
theorem expect (token : String) : (expect token).Raises := by
  refine bind (.accept token) (accept token) fun found => ?_
  cases found
  · intro c e d h
    cases h
    exact .here trivial (.refl c)
  · exact pure _

end Raises
end Scanner

/-! ## Names and labels

A name is reported at the first character that does not fit.  What stands in front of this one is
skipped afterwards, since the characters of a name are ordinary, and so are blanks. -/

namespace Text

/-- Skipping does not look at the characters of a name. -/
theorem isOrdinary_of_isNameChar {c : Char} (h : isNameChar c = true) :
    Recovery.isOrdinary c = true :=
  Recovery.isOrdinary_of (forall_mem_of_all (by decide +kernel)) h

/-- Recovery does not stop at blanks. -/
theorem isOrdinary_of_isBlank {c : Char} (h : isBlank c = true) :
    Recovery.isOrdinary c = true :=
  Recovery.isOrdinary_of (forall_mem_of_all (by decide)) h

/-- A character that may stand without quotes is ordinary. -/
theorem isOrdinary_of_needsQuotes {c : Char} (h : needsQuotes c = false) :
    Recovery.isOrdinary c = true := by
  have hneeds : (!needsQuotes c) = true := by rw [h, Bool.not_false]
  exact Recovery.isOrdinary_of (p := fun x => !needsQuotes x) (forall_mem_of_all (by decide)) hneeds

end Text

namespace FieldToken

/-- The name at a place is what the text starts with. -/
theorem prefix_nameAt (cs : List Char) : nameAt cs <+: cs := by
  rw [nameAt.eq_def]
  split
  · exact List.prefix_rfl
  · split
    · exact List.cons_prefix_cons.2 ⟨rfl, List.takeWhile_prefix _⟩
    · exact List.nil_prefix

/-- The name at a place has only characters that a name may have. -/
theorem isNameChar_of_mem_nameAt {cs : List Char} {x : Char} (hx : x ∈ nameAt cs) :
    Text.isNameChar x = true := by
  rw [nameAt.eq_def] at hx
  split at hx
  · cases hx
  · split at hx
    · next hstart =>
      rcases List.mem_cons.1 hx with rfl | hx
      · exact Text.isNameChar_of_isNameStart hstart
      · exact List.all_eq_true.1 List.all_takeWhile x hx
    · cases hx

/-- A name with the blanks behind it is not longer than the text. -/
theorem nameLength_le (cs : List Char) : nameLength cs ≤ cs.length := by
  have hname := (prefix_nameAt cs).length_le
  have hblanks := (List.takeWhile_prefix (l := cs.drop (nameAt cs).length) Text.isBlank).length_le
  rw [List.length_drop] at hblanks
  rw [nameLength]
  split
  · exact Nat.zero_le _
  · omega

/-- The name and the blanks behind it are passed before the fault that ends them. -/
theorem isOrdinary_of_mem_take {cs : List Char} {x : Char} (hx : x ∈ cs.take (nameLength cs)) :
    Recovery.isOrdinary x = true := by
  rw [nameLength] at hx
  split at hx
  · cases hx
  · rw [List.take_add, List.mem_append, ← List.prefix_iff_eq_take.1 (prefix_nameAt cs),
      ← List.prefix_iff_eq_take.1 (List.takeWhile_prefix _)] at hx
    rcases hx with hx | hx
    · exact Text.isOrdinary_of_isNameChar (isNameChar_of_mem_nameAt hx)
    · exact Text.isOrdinary_of_isBlank (List.all_eq_true.1 List.all_takeWhile x hx)

/-- The fault of a name is in place, ahead of where the reader stopped. -/
theorem raises_readName : readName.Raises := by
  intro c e d h
  rw [readName] at h
  split at h
  · cases h
  · cases h
    exact .ahead trivial (.skipBlanks c) (nameLength_le _) fun x => isOrdinary_of_mem_take

/-- The faults of a label are where the reader stopped. -/
theorem raises_readLabel : readLabel.Raises := by
  intro c e d h
  rw [readLabel] at h
  dsimp only at h
  split at h
  · split at h <;> cases h
    exact .here trivial (.trans (.skipBlanks c) (.advance ..))
  · cases h
    exact .here trivial (.skipBlanks c)

end FieldToken

/-! ## Texts

A text without its closing quote is reported at the opening one, and recovery, which knows about
quotes, goes to the end of the whole text; a line break between quotes is reported ahead of the
reader.  A text without quotes is reported at its first wrong character, and has ordinary characters
up to there. -/

namespace Literal

variable {bound : Bool} {c e : Cursor} {l : Literal}

/-- The faults of a text in quotes are in place, the line break being in front of its closing
quote. -/
theorem raises_readQuoted {d : Diagnostic} (hc : c.rest.head? = some '"')
    (h : readQuoted c = .error d e) : d.Between c.column e.skipPair.column := by
  obtain ⟨cs, hcs⟩ := List.head?_eq_some_iff.1 hc
  have hread := quotedRead hcs
  rw [h] at hread
  cases hread with
  | unclosed _ => exact .here trivial (.refl c)
  | @broken s before _ rest _ _ text body _ _ =>
    -- the line break is ahead of the cursor, but skipping passes the whole text in its quotes
    refine .inColumn trivial (by omega) ?_
    rw [Cursor.column_skipPair, hcs, text, Recovery.counts_pairLength.quoted]
    have hle := Recovery.le_pairLength false 0 (0 + (Text.Quoted.double s).length + 2) rest
    have hlength := congrArg List.length body
    rw [List.length_append, List.length_cons] at hlength
    omega

/-- In front of the first character that needs quotes, a text without quotes is passed. -/
theorem isOrdinary_of_mem_take {word cs : List Char} {x : Char} (hword : word <+: cs)
    (hx : x ∈ cs.take (word.findIdx Text.needsQuotes)) : Recovery.isOrdinary x = true := by
  obtain ⟨rest, rfl⟩ := hword
  rw [List.take_append_of_le_length List.findIdx_le_length] at hx
  obtain ⟨j, hj, rfl⟩ := List.mem_take_iff_getElem.1 hx
  exact Text.isOrdinary_of_needsQuotes
    (List.not_of_lt_findIdx (Nat.lt_of_lt_of_le hj (Nat.min_le_left ..)))

/-- The faults of a text without quotes are in place. -/
theorem raises_readBare (bound : Bool) : (readBare bound).Raises := by
  intro c e d h
  rw [readBare] at h
  split at h
  · cases h
    exact .here trivial (.refl c)
  · split at h
    · cases h
      have hword := List.takeWhile_prefix (l := c.rest) fun x => !Text.endsLiteral bound x
      exact .ahead trivial (.refl c) (Nat.le_trans List.findIdx_le_length hword.length_le)
        fun x => isOrdinary_of_mem_take hword
    · cases h

/-- **The faults of values are in place**, whatever their form. -/
theorem raises_read (bound : Bool) : (read bound).Raises := by
  intro c e d h
  rw [read] at h
  split at h
  · next hc => exact raises_readQuoted hc h
  · exact raises_readBare bound c e d h

/-- A text remembers the column at which it started. -/
theorem column_of_read (h : read bound c = .ok l e) : l.column = c.column := by
  rw [read] at h
  split at h
  · rw [readQuoted] at h
    split at h
    · cases h
    · split at h <;> cases h
      rfl
  · rw [readBare] at h
    split at h
    · cases h
    · split at h <;> cases h
      rfl

end Literal

/-! ## Values

The readers of values are composed of the readers of texts and of a few tokens, and nothing has to
be added: one line for each of them. -/

namespace Form

variable {c e : Cursor} {form : Form} {field : Field} {ds : List Diagnostic}

theorem raises_readOperator : readOperator.Raises := by
  intro c e d h
  rw [readOperator] at h
  split at h <;> cases h
  exact .here trivial (.refl c)

theorem raises_readComparison : readComparison.Raises :=
  .bind forward_readOperator raises_readOperator fun _ =>
    .bind .skipBlanks (.move _) fun _ =>
      .bind (Literal.forward_read false) (Literal.raises_read false) fun _ => .pure _

theorem raises_readOpeningBracket : readOpeningBracket.Raises := by
  intro c e d h
  rw [readOpeningBracket] at h
  split at h <;> cases h

theorem raises_readClosingBracket : readClosingBracket.Raises := by
  intro c e d h
  rw [readClosingBracket] at h
  split at h <;> cases h

theorem raises_readRange : readRange.Raises :=
  .bind forward_readOpeningBracket raises_readOpeningBracket fun _ =>
    .bind .skipBlanks (.move _) fun _ =>
      .bind (Literal.forward_read true) (Literal.raises_read true) fun _ =>
        .bind .skipBlanks (.move _) fun _ =>
          .bind (.expect "~") (.expect "~") fun _ =>
            .bind .skipBlanks (.move _) fun _ =>
              .bind (Literal.forward_read true) (Literal.raises_read true) fun _ =>
                .bind forward_readClosingBracket raises_readClosingBracket fun _ => .pure _

theorem raises_readMatcher : readMatcher.Raises := by
  intro c e d h
  rw [readMatcher] at h
  split at h <;> cases h
  exact .here trivial (.refl c)

theorem raises_readPattern : readPattern.Raises :=
  .bind forward_readMatcher raises_readMatcher fun _ =>
    .bind .skipBlanks (.move _) fun _ =>
      .bind (Literal.forward_read false) (Literal.raises_read false) fun _ => .pure _

theorem raises_readPlain (isRange : Bool) : (readPlain isRange).Raises := by
  refine .bind (.accept "!") (.accept "!") fun _ => ?_
  cases isRange
  · exact .bind (Literal.forward_read false) (Literal.raises_read false) fun _ => .pure _
  · exact .bind forward_readRange raises_readRange fun _ => .pure _

theorem raises_read : read.Raises := by
  intro c e d h
  rw [read] at h
  split at h
  · exact raises_readComparison.map c e d h
  · exact raises_readPattern.map c e d h
  · exact raises_readPlain true c e d h
  · exact raises_readPlain false c e d h

/-! ### The texts of a value

The fault of a text that its field refuses is found only behind the whole value, but reported at the
text.  So the columns of the texts have to be known: they lie between the start and the end of the
value, and those of a range in their order. -/

/-- The texts of the value stand between two columns, one behind the other. -/
def Lies (low high : Nat) : Form → Prop
  | simple _ l => low ≤ l.column ∧ l.column ≤ high
  | range _ r => low ≤ r.lower.column ∧ r.lower.column ≤ r.upper.column ∧ r.upper.column ≤ high
  | comparison _ l => low ≤ l.column ∧ l.column ≤ high
  | pattern p => low ≤ p.text.column ∧ p.text.column ≤ high

/-- The bounds of a range lie in it, the lower one in front of the upper one. -/
theorem lies_of_readRange {r : RangeForm} (h : readRange c = .ok r e) :
    c.column ≤ r.lower.column ∧ r.lower.column ≤ r.upper.column ∧ r.upper.column ≤ e.column := by
  obtain ⟨li, c₁, hopen, h⟩ := ok_of_bind h
  obtain ⟨_, _, ⟨⟩, h⟩ := ok_of_bind h
  obtain ⟨lower, c₂, hlower, h⟩ := ok_of_bind h
  obtain ⟨_, _, ⟨⟩, h⟩ := ok_of_bind h
  obtain ⟨_, c₃, htilde, h⟩ := ok_of_bind h
  obtain ⟨_, _, ⟨⟩, h⟩ := ok_of_bind h
  obtain ⟨upper, c₄, hupper, h⟩ := ok_of_bind h
  obtain ⟨ui, _, hclose, ⟨⟩⟩ := ok_of_bind h
  have h₁ := Scanner.column_le_of_ok forward_readOpeningBracket hopen
  have h₂ := (Cursor.Reaches.skipBlanks c₁).column_le
  have h₃ := Scanner.column_le_of_ok (Literal.forward_read true) hlower
  have h₄ := (Cursor.Reaches.skipBlanks c₂).column_le
  have h₅ := Scanner.column_le_of_ok (.expect "~") htilde
  have h₆ := (Cursor.Reaches.skipBlanks c₃).column_le
  have h₇ := Scanner.column_le_of_ok (Literal.forward_read true) hupper
  have h₈ := Scanner.column_le_of_ok forward_readClosingBracket hclose
  rw [← Literal.column_of_read hlower] at h₂ h₃
  rw [← Literal.column_of_read hupper] at h₆ h₇
  dsimp only
  omega

/-- The text behind an operator stands behind it. -/
theorem lies_of_readMarked {α β : Type} {x : Scanner α} {f : α → Literal → β} {b : β}
    (forward : x.Forward)
    (h : (do
      let mark ← x
      Scanner.skipBlanks
      let literal ← Literal.read false
      return f mark literal : Scanner β) c = .ok b e) :
    ∃ mark l, b = f mark l ∧ c.column ≤ l.column ∧ l.column ≤ e.column := by
  obtain ⟨mark, c₁, hx, h⟩ := ok_of_bind h
  obtain ⟨_, _, ⟨⟩, h⟩ := ok_of_bind h
  obtain ⟨l, _, hl, ⟨⟩⟩ := ok_of_bind h
  have h₁ := Scanner.column_le_of_ok forward hx
  have h₂ := (Cursor.Reaches.skipBlanks c₁).column_le
  have h₃ := Scanner.column_le_of_ok (Literal.forward_read false) hl
  rw [← Literal.column_of_read hl] at h₂ h₃
  exact ⟨mark, l, rfl, Nat.le_trans h₁ h₂, h₃⟩

/-- The texts of a simple value or of a range lie in it. -/
theorem lies_of_readPlain {isRange : Bool} (h : readPlain isRange c = .ok form e) :
    form.Lies c.column e.column := by
  obtain ⟨excluded, c₁, hbang, h⟩ := ok_of_bind h
  have h₁ := Scanner.column_le_of_ok (.accept "!") hbang
  cases isRange with
  | true =>
    obtain ⟨r, _, hr, ⟨⟩⟩ := ok_of_bind h
    obtain ⟨hl, hb, hu⟩ := lies_of_readRange hr
    exact ⟨Nat.le_trans h₁ hl, hb, hu⟩
  | false =>
    obtain ⟨l, _, hl, ⟨⟩⟩ := ok_of_bind h
    have h₂ := Scanner.column_le_of_ok (Literal.forward_read false) hl
    rw [← Literal.column_of_read hl] at h₁ h₂
    exact ⟨h₁, h₂⟩

/-- **The texts of a value lie in it**, in their order. -/
theorem lies_of_read (h : read c = .ok form e) : form.Lies c.column e.column := by
  rw [read] at h
  split at h
  · obtain ⟨_, hx, rfl⟩ := ok_of_map h
    obtain ⟨o, l, rfl, hl⟩ := lies_of_readMarked forward_readOperator hx
    exact hl
  · obtain ⟨_, hx, rfl⟩ := ok_of_map h
    obtain ⟨m, l, rfl, hl⟩ := lies_of_readMarked
      (f := fun (m : Bool × Matcher) l => PatternForm.mk m.2 m.1 l) forward_readMatcher hx
    exact hl
  · exact lies_of_readPlain h
  · exact lies_of_readPlain h

/-! ### Texts that a field refuses -/

/-- A text that a field refuses is reported at its own column. -/
theorem between_of_resolve {l : Literal} {d : Diagnostic} {low high : Nat}
    (h : l.resolve field = .error d) (hl : low ≤ l.column) (hh : l.column ≤ high) :
    d.Between low high := by
  rw [Literal.resolve] at h
  split at h <;> cases h
  exact .inColumn (f := .invalidValue ..) trivial hl hh

/-- **The faults in the texts of a value stand in the order of these texts.** -/
theorem ascending_of_resolve {low high : Nat} (h : form.resolve field = .error ds)
    (hl : form.Lies low high) : Ascending low high ds := by
  cases form with
  | simple excluded l | comparison operator l =>
    rw [resolve] at h
    split at h
    · cases h
    · next d hd =>
      cases h
      exact .singleton (between_of_resolve hd hl.1 hl.2)
  | range excluded r =>
    obtain ⟨hlow, hmid, hhigh⟩ := hl
    rw [resolve] at h
    split at h
    · cases h
    · next d d' hd hd' =>
      cases h
      exact .append (.singleton (between_of_resolve hd hlow (Nat.le_refl _)))
        (.singleton (between_of_resolve hd' hmid hhigh)) hlow (Nat.le_trans hmid hhigh)
    · next d _ hd _ =>
      cases h
      exact .singleton (between_of_resolve hd hlow (Nat.le_trans hmid hhigh))
    · next d _ hd =>
      cases h
      exact .singleton (between_of_resolve hd (Nat.le_trans hlow hmid) hhigh)
  | pattern p => cases h

end Form
/-! ## Fields

What is read between the values, and in front of them. -/

namespace Parser

theorem raises_readToken (naming : Naming) : (readToken naming).Raises := by
  cases naming
  · exact FieldToken.raises_readName
  · exact FieldToken.raises_readLabel

/-- A missing separator is reported where it should have been, and one behind which no value follows
at itself. -/
theorem raises_readSeparator (bare : Bool) : (readSeparator bare).Raises := by
  intro c e d h
  rw [readSeparator] at h
  dsimp only at h
  split at h
  · split at h <;> cases h
    exact .inColumn trivial (Cursor.Reaches.skipSpace c).column_le
      (Nat.le_trans (Cursor.Reaches.trans (.next _) (.skipSpace _)).column_le
        (Cursor.column_le_skipPair _))
  · split at h
    · cases h
    · split at h <;> cases h
      · exact .here trivial (.skipSpace c)
      · exact .here trivial (.skipSpace c)

end Parser
end Criteria
