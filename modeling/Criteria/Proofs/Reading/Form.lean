import Criteria.Parse.Entry
import Criteria.Proofs.Reading.Literal
import Criteria.Proofs.Reading.Scanner

/-!
# Reading values

The form of a value is found by looking ahead, and then read by a reader of its own.  The grammar
knows nothing of this; the two agree because a text without quotes ends before a bracket or a `~`
whoever reads it, and because a value is followed by white space and a sign.

The two directions are not quite converse to each other.  What is read is in the grammar whatever
follows it.  What is in the grammar is read only if nothing behind it could be taken for a part of
it: a text without quotes goes on as far as it can, and a closing bracket may stand behind blanks.
`ValueEnds` says what is needed, white space or a sign, and it is what the grammar of fields
provides.

## What is here

* `ValueEnds` — what may follow a value.
* `Form.isRangeAt_literal` — looking ahead behind a text tells whether it is the bound of a range.
* `Form.valueText_of_read` — what is read and taken by the field is a value of the grammar.
* `Form.read_of_valueText` — a value of the grammar is read, if it is followed as values are.

The reader looks ahead for a `~` behind the first text, over blanks, and decides for a range.  It
looks on the assumption that this is a range, that is, taking brackets for ends; so it has to be
seen that a simple value is not cut short by this, which is the point of `isRangeAt_literal`.
-/

set_option autoImplicit false

namespace Criteria

open Grammar

/-! ## Looking ahead

What looking ahead finds in front of a text of the grammar depends on the text only through what is
behind it. -/

/-- What may follow a value. -/
def ValueEnds (rest : List Char) : Prop :=
  ∀ x ∈ (rest.dropWhile Unicode.isSpace).head?, x ∈ [',', ';', ')']

/-- Behind a value there is white space, a sign, or nothing. -/
theorem head_of_valueEnds {rest : List Char} (h : ValueEnds rest) :
    ∀ x ∈ rest.head?, Unicode.isSpace x = true ∨ x ∈ [',', ';', ')'] := by
  intro x hx
  by_cases hs : Unicode.isSpace x = true
  · exact .inl hs
  · refine .inr (h x ?_)
    rwa [dropWhile_of_stops fun y hy => by
      rw [Option.mem_unique hy hx]
      simpa using hs]

/-- Blanks behind a value make no difference. -/
theorem valueEnds_dropWhile_isBlank {rest : List Char} (h : ValueEnds rest) :
    ValueEnds (rest.dropWhile Text.isBlank) := by
  have hrun : Spaces rest (rest.dropWhile Text.isBlank) :=
    (run_dropWhile Text.isBlank rest).mono fun _ => Text.isSpace_of_isBlank
  rwa [ValueEnds, ← hrun.dropWhile_eq]

/-- A text that a value ends with ends in front of what follows the value. -/
theorem Literal.endsBefore_of_valueEnds {rest : List Char} (bound : Bool) (h : ValueEnds rest) :
    EndsBefore bound rest := by
  intro x hx
  rw [Text.endsLiteral_iff]
  refine (head_of_valueEnds h x hx).imp_right fun hm => .inl ?_
  simp only [List.mem_cons, List.not_mem_nil, or_false] at hm ⊢
  grind

namespace Form

variable {field : Field} {c d : Cursor} {cs rest : List Char} {s : String}

/-- A text starts with a plain character or a quote. -/
theorem head_of_literalText (h : LiteralText cs rest s) :
    ∃ x xs, cs = x :: xs ∧ (isPlain x = true ∨ x = '"') := by
  cases h with
  | bare hne hs hc =>
    obtain ⟨x, xs, hx⟩ := List.exists_cons_of_ne_nil hne
    exact ⟨x, xs ++ rest, by rw [hc, hx, List.cons_append], .inl (hs x (by simp [hx]))⟩
  | quoted _ hc => exact ⟨'"', _, hc, .inr rfl⟩

/-- A text starts with no white space and with no sign. -/
theorem not_mem_of_isPlain {x : Char} (h : isPlain x = true ∨ x = '"') :
    Unicode.isSpace x = false ∧ x ∉ Text.reserved := by
  rcases h with h | rfl
  · obtain ⟨hs, -, hr⟩ := Text.isPlain_iff.1 h
    exact ⟨hs, fun hm => by rw [Text.isReserved, List.contains_iff_mem.2 hm] at hr; cases hr⟩
  · decide

/-- Behind a text, in quotes or not, it is the `~` that makes a range. -/
theorem startsRange_literal (h : LiteralText cs rest s) (hr : Literal.EndsBefore true rest) :
    startsRange cs = ((rest.dropWhile Text.isBlank).head? == some '~') := by
  cases h with
  | bare hne hs hc =>
    obtain ⟨x, xs, hx⟩ := List.exists_cons_of_ne_nil hne
    have hplain := hs x (by simp [hx])
    have hquote : x ≠ '"' := (Text.isPlain_iff.1 hplain).2.1
    have hall : ∀ y ∈ s.toList, (!Text.endsLiteral true y) = true := fun y hy => by
      rw [Text.endsLiteral_of_isPlain true (hs y hy), Bool.not_false]
    -- the text is passed as a whole, and nothing behind it
    have hdrop : cs.dropWhile (fun y => !Text.endsLiteral true y) = rest := by
      rw [hc, List.dropWhile_append_of_pos hall]
      exact dropWhile_of_stops fun y hy => by rw [hr y hy, Bool.not_true]
    have hhead : cs = x :: (xs ++ rest) := by rw [hc, hx, List.cons_append]
    rw [hhead] at hdrop ⊢
    simp only [startsRange, List.head?_cons, Option.all_some,
      Text.endsLiteral_of_isPlain true hplain, hdrop, Bool.false_eq_true, if_false]
    split
    · next he =>
      split at he
      · next hq => exact absurd (List.cons.inj hq).1 hquote
      · rw [Option.some.inj he]
    · next he =>
      split at he
      · next hq => exact absurd (List.cons.inj hq).1 hquote
      · cases he
  | quoted _ hc =>
    have hquote : rest.head? ≠ some '"' := fun he => absurd (hr '"' he) (by decide)
    rw [hc, startsRange]
    simp only [Text.Quoted.skip_double _ hquote]

/-- Looking ahead behind a text tells whether it is the bound of a range. -/
theorem isRangeAt_literal (h : LiteralText cs rest s) (hr : Literal.EndsBefore true rest) :
    isRangeAt cs = ((rest.dropWhile Text.isBlank).head? == some '~') := by
  obtain ⟨x, xs, hx, hplain⟩ := head_of_literalText h
  have hm := (not_mem_of_isPlain hplain).2
  have ho : x ≠ '[' := fun e => hm (by rw [e]; decide)
  have hc : x ≠ ']' := fun e => hm (by rw [e]; decide)
  rw [← startsRange_literal h hr, hx]
  simp [isRangeAt, ho, hc]

/-- A text starts a range only if it does not start with white space. -/
theorem stops_of_isRangeAt (h : isRangeAt cs = true) : Stops Unicode.isSpace cs := by
  cases cs with
  | nil => simp
  | cons x cs =>
    rw [stops_cons, Bool.eq_false_iff]
    intro hs
    have hx : ∀ y, Unicode.isSpace y = false → x ≠ y := by
      rintro y hy rfl
      rw [hy] at hs
      cases hs
    have he : Text.endsLiteral true x = true := Text.endsLiteral_iff.2 (.inl hs)
    simp [isRangeAt, startsRange, hx '[' (by decide), hx ']' (by decide), hx '"' (by decide),
      he] at h

/-- A value with no sign in front of it is a range or simple. -/
theorem kindAt_eq (h : ∀ x ∈ cs.head?, x ∉ ['~', '<', '>', '!']) :
    kindAt cs = if isRangeAt cs then .range else .simple := by
  cases cs with
  | nil => rfl
  | cons x cs =>
    have hx : x ∉ ['~', '<', '>', '!'] := h x rfl
    simp only [List.mem_cons, List.not_mem_nil, or_false, not_or] at hx
    simp [kindAt, hx]

/-! ## What is read is in the grammar

Each reader is taken apart, and each of its parts found in the grammar: signs, brackets, texts, and
the blanks between them. -/

/-! ### Texts and signs

A text that the field takes is a value.  The sign in front of it was recognized by its characters,
which are dropped; what is dropped is the sign that the grammar writes there. -/

/-- A text that its field takes is a value of the field. -/
theorem resolve_eq_ok {l : Literal} {v : Value} (h : l.resolve field = .ok v) :
    field.converter.read l.text = .ok v := by
  rw [Literal.resolve] at h
  split at h
  · next hv => rw [hv, Except.ok.inj h]
  · cases h

/-- A text that is read and taken by the field. -/
theorem literalValue_of_read {bound : Bool} {l : Literal} {v : Value}
    (h : Literal.read bound c = .ok l d) (hv : l.resolve field = .ok v) :
    LiteralValue field c.rest d.rest v :=
  ⟨l.text, Literal.literalText_of_read h, resolve_eq_ok hv⟩

/-- What was read for an operator is the sign of it. -/
theorem operator_of_readOperator {o : Operator} (h : readOperator c = .ok o d) :
    c.rest = o.symbol.toList ++ d.rest := by
  rw [readOperator] at h
  split at h
  · cases h
  · next o' n ho =>
    cases h
    rw [Cursor.rest_advance]
    rw [operatorAt?.eq_def] at ho
    split at ho <;> cases ho <;> next hc => rw [hc]; rfl

/-- A sign that may stand in front of a text, cut off. -/
theorem optional_append_drop (a : Char) (cs : List Char) :
    (if cs.head? == some a then [a] else []) ++ cs.drop (cs.head? == some a).toNat = cs := by
  cases cs with
  | nil => rfl
  | cons x cs =>
    by_cases hx : x = a
    · simp [hx]
    · simp [beq_false_of_ne hx]

/-- A place in a text is found by its sign. -/
theorem symbol_of_ofSymbol? {x : Char} {place : Place} (h : Place.ofSymbol? x = some place) :
    place.symbol = x := by
  rw [Place.ofSymbol?.eq_def] at h
  split at h <;> cases h <;> rfl

/-- What was read for the operator of a pattern is the sign of it, whatever the pattern looks
for. -/
theorem mark_of_readMatcher {ignoresCase : Bool} {m : Matcher} (text : String)
    (h : readMatcher c = .ok (ignoresCase, m) d) :
    c.rest = patternMark ⟨m, text, ignoresCase⟩ ++ d.rest := by
  rw [readMatcher] at h
  split at h
  · cases h
  · next i m' n hm =>
    cases h
    rw [Cursor.rest_advance]
    rw [matcherAt?.eq_def] at hm
    split at hm
    · next cs hc =>
      obtain ⟨place, hp, he⟩ := Option.map_eq_some_iff.1 hm
      obtain ⟨x, hx, hs⟩ := Option.bind_eq_some_iff.1 hp
      obtain ⟨tail, ht⟩ := List.head?_eq_some_iff.1 hx
      cases he
      -- both signs are optional, and each of them moves what is behind it
      clear hm hp hx
      have hi := optional_append_drop 'i' cs
      have hn := optional_append_drop '!' (cs.drop (cs.head? == some 'i').toNat)
      generalize (cs.head? == some 'i') = i at *
      generalize ((cs.drop i.toNat).head? == some '!') = n at *
      have hd : ('~' :: cs).drop (2 + i.toNat + n.toNat) = tail := by
        rw [show 2 + i.toNat + n.toNat = i.toNat + n.toNat + 1 + 1 by omega, List.drop_succ_cons,
          ← List.drop_drop, ← List.drop_drop, ht]
        rfl
      rw [hc, hd]
      conv => lhs; rw [← hi, ← hn, ht]
      simp [patternMark, symbol_of_ofSymbol? hs]
    · cases hm

/-! ### Ranges

Blanks are skipped between the parts of a range.  In the grammar those beside a bracket belong to
the bracket, and so there are none where no bracket is. -/

/-- Blanks in front of the lower bound are read only behind a bracket: without one, a range would
not have been found ahead. -/
theorem rangeStart_of_readOpeningBracket {li : Bool} (h : readOpeningBracket c = .ok li d)
    (hs : isRangeAt c.rest = true) : RangeStart false c.rest d.skipBlanks.rest li := by
  rw [readOpeningBracket] at h
  split at h
  · next cs hc =>
    cases h
    have hb := c.next.blanks_skipBlanks
    rw [Cursor.rest_next hc] at hb
    exact hc ▸ .included hb
  · next cs hc =>
    cases h
    have hb := c.next.blanks_skipBlanks
    rw [Cursor.rest_next hc] at hb
    exact hc ▸ .excluded hb
  · cases h
    have hb := (stops_of_isRangeAt hs).mono fun _ => Text.isSpace_of_isBlank
    rw [Cursor.skipBlanks, Cursor.skipWhile_of_stops hb]
    exact .bare

/-- A bracket behind the upper bound is there, or is not, in both. -/
theorem rangeEnd_of_readClosingBracket {ui : Option Bool} (h : readClosingBracket c = .ok ui d) :
    RangeEnd c.rest d.rest (ui.getD true) := by
  rw [readClosingBracket] at h
  have hb := c.blanks_skipBlanks
  split at h
  · next cs hc =>
    cases h
    rw [Cursor.rest_next hc]
    exact .excluded (hc ▸ hb)
  · next cs hc =>
    cases h
    rw [Cursor.rest_next hc]
    exact .included (hc ▸ hb)
  · cases h
    exact .bare

/-- A range that was read is one of the grammar, if its field takes both bounds. -/
theorem rangeText_of_readRange {r : RangeForm} {lower upper : Value}
    (h : readRange c = .ok r d) (hs : isRangeAt c.rest = true)
    (hl : r.lower.resolve field = .ok lower) (hu : r.upper.resolve field = .ok upper) :
    RangeText false field c.rest d.rest ⟨lower, upper, r.lowerInclusive, r.upperInclusive⟩ := by
  obtain ⟨li, c₁, hopen, h⟩ := ok_of_bind h
  obtain ⟨_, _, ⟨⟩, h⟩ := ok_of_bind h
  obtain ⟨l₁, c₃, hlower, h⟩ := ok_of_bind h
  obtain ⟨_, _, ⟨⟩, h⟩ := ok_of_bind h
  obtain ⟨_, c₅, htilde, h⟩ := ok_of_bind h
  obtain ⟨_, _, ⟨⟩, h⟩ := ok_of_bind h
  obtain ⟨l₂, c₇, hupper, h⟩ := ok_of_bind h
  obtain ⟨ui, c₈, hclose, ⟨⟩⟩ := ok_of_bind h
  exact .mk (rangeStart_of_readOpeningBracket hopen hs) (literalValue_of_read hlower hl)
    (c₃.blanks_skipBlanks.trans (Scanner.blanks_of_expect rfl htilde)) c₅.blanks_skipBlanks
    (literalValue_of_read hupper hu) (rangeEnd_of_readClosingBracket hclose)

/-! ### Whole values

The four forms are put together, with the `!` in front of two of them. -/

/-- The parts of a comparison or a pattern that is read: what `x` reads, and a text. -/
theorem literalText_of_readMarked {α β : Type} {x : Scanner α} {f : α × Literal → β} {b : β}
    (h : (do
      let mark ← x
      Scanner.skipBlanks
      let literal ← Literal.read false
      return f (mark, literal) : Scanner β) c = .ok b d) :
    ∃ mark literal c₁ c₂, x c = .ok mark c₁ ∧ Blanks c₁.rest c₂.rest ∧
      Literal.read false c₂ = .ok literal d ∧ b = f (mark, literal) := by
  obtain ⟨mark, c₁, hx, h⟩ := ok_of_bind h
  obtain ⟨_, _, ⟨⟩, h⟩ := ok_of_bind h
  obtain ⟨literal, c₃, hl, ⟨⟩⟩ := ok_of_bind h
  exact ⟨mark, literal, c₁, _, hx, c₁.blanks_skipBlanks, hl, rfl⟩

/-- A range is found ahead behind a `!`, or where there is none. -/
theorem isRangeAt_of_kindAt (h : kindAt cs = .range) :
    (∃ cs', cs = '!' :: cs' ∧ isRangeAt cs' = true) ∨
      (cs.head? ≠ some '!' ∧ isRangeAt cs = true) := by
  rw [kindAt.eq_def] at h
  split at h
  · cases h
  · cases h
  · cases h
  · next cs' =>
    split at h
    · next hr => exact .inl ⟨cs', rfl, hr⟩
    · cases h
  · next hb =>
    split at h
    · next hr =>
      refine .inr ⟨fun hh => ?_, hr⟩
      obtain ⟨cs', hc⟩ := List.head?_eq_some_iff.1 hh
      exact hb cs' hc
    · cases h

/-- A simple value that was read is one of the grammar. -/
theorem valueText_of_readSimple {form : Form} {entry : Criterion}
    (hs : Stops Unicode.isSpace c.rest) (h : readPlain false c = .ok form d)
    (he : form.resolve field = .ok entry) : ValueText false field c.rest d.rest entry := by
  obtain ⟨excluded, c₁, hbang, h⟩ := ok_of_bind h
  obtain ⟨l, c₂, hl, ⟨⟩⟩ := ok_of_bind h
  rw [resolve] at he
  split at he
  · next v hv =>
    cases he
    have hlit := literalValue_of_read hl hv
    rcases Scanner.bang_of_accept hs hbang with ⟨rfl, hc⟩ | ⟨rfl, rfl, -⟩
    · exact hc ▸ .excluded hlit
    · exact .simple hlit
  · cases he

/-- A range that was read, excluded or not, is one of the grammar. -/
theorem valueText_of_readRange {form : Form} {entry : Criterion} (hk : kindAt c.rest = .range)
    (hs : Stops Unicode.isSpace c.rest) (h : readPlain true c = .ok form d)
    (he : form.resolve field = .ok entry) : ValueText false field c.rest d.rest entry := by
  obtain ⟨excluded, c₁, hbang, h⟩ := ok_of_bind h
  obtain ⟨r, c₂, hr, ⟨⟩⟩ := ok_of_bind h
  rw [resolve] at he
  split at he
  · next lower upper hl hu =>
    cases he
    rcases Scanner.bang_of_accept hs hbang with ⟨rfl, hc⟩ | ⟨rfl, rfl, hb⟩
    · rcases isRangeAt_of_kindAt hk with ⟨cs, hc', ha⟩ | ⟨hb, -⟩
      · cases hc.symm.trans hc'
        exact hc ▸ .excludedRange (rangeText_of_readRange hr ha hl hu)
      · exact absurd (by rw [hc]; rfl) hb
    · rcases isRangeAt_of_kindAt hk with ⟨cs, hc', -⟩ | ⟨-, ha⟩
      · exact absurd (by rw [hc']; rfl) hb
      · exact .range (rangeText_of_readRange hr ha hl hu)
  all_goals cases he

/-- What is read and taken by the field is a value of the grammar. -/
theorem valueText_of_read {form : Form} {entry : Criterion} (hs : Stops Unicode.isSpace c.rest)
    (h : read c = .ok form d) (he : form.resolve field = .ok entry) :
    ValueText false field c.rest d.rest entry := by
  rw [read] at h
  split at h
  · obtain ⟨⟨o, l⟩, hx, rfl⟩ := ok_of_map h
    obtain ⟨o, l, c₁, c₂, ho, hb, hl, ⟨⟩⟩ := literalText_of_readMarked (f := id) hx
    rw [resolve] at he
    split at he
    · next v hv =>
      cases he
      exact .comparison (operator_of_readOperator ho) hb (literalValue_of_read hl hv)
    · cases he
  · obtain ⟨p, hx, rfl⟩ := ok_of_map h
    obtain ⟨⟨i, m⟩, l, c₁, c₂, hm, hb, hl, rfl⟩ := literalText_of_readMarked
      (f := fun r : (Bool × Matcher) × Literal => PatternForm.mk r.1.2 r.1.1 r.2) hx
    cases he
    exact .pattern (mark_of_readMatcher l.text hm) hb (Literal.literalText_of_read hl)
  · next hk => exact valueText_of_readRange hk hs h he
  · exact valueText_of_readSimple hs h he

/-! ## What is in the grammar is read

Here the reader is run on a text that is known.  In each place it must be told that it takes no more
than the grammar does, and that looking ahead finds the form which the grammar gives. -/

/-! ### Texts behind signs

A sign could go on in the text behind it, `>` as `>=` say.  It does not, because no text starts with
a reserved character. -/

/-- The first signs of values are reserved, so no text starts with one. -/
theorem mem_reserved_of_mark {x : Char} (h : x ∈ ['~', '<', '>', '!']) : x ∈ Text.reserved := by
  have hall : ∀ y ∈ ['~', '<', '>', '!'], y ∈ Text.reserved := forall_mem_of_all (by decide)
  exact hall x h

theorem stops_of_literalText (h : LiteralText cs rest s) : Stops Unicode.isSpace cs := by
  obtain ⟨x, xs, rfl, hx⟩ := head_of_literalText h
  exact (stops_cons ..).2 (not_mem_of_isPlain hx).1

theorem stops_isBlank_of_literalText (h : LiteralText cs rest s) : Stops Text.isBlank cs :=
  (stops_of_literalText h).mono fun _ => Text.isSpace_of_isBlank

/-- A text starts with none of the reserved signs. -/
theorem head_ne_of_literalText {x : Char} (h : LiteralText cs rest s) (hx : x ∈ Text.reserved) :
    cs.head? ≠ some x := by
  obtain ⟨y, ys, rfl, hy⟩ := head_of_literalText h
  rw [List.head?_cons, Ne, Option.some_inj]
  rintro rfl
  exact (not_mem_of_isPlain hy).2 hx

/-- A text that the field takes is read, and then taken. -/
theorem read_of_literalValue {bound : Bool} {v : Value} (h : LiteralValue field c.rest rest v)
    (hr : Literal.EndsBefore bound rest) :
    ∃ l d, Literal.read bound c = .ok l d ∧ l.resolve field = .ok v ∧ d.rest = rest := by
  obtain ⟨s, hs, hv⟩ := h
  obtain ⟨l, d, hl, rfl, hd⟩ := Literal.read_of_literalText hs hr
  exact ⟨l, d, hl, by rw [Literal.resolve, hv], hd⟩

/-- An operator is read for its longest sign, so what is behind it must not make it longer. -/
theorem readOperator_of_mark {o : Operator} (h : c.rest = o.symbol.toList ++ cs)
    (he : cs.head? ≠ some '=') (hg : cs.head? ≠ some '>') :
    ∃ d, readOperator c = .ok o d ∧ d.rest = cs := by
  have ho : operatorAt? c.rest = some (o, o.symbol.toList.length) := by
    rw [h]
    cases o with
    | lessOrEqual | notEqual | greaterOrEqual => rfl
    | less | greater =>
      cases cs with
      | nil => rfl
      | cons x cs =>
        have he' : x ≠ '=' := by simpa using he
        have hg' : x ≠ '>' := by simpa using hg
        simp [Operator.symbol, operatorAt?, he', hg']
  refine ⟨c.advance o.symbol.toList.length, ?_, ?_⟩
  · simp only [readOperator, ho]
  · rw [Cursor.rest_advance, h, List.drop_left]

/-- The operator of a pattern is read, whatever is behind it. -/
theorem readMatcher_of_mark {p : Pattern} (h : c.rest = patternMark p ++ cs) :
    ∃ d, readMatcher c = .ok (p.ignoresCase, p.matcher) d ∧ d.rest = cs := by
  have hm : matcherAt? c.rest = some (p.ignoresCase, p.matcher, (patternMark p).length) := by
    rw [h]
    obtain ⟨⟨place, negated⟩, text, ignoresCase⟩ := p
    cases place <;> cases negated <;> cases ignoresCase <;> rfl
  refine ⟨c.advance (patternMark p).length, ?_, ?_⟩
  · simp only [readMatcher, hm]
  · rw [Cursor.rest_advance, h, List.drop_left]

/-- A comparison or a pattern is read: what `x` reads, and a text. -/
theorem readMarked_of_literalText {α β : Type} {x : Scanner α} {f : α × Literal → β} {mark : α}
    {c₂ : List Char} (hx : x c = .ok mark d) (hb : Blanks d.rest c₂) (hl : LiteralText c₂ rest s)
    (hr : Literal.EndsBefore false rest) :
    ∃ l e, (do
      let mark ← x
      Scanner.skipBlanks
      let literal ← Literal.read false
      return f (mark, literal) : Scanner β) c = .ok (f (mark, l)) e ∧ l.text = s ∧
        e.rest = rest := by
  have hskip := Cursor.rest_skipBlanks_of_blanks hb (stops_isBlank_of_literalText hl)
  obtain ⟨l, e, hl, hs, he⟩ := Literal.read_of_literalText (hskip ▸ hl) hr
  refine ⟨l, e, ?_, hs, he⟩
  rw [bind_of_ok hx, bind_of_ok (Scanner.skipBlanks_eq d), bind_of_ok hl]
  rfl

/-! ### The parts of a range

A bound without quotes ends in front of a bracket as well as in front of a `~`, and in front of the
blanks that may stand there. -/

/-- What is in front of a range is read, up to blanks that are skipped afterwards. -/
theorem readOpeningBracket_of_rangeStart {li : Bool} (h : RangeStart false c.rest cs li)
    (hl : LiteralText cs rest s) : ∃ d, readOpeningBracket c = .ok li d ∧ Blanks d.rest cs := by
  generalize hc : c.rest = cs₀ at h
  cases h with
  | included hb =>
    refine ⟨c.next, ?_, by rwa [Cursor.rest_next hc]⟩
    simp only [readOpeningBracket, hc]
  | excluded hb =>
    refine ⟨c.next, ?_, by rwa [Cursor.rest_next hc]⟩
    simp only [readOpeningBracket, hc]
  | bare =>
    refine ⟨c, ?_, hc ▸ Run.refl ..⟩
    rw [readOpeningBracket]
    split
    · next he =>
      exact absurd (by rw [← hc, he]; rfl) (head_ne_of_literalText hl (x := '[') (by decide))
    · next he =>
      exact absurd (by rw [← hc, he]; rfl) (head_ne_of_literalText hl (x := ']') (by decide))
    · rfl
  | blanks allowed => cases allowed

/-- What is behind a range is read, and no more if there is no bracket. -/
theorem readClosingBracket_of_rangeEnd {ui : Bool} (h : RangeEnd c.rest rest ui)
    (hv : ValueEnds rest) :
    ∃ b d, readClosingBracket c = .ok b d ∧ b.getD true = ui ∧ d.rest = rest := by
  generalize hc : c.rest = cs₀ at h
  cases h with
  | included hb =>
    have hd := Cursor.rest_skipBlanks_of_blanks (hc ▸ hb) ((stops_cons ..).2 rfl)
    exact ⟨some true, c.skipBlanks.next, by simp only [readClosingBracket, hd], rfl,
      Cursor.rest_next hd⟩
  | excluded hb =>
    have hd := Cursor.rest_skipBlanks_of_blanks (hc ▸ hb) ((stops_cons ..).2 rfl)
    exact ⟨some false, c.skipBlanks.next, by simp only [readClosingBracket, hd], rfl,
      Cursor.rest_next hd⟩
  | bare =>
    -- no bracket follows, even behind blanks: a value would not end there
    have hne : ∀ x, Unicode.isSpace x = false → x ∉ [',', ';', ')'] →
        c.skipBlanks.rest.head? ≠ some x := fun x hs hm hx => by
      rw [Cursor.rest_skipBlanks, hc] at hx
      rcases head_of_valueEnds (valueEnds_dropWhile_isBlank hv) x hx with hs' | hm'
      · rw [hs] at hs'
        cases hs'
      · exact hm hm'
    refine ⟨none, c, ?_, rfl, hc⟩
    rw [readClosingBracket]
    split
    · next he => exact absurd (by rw [he]; rfl) (hne '[' (by decide) (by decide))
    · next he => exact absurd (by rw [he]; rfl) (hne ']' (by decide) (by decide))
    · rfl

theorem endsBefore_of_blanks {x : Char} (hx : Text.endsLiteral true x = true)
    (h : Blanks cs (x :: rest)) : Literal.EndsBefore true cs := by
  cases cs with
  | nil => exact fun y hy => by cases hy
  | cons y cs =>
    intro z hz
    cases hz
    rcases h.head with hb | rfl
    · exact Text.endsLiteral_iff.2 (.inl (Text.isSpace_of_isBlank hb))
    · exact hx

/-- The upper bound ends before its bracket, or where the value ends. -/
theorem endsBefore_of_rangeEnd {ui : Bool} (h : RangeEnd cs rest ui) (hv : ValueEnds rest) :
    Literal.EndsBefore true cs := by
  cases h with
  | included hb => exact endsBefore_of_blanks (by decide) hb
  | excluded hb => exact endsBefore_of_blanks (by decide) hb
  | bare => exact Literal.endsBefore_of_valueEnds true hv

/-! ### The form that is found

For each form of the grammar it is shown what looking ahead finds, and then what the reader of this
form does. -/

/-- A range of the grammar is found ahead. -/
theorem isRangeAt_of_rangeText {r : Range} (h : RangeText false field cs rest r) :
    isRangeAt cs = true := by
  obtain ⟨hstart, ⟨s, hl, -⟩, hbefore, -, -, -⟩ := h
  cases hstart with
  | included => rfl
  | excluded => rfl
  | bare =>
    rw [isRangeAt_literal hl (endsBefore_of_blanks (by decide) hbefore),
      ← hbefore.eq_dropWhile ((stops_cons ..).2 rfl)]
    rfl
  | blanks allowed => cases allowed

/-- A range of the grammar is read. -/
theorem readRange_of_rangeText {r : Range} (h : RangeText false field c.rest rest r)
    (hv : ValueEnds rest) :
    ∃ f d, readRange c = .ok f d ∧ f.lower.resolve field = .ok r.lower ∧
      f.upper.resolve field = .ok r.upper ∧ f.lowerInclusive = r.lowerInclusive ∧
      f.upperInclusive = r.upperInclusive ∧ d.rest = rest := by
  cases h with
  | mk hstart hfirst hbefore hbehind hsecond hfinish =>
    obtain ⟨s₁, hl₁, -⟩ := id hfirst
    obtain ⟨s₂, hl₂, -⟩ := id hsecond
    obtain ⟨d₁, hopen, hb₁⟩ := readOpeningBracket_of_rangeStart hstart hl₁
    have hd₁ := Cursor.rest_skipBlanks_of_blanks hb₁ (stops_isBlank_of_literalText hl₁)
    obtain ⟨l₁, d₂, hlower, hr₁, hd₂⟩ :=
      read_of_literalValue (hd₁ ▸ hfirst) (endsBefore_of_blanks (by decide) hbefore)
    have htilde := (hd₂ ▸ hbefore).to_stops d₂.blanks_skipBlanks ((stops_cons ..).2 rfl)
    obtain ⟨d₃, hexpect, hd₃⟩ := Scanner.expect_of_blanks "~" rfl rfl htilde
    have hd₄ := Cursor.rest_skipBlanks_of_blanks (hd₃ ▸ hbehind) (stops_isBlank_of_literalText hl₂)
    obtain ⟨l₂, d₅, hupper, hr₂, hd₅⟩ :=
      read_of_literalValue (hd₄ ▸ hsecond) (endsBefore_of_rangeEnd hfinish hv)
    obtain ⟨ui, d₆, hclose, rfl, hd₆⟩ := readClosingBracket_of_rangeEnd (hd₅ ▸ hfinish) hv
    refine ⟨⟨l₁, l₂, _, ui.getD true, ui.isSome⟩, d₆, ?_, hr₁, hr₂, rfl, rfl, hd₆⟩
    rw [readRange, bind_of_ok hopen, bind_of_ok (Scanner.skipBlanks_eq d₁), bind_of_ok hlower,
      bind_of_ok (Scanner.skipBlanks_eq d₂), bind_of_ok hexpect,
      bind_of_ok (Scanner.skipBlanks_eq d₃), bind_of_ok hupper, bind_of_ok hclose]
    rfl

/-- A simple value is not taken for a range. -/
theorem isRangeAt_of_literalText (h : LiteralText cs rest s) (hv : ValueEnds rest) :
    isRangeAt cs = false := by
  rw [isRangeAt_literal h (Literal.endsBefore_of_valueEnds true hv), beq_eq_false_iff_ne]
  intro ht
  rcases head_of_valueEnds (valueEnds_dropWhile_isBlank hv) '~' ht with hs | hm
  · exact absurd hs (by decide)
  · exact absurd hm (by decide)

/-- A range starts with no sign of the other forms. -/
theorem head_of_rangeText {r : Range} (h : RangeText false field cs rest r) :
    ∀ x ∈ cs.head?, x ∉ ['~', '<', '>', '!'] := by
  obtain ⟨hstart, ⟨s, hl, -⟩, -, -, -, -⟩ := h
  cases hstart with
  | included => exact fun x hx => by cases hx; decide
  | excluded => exact fun x hx => by cases hx; decide
  | bare => exact fun x hx hm => head_ne_of_literalText hl (mem_reserved_of_mark hm) hx
  | blanks allowed => cases allowed

theorem kindAt_bang {excluded : Bool} (h : ∀ x ∈ cs.head?, x ∉ ['~', '<', '>', '!']) :
    kindAt (Scanner.bang excluded cs) = if isRangeAt cs then .range else .simple := by
  cases excluded with
  | true => rfl
  | false => exact kindAt_eq h

/-- A text of the grammar is read as a value, with or without a `!` in front of it. -/
theorem read_of_simple (excluded : Bool) {v : Value} (hc : c.rest = Scanner.bang excluded cs)
    (h : LiteralValue field cs rest v) (hv : ValueEnds rest) :
    ∃ form d, read c = .ok form d ∧
      form.resolve field = .ok (if excluded then .excluded v else .simple v) ∧ d.rest = rest := by
  obtain ⟨s, hl, -⟩ := id h
  have hhead : ∀ x ∈ cs.head?, x ∉ ['~', '<', '>', '!'] := fun x hx hm =>
    head_ne_of_literalText hl (mem_reserved_of_mark hm) hx
  have hk : kindAt c.rest = .simple := by
    rw [hc, kindAt_bang hhead, isRangeAt_of_literalText hl hv]
    rfl
  obtain ⟨c₁, hbang, rfl⟩ := Scanner.accept_of_bang hc (stops_of_literalText hl)
    fun hb => hhead '!' hb (by decide)
  obtain ⟨l, d, hread, hr, hd⟩ :=
    read_of_literalValue h (Literal.endsBefore_of_valueEnds false hv)
  refine ⟨.simple excluded l, d, ?_, by rw [resolve, hr], hd⟩
  simp only [read, hk]
  rw [readPlain, bind_of_ok hbang]
  exact bind_of_ok hread

/-- A range of the grammar is read as a value, with or without a `!` in front of it. -/
theorem read_of_range (excluded : Bool) {r : Range} (hc : c.rest = Scanner.bang excluded cs)
    (h : RangeText false field cs rest r) (hv : ValueEnds rest) :
    ∃ form d, read c = .ok form d ∧
      form.resolve field = .ok (if excluded then .excludedRange r else .range r) ∧
        d.rest = rest := by
  have hhead := head_of_rangeText h
  have hk : kindAt c.rest = .range := by
    rw [hc, kindAt_bang hhead, isRangeAt_of_rangeText h]
    rfl
  obtain ⟨c₁, hbang, rfl⟩ := Scanner.accept_of_bang hc
    (stops_of_isRangeAt (isRangeAt_of_rangeText h)) fun hb => hhead '!' hb (by decide)
  obtain ⟨f, d, hread, hl, hu, hli, hui, hd⟩ := readRange_of_rangeText h hv
  refine ⟨.range excluded f, d, ?_, ?_, hd⟩
  · simp only [read, hk]
    rw [readPlain, bind_of_ok hbang]
    exact bind_of_ok hread
  · rw [resolve, hl, hu, hli, hui]

/-- A comparison is told by its operator. -/
theorem kindAt_symbol (o : Operator) (cs : List Char) :
    kindAt (o.symbol.toList ++ cs) = .comparison := by
  cases o <;> rfl

/-- A value of the grammar is read, if it is followed as values are. -/
theorem read_of_valueText {entry : Criterion} (h : ValueText false field c.rest rest entry)
    (hv : ValueEnds rest) :
    ∃ form d, read c = .ok form d ∧ form.resolve field = .ok entry ∧ d.rest = rest := by
  have hends := Literal.endsBefore_of_valueEnds false hv
  generalize hc : c.rest = cs at h
  cases h with
  | simple hl => exact read_of_simple false hc hl hv
  | excluded hl => exact read_of_simple true hc hl hv
  | range hr => exact read_of_range false hc hr hv
  | excludedRange hr => exact read_of_range true hc hr hv
  | @comparison _ c₁ _ _ o v hmark hb hl =>
    obtain ⟨s, hs, hr⟩ := hl
    have hhead : ∀ x, Text.isBlank x = false → x ∈ Text.reserved → c₁.head? ≠ some x :=
      fun x hx hm he => head_ne_of_literalText hs hm (hb.head?_eq he hx)
    obtain ⟨d, ho, rfl⟩ := readOperator_of_mark (hc.trans hmark)
      (hhead '=' (by decide) (by decide)) (hhead '>' (by decide) (by decide))
    obtain ⟨l, e, hread, rfl, he⟩ := readMarked_of_literalText (f := id) ho hb hs hends
    refine ⟨.comparison o l, e, ?_, by rw [resolve, Literal.resolve, hr], he⟩
    simp only [read, hc, hmark, kindAt_symbol]
    exact map_of_ok hread
  | pattern hmark hb hl =>
    obtain ⟨d, hm, rfl⟩ := readMatcher_of_mark (hc.trans hmark)
    obtain ⟨l, e, hread, ht, he⟩ := readMarked_of_literalText
      (f := fun r : (Bool × Matcher) × Literal => PatternForm.mk r.1.2 r.1.1 r.2) hm hb hl hends
    refine ⟨.pattern ⟨_, _, l⟩, e, ?_, by rw [resolve, ht], he⟩
    simp only [read, hc, hmark, patternMark, List.cons_append, kindAt]
    exact map_of_ok hread

end Form
end Criteria
