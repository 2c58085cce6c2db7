import Criteria.Proofs.Reading.Columns
import Criteria.Proofs.Reading.Form
import Criteria.Proofs.Reading.Frame

/-!
# Reading a part of a text

A reader does in a longer text what it does in a part of it, only that the places differ.

`Frame.Carries` is a simulation between two readers, the one in the part and the one in the longer
text: the results differ only by a function that is named, the faults only by their columns, and the
places by the frame.  The two readers need not be the same, since the second part of a composed
reader is given what the first part has read, columns and all.

The simulation asks for a text that the frame admits, and leaves one.  It is this second half that
makes it close under composition: the second reader starts where the first one ended.

## What is here

* `Diagnostic.shift`, `Form.shift` — what is read, further on in the text.
* `Frame.Carries` — the reader does the same in the longer text; `Carries.bind` derives this for a
  composed reader.
* `Frame.carries_readForm` — values are read alike, by one lemma for each reader in them.
* `Frame.carries_readToken`, `Frame.carries_readSeparator` — so is what stands around them.
-/

set_option autoImplicit false

namespace Criteria

open Grammar

/-! ## What is read

A text remembers its column, for the case that its field refuses it.  Apart from this, what is read
does not know where it stood. -/

/-- The fault so many characters further on. -/
def Diagnostic.shift (k : Nat) (d : Diagnostic) : Diagnostic :=
  { d with column := d.column + k }

/-- The text so many characters further on. -/
def Literal.shift (k : Nat) (l : Literal) : Literal :=
  { l with column := l.column + k }

/-- The value so many characters further on. -/
def Form.shift (k : Nat) : Form → Form
  | simple excluded l => simple excluded (l.shift k)
  | range excluded r => range excluded { r with lower := r.lower.shift k, upper := r.upper.shift k }
  | comparison operator l => comparison operator (l.shift k)
  | pattern p => pattern { p with text := p.text.shift k }

@[simp] theorem shift_inColumn (f : Fault) (column k : Nat) :
    (f.inColumn column).shift k = f.inColumn (column + k) := rfl

namespace Frame

variable {F : Frame} {α β γ δ : Type}

/-! ## Readers

A simulation holds of a composed reader if it holds of the parts, and of the tokens as long as they
are no `;`, which is where a sealed text ends. -/

/-- The result in the longer text. -/
def result (F : Frame) (g : α → β) :
    EStateM.Result Diagnostic Cursor α → EStateM.Result Diagnostic Cursor β
  | .ok a c => .ok (g a) (F.place c)
  | .error d c => .error (d.shift F.chars) (F.place c)

/-- What `x` does in the part, `y` does in the longer text, with `g` of the result; and it stays in
front of the end of the part. -/
def Carries (F : Frame) (g : α → β) (x : Scanner α) (y : Scanner β) : Prop :=
  ∀ c : Cursor, F.Admits c.rest →
    y (F.place c) = F.result g (x c) ∧ F.Admits (Scanner.final (x c)).rest

namespace Carries

theorem pure (g : α → β) (a : α) : F.Carries g (pure a) (pure (g a)) :=
  fun _ h => ⟨rfl, h⟩

/-- What the first reader gives is changed by `g` in the longer text, so the second one is compared
for both. -/
theorem bind {g : α → β} {g' : γ → δ} {x : Scanner α} {y : Scanner β} {f : α → Scanner γ}
    {f' : β → Scanner δ} (hx : F.Carries g x y) (hf : ∀ a, F.Carries g' (f a) (f' (g a))) :
    F.Carries g' (x >>= f) (y >>= f') := by
  intro c h
  obtain ⟨hy, ha⟩ := hx c h
  show EStateM.bind y f' (F.place c) = F.result g' (EStateM.bind x f c) ∧
    F.Admits (Scanner.final (EStateM.bind x f c)).rest
  rw [EStateM.bind, EStateM.bind, hy]
  cases hxc : x c with
  | ok a d =>
    rw [hxc] at ha
    exact hf a d ha
  | error d e =>
    rw [hxc] at ha
    exact ⟨rfl, ha⟩

/-- A result may be changed further, in both texts in the same way. -/
theorem map {g : α → β} {g' : γ → δ} {x : Scanner α} {y : Scanner β} {f : α → γ} {f' : β → δ}
    (hx : F.Carries g x y) (hf : ∀ a, f' (g a) = g' (f a)) :
    F.Carries g' (x.map f) (y.map f') := by
  intro c h
  obtain ⟨hy, ha⟩ := hx c h
  rw [EStateM.map, EStateM.map, hy]
  cases hxc : x c with
  | ok a d =>
    rw [hxc] at ha
    exact ⟨congrArg (EStateM.Result.ok · (F.place d)) (hf a), ha⟩
  | error d e =>
    rw [hxc] at ha
    exact ⟨rfl, ha⟩

/-- Failing looks at the next character, which is the same in both texts. -/
theorem fail (f : Option Char → Fault) (g : α → β) :
    F.Carries g (Scanner.fail f) (Scanner.fail f) := by
  intro c h
  rw [Scanner.fail, rest_place, h.head?_append]
  exact ⟨rfl, h⟩

theorem skipBlanks : F.Carries id Scanner.skipBlanks Scanner.skipBlanks := by
  intro c h
  rw [Scanner.skipBlanks_eq, skipBlanks_place h]
  exact ⟨rfl, h.skipBlanks⟩

/-- A token of one character, other than `;`. -/
theorem accept (token : String) {x : Char} (ht : token.toList = [x]) (hx : x ≠ ';') :
    F.Carries id (Scanner.accept token) (Scanner.accept token) := by
  intro c h
  have hprefix : ∀ cs : List Char, [x].isPrefixOf cs = (cs.head? == some x) := fun cs => by
    cases cs <;> simp [List.isPrefixOf, BEq.comm]
  have hlength : token.length = 1 := by rw [← String.length_toList, ht]; rfl
  have hd := h.skipBlanks
  rw [Scanner.accept, Scanner.accept, skipBlanks_place h, ht, hlength, hprefix, hprefix,
    rest_place, hd.head?_append]
  split
  · next hhead =>
    obtain ⟨cs, hcs⟩ := List.head?_eq_some_iff.1 (beq_iff_eq.1 hhead)
    exact ⟨congrArg (EStateM.Result.ok true) (next_place hcs), hd.next hcs hx⟩
  · exact ⟨rfl, hd⟩

/-- A token of one character that has to follow, other than `;`. -/
theorem expect (token : String) {x : Char} (ht : token.toList = [x]) (hx : x ≠ ';') :
    F.Carries id (Scanner.expect token) (Scanner.expect token) := by
  refine (accept token ht hx).bind fun found => ?_
  cases found
  · exact fail _ _
  · exact pure _ _

end Carries

/-! ## Names and labels

Names and labels are looked at up to the first character behind them, and a `;` is such a character:
it is part of neither. -/

section Tokens

variable {cs : List Char}

theorem isNameChar_semicolon : Text.isNameChar ';' = false :=
  Bool.eq_false_iff.2 fun h =>
    (Recovery.isOrdinary_iff.1 (Text.isOrdinary_of_isNameChar h)).2.2.2 rfl

theorem isNameStart_semicolon : Text.isNameStart ';' = false :=
  Bool.eq_false_iff.2 fun h => Text.ne_of_isNameStart h (by decide) rfl

/-- The name at a place is the same in both texts. -/
theorem Admits.nameAt_append (h : F.Admits cs) :
    FieldToken.nameAt (cs ++ F.tail) = FieldToken.nameAt cs := by
  refine h.congr fun hs tail => ?_
  cases hs with
  | last => simp [FieldToken.nameAt, isNameStart_semicolon]
  | cons _ sealed =>
    simp only [FieldToken.nameAt, List.cons_append, sealed.takeWhile_append isNameChar_semicolon]

theorem ne_of_mem_take_nameAt {x : Char} (hx : x ∈ cs.take (FieldToken.nameAt cs).length) :
    x ≠ ';' := by
  rw [← List.prefix_iff_eq_take.1 (FieldToken.prefix_nameAt cs)] at hx
  rintro rfl
  have := FieldToken.isNameChar_of_mem_nameAt hx
  rw [isNameChar_semicolon] at this
  cases this

/-- There is no `;` in a name or in the blanks behind it. -/
theorem ne_of_mem_take_nameLength {x : Char} (hx : x ∈ cs.take (FieldToken.nameLength cs)) :
    x ≠ ';' :=
  (Recovery.isOrdinary_iff.1 (FieldToken.isOrdinary_of_mem_take hx)).2.2.2

/-- The number of characters that a name takes, with the blanks behind it, is the same in both
texts. -/
theorem Admits.nameLength_append (h : F.Admits cs) :
    FieldToken.nameLength (cs ++ F.tail) = FieldToken.nameLength cs := by
  have hn : ∀ x ∈ cs.take (FieldToken.nameAt cs).length, x ≠ ';' := fun x => ne_of_mem_take_nameAt
  rw [FieldToken.nameLength, FieldToken.nameLength, h.nameAt_append, h.drop_append hn,
    (h.drop hn).takeWhile_append rfl]

/-- A name is read alike in both texts, and so is the fault if there is none. -/
theorem carries_readName : F.Carries id FieldToken.readName FieldToken.readName := by
  intro c h
  have hd := h.skipBlanks
  have hn : ∀ x ∈ c.skipBlanks.rest.take (FieldToken.nameLength c.skipBlanks.rest), x ≠ ';' :=
    fun x => ne_of_mem_take_nameLength
  rw [FieldToken.readName, FieldToken.readName, skipBlanks_place h]
  simp only [rest_place, hd.nameAt_append, hd.nameLength_append, hd.drop_append hn,
    (hd.drop hn).head?_append, column_place]
  split
  · next hfound =>
    simp only [Bool.and_eq_true, Bool.or_eq_true, beq_iff_eq] at hfound
    have hn' : ∀ x ∈ c.skipBlanks.rest.take (FieldToken.nameLength c.skipBlanks.rest + 1),
        x ≠ ';' := hfound.2.elim (forall_mem_take_succ hn · (by decide))
      (forall_mem_take_succ hn · (by decide))
    exact ⟨congrArg (EStateM.Result.ok _) (advance_place hd hn'), hd.advance hn'⟩
  · refine ⟨?_, hd⟩
    rw [result, shift_inColumn, Nat.add_right_comm]

/-- A label is read alike in both texts. -/
theorem carries_readLabel : F.Carries id FieldToken.readLabel FieldToken.readLabel := by
  intro c h
  have hd := h.skipBlanks
  have hn := forall_mem_take_takeWhile (p := Text.isLabelChar) rfl c.skipBlanks.rest
  rw [FieldToken.readLabel, FieldToken.readLabel, skipBlanks_place h]
  simp only [rest_place, hd.takeWhile_append (p := Text.isLabelChar) rfl, hd.drop_append hn,
    (hd.drop hn).head?_append, hd.head?_append]
  split
  · next hfound =>
    simp only [Bool.and_eq_true, beq_iff_eq] at hfound
    have hn' := forall_mem_take_succ hn hfound.2 (by decide)
    have he := hd.advance hn'
    rw [advance_place hd hn', rest_place, he.head?_append]
    split
    · exact ⟨rfl, he⟩
    · exact ⟨rfl, he⟩
  · exact ⟨rfl, hd⟩

end Tokens

/-! ## Texts

A text in quotes may go on behind any `;`, so it is the one thing that cannot be read alike in a
sealed text.  But no quote is in a sealed text, and at the end of a longer text nothing has to be
shown. -/

section Literals

variable {cs : List Char} {c : Cursor}

/-- No text in quotes starts in a sealed text. -/
theorem Admits.eq_behind (h : F.Admits cs) (hq : cs.head? = some '"') :
    ∃ bytes chars, F = behind bytes chars := by
  cases F with
  | behind bytes chars => exact ⟨bytes, chars, rfl⟩
  | before tail => exact absurd hq (Sealed.head?_ne h rfl (by decide))

/-- At the end of a longer text, a text in quotes is read as in the part. -/
theorem readQuoted_place (bytes chars : Nat) (c : Cursor) :
    Literal.readQuoted ((behind bytes chars).place c) =
      (behind bytes chars).result (Literal.shift chars) (Literal.readQuoted c) := by
  rw [Literal.readQuoted, Literal.readQuoted]
  simp only [rest_place, tail, List.append_nil]
  split
  · rfl
  · split
    · rw [result, shift_inColumn, column_place]
      congr 2
      omega
    · rw [advance_place_behind]
      rfl

/-- A text without quotes ends before a `;`. -/
theorem carries_readBare (bound : Bool) :
    F.Carries (Literal.shift F.chars) (Literal.readBare bound) (Literal.readBare bound) := by
  intro c h
  have hp : (!Text.endsLiteral bound ';') = false := by cases bound <;> rfl
  have hn := forall_mem_take_takeWhile (p := fun x => !Text.endsLiteral bound x) hp c.rest
  rw [Literal.readBare, Literal.readBare]
  simp only [rest_place, h.takeWhile_append (p := fun x => !Text.endsLiteral bound x) hp,
    h.head?_append]
  split
  · exact ⟨rfl, h⟩
  · split
    · refine ⟨?_, h⟩
      rw [result, shift_inColumn, column_place, Nat.add_right_comm]
    · exact ⟨congrArg (EStateM.Result.ok _) (advance_place h hn), h.advance hn⟩

/-- **A text is read alike in both texts**, with quotes or without. -/
theorem carries_read (bound : Bool) :
    F.Carries (Literal.shift F.chars) (Literal.read bound) (Literal.read bound) := by
  intro c h
  rw [Literal.read, Literal.read, rest_place, h.head?_append]
  split
  · next hq =>
    obtain ⟨bytes, chars, rfl⟩ := h.eq_behind hq
    exact ⟨readQuoted_place bytes chars c, trivial⟩
  · exact carries_readBare bound c h

end Literals

/-! ## Values

The form of a value is found by looking ahead, a long way in the case of a range.  So what is found
has to be compared first; then the readers follow, composed as they are. -/

section Values

variable {cs : List Char}

/-! ### Looking ahead

Each look ahead stops in front of a `;`, or in front of a quote; and there is no quote in a sealed
text. -/

/-- What is read in front of the rest is what is taken off. -/
theorem ne_of_append {mark : List Char} {n : Nat} (h : cs = mark ++ cs.drop n)
    (hm : ';' ∉ mark) : ∀ x ∈ cs.take n, x ≠ ';' := by
  have ht : cs.take n ++ cs.drop n = mark ++ cs.drop n := by rwa [List.take_append_drop]
  rw [List.append_cancel_right ht]
  exact fun x hx hs => hm (hs ▸ hx)

/-- Two characters are enough to tell an operator. -/
theorem operatorAt?_cons_cons (x y : Char) (cs cs' : List Char) :
    Form.operatorAt? (x :: y :: cs) = Form.operatorAt? (x :: y :: cs') := by
  by_cases hl : x = '<' <;> by_cases hg : x = '>' <;> by_cases hne : y = '>' <;>
    by_cases heq : y = '=' <;> simp [Form.operatorAt?, hl, hg, hne, heq]

/-- An operator is the same in both texts. -/
theorem Admits.operatorAt?_append (h : F.Admits cs) :
    Form.operatorAt? (cs ++ F.tail) = Form.operatorAt? cs := by
  refine h.congr fun hs tail => ?_
  cases hs with
  | last => simp [Form.operatorAt?]
  | cons _ sealed =>
    cases sealed with
    | last => exact operatorAt?_cons_cons ..
    | cons => exact operatorAt?_cons_cons ..

/-- A mark that may follow is a `;` neither in the part nor in the longer text. -/
theorem Admits.drop_mark (h : F.Admits cs) {x : Char} (hx : x ≠ ';') :
    F.Admits (cs.drop (cs.head? == some x).toNat) ∧
      (cs ++ F.tail).drop (cs.head? == some x).toNat =
        cs.drop (cs.head? == some x).toNat ++ F.tail := by
  have hn : ∀ y ∈ cs.take (cs.head? == some x).toNat, y ≠ ';' := fun y hy => by
    cases cs with
    | nil => simp at hy
    | cons z zs =>
      by_cases hz : z = x
      · subst hz
        simp at hy
        exact hy ▸ hx
      · have hb : ((z :: zs).head? == some x) = false := by simpa using hz
        rw [hb] at hy
        cases hy
  exact ⟨h.drop hn, h.drop_append hn⟩

/-- The operator of a pattern is the same in both texts, whichever of its three parts are there. -/
theorem Admits.matcherAt?_append (h : F.Admits cs) :
    Form.matcherAt? (cs ++ F.tail) = Form.matcherAt? cs := by
  have hnone : ∀ cs : List Char, cs.head? ≠ some '~' → Form.matcherAt? cs = none := fun cs hc => by
    rw [Form.matcherAt?.eq_def]
    split
    · exact absurd rfl hc
    · rfl
  by_cases hc : cs.head? = some '~'
  · obtain ⟨rest, rfl⟩ := List.head?_eq_some_iff.1 hc
    have hrest : F.Admits rest := h.of_cons (by decide)
    obtain ⟨hi, hie⟩ := hrest.drop_mark (x := 'i') (by decide)
    obtain ⟨hb, hbe⟩ := hi.drop_mark (x := '!') (by decide)
    simp only [List.cons_append, Form.matcherAt?, hrest.head?_append, hie, hi.head?_append, hbe,
      hb.head?_append]
  · rw [hnone cs hc, hnone _ (by rwa [h.head?_append])]

/-- Without quotes, looking for a range is skipping a text and blanks, and comparing one
character. -/
theorem startsRange_eq (hc : cs.head? ≠ some '"') : Form.startsRange cs =
    (!cs.head?.all (Text.endsLiteral true) &&
      ((cs.dropWhile fun c => !Text.endsLiteral true c).dropWhile Text.isBlank).head? ==
        some '~') := by
  rw [Form.startsRange.eq_def]
  split
  · exact absurd rfl hc
  · split <;> simp_all

theorem isRangeAt_eq (cs : List Char) : Form.isRangeAt cs =
    (cs.head? == some '[' || cs.head? == some ']' || Form.startsRange cs) := by
  rw [Form.isRangeAt.eq_def]
  split
  · rfl
  · rfl
  · next hopen hclose => cases cs <;> simp_all

/-- Whether a range follows is the same in both texts. -/
theorem Admits.isRangeAt_append (h : F.Admits cs) :
    Form.isRangeAt (cs ++ F.tail) = Form.isRangeAt cs := by
  refine h.congr fun hs tail => ?_
  have hquote : cs.head? ≠ some '"' := hs.head?_ne rfl (by decide)
  -- looking ahead for a `~` stops at the `;`, where a text without quotes ends
  obtain ⟨hword, hsw⟩ :=
    hs.dropWhile_append (p := fun c => !Text.endsLiteral true c) (by decide) tail
  obtain ⟨hblanks, hsb⟩ := hsw.dropWhile_append (p := Text.isBlank) (by decide) tail
  rw [isRangeAt_eq, isRangeAt_eq, startsRange_eq hquote,
    startsRange_eq (by rwa [hs.head?_append]), hs.head?_append, hword, hblanks, hsb.head?_append]

/-- The form of a value is the same in both texts. -/
theorem Admits.kindAt_append (h : F.Admits cs) :
    Form.kindAt (cs ++ F.tail) = Form.kindAt cs := by
  by_cases hmark : ∀ x ∈ cs.head?, x ∉ ['~', '<', '>', '!']
  · rw [Form.kindAt_eq hmark, Form.kindAt_eq (by rwa [h.head?_append]), h.isRangeAt_append]
  · cases cs with
    | nil => simp at hmark
    | cons x cs =>
      simp only [List.head?_cons, Option.mem_some_iff, forall_eq', List.mem_cons,
        List.not_mem_nil, or_false, Classical.not_not] at hmark
      rcases hmark with rfl | rfl | rfl | rfl
      · rfl
      · rfl
      · rfl
      · simp only [List.cons_append, Form.kindAt, (h.of_cons (by decide)).isRangeAt_append]

/-! ### The readers of values

Each form has a reader of its own, composed of signs, blanks and texts. -/

theorem carries_readOperator : F.Carries id Form.readOperator Form.readOperator := by
  intro c h
  rw [Form.readOperator, Form.readOperator, rest_place, h.operatorAt?_append, h.head?_append]
  split
  · exact ⟨rfl, h⟩
  · next o n ho =>
    have hread : Form.readOperator c = .ok o (c.advance n) := by rw [Form.readOperator, ho]
    have hmark := Form.operator_of_readOperator hread
    rw [Cursor.rest_advance] at hmark
    have hn := ne_of_append hmark (by cases o <;> decide)
    exact ⟨congrArg (EStateM.Result.ok _) (advance_place h hn), h.advance hn⟩

theorem carries_readComparison : F.Carries (fun r : Operator × Literal => (r.1, r.2.shift F.chars))
    Form.readComparison Form.readComparison :=
  carries_readOperator.bind fun _ => Carries.skipBlanks.bind fun _ =>
    (carries_read false).bind fun _ => .pure _ _

/-- A bracket that follows is taken in both texts. -/
theorem Admits.next_of_head? {c : Cursor} {x : Char} (h : F.Admits c.rest)
    (hc : c.rest.head? = some x) (hx : x ≠ ';') :
    (F.place c).next = F.place c.next ∧ F.Admits c.next.rest := by
  obtain ⟨cs, hcs⟩ := List.head?_eq_some_iff.1 hc
  exact ⟨next_place hcs, h.next hcs hx⟩

/-- The first character decides about the bracket. -/
theorem readOpeningBracket_eq (c : Cursor) : Form.readOpeningBracket c =
    if c.rest.head? = some '[' then .ok true c.next
    else if c.rest.head? = some ']' then .ok false c.next else .ok true c := by
  rw [Form.readOpeningBracket]
  split
  · next hc => simp [hc]
  · next hc => simp [hc]
  · next hopen hclose => cases hc : c.rest <;> simp_all

theorem carries_readOpeningBracket :
    F.Carries id Form.readOpeningBracket Form.readOpeningBracket := by
  intro c h
  rw [readOpeningBracket_eq, readOpeningBracket_eq, rest_place, h.head?_append]
  split
  · next hc =>
    obtain ⟨hn, ha⟩ := h.next_of_head? hc (by decide)
    exact ⟨congrArg (EStateM.Result.ok true) hn, ha⟩
  · split
    · next hc =>
      obtain ⟨hn, ha⟩ := h.next_of_head? hc (by decide)
      exact ⟨congrArg (EStateM.Result.ok false) hn, ha⟩
    · exact ⟨rfl, h⟩

/-- The first character behind the blanks decides about the bracket. -/
theorem readClosingBracket_eq (c : Cursor) : Form.readClosingBracket c =
    if c.skipBlanks.rest.head? = some '[' then .ok (some false) c.skipBlanks.next
    else if c.skipBlanks.rest.head? = some ']' then .ok (some true) c.skipBlanks.next
    else .ok none c := by
  rw [Form.readClosingBracket.eq_def]
  dsimp only
  split
  · next hc => simp [hc]
  · next hc => simp [hc]
  · next hopen hclose => cases hc : c.skipBlanks.rest <;> simp_all

/-- The blanks are taken together with a bracket only, in both texts. -/
theorem carries_readClosingBracket :
    F.Carries id Form.readClosingBracket Form.readClosingBracket := by
  intro c h
  have hd := h.skipBlanks
  rw [readClosingBracket_eq, readClosingBracket_eq, skipBlanks_place h, rest_place,
    hd.head?_append]
  split
  · next hc =>
    obtain ⟨hn, ha⟩ := hd.next_of_head? hc (by decide)
    exact ⟨congrArg (EStateM.Result.ok (some false)) hn, ha⟩
  · split
    · next hc =>
      obtain ⟨hn, ha⟩ := hd.next_of_head? hc (by decide)
      exact ⟨congrArg (EStateM.Result.ok (some true)) hn, ha⟩
    · exact ⟨rfl, h⟩

/-- A range is read alike; its bounds remember their columns. -/
theorem carries_readRange : F.Carries
    (fun r : RangeForm =>
      { r with lower := r.lower.shift F.chars, upper := r.upper.shift F.chars })
    Form.readRange Form.readRange :=
  carries_readOpeningBracket.bind fun _ => Carries.skipBlanks.bind fun _ =>
    (carries_read true).bind fun _ => Carries.skipBlanks.bind fun _ =>
      (Carries.expect "~" rfl (by decide)).bind fun _ => Carries.skipBlanks.bind fun _ =>
        (carries_read true).bind fun _ => carries_readClosingBracket.bind fun _ => .pure _ _

theorem carries_readMatcher : F.Carries id Form.readMatcher Form.readMatcher := by
  intro c h
  rw [Form.readMatcher, Form.readMatcher, rest_place, h.matcherAt?_append]
  split
  · exact ⟨rfl, h⟩
  · next i m n hm =>
    have hread : Form.readMatcher c = .ok (i, m) (c.advance n) := by rw [Form.readMatcher, hm]
    have hmark := Form.mark_of_readMatcher "" hread
    rw [Cursor.rest_advance] at hmark
    have hn := ne_of_append hmark (by
      obtain ⟨place, negated⟩ := m
      cases place <;> cases negated <;> cases i <;> decide)
    exact ⟨congrArg (EStateM.Result.ok _) (advance_place h hn), h.advance hn⟩

theorem carries_readPattern : F.Carries
    (fun p : PatternForm => { p with text := p.text.shift F.chars })
    Form.readPattern Form.readPattern :=
  carries_readMatcher.bind fun _ => Carries.skipBlanks.bind fun _ =>
    (carries_read false).bind fun _ => .pure _ _

theorem carries_readPlain (isRange : Bool) :
    F.Carries (Form.shift F.chars) (Form.readPlain isRange) (Form.readPlain isRange) := by
  refine (Carries.accept "!" rfl (by decide)).bind fun excluded => ?_
  cases isRange
  · exact (carries_read false).bind fun _ => .pure _ _
  · exact carries_readRange.bind fun _ => .pure _ _

/-- **A value is read in the longer text as in the part.** -/
theorem carries_readForm : F.Carries (Form.shift F.chars) Form.read Form.read := by
  intro c h
  rw [Form.read, Form.read, rest_place, h.kindAt_append]
  have hcomparison : F.Carries (Form.shift F.chars)
      (Form.readComparison.map fun r => .comparison r.1 r.2)
      (Form.readComparison.map fun r => .comparison r.1 r.2) :=
    carries_readComparison.map fun _ => rfl
  have hpattern : F.Carries (Form.shift F.chars) (Form.readPattern.map .pattern)
      (Form.readPattern.map .pattern) :=
    carries_readPattern.map fun _ => rfl
  split
  · exact hcomparison c h
  · exact hpattern c h
  · exact carries_readPlain true c h
  · exact carries_readPlain false c h

end Values

/-! ## Fields

What stands around the values: the name in front of them, the separators, and the end.  At the end
the `;` is taken, so there the two texts part: in the part nothing is left. -/

theorem carries_readToken (naming : Naming) :
    F.Carries id (Parser.readToken naming) (Parser.readToken naming) := by
  cases naming
  · exact carries_readName
  · exact carries_readLabel

theorem atFieldEnd_eq (c : Cursor) :
    c.atFieldEnd = c.rest.head?.all fun x => x == ';' || x == ')' := by
  rw [Cursor.atFieldEnd]
  split <;> next hc => rw [hc]; rfl

/-- Whether a field ends here is the same in both texts. -/
theorem Admits.atFieldEnd_place {c : Cursor} (h : F.Admits c.rest) :
    (F.place c).atFieldEnd = c.atFieldEnd := by
  rw [atFieldEnd_eq, atFieldEnd_eq, rest_place, h.head?_append]

theorem skipTerminator_eq (c : Cursor) : c.skipTerminator =
    if c.skipBlanks.rest.head? = some ';' then c.skipBlanks.next else c.skipBlanks := by
  rw [Cursor.skipTerminator]
  split
  · next hc => simp [hc]
  · next hne => cases hc : c.skipBlanks.rest <;> simp_all

/-- The `;` behind a field is passed in both texts. -/
theorem skipTerminator_place {c : Cursor} (h : F.Admits c.rest) :
    (F.place c).skipTerminator = F.place c.skipTerminator := by
  rw [skipTerminator_eq, skipTerminator_eq, skipBlanks_place h, rest_place,
    h.skipBlanks.head?_append]
  split
  · next hc =>
    obtain ⟨cs, hcs⟩ := List.head?_eq_some_iff.1 hc
    exact next_place hcs
  · rfl

/-- What is between two values is read alike, or the end behind the last one. -/
theorem carries_readSeparator (bare : Bool) :
    F.Carries id (Parser.readSeparator bare) (Parser.readSeparator bare) := by
  intro c h
  have hd := h.skipSpace
  have hoffset : ((F.place c).offset != (F.place c.skipSpace).offset) =
      (c.offset != c.skipSpace.offset) := by
    rw [Bool.eq_iff_iff]
    simp [place]
  rw [Parser.readSeparator, Parser.readSeparator, skipSpace_place h]
  dsimp only
  rw [hoffset, rest_place, hd.head?_append, hd.atFieldEnd_place]
  split
  · next hc =>
    obtain ⟨hn, ha⟩ := hd.next_of_head? hc (by decide)
    rw [hn, skipSpace_place ha, ha.skipSpace.atFieldEnd_place]
    split
    · exact ⟨rfl, ha.skipSpace⟩
    · exact ⟨rfl, ha.skipSpace⟩
  · split
    · exact ⟨rfl, hd⟩
    · split
      · exact ⟨rfl, hd⟩
      · exact ⟨rfl, hd⟩

end Frame
end Criteria
