import Criteria.Proofs.Bytes.Reading
import Criteria.Proofs.Bytes.Recovery

/-!
# Positions and columns

Positions are numbers of bytes, columns are numbers of characters, and the column that was looked up
last is kept.  Whatever is done with a text, in any order, both stay exact, and no piece is cut out
of the text at a place inside a character.

A text can be looked at by anyone who holds a reader of it: columns of any place can be asked for,
tokens looked for, values read, faults recorded, and the rest of a field skipped, one after the
other and also behind a fault.  Nothing guarantees an order in which columns are asked for, and the
column that is kept is that of the last question.  The operations are data here, so that a statement
can be about any list of them.

## What is here

* `Bytes.Operation` — everything that can be asked about a text or done with it, with
  `Operation.read`, where places are counted in bytes, and `Operation.scan`, with cursors.
* `Bytes.Operation.run`, `Bytes.Operation.answer` — their results, and the places where they end.
* `Bytes.Operation.agrees` — both end in the same way.
* `Bytes.runAll`, `Bytes.walk` — operations one after the other.
* `Bytes.positions_exact` — positions and columns are exact behind any operations.

One operation is dealt with by the lemmas about its reader, and any list of them by induction, since
each ends at a place of the text with a column that is known to be right.  Then what
`positions_exact` says can be read off: the position is at a border between characters, the column
is one more than the characters in front of it, and no operation goes back.
-/

set_option autoImplicit false

namespace Criteria
namespace Bytes

open Cursor (utf8Length)

/-- What can be asked about a text from a place on, or done with it. -/
inductive Operation where
  | atEnd
  | position
  | column
  /-- The column of the place behind `n` characters of the whole text. -/
  | columnOf (n : Nat)
  | next
  | describe
  | faces (token : String)
  | facesGroup
  | kind
  | diagnose (fault : FaultKind) (message : String)
  | skipBlanks
  | skipSpace
  | accept (token : String)
  | expect (token : String)
  | readOpening
  | readName
  | readLabel
  | readLiteral
  | readComparison
  | readRange
  | readPattern
  | skipPair
  | skipBody

namespace Operation

/-- What the operation results in. -/
abbrev Result : Operation → Type
  | atEnd | faces _ | facesGroup => Bool
  | position | column | columnOf _ => Nat
  | next => Option Char
  | describe | expect _ | readName | readLabel => String
  | kind => Form.Kind
  | diagnose .. => Diagnostic
  | skipBlanks | skipSpace | skipPair | skipBody => Unit
  | accept _ => Option String
  | readOpening => Option Logical
  | readLiteral => Literal
  | readComparison => Operator × Literal
  | readRange => RangeForm
  | readPattern => PatternForm

/-- The operation, with places counted in bytes. -/
def read : (op : Operation) → Reader op.Result
  | atEnd => do return decide ((← size) ≤ (← offset))
  | position => offset
  | column => Bytes.column
  | columnOf n => do columnAt (utf8Length ((← get).text.toList.take n))
  | next => peek List.head?
  | describe => peek fun cs => Criteria.describe cs.head?
  | faces token => peek fun cs => token.toList.isPrefixOf (cs.dropWhile Text.isBlank)
  | facesGroup => peek fun cs => (Opening.at? (cs.dropWhile Text.isBlank)).isSome
  | kind => Bytes.kind
  | diagnose fault message => do return ⟨fault, ← Bytes.column, message⟩
  | skipBlanks => Bytes.skipBlanks
  | skipSpace => Bytes.skipSpace
  | accept token => Bytes.accept token
  | expect token => Bytes.expect token
  | readOpening => Bytes.readOpening
  | readName => Bytes.readName
  | readLabel => Bytes.readLabel
  | readLiteral => Bytes.readLiteral false
  | readComparison => Bytes.readComparison
  | readRange => Bytes.readRange
  | readPattern => Bytes.readPattern
  | skipPair => skip judgePair 0
  | skipBody => skip judgeBody 0

/-- The operation in a text, with a cursor. -/
def scan (text : String) : (op : Operation) → Scanner op.Result
  | atEnd => fun c => .ok c.atEnd c
  | position => fun c => .ok c.offset c
  | column => fun c => .ok c.column c
  | columnOf n => fun c => .ok ((Cursor.start text).advance n).column c
  | next => fun c => .ok c.rest.head? c
  | describe => fun c => .ok (Criteria.describe c.rest.head?) c
  | faces token => fun c => .ok (c.faces token.toList) c
  | facesGroup => fun c => .ok (Opening.follows c) c
  | kind => fun c => .ok (Form.kindAt c.rest) c
  | diagnose fault message => fun c => .ok ⟨fault, c.column, message⟩ c
  | skipBlanks => Scanner.skipBlanks
  | skipSpace => Scanner.move Cursor.skipSpace
  | accept token => (Scanner.accept token).map fun found => if found then some token else none
  | expect token => (Scanner.expect token).map fun _ => token
  | readOpening => Opening.read
  | readName => FieldToken.readName
  | readLabel => FieldToken.readLabel
  | readLiteral => Literal.read false
  | readComparison => Form.readComparison
  | readRange => Form.readRange
  | readPattern => Form.readPattern
  | skipPair => Scanner.move Cursor.skipPair
  | skipBody => Scanner.move Cursor.skipBody

variable {s : String} {b : Place} {c : Cursor}

/-- The end of the text is at the size of the whole text. -/
theorem does_atEnd (c : Cursor) : Does atEnd.read c (.ok c.atEnd c) := by
  have hend : decide (c.offset + utf8Length c.rest ≤ c.offset) = c.atEnd := by
    rw [Cursor.atEnd, Bool.eq_iff_iff, decide_eq_true_iff, List.isEmpty_iff,
      ← utf8Length_eq_zero_iff]
    omega
  rw [← hend]
  exact (does_size c).bind ((does_offset c).bind (does_pure _ c))

/-- The column of the place behind any number of characters, which may lie further back. -/
theorem agrees_columnOf (n : Nat) (h : At s b c) :
    Agrees s ((columnOf n).read b) ((columnOf n).scan s c) := by
  obtain ⟨b', hb, h'⟩ := h.columnAt (.advance n _)
  obtain rfl := h.text
  have hoffset : ((Cursor.start b.text).advance n).offset = utf8Length (b.text.toList.take n) := by
    rw [Cursor.advance_eq]
    exact Nat.zero_add _
  rw [hoffset] at hb
  have hread : (columnOf n).read b = .ok _ b' := hb
  rw [hread]
  exact .ok h'

/-- A fault is recorded in the column of the place. -/
theorem does_diagnose (fault : FaultKind) (message : String) (c : Cursor) :
    Does (diagnose fault message).read c (.ok ⟨fault, c.column, message⟩ c) :=
  (does_column c).bind (does_pure _ c)

/-- An operation ends in the same way, whether it counts bytes or not. -/
theorem agrees (op : Operation) (h : At s b c) : Agrees s (op.read b) (op.scan s c) := by
  cases op with
  | atEnd => exact does_atEnd c s b h
  | position => exact does_offset c s b h
  | column => exact does_column c s b h
  | columnOf n => exact agrees_columnOf n h
  | next | describe | faces | facesGroup => exact follows_peek _ c s b h
  | kind => exact follows_kind c s b h
  | diagnose fault message => exact does_diagnose fault message c s b h
  | skipBlanks => exact does_skipBlanks c s b h
  | skipSpace => exact does_skipSpace c s b h
  | accept token => exact follows_accept token c s b h
  | expect token => exact follows_expect token c s b h
  | readOpening => exact follows_readOpening c s b h
  | readName => exact follows_readName c s b h
  | readLabel => exact follows_readLabel c s b h
  | readLiteral => exact follows_readLiteral false c s b h
  | readComparison => exact follows_readComparison c s b h
  | readRange => exact follows_readRange c s b h
  | readPattern => exact follows_readPattern c s b h
  | skipPair => exact does_skip matches_pairLength 0 c s b h
  | skipBody => exact does_skip matches_bodyLength 0 c s b h

/-- No operation moves back. -/
theorem forward (op : Operation) : (op.scan s).Forward := by
  cases op with
  | atEnd | position | column | columnOf | next | describe | faces | facesGroup | kind | diagnose =>
    exact .refl
  | skipBlanks => exact .skipBlanks
  | skipSpace => exact .move .skipSpace
  | accept token => exact (Scanner.Forward.accept token).map
  | expect token => exact (Scanner.Forward.expect token).map
  | readOpening => exact Opening.forward_read
  | readName => exact FieldToken.forward_readName
  | readLabel => exact FieldToken.forward_readLabel
  | readLiteral => exact Literal.forward_read false
  | readComparison => exact Form.forward_readComparison
  | readRange => exact Form.forward_readRange
  | readPattern => exact Form.forward_readPattern
  | skipPair => exact .move fun c => .advance _ c
  | skipBody => exact .move fun c => .advance _ c

/-! ## Outcomes

A fault is an outcome like others: it says where it stands, and other operations may follow. -/

/-- The result of the operation, or its fault, and the place where it ends.  There is no outcome if
the text cannot be cut where it would have to be, or if a loop does not get on. -/
def run (op : Operation) (b : Place) : Option (Except Diagnostic op.Result × Place) :=
  match op.read b with
  | .ok a b' => some (.ok a, b')
  | .error (.fault d) b' => some (.error d, b')
  | .error .cut _ => none
  | .error .stuck _ => none

/-- The result of the operation, or its fault, and the cursor with which it ends. -/
def answer (text : String) (op : Operation) (c : Cursor) : Except Diagnostic op.Result × Cursor :=
  match op.scan text c with
  | .ok a d => (.ok a, d)
  | .error e d => (.error e, d)

/-- An operation has an outcome, which is the right one. -/
theorem exists_run (op : Operation) (h : At s b c) :
    ∃ b', op.run b = some ((op.answer s c).1, b') ∧ At s b' (op.answer s c).2 := by
  have hagrees := op.agrees h
  rw [run, answer]
  cases hread : op.read b <;> cases hscan : op.scan s c <;> rw [hread, hscan] at hagrees <;>
    cases hagrees <;> exact ⟨_, rfl, ‹_›⟩

theorem offset_le_answer (op : Operation) (c : Cursor) :
    c.offset ≤ (op.answer s c).2.offset := by
  have hreaches := op.forward (s := s) c
  have hfinal : Scanner.final (op.scan s c) = (op.answer s c).2 := by
    rw [answer]
    cases op.scan s c <;> rfl
  obtain ⟨cs, -, hoffset, -⟩ := Cursor.reaches_iff.1 (hfinal ▸ hreaches)
  omega

end Operation

/-! ## Any operations

By induction on the operations, from any place that is at a cursor. -/

/-- The place behind operations one after the other, whatever fails on the way. -/
def runAll (ops : List Operation) (b : Place) : Option Place :=
  ops.foldlM (fun b op => (op.run b).map Prod.snd) b

/-- The cursor behind operations one after the other, whatever fails on the way. -/
def walk (text : String) (ops : List Operation) (c : Cursor) : Cursor :=
  ops.foldl (fun c op => (op.answer text c).2) c

variable {s : String} {b : Place} {c : Cursor}

/-- All operations have outcomes, and end at the place of the cursor. -/
theorem exists_runAll (ops : List Operation) (h : At s b c) :
    ∃ b', runAll ops b = some b' ∧ At s b' (walk s ops c) := by
  induction ops generalizing b c with
  | nil => exact ⟨b, rfl, h⟩
  | cons op ops ih =>
    obtain ⟨b₁, hrun, h₁⟩ := op.exists_run h
    obtain ⟨b₂, hruns, h₂⟩ := ih h₁
    refine ⟨b₂, ?_, h₂⟩
    rw [runAll, List.foldlM_cons, hrun]
    exact hruns

/-- **Positions and columns are exact behind any operations**, with or without faults.  No operation
cuts the text where it cannot be cut.  The position is then the number of bytes of the characters in
front of it: it lies between two characters of the text, or at an end.  The column is one more than
the number of these characters, and that of the place behind any number of characters is one more
than this number, whatever columns were looked up before.  The cursor has the same position and the
same column, and one more operation has the result that it has with the cursor, and does not move
back. -/
theorem positions_exact (text : String) (ops : List Operation) :
    ∃ b front, runAll ops { text } = some b ∧
      text.toList = front ++ (walk text ops (.start text)).rest ∧ b.offset = utf8Length front ∧
      String.Pos.Raw.IsValid text ⟨b.offset⟩ ∧ b.offset ≤ text.utf8ByteSize ∧
      (walk text ops (.start text)).offset = b.offset ∧
      (walk text ops (.start text)).column = 1 + front.length ∧
      (∃ b', Operation.column.run b = some (.ok (1 + front.length), b')) ∧
      (∀ n, ∃ b', (Operation.columnOf n).run b = some (.ok (1 + min n text.length), b')) ∧
      ∀ op : Operation, ∃ b',
        op.run b = some ((op.answer text (walk text ops (.start text))).1, b') ∧
          b.offset ≤ b'.offset := by
  obtain ⟨b, hrun, h⟩ := exists_runAll ops (at_start text)
  obtain ⟨front, hfront, hoffset, hcolumn⟩ := Cursor.reaches_iff.1 h.reaches
  have hbytes : b.offset = utf8Length front := by
    rw [h.offset, hoffset]
    exact Nat.zero_add _
  refine ⟨b, front, hrun, hfront, hbytes, ?_, ?_, h.offset.symm, hcolumn, ?_, fun n => ?_,
    fun op => ?_⟩
  · rw [← isSome_cut?_iff, hbytes, show text.toList = _ from hfront, cut?_append]
    rfl
  · rw [← utf8Length_toList, show text.toList = _ from hfront, utf8Length_append, hbytes]
    exact Nat.le_add_right ..
  · obtain ⟨b', hb, -⟩ := Operation.column.exists_run h
    refine ⟨b', hb.trans ?_⟩
    show some (Except.ok (walk text ops (.start text)).column, b') = _
    rw [hcolumn]
    rfl
  · obtain ⟨b', hb, -⟩ := (Operation.columnOf n).exists_run h
    refine ⟨b', hb.trans ?_⟩
    show some (Except.ok ((Cursor.start text).advance n).column, b') = _
    rw [Cursor.advance_eq, List.length_take]
    exact congrArg (fun length => some (Except.ok (1 + min n length), b')) String.length_toList
  · obtain ⟨b', hb, h'⟩ := op.exists_run h
    refine ⟨b', hb, ?_⟩
    rw [h.offset, h'.offset]
    exact op.offset_le_answer _

/-- A look ahead and a look back between two readers, in front of characters of one to four
bytes. -/
example : (runAll [.readName, .columnOf 9, .skipBlanks, .columnOf 1, .readLiteral, .column]
    { text := "éアa: 😀, b" }).map (fun b => (b.offset, b.known)) = some (12, (12, 7)) := by
  decide +kernel

end Bytes
end Criteria
