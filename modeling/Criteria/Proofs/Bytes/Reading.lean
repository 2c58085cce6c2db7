import Criteria.Proofs.Bytes.Reader
import Criteria.Proofs.Reading.Columns

/-!
# Reading with places counted in bytes

Every reader has a twin that counts bytes.  A twin cuts the text at the places that it computes from
the lengths of what it has recognized, and it may set the place back.

The twins are readers of their own, and not the others in disguise.  They look at the text ahead as
a whole, recognize a token in it with a function on texts, and move by the length of what was
recognized.  They set a place back where the others have not moved yet, as in front of a bracket
that may follow a range.  They look up columns in an order that has nothing to do with the order of
the text, as when the start of a label is reported behind it.

That they do the same as the others is shown reader by reader.  Where a reader is composed, its twin
is composed of the twins, and there is nothing to show but that; the work is in the readers of
single tokens, and there in the lengths.

## What is here

* `Bytes.skipBlanks`, `Bytes.accept`, `Bytes.expect`, `Bytes.readOpening` — white space and tokens.
* `Bytes.readName`, `Bytes.readLabel` — the name or the label in front of the values of a field.
* `Bytes.readLiteral` — a text, in quotes or not.
* `Bytes.kind`, `Bytes.readComparison`, `Bytes.readRange`, `Bytes.readPattern` — values.
* For each of them a lemma: it follows the reader whose twin it is.
-/

set_option autoImplicit false

namespace Criteria
namespace Bytes

open Cursor (utf8Length)

variable {α : Type} {c d : Cursor}

/-! ## White space and tokens

A token is compared with the text ahead.  Whether it has been found is told by the token itself, so
the answers of the two readers differ, and `Follows.bind_map` puts a function in between. -/

/-- What the text ahead tells. -/
def peek (f : List Char → α) : Reader α :=
  return f (← rest)

theorem follows_peek (f : List Char → α) : Follows (peek f) fun c => .ok (f c.rest) c :=
  fun c => (does_rest c).bind (does_pure _ c)

/-- Skips spaces and tabs. -/
def skipBlanks : Reader Unit := do
  advanceTo ((← rest).dropWhile Text.isBlank)

/-- Skips any white space. -/
def skipSpace : Reader Unit := do
  advanceTo ((← rest).dropWhile Unicode.isSpace)

theorem does_skipBlanks (c : Cursor) : Does skipBlanks c (.ok () c.skipBlanks) := by
  have hmove := does_advanceTo (.skipBlanks c)
  rw [Cursor.rest_skipBlanks] at hmove
  exact (does_rest c).bind hmove

theorem does_skipSpace (c : Cursor) : Does skipSpace c (.ok () c.skipSpace) := by
  have hmove := does_advanceTo (.skipSpace c)
  rw [Cursor.rest_skipSpace] at hmove
  exact (does_rest c).bind hmove

theorem follows_skipBlanks : Follows skipBlanks Scanner.skipBlanks :=
  does_skipBlanks

/-- Takes `token`, behind any spaces and tabs, if it follows, and gives it as it stands in the
text. -/
def accept (token : String) : Reader (Option String) := do
  skipBlanks
  let cs ← rest
  if token.toList.isPrefixOf cs then
    advance (utf8Length token.toList)
    let parts ← part (cut? (utf8Length token.toList) cs)
    return some (.ofList parts.1)
  else return none

/-- A token that follows is taken. -/
theorem does_accept_some (token : String) (h : token.toList <+: c.skipBlanks.rest) :
    Does (accept token) c (.ok (some token) (c.skipBlanks.advance token.length)) := by
  obtain ⟨cs, hcs⟩ := h
  have hmove := does_advance token.length c.skipBlanks
  rw [← hcs, ← String.length_toList, List.take_left] at hmove
  refine (does_skipBlanks c).bind ((does_rest _).bind ?_)
  rw [← hcs, if_pos (by simp)]
  refine hmove.bind ((does_part (cut?_append ..) _).bind ?_)
  rw [String.ofList_toList]
  exact does_pure _ _

/-- Blanks are skipped in front of a token even if it does not follow. -/
theorem does_accept_none (token : String) (h : ¬token.toList <+: c.skipBlanks.rest) :
    Does (accept token) c (.ok none c.skipBlanks) := by
  refine (does_skipBlanks c).bind ((does_rest _).bind ?_)
  rw [if_neg (by simpa using h)]
  exact does_pure _ _

theorem follows_accept (token : String) : Follows (accept token)
    ((Scanner.accept token).map fun found => if found then some token else none) := by
  intro c
  rw [EStateM.map, Scanner.accept]
  by_cases h : token.toList <+: c.skipBlanks.rest
  · rw [if_pos (by simpa using h)]
    exact does_accept_some token h
  · rw [if_neg (by simpa using h)]
    exact does_accept_none token h

/-- Takes `token`, which has to follow, behind any spaces and tabs. -/
def expect (token : String) : Reader String := do
  match ← accept token with
  | some s => return s
  | none => fail (.expectedToken token)

theorem follows_expect (token : String) :
    Follows (expect token) ((Scanner.expect token).map fun _ => token) := by
  intro c
  by_cases h : token.toList <+: c.skipBlanks.rest
  · have hy : Scanner.accept token c = .ok true (c.skipBlanks.advance token.length) := by
      rw [Scanner.accept, if_pos (by simpa using h)]
    rw [EStateM.map, Scanner.expect, bind_of_ok hy]
    exact (does_accept_some token h).bind (does_pure token _)
  · have hy : Scanner.accept token c = .ok false c.skipBlanks := by
      rw [Scanner.accept, if_neg (by simpa using h)]
    rw [EStateM.map, Scanner.expect, bind_of_ok hy]
    exact (does_accept_none token h).bind (does_fail _ _)

/-- Takes what is recognized at the start of the text ahead, which has to be there. -/
def token (recognize : List Char → Option (α × Nat)) (f : Option Char → Fault) : Reader α := do
  match ← consume recognize with
  | some a => return a
  | none => fail f

/-- A token is taken by its length in characters, or its absence reported at the place. -/
theorem does_token (recognize : List Char → Option (α × Nat)) (f : Option Char → Fault)
    (c : Cursor) : Does (token recognize f) c (match recognize c.rest with
      | some (a, n) => .ok a (c.advance n)
      | none => .error ((f c.rest.head?).inColumn c.column) c) := by
  split
  · next a n h => exact (does_consume_some h).bind (does_pure a _)
  · next h => exact (does_consume_none h).bind (does_fail f c)

/-- Reads the start of a group, behind any spaces and tabs. -/
def readOpening : Reader (Option Logical) := do
  skipBlanks
  token Opening.at? (.expectedToken "(")

/-- The start of a group is read alike: its marker, the white space behind it, and the `(`. -/
theorem follows_readOpening : Follows readOpening Opening.read := by
  intro c
  refine (does_skipBlanks c).bind ?_
  have h := does_token Opening.at? (.expectedToken "(") c.skipBlanks
  rw [Opening.read]
  split at h <;> next hat =>
    rw [hat]
    exact h

/-! ## The name or the label of a field

Names and labels are recognized as tokens, and the faults are looked for only if this fails.  So the
other readers are first brought into this form. -/

/-- The name of a field at the start of a text, with its `:` or `=`. -/
def nameToken? (cs : List Char) : Option (String × Nat) :=
  let name := FieldToken.nameAt cs
  let length := FieldToken.nameLength cs
  let found := (cs.drop length).head?
  if !name.isEmpty && (found == some ':' || found == some '=') then
    some (.ofList name, length + 1)
  else none

/-- Reads the name of a field.  Where the fault lies is seen on a second look at the name and the
spaces and tabs behind it. -/
def readName : Reader String := do
  skipBlanks
  match ← consume nameToken? with
  | some name => return name
  | none =>
    let cs ← rest
    let length := utf8Length cs - utf8Length (cs.drop (FieldToken.nameLength cs))
    let parts ← part (cut? length cs)
    failAt (← columnAhead length) (.expectedFieldName parts.2.head?)

/-- A name is recognized as a token, or reported at the first character that does not fit. -/
theorem readName_eq (c : Cursor) : FieldToken.readName c =
    match nameToken? c.skipBlanks.rest with
    | some (name, n) => .ok name (c.skipBlanks.advance n)
    | none =>
      let n := FieldToken.nameLength c.skipBlanks.rest
      .error ((Fault.expectedFieldName (c.skipBlanks.rest.drop n).head?).inColumn
        (c.skipBlanks.column + n)) c.skipBlanks := by
  rw [FieldToken.readName, nameToken?]
  split <;> rfl

/-- Names are read alike. -/
theorem follows_readName : Follows readName FieldToken.readName := by
  intro c
  rw [readName_eq]
  refine (does_skipBlanks c).bind ?_
  split
  · next name n h => exact (does_consume_some h).bind (does_pure name _)
  · next h =>
    refine (does_consume_none h).bind ((does_rest _).bind ?_)
    rw [← utf8Length_take_add_drop (FieldToken.nameLength c.skipBlanks.rest) c.skipBlanks.rest,
      Nat.add_sub_cancel]
    exact (does_part (cut?_take ..) _).bind
      ((does_columnAhead (FieldToken.nameLength_le _)).bind (does_failAt _ _ _))

/-- A label at the start of a text, with its `:`. -/
def labelToken? (cs : List Char) : Option (List Char × Nat) :=
  let label := cs.takeWhile Text.isLabelChar
  if !label.isEmpty && (cs.drop label.length).head? == some ':' then
    some (label, label.length + 1)
  else none

/-- Reads the label of a field. -/
def readLabel : Reader String := do
  skipBlanks
  match ← consume labelToken? with
  | some label =>
    if (Unicode.trim label).isEmpty then fail .expectedLabel
    else return .ofList (Unicode.trim label)
  | none => fail .expectedLabel

/-- A label is recognized as a token, or reported.  If nothing is left of it, this is found out
behind it. -/
theorem readLabel_eq (c : Cursor) : FieldToken.readLabel c =
    match labelToken? c.skipBlanks.rest with
    | some (label, n) =>
      let d := c.skipBlanks.advance n
      if (Unicode.trim label).isEmpty then
        .error ((Fault.expectedLabel d.rest.head?).inColumn d.column) d
      else .ok (.ofList (Unicode.trim label)) d
    | none =>
      .error ((Fault.expectedLabel c.skipBlanks.rest.head?).inColumn c.skipBlanks.column)
        c.skipBlanks := by
  rw [FieldToken.readLabel, labelToken?]
  split <;> rfl

theorem follows_readLabel : Follows readLabel FieldToken.readLabel := by
  intro c
  rw [readLabel_eq]
  refine (does_skipBlanks c).bind ?_
  split
  · next label n h =>
    refine (does_consume_some h).bind ?_
    dsimp only
    split
    · exact does_fail _ _
    · exact does_pure _ _
  · next h => exact (does_consume_none h).bind (does_fail _ _)

/-! ## Texts

A text in quotes is decoded in one go, with its length in bytes; whether it may be taken is decided
afterwards, by the line break that decoding has remembered. -/

/-- The text in quotes at the start of `cs`, which is the text ahead, and the text behind it. -/
def readQuoted (cs : List Char) : Reader (String × List Char) := do
  let start := (← size) - utf8Length cs
  match decode 1 "" none (cs.drop 1) with
  | none => failAt (← columnAt start) .unterminated
  | some (_, some n, _) => failAt (← columnAt (start + n)) .lineBreak
  | some (text, none, n) =>
    let parts ← part (cut? n cs)
    return (text, parts.2)

/-- Reads a text, which is the bound of a range if `bound` holds. -/
def readLiteral (bound : Bool) : Reader Literal := do
  let start ← column
  let cs ← rest
  if cs.head? = some '"' then
    let parts ← readQuoted cs
    advanceTo parts.2
    return ⟨parts.1, start, true⟩
  else
    let length := endAt (Text.endsLiteral bound) cs
    let parts ← part (cut? length cs)
    if parts.1.isEmpty then fail .expectedValue
    else match find? Text.needsQuotes 0 parts.1 with
      | some (n, x) => failAt (← columnAhead n) (.reservedCharacter (.ofList parts.1) x)
      | none =>
        advance length
        return ⟨.ofList parts.1, start, false⟩

/-- Without a closing quote, the opening one is reported. -/
theorem does_readQuoted_none {cs : List Char} (hc : c.rest = '"' :: cs)
    (h : Text.Quoted.split [] cs = none) :
    Does (readQuoted c.rest) c (.error (Fault.unterminated.inColumn c.column) c) := by
  refine (does_size c).bind ?_
  rw [Nat.add_sub_cancel, hc, List.drop_succ_cons, List.drop_zero, decode_eq, h]
  exact (does_columnAt (.refl c)).bind (does_failAt _ _ c)

/-- A line break in front of the closing quote is reported in its own column. -/
theorem does_readQuoted_lineBreak {cs body behind : List Char} {i : Nat} (hc : c.rest = '"' :: cs)
    (h : Text.Quoted.split [] cs = some (body, behind))
    (hi : body.findIdx? Text.isLineBreak = some i) :
    Does (readQuoted c.rest) c (.error (Fault.lineBreak.inColumn (c.column + 1 + i)) c) := by
  have hcs : cs = body ++ '"' :: behind := Text.Quoted.split_eq h
  have hlt : i < body.length := (List.findIdx?_eq_some_iff_findIdx_eq.1 hi).1
  have htake : c.rest.take (i + 1) = '"' :: body.take i := by
    rw [hc, hcs, List.take_succ_cons, List.take_append_of_le_length (Nat.le_of_lt hlt)]
  have hlength : i + 1 ≤ c.rest.length := by
    rw [hc, hcs, List.length_cons, List.length_append]
    omega
  have hcolumn := does_columnAt_add hlength
  rw [htake, ← Nat.add_comm 1, ← Nat.add_assoc] at hcolumn
  refine (does_size c).bind ?_
  rw [Nat.add_sub_cancel, hc, List.drop_succ_cons, List.drop_zero, decode_eq, h, Option.map_some,
    map_fst_find?_eq, hi]
  exact hcolumn.bind (does_failAt _ _ c)

/-- A text in quotes is told with what is behind it; it is taken by the caller. -/
theorem does_readQuoted_some {cs body behind : List Char} (hc : c.rest = '"' :: cs)
    (h : Text.Quoted.split [] cs = some (body, behind))
    (hi : body.findIdx? Text.isLineBreak = none) :
    Does (readQuoted c.rest) c (.ok (Text.Quoted.undouble "" body, behind) c) := by
  have hcut := cut?_append ('"' :: (body ++ ['"'])) behind
  have hcs : '"' :: cs = '"' :: (body ++ ['"']) ++ behind := by
    simpa using Text.Quoted.split_eq h
  rw [← hcs, utf8Length_cons, utf8Length_append, ← Nat.add_assoc] at hcut
  refine (does_size c).bind ?_
  rw [Nat.add_sub_cancel, hc, List.drop_succ_cons, List.drop_zero, decode_eq, h, Option.map_some,
    map_fst_find?_eq, hi]
  exact (does_part hcut c).bind (does_pure _ c)

/-- Texts in quotes are read alike. -/
theorem does_readLiteral_quoted {bound : Bool} (h : c.rest.head? = some '"') :
    Does (readLiteral bound) c (Literal.readQuoted c) := by
  obtain ⟨cs, hc⟩ := List.head?_eq_some_iff.1 h
  refine (does_column c).bind ((does_rest c).bind ?_)
  rw [if_pos h, Literal.readQuoted, hc, List.drop_succ_cons, List.drop_zero, ← hc]
  split
  · next hsplit => exact (does_readQuoted_none hc hsplit).bind_error
  · next body behind hsplit =>
    have hcs : cs = body ++ '"' :: behind := Text.Quoted.split_eq hsplit
    have hmove := does_advanceTo (.advance (body.length + 2) c)
    rw [Cursor.rest_advance, hc, hcs, List.drop_succ_cons, List.drop_length_add_append] at hmove
    split
    · next i hi => exact (does_readQuoted_lineBreak hc hsplit hi).bind_error
    · next hi => exact (does_readQuoted_some hc hsplit hi).bind (hmove.bind (does_pure _ _))

/-- Texts without quotes are read alike, and so is a wrong character in them. -/
theorem does_readLiteral_bare {bound : Bool} (h : c.rest.head? ≠ some '"') :
    Does (readLiteral bound) c (Literal.readBare bound c) := by
  have hword := List.takeWhile_prefix (l := c.rest) fun x => !Text.endsLiteral bound x
  refine (does_column c).bind ((does_rest c).bind ?_)
  rw [if_neg h, Literal.readBare]
  dsimp only
  rw [endAt_eq]
  generalize (c.rest.takeWhile fun x => !Text.endsLiteral bound x) = word at *
  obtain ⟨ahead, hc⟩ := hword
  have hmove := does_advance word.length c
  rw [← hc, List.take_left] at hmove
  refine (does_part (hc ▸ cut?_append word ahead) c).bind ?_
  dsimp only
  split
  · exact does_fail _ c
  · rw [find?_eq]
    cases hfind : word.find? Text.needsQuotes with
    | none => exact hmove.bind (does_pure _ _)
    | some x =>
      have hle : word.findIdx Text.needsQuotes ≤ word.length := List.findIdx_le_length
      have hlength : word.findIdx Text.needsQuotes ≤ c.rest.length := by
        rw [← hc, List.length_append]
        exact Nat.le_add_right_of_le hle
      -- the fault is in the middle of the word, so its column is looked up ahead
      have hcolumn := does_columnAhead hlength
      rw [← hc, List.take_append_of_le_length hle, ← Nat.zero_add (utf8Length _)] at hcolumn
      exact hcolumn.bind (does_failAt _ _ c)

/-- **Texts are read alike**, with quotes or without. -/
theorem follows_readLiteral (bound : Bool) : Follows (readLiteral bound) (Literal.read bound) := by
  intro c
  rw [Literal.read]
  split
  · next h => exact does_readLiteral_quoted h
  · next h => exact does_readLiteral_bare h

/-! ## Values

Looking ahead for the form of a value does not move, but it cuts the text behind the first value,
which could fail.  The readers of the forms follow. -/

/-! ### Looking ahead

The text behind the first value is found by counting its bytes, and then cut off.  The count does
not leave the text, and it ends between two characters, so the cut does not fail. -/

/-- The text behind a value, in quotes or not, if a text starts with one. -/
def behindValue (cs : List Char) : Reader (Option (List Char)) :=
  match cs with
  | '"' :: body => part (scanQuoted body)
  | _ =>
    let length := endAt (Text.endsLiteral true) cs
    if length = 0 then return none
    else return some (← part (cut? length cs)).2

/-- Whether a text starts with a value, in quotes or not, and a `~` behind it. -/
def startsRange (cs : List Char) : Reader Bool := do
  match ← behindValue cs with
  | some rest => return (rest.dropWhile Text.isBlank).head? == some '~'
  | none => return false

/-- Whether a text without its leading `!` starts with a range. -/
def isRangeAt (cs : List Char) : Reader Bool :=
  match cs with
  | '[' :: _ => return true
  | ']' :: _ => return true
  | _ => startsRange cs

/-- The form of the value at the place. -/
def kind : Reader Form.Kind := do
  match ← rest with
  | '~' :: _ => return .pattern
  | '<' :: _ => return .comparison
  | '>' :: _ => return .comparison
  | '!' :: cs => return if ← isRangeAt cs then .range else .simple
  | cs => return if ← isRangeAt cs then .range else .simple

theorem endAt_eq_zero_iff (p : Char → Bool) (cs : List Char) :
    endAt p cs = 0 ↔ cs.head?.all p = true := by
  rw [endAt_eq, utf8Length_eq_zero_iff]
  cases cs with
  | nil => simp
  | cons x cs => cases h : p x <;> simp [h]

/-- Behind a text without quotes the text can be cut. -/
theorem does_behindValue_bare {cs : List Char} (h : ∀ body, cs = '"' :: body → False) (c : Cursor) :
    Does (behindValue cs) c (.ok (if cs.head?.all (Text.endsLiteral true) then none
      else some (cs.dropWhile fun x => !Text.endsLiteral true x)) c) := by
  rw [behindValue.eq_2 cs h]
  simp only [endAt_eq_zero_iff]
  split
  · exact does_pure none c
  · have hcut := cut?_append (cs.takeWhile fun x => !Text.endsLiteral true x)
      (cs.dropWhile fun x => !Text.endsLiteral true x)
    rw [List.takeWhile_append_dropWhile, ← endAt_eq] at hcut
    exact (does_part hcut c).bind (does_pure _ c)

/-- Whether a range starts is found out alike. -/
theorem does_startsRange (cs : List Char) (c : Cursor) :
    Does (startsRange cs) c (.ok (Form.startsRange cs) c) := by
  by_cases h : ∃ body, cs = '"' :: body
  · obtain ⟨body, rfl⟩ := h
    refine (does_part (scanQuoted_eq body) c).bind ?_
    rw [Form.startsRange.eq_1]
    cases Text.Quoted.skip body <;> exact does_pure _ c
  · have hquote : ∀ body, cs = '"' :: body → False := fun body hb => h ⟨body, hb⟩
    refine (does_behindValue_bare hquote c).bind ?_
    rw [Form.startsRange.eq_2 cs hquote]
    dsimp only
    generalize (if cs.head?.all (Text.endsLiteral true) = true then none else _) = behind?
    cases behind? <;> exact does_pure _ c

theorem does_isRangeAt (cs : List Char) (c : Cursor) :
    Does (isRangeAt cs) c (.ok (Form.isRangeAt cs) c) := by
  rw [isRangeAt.eq_def]
  split
  · exact does_pure true c
  · exact does_pure true c
  · next hopen hclose =>
    rw [Form.isRangeAt.eq_3 cs hopen hclose]
    exact does_startsRange cs c

/-- The form of a value is found out alike. -/
theorem follows_kind : Follows kind fun c => .ok (Form.kindAt c.rest) c := by
  intro c
  refine (does_rest c).bind ?_
  show Does _ c (.ok (Form.kindAt c.rest) c)
  generalize c.rest = cs
  split
  · exact does_pure _ c
  · exact does_pure _ c
  · exact does_pure _ c
  · exact (does_isRangeAt _ c).bind (does_pure _ c)
  · next hpattern hless hgreater hbang =>
    rw [Form.kindAt.eq_5 _ hpattern hless hgreater hbang]
    exact (does_isRangeAt _ c).bind (does_pure _ c)

/-! ### Comparisons

An operator is a token, and the text behind it is read as any text. -/

/-- Reads a comparison operator and a text. -/
def readComparison : Reader (Operator × Literal) := do
  let operator ← token Form.operatorAt? .expectedOperator
  skipBlanks
  let literal ← readLiteral false
  return (operator, literal)

theorem follows_readOperator :
    Follows (token Form.operatorAt? .expectedOperator) Form.readOperator := by
  intro c
  have h := does_token Form.operatorAt? .expectedOperator c
  rw [Form.readOperator]
  split at h <;> next hat =>
    rw [hat]
    exact h

theorem follows_readComparison : Follows readComparison Form.readComparison :=
  follows_readOperator.bind fun _ => follows_skipBlanks.bind fun _ =>
    (follows_readLiteral false).bind fun _ => .pure _

/-! ### Ranges

The closing bracket is looked for behind blanks.  If there is none, the place is set back in front
of the blanks, where the other reader has been all the time. -/

/-- A bracket at the start of a text. -/
def bracket? : List Char → Option (Bool × Nat)
  | '[' :: _ => some (true, 1)
  | ']' :: _ => some (false, 1)
  | _ => none

/-- Reads the bracket in front of a range, if there is one: whether the lower bound is included. -/
def readOpeningBracket : Reader Bool :=
  return (← consume bracket?).getD true

theorem follows_readOpeningBracket : Follows readOpeningBracket Form.readOpeningBracket := by
  intro c
  rw [Form.readOpeningBracket]
  split
  · next hc =>
    have hopen : bracket? c.rest = some (true, 1) := by
      rw [hc]
      rfl
    exact (does_consume_some hopen).bind (does_pure _ _)
  · next hc =>
    have hclose : bracket? c.rest = some (false, 1) := by
      rw [hc]
      rfl
    exact (does_consume_some hclose).bind (does_pure _ _)
  · next hopen hclose =>
    have hnone : bracket? c.rest = none := by
      rw [bracket?.eq_def]
      split
      · next cs hc => exact absurd hc (hopen cs)
      · next cs hc => exact absurd hc (hclose cs)
      · rfl
    exact (does_consume_none hnone).bind (does_pure true c)

/-- Reads either bracket, if one follows behind any spaces and tabs, which are skipped in any
case. -/
def acceptBracket : Reader (Option String) := do
  match ← accept "[" with
  | some s => return some s
  | none => accept "]"

/-- Reads the bracket behind a range, if there is one: whether the upper bound is included.  If
there is none, the place is set back to where the range ends. -/
def readClosingBracket : Reader (Option Bool) := do
  let rangeEnd ← offset
  let bracket? ← acceptBracket
  if bracket?.isNone then
    moveTo rangeEnd
  return bracket?.map (· != "[")

/-- A `[` is taken, behind any blanks. -/
theorem does_acceptBracket_open {cs : List Char} (h : c.skipBlanks.rest = '[' :: cs) :
    Does acceptBracket c (.ok (some "[") c.skipBlanks.next) :=
  (does_accept_some "[" ⟨cs, h.symm⟩).bind (does_pure _ _)

theorem does_acceptBracket_close {cs : List Char} (h : c.skipBlanks.rest = ']' :: cs) :
    Does acceptBracket c (.ok (some "]") c.skipBlanks.next) := by
  have hopen : ¬"[".toList <+: c.skipBlanks.rest := by
    rw [h]
    simp
  have hclose := does_accept_some "]" (c := c.skipBlanks)
    ⟨cs, by rw [Cursor.skipBlanks_skipBlanks]; exact h.symm⟩
  rw [Cursor.skipBlanks_skipBlanks] at hclose
  exact (does_accept_none "[" hopen).bind hclose

/-- If no bracket follows, only the blanks are skipped. -/
theorem does_acceptBracket_none (hopen : ∀ cs, c.skipBlanks.rest ≠ '[' :: cs)
    (hclose : ∀ cs, c.skipBlanks.rest ≠ ']' :: cs) :
    Does acceptBracket c (.ok none c.skipBlanks) := by
  have hnone := does_accept_none "]" (c := c.skipBlanks)
    fun ⟨cs, hcs⟩ => hclose cs (by rw [← c.skipBlanks_skipBlanks]; exact hcs.symm)
  rw [Cursor.skipBlanks_skipBlanks] at hnone
  exact (does_accept_none "[" fun ⟨cs, hcs⟩ => hopen cs hcs.symm).bind hnone

/-- The bracket behind a range is read alike; the blanks are given back if there is none. -/
theorem follows_readClosingBracket : Follows readClosingBracket Form.readClosingBracket := by
  intro c
  refine (does_offset c).bind ?_
  rw [Form.readClosingBracket]
  split
  · next h => exact (does_acceptBracket_open h).bind (does_pure _ _)
  · next h => exact (does_acceptBracket_close h).bind (does_pure _ _)
  · next hopen hclose =>
    -- The spaces and tabs that were skipped on the way are given back.
    intro s b h
    obtain ⟨b', hb, h'⟩ := (does_acceptBracket_none hopen hclose).exists_ok h
    rw [bind_of_ok hb]
    exact .ok ⟨h'.text, h.reaches, rfl, h'.known⟩

/-- Reads a range. -/
def readRange : Reader RangeForm := do
  let lowerInclusive ← readOpeningBracket
  skipBlanks
  let lower ← readLiteral true
  skipBlanks
  let _ ← expect "~"
  skipBlanks
  let upper ← readLiteral true
  let upperInclusive ← readClosingBracket
  return ⟨lower, upper, lowerInclusive, upperInclusive.getD true, upperInclusive.isSome⟩

theorem follows_readRange : Follows readRange Form.readRange :=
  follows_readOpeningBracket.bind fun _ => follows_skipBlanks.bind fun _ =>
    (follows_readLiteral true).bind fun _ => follows_skipBlanks.bind fun _ =>
      (follows_expect "~").bind_map fun _ => follows_skipBlanks.bind fun _ =>
        (follows_readLiteral true).bind fun _ => follows_readClosingBracket.bind fun _ => .pure _

/-! ### Patterns

The operator of a pattern is a token of up to four characters. -/

/-- A pattern operator at the start of a text. -/
def matcherToken? (cs : List Char) : Option ((Bool × Matcher) × Nat) :=
  (Form.matcherAt? cs).map fun m => ((m.1, m.2.1), m.2.2)

/-- Reads a pattern operator and a text. -/
def readPattern : Reader PatternForm := do
  let (ignoresCase, matcher) ← token matcherToken? fun _ => .expectedMatcher
  skipBlanks
  let literal ← readLiteral false
  return ⟨matcher, ignoresCase, literal⟩

theorem follows_readMatcher :
    Follows (token matcherToken? fun _ => .expectedMatcher) Form.readMatcher := by
  intro c
  have h := does_token matcherToken? (fun _ => .expectedMatcher) c
  rw [matcherToken?] at h
  rw [Form.readMatcher]
  cases hat : Form.matcherAt? c.rest <;> rw [hat] at h <;> exact h

theorem follows_readPattern : Follows readPattern Form.readPattern :=
  follows_readMatcher.bind fun _ => follows_skipBlanks.bind fun _ =>
    (follows_readLiteral false).bind fun _ => .pure _

end Bytes
end Criteria
