import Criteria.Field
import Criteria.Form
import Criteria.Parse.Session
import Criteria.Text.FieldToken
import Criteria.Settings

/-!
# Reading a field and its values

A field is written as its name or label, a colon, and one or more values between commas.  It ends
with a `;`, which belongs to it, in front of a `)`, or with the text.

## What is here

* `Form.resolve` — a written value as an entry of a field, or what is wrong with its texts.
* `Parser.readEntry` — reads a value into the open field.  A text that the field refuses is reported
  and the value left out.
* `Parser.readSeparator` — what follows a value: a comma and another value, or the end.
* `Parser.readEntries`, `Parser.readField`.
-/

set_option autoImplicit false

namespace Criteria

/-! ## From texts to values -/

/-- The value of a field that a text stands for. -/
def Literal.resolve (field : Field) (l : Literal) : Except Diagnostic Value :=
  match field.converter.read l.text with
  | .ok v => .ok v
  | .error reason => .error ((Fault.invalidValue field.name reason).inColumn l.column)

/-- The entry that a written value stands for, or the faults in its texts. -/
def Form.resolve (field : Field) : Form → Except (List Diagnostic) Criterion
  | simple excluded l =>
    match l.resolve field with
    | .ok v => .ok (if excluded then .excluded v else .simple v)
    | .error d => .error [d]
  | range excluded r =>
    match r.lower.resolve field, r.upper.resolve field with
    | .ok lower, .ok upper =>
      let range : Range := ⟨lower, upper, r.lowerInclusive, r.upperInclusive⟩
      .ok (if excluded then .excludedRange range else .range range)
    | .error d, .error e => .error [d, e]
    | .error d, .ok _ => .error [d]
    | .ok _, .error e => .error [e]
  | comparison operator l =>
    match l.resolve field with
    | .ok v => .ok (.comparison ⟨operator, v⟩)
    | .error d => .error [d]
  | pattern p => .ok (.pattern ⟨p.matcher, p.text.text, p.ignoresCase⟩)

/-! ## The end of a field -/

namespace Cursor

/-- Whether the text of a field ends here. -/
def atFieldEnd (c : Cursor) : Bool :=
  match c.rest with
  | [] => true
  | x :: _ => x == ';' || x == ')'

/-- The place behind a `;` that may follow, and behind any spaces and tabs in any case. -/
def skipTerminator (c : Cursor) : Cursor :=
  let d := c.skipBlanks
  match d.rest with
  | ';' :: _ => d.next
  | _ => d

theorem reaches_skipTerminator (c : Cursor) : c.Reaches c.skipTerminator := by
  rw [skipTerminator.eq_def]
  dsimp only
  split
  · exact .trans (.skipBlanks c) (.next _)
  · exact .skipBlanks c

end Cursor

namespace Parser

/-! ## Values -/

/-- Reads a value into the open field, and says whether it ends with a text without quotes. -/
def readEntry (field : Field) : Parser Bool := do
  let start ← here
  let form ← scan Form.read
  match form.resolve field with
  | .ok entry => edit start.column (Assembly.add entry)
  | .error faults => report faults
  return form.endsBare

/-- Reads what follows a value: `true` stands for a comma with another value behind it, `false` for
the end of the field.  `bare` says whether the value ends with a text without quotes. -/
def readSeparator (bare : Bool) : Scanner Bool :=
  fun c =>
    let d := c.skipSpace
    let found := d.rest.head?
    if found = some ',' then
      let e := d.next.skipSpace
      if e.atFieldEnd then .error (Fault.danglingSeparator.inColumn d.column) e else .ok true e
    else if d.atFieldEnd then .ok false d
    else if bare && c.offset != d.offset && !found.any Text.isReserved then
      .error (Fault.looseText.inColumn d.column) d
    else .error ((Fault.expectedSeparator found).inColumn d.column) d

/-- Reads a value and what follows it, and says whether another value follows. -/
def readStep (field : Field) : Parser Bool := do
  let bare ← readEntry field
  scan (readSeparator bare)

theorem forward_readEntry (field : Field) : (readEntry field).Forward := by
  refine Forward.here.bind fun start => (Forward.scan Form.forward_read).bind fun form => ?_
  split
  · exact (Forward.edit _ _).bind fun _ => .pure _
  · exact (Forward.report _).bind fun _ => .pure _

theorem forward_readSeparator (bare : Bool) : (readSeparator bare).Forward := by
  intro c
  rw [readSeparator]
  dsimp only
  split
  · split <;> exact .trans (.trans (.skipSpace c) (.next _)) (.skipSpace _)
  · split
    · exact .skipSpace c
    · split <;> exact .skipSpace c

theorem forward_readStep (field : Field) : (readStep field).Forward :=
  (forward_readEntry field).bind fun bare => .scan (forward_readSeparator bare)

/-- A comma is read before another value. -/
theorem length_lt_of_readSeparator {bare : Bool} {c d : Cursor}
    (h : readSeparator bare c = .ok true d) : d.rest.length < c.rest.length := by
  rw [readSeparator] at h
  dsimp only at h
  split at h
  · next hc =>
    split at h <;> cases h
    have h₁ := (Cursor.Reaches.skipSpace c).length_le
    have h₂ := (Cursor.Reaches.skipSpace c.skipSpace.next).length_le
    have h₃ := Cursor.length_next_lt (c := c.skipSpace) fun e => by simp [e] at hc
    omega
  · split at h
    · cases h
    · split at h <;> cases h

theorem length_lt_of_readStep {field : Field} {s t : Session}
    (h : readStep field s = .ok true t) : t.cursor.rest.length < s.cursor.rest.length := by
  obtain ⟨bare, u, hu, hs⟩ := ok_of_bind h
  have h₁ := (forward_of_ok (forward_readEntry field) hu).length_le
  have h₂ := length_lt_of_readSeparator (cursor_of_scan hs)
  omega

/-- Reads values until no other value follows; `count` values have been read already. -/
def readEntries (settings : Settings) (field : Field) (count : Nat) (s : Session) :
    EStateM.Result Diagnostic Session Unit :=
  if count = settings.maxValues then
    .error ((Fault.tooManyValues field.name settings.maxValues).inColumn s.cursor.column) s
  else
    match h : readStep field s with
    | .ok true t => readEntries settings field (count + 1) t
    | .ok false t => .ok () t
    | .error d t => .error d t
termination_by s.cursor.rest.length
decreasing_by exact length_lt_of_readStep h

theorem forward_readEntries (settings : Settings) (field : Field) (count : Nat) :
    Forward (readEntries settings field count) := by
  intro s
  fun_induction readEntries settings field count s with
  | case1 s => exact .refl s.cursor
  | case2 count s _ t h ih => exact .trans (forward_of_ok (forward_readStep field) h) ih
  | case3 count s _ t h => exact forward_of_ok (forward_readStep field) h
  | case4 count s _ d t h => exact forward_of_error (forward_readStep field) h

/-! ## Fields -/

/-- Reads the name or the label of a field. -/
def readToken : Naming → Scanner String
  | .byName => FieldToken.readName
  | .byLabel => FieldToken.readLabel

/-- The field that a name or a label refers to. -/
def lookUp (fields : FieldSet) (token : String) : Naming → Option Field
  | .byName => fields.find? token
  | .byLabel => fields.findByLabel? token

/-- Reads the values of a field whose name stands in the given column, and adds the field to the
current group. -/
def readValues (settings : Settings) (field : Field) (column : Nat) : Parser Unit := do
  edit column (Assembly.openField field.name)
  log (.readingField field.name)
  move Cursor.skipSpace
  let c ← here
  if c.atFieldEnd then
    throw ((Fault.noValues field.name).inColumn c.column)
  else
    readEntries settings field 0
    edit column Assembly.closeField
    move Cursor.skipTerminator

/-- Reads a field with its values. -/
def readField (settings : Settings) (fields : FieldSet) : Parser Unit := do
  let start ← here
  let token ← scan (readToken settings.naming)
  match lookUp fields token settings.naming with
  | some field => readValues settings field start.column
  | none => throw ((Fault.unknownField token).inColumn start.column)

theorem forward_readToken (naming : Naming) : (readToken naming).Forward := by
  cases naming
  · exact FieldToken.forward_readName
  · exact FieldToken.forward_readLabel

theorem length_lt_of_readToken {naming : Naming} {c d : Cursor} {token : String}
    (h : readToken naming c = .ok token d) : d.rest.length < c.rest.length := by
  cases naming
  · exact FieldToken.length_lt_of_readName h
  · exact FieldToken.length_lt_of_readLabel h

theorem forward_readValues (settings : Settings) (field : Field) (column : Nat) :
    Forward (readValues settings field column) := by
  refine (Forward.edit _ _).bind fun _ => (Forward.log _).bind fun _ =>
    (Forward.move .skipSpace).bind fun _ => Forward.here.bind fun c => ?_
  split
  · exact .throw _
  · exact (forward_readEntries settings field 0).bind fun _ => (Forward.edit _ _).bind fun _ =>
      .move Cursor.reaches_skipTerminator

theorem forward_readField (settings : Settings) (fields : FieldSet) :
    Forward (readField settings fields) := by
  refine Forward.here.bind fun start => (Forward.scan (forward_readToken _)).bind fun token => ?_
  split
  · exact forward_readValues _ _ _
  · exact .throw _

theorem length_lt_of_readField {settings : Settings} {fields : FieldSet} {s t : Session}
    (h : readField settings fields s = .ok () t) :
    t.cursor.rest.length < s.cursor.rest.length := by
  obtain ⟨start, u, hu, h⟩ := ok_of_bind h
  cases hu
  obtain ⟨token, v, hv, h⟩ := ok_of_bind h
  have h₁ := length_lt_of_readToken (cursor_of_scan hv)
  cases hl : lookUp fields token settings.naming with
  | some field =>
    rw [hl] at h
    have h₂ := (forward_of_ok (forward_readValues settings field _) h).length_le
    omega
  | none =>
    rw [hl] at h
    cases h

end Parser
end Criteria
