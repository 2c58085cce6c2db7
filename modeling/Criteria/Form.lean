import Criteria.Text.Literal

/-!
# The written forms of a value

| Form       | For instance            |
|------------|-------------------------|
| simple     | `foo`, `!"foo bar"`     |
| range      | `1~10`, `!]1 ~ 10[`     |
| comparison | `>= 10`, `<> 5`         |
| pattern    | `~* foo`, `~i!> "bar"`  |

An opening bracket `[` in front of a range, or a closing bracket `]` behind it, includes the bound,
as does no bracket; the other way round the bracket excludes it.

## What is here

* `Form` — a written value, its texts not yet converted.
* `Form.Kind`, `Form.kindAt` — the form of the value at the start of a text, as far as it can be
  told by looking ahead.
* `Form.readComparison`, `Form.readRange`, `Form.readPattern`, `Form.read`.
* `Form.endsBare` — the value ends with a text without quotes.
-/

set_option autoImplicit false

namespace Criteria

/-- A written range. -/
structure RangeForm where
  lower : Literal
  upper : Literal
  lowerInclusive : Bool
  upperInclusive : Bool
  /-- Whether there is a bracket behind the upper bound. -/
  delimited : Bool

/-- A written pattern. -/
structure PatternForm where
  matcher : Matcher
  ignoresCase : Bool
  text : Literal

/-- A written value. -/
inductive Form where
  | simple (excluded : Bool) (literal : Literal)
  | range (excluded : Bool) (range : RangeForm)
  | comparison (operator : Operator) (literal : Literal)
  | pattern (pattern : PatternForm)

namespace Form

/-- The four forms. -/
inductive Kind where
  | simple
  | range
  | comparison
  | pattern
deriving DecidableEq

/-! ## Looking ahead -/

/-- Whether a text starts with a value, in quotes or not, and a `~` behind it. -/
def startsRange (cs : List Char) : Bool :=
  let rest? := match cs with
    | '"' :: body => Text.Quoted.skip body
    | _ =>
      let rest := cs.dropWhile fun c => !Text.endsLiteral true c
      if cs.head?.all (Text.endsLiteral true) then none else some rest
  match rest? with
  | some rest => (rest.dropWhile Text.isBlank).head? == some '~'
  | none => false

/-- Whether a text without its leading `!` starts with a range. -/
def isRangeAt (cs : List Char) : Bool :=
  match cs with
  | '[' :: _ => true
  | ']' :: _ => true
  | _ => startsRange cs

/-- The form of the value at the start of a text. -/
def kindAt : List Char → Kind
  | '~' :: _ => .pattern
  | '<' :: _ => .comparison
  | '>' :: _ => .comparison
  | '!' :: cs => if isRangeAt cs then .range else .simple
  | cs => if isRangeAt cs then .range else .simple

/-- The comparison operator at the start of a text, the longest one that fits, and its length. -/
def operatorAt? : List Char → Option (Operator × Nat)
  | '<' :: '>' :: _ => some (.notEqual, 2)
  | '<' :: '=' :: _ => some (.lessOrEqual, 2)
  | '>' :: '=' :: _ => some (.greaterOrEqual, 2)
  | '<' :: _ => some (.less, 1)
  | '>' :: _ => some (.greater, 1)
  | _ => none

/-- The pattern operator at the start of a text: whether it ignores case, what it asserts, and its
length. -/
def matcherAt? : List Char → Option (Bool × Matcher × Nat)
  | '~' :: cs =>
    let ignoresCase := cs.head? == some 'i'
    let cs := cs.drop ignoresCase.toNat
    let negated := cs.head? == some '!'
    let cs := cs.drop negated.toNat
    (cs.head?.bind Place.ofSymbol?).map fun place =>
      (ignoresCase, ⟨place, negated⟩, 2 + ignoresCase.toNat + negated.toNat)
  | _ => none

/-! ## Reading -/

/-- Reads a comparison operator. -/
def readOperator : Scanner Operator :=
  fun c =>
    match operatorAt? c.rest with
    | none => .error ((Fault.expectedOperator c.rest.head?).inColumn c.column) c
    | some (operator, length) => .ok operator (c.advance length)

/-- Reads a comparison operator and a text. -/
def readComparison : Scanner (Operator × Literal) := do
  let operator ← readOperator
  Scanner.skipBlanks
  let literal ← Literal.read false
  return (operator, literal)

/-- Reads the bracket in front of a range, if there is one: whether the lower bound is included. -/
def readOpeningBracket : Scanner Bool :=
  fun c =>
    match c.rest with
    | '[' :: _ => .ok true c.next
    | ']' :: _ => .ok false c.next
    | _ => .ok true c

/-- Reads the bracket behind a range, if there is one: whether the upper bound is included.  Spaces
and tabs are read only together with a bracket. -/
def readClosingBracket : Scanner (Option Bool) :=
  fun c =>
    let d := c.skipBlanks
    match d.rest with
    | '[' :: _ => .ok (some false) d.next
    | ']' :: _ => .ok (some true) d.next
    | _ => .ok none c

/-- Reads a range. -/
def readRange : Scanner RangeForm := do
  let lowerInclusive ← readOpeningBracket
  Scanner.skipBlanks
  let lower ← Literal.read true
  Scanner.skipBlanks
  Scanner.expect "~"
  Scanner.skipBlanks
  let upper ← Literal.read true
  let upperInclusive ← readClosingBracket
  return ⟨lower, upper, lowerInclusive, upperInclusive.getD true, upperInclusive.isSome⟩

/-- Reads a pattern operator: whether it ignores case, and what it asserts. -/
def readMatcher : Scanner (Bool × Matcher) :=
  fun c =>
    match matcherAt? c.rest with
    | none => .error (Fault.expectedMatcher.inColumn c.column) c
    | some (ignoresCase, matcher, length) => .ok (ignoresCase, matcher) (c.advance length)

/-- Reads a pattern operator and a text. -/
def readPattern : Scanner PatternForm := do
  let (ignoresCase, matcher) ← readMatcher
  Scanner.skipBlanks
  let literal ← Literal.read false
  return ⟨matcher, ignoresCase, literal⟩

/-- Reads a value that is not a comparison or a pattern, behind a `!` if it is excluded. -/
def readPlain (isRange : Bool) : Scanner Form := do
  let excluded ← Scanner.accept "!"
  if isRange then
    return .range excluded (← readRange)
  else
    return .simple excluded (← Literal.read false)

/-- Reads a value. -/
def read : Scanner Form :=
  fun c =>
    match kindAt c.rest with
    | .comparison => (readComparison.map fun r => Form.comparison r.1 r.2) c
    | .pattern => (readPattern.map Form.pattern) c
    | .range => readPlain true c
    | .simple => readPlain false c

/-- Whether the value ends with a text without quotes, so that more text right behind it would read
like a part of it. -/
def endsBare : Form → Bool
  | simple _ literal => !literal.quoted
  | range _ r => !r.upper.quoted && !r.delimited
  | comparison _ literal => !literal.quoted
  | pattern p => !p.text.quoted

/-! ## Readers do not move back -/

theorem forward_readOperator : readOperator.Forward := by
  intro c
  rw [readOperator]
  split
  · exact .refl c
  · exact .advance _ c

theorem forward_readComparison : readComparison.Forward :=
  forward_readOperator.bind fun _ => Scanner.Forward.skipBlanks.bind fun _ =>
    (Literal.forward_read false).bind fun _ => .pure _

theorem forward_readOpeningBracket : readOpeningBracket.Forward := by
  intro c
  rw [readOpeningBracket]
  split
  · exact .next c
  · exact .next c
  · exact .refl c

theorem forward_readClosingBracket : readClosingBracket.Forward := by
  intro c
  rw [readClosingBracket.eq_def]
  dsimp only
  split
  · exact .trans (.skipBlanks c) (.next _)
  · exact .trans (.skipBlanks c) (.next _)
  · exact .refl c

theorem forward_readRange : readRange.Forward :=
  forward_readOpeningBracket.bind fun _ => Scanner.Forward.skipBlanks.bind fun _ =>
    (Literal.forward_read true).bind fun _ => Scanner.Forward.skipBlanks.bind fun _ =>
      (Scanner.Forward.expect "~").bind fun _ => Scanner.Forward.skipBlanks.bind fun _ =>
        (Literal.forward_read true).bind fun _ => forward_readClosingBracket.bind fun _ => .pure _

theorem forward_readMatcher : readMatcher.Forward := by
  intro c
  rw [readMatcher]
  split
  · exact .refl c
  · exact .advance _ c

theorem forward_readPattern : readPattern.Forward :=
  forward_readMatcher.bind fun _ => Scanner.Forward.skipBlanks.bind fun _ =>
    (Literal.forward_read false).bind fun _ => .pure _

theorem forward_readPlain (isRange : Bool) : (readPlain isRange).Forward := by
  refine (Scanner.Forward.accept "!").bind fun _ => ?_
  cases isRange
  · exact (Literal.forward_read false).bind fun _ => .pure _
  · exact forward_readRange.bind fun _ => .pure _

theorem forward_read : read.Forward := by
  intro c
  rw [read]
  split
  · exact forward_readComparison.map c
  · exact forward_readPattern.map c
  · exact forward_readPlain true c
  · exact forward_readPlain false c

end Form
end Criteria
