import Criteria.Condition
import Criteria.Settings
import Criteria.Text.Quoted

/-!
# The grammar of conditions

Every production relates the text at which it starts, the text behind it and what it denotes.  White
space is of three sorts: `Spaces` is any white space, `Blanks` are spaces and tabs, and `Gaps` are
spaces, tabs, carriage returns and line feeds.

    Condition = Spaces ['*'] Items
    Items     = (Spaces (Group | Pair))* Spaces
    Group     = ['*' | '&'] Gaps '(' Items ')' Spaces [';']
    Pair      = Field Spaces Value (Spaces ',' Spaces Value)* Spaces (';' | before ')' | at the end)
    Value     = ['!'] Literal | ['!'] Range | operator Blanks Literal | matcher Blanks Literal
    Range     = [('[' | ']') Blanks] Literal Blanks '~' Blanks Literal [Blanks ('[' | ']')]
    Literal   = plain characters | '"' characters '"'
    Field     = name Blanks (':' | '=') | label ':'

The `*` of a condition is not one that starts a group.  A text denotes something only if its fields
are in the set, no field occurs twice in a group, the fields take their literals, and the limits are
kept.

## What is here

* `Run` and its three instances — runs of blank characters.
* `LiteralText`, `RangeText`, `ValueText`, `ValueList`, `FieldToken`, `Pair` — a field with its
  values.
* `GroupStart`, `GroupEnd`, `Items`, `ConditionText` — the tree.  `Items` relates the group before
  the items to the group behind them.

The flag `loose` of a range, and of all that is built from ranges, admits `Blanks` in front of the
lower bound where there is no bracket.  The grammar that is read is the one where it is `false`.
-/

set_option autoImplicit false

namespace Criteria
namespace Grammar

/-! ## White space -/

/-- Some characters with a property, possibly none, and then `rest`. -/
def Run (p : Char → Bool) (cs rest : List Char) : Prop :=
  ∃ run, (∀ c ∈ run, p c = true) ∧ cs = run ++ rest

/-- Any white space. -/
abbrev Spaces : List Char → List Char → Prop :=
  Run Unicode.isSpace

/-- Spaces and tabs. -/
abbrev Blanks : List Char → List Char → Prop :=
  Run Text.isBlank

/-- Spaces, tabs, carriage returns and line feeds. -/
abbrev Gaps : List Char → List Char → Prop :=
  Run Text.isGap

/-! ## Values -/

/-- Whether a text without quotes can hold `c`. -/
def isPlain (c : Char) : Bool :=
  !(Unicode.isSpace c || Text.needsQuotes c)

/-- Whether a text is free of line breaks. -/
def OneLine (s : String) : Prop :=
  ∀ c ∈ s.toList, Text.isLineBreak c = false

instance (s : String) : Decidable (OneLine s) :=
  decidable_of_iff (s.toList.all (!Text.isLineBreak ·) = true) (by simp [OneLine])

/-- A text, bare or in quotes.  In quotes a quote is written twice. -/
inductive LiteralText : List Char → List Char → String → Prop
  | bare {cs rest : List Char} {s : String} (nonempty : s.toList ≠ [])
      (plain : ∀ c ∈ s.toList, isPlain c = true) (text : cs = s.toList ++ rest) :
      LiteralText cs rest s
  | quoted {cs rest : List Char} {s : String} (line : OneLine s)
      (text : cs = '"' :: (Text.Quoted.double s.toList ++ '"' :: rest)) : LiteralText cs rest s

/-- A text that a field takes for the value `v`. -/
def LiteralValue (field : Field) (cs rest : List Char) (v : Value) : Prop :=
  ∃ s, LiteralText cs rest s ∧ field.converter.read s = .ok v

/-- What stands in front of the lower bound of a range, and whether the bound is included. -/
inductive RangeStart (loose : Bool) : List Char → List Char → Bool → Prop
  | included {cs rest : List Char} (blanks : Blanks cs rest) :
      RangeStart loose ('[' :: cs) rest true
  | excluded {cs rest : List Char} (blanks : Blanks cs rest) :
      RangeStart loose (']' :: cs) rest false
  | bare {cs : List Char} : RangeStart loose cs cs true
  | blanks {cs rest : List Char} (allowed : loose = true) (blanks : Blanks cs rest) :
      RangeStart loose cs rest true

/-- What stands behind the upper bound of a range, and whether the bound is included. -/
inductive RangeEnd : List Char → List Char → Bool → Prop
  | included {cs rest : List Char} (blanks : Blanks cs (']' :: rest)) : RangeEnd cs rest true
  | excluded {cs rest : List Char} (blanks : Blanks cs ('[' :: rest)) : RangeEnd cs rest false
  | bare {cs : List Char} : RangeEnd cs cs true

/-- Two texts with a `~` between them. -/
inductive RangeText (loose : Bool) (field : Field) : List Char → List Char → Range → Prop
  | mk {cs c₁ c₂ c₃ c₄ c₅ rest : List Char} {lower upper : Value} {li ui : Bool}
      (start : RangeStart loose cs c₁ li) (first : LiteralValue field c₁ c₂ lower)
      (before : Blanks c₂ ('~' :: c₃)) (behind : Blanks c₃ c₄)
      (second : LiteralValue field c₄ c₅ upper) (finish : RangeEnd c₅ rest ui) :
      RangeText loose field cs rest ⟨lower, upper, li, ui⟩

/-- The operator of a pattern. -/
def patternMark (p : Pattern) : List Char :=
  '~' :: ((if p.ignoresCase then ['i'] else []) ++ (if p.matcher.negated then ['!'] else []) ++
    [p.matcher.place.symbol])

/-- A value of a field. -/
inductive ValueText (loose : Bool) (field : Field) : List Char → List Char → Criterion → Prop
  | simple {cs rest : List Char} {v : Value} (literal : LiteralValue field cs rest v) :
      ValueText loose field cs rest (.simple v)
  | excluded {cs rest : List Char} {v : Value} (literal : LiteralValue field cs rest v) :
      ValueText loose field ('!' :: cs) rest (.excluded v)
  | range {cs rest : List Char} {r : Range} (range : RangeText loose field cs rest r) :
      ValueText loose field cs rest (.range r)
  | excludedRange {cs rest : List Char} {r : Range} (range : RangeText loose field cs rest r) :
      ValueText loose field ('!' :: cs) rest (.excludedRange r)
  | comparison {cs c₁ c₂ rest : List Char} {o : Operator} {v : Value}
      (mark : cs = o.symbol.toList ++ c₁) (blanks : Blanks c₁ c₂)
      (literal : LiteralValue field c₂ rest v) : ValueText loose field cs rest (.comparison ⟨o, v⟩)
  | pattern {cs c₁ c₂ rest : List Char} {p : Pattern} (mark : cs = patternMark p ++ c₁)
      (blanks : Blanks c₁ c₂) (literal : LiteralText c₂ rest p.text) :
      ValueText loose field cs rest (.pattern p)

/-- One or more values with commas between them. -/
inductive ValueList (loose : Bool) (field : Field) : List Char → List Char → List Criterion → Prop
  | one {cs rest : List Char} {v : Criterion} (value : ValueText loose field cs rest v) :
      ValueList loose field cs rest [v]
  | more {cs c₁ c₂ c₃ rest : List Char} {v : Criterion} {vs : List Criterion}
      (value : ValueText loose field cs c₁ v) (before : Spaces c₁ (',' :: c₂))
      (behind : Spaces c₂ c₃) (values : ValueList loose field c₃ rest vs) :
      ValueList loose field cs rest (v :: vs)

/-! ## Fields -/

/-- The name or the label of a field of the set, and the sign behind it.  White space around a label
is not part of it, and a label does not start like the marker of a group. -/
inductive FieldToken (fields : FieldSet) : Naming → List Char → List Char → Field → Prop
  | name {cs c₁ rest : List Char} {sign : Char} {name : String} {field : Field}
      (writable : Text.isFieldName name = true) (text : cs = name.toList ++ c₁)
      (blanks : Blanks c₁ (sign :: rest)) (colon : sign = ':' ∨ sign = '=')
      (found : fields.find? name = some field) : FieldToken fields .byName cs rest field
  | label {cs label rest trimmed : List Char} {first : Char} {field : Field}
      (chars : ∀ c ∈ label, Text.isLabelChar c = true) (text : cs = label ++ ':' :: rest)
      (trim : Unicode.trim label = first :: trimmed) (unmarked : first ≠ '&')
      (found : fields.findByLabel? (.ofList (first :: trimmed)) = some field) :
      FieldToken fields .byLabel cs rest field

/-- The end of a field with its values: a `;` belongs to it, a `)` does not. -/
inductive PairEnd : List Char → List Char → Prop
  | semicolon {rest : List Char} : PairEnd (';' :: rest) rest
  | close {rest : List Char} : PairEnd (')' :: rest) (')' :: rest)
  | atEnd : PairEnd [] []

/-- A field with its values. -/
inductive Pair (loose : Bool) (naming : Naming) (fields : FieldSet) :
    List Char → List Char → Field → List Criterion → Prop
  | mk {cs c₁ c₂ c₃ c₄ rest : List Char} {field : Field} {vs : List Criterion}
      (token : FieldToken fields naming cs c₁ field) (before : Spaces c₁ c₂)
      (values : ValueList loose field c₂ c₃ vs) (behind : Spaces c₃ c₄)
      (finish : PairEnd c₄ rest) : Pair loose naming fields cs rest field vs

/-! ## The tree -/

/-- The start of a group. -/
inductive GroupStart : List Char → List Char → Logical → Prop
  | or {cs rest : List Char} (gaps : Gaps cs ('(' :: rest)) : GroupStart ('*' :: cs) rest .or
  | and {cs rest : List Char} (gaps : Gaps cs ('(' :: rest)) : GroupStart ('&' :: cs) rest .and
  | bare {cs rest : List Char} (gaps : Gaps cs ('(' :: rest)) : GroupStart cs rest .and

/-- What may follow the `)` of a group. -/
inductive GroupEnd : List Char → List Char → Prop
  | semicolon {cs rest : List Char} (spaces : Spaces cs (';' :: rest)) : GroupEnd cs rest
  | bare {cs rest : List Char} (spaces : Spaces cs rest) : GroupEnd cs rest

/-- The items of a group at the given depth, which make the group `g` the group `g'`. -/
inductive Items (loose : Bool) (settings : Settings) (fields : FieldSet) :
    Nat → List Char → List Char → Group → Group → Prop
  | done {depth : Nat} {cs rest : List Char} {g : Group} (spaces : Spaces cs rest) :
      Items loose settings fields depth cs rest g g
  | pair {depth : Nat} {cs c₁ c₂ rest : List Char} {g g' : Group} {field : Field}
      {vs : List Criterion} (spaces : Spaces cs c₁)
      (pair : Pair loose settings.naming fields c₁ c₂ field vs)
      (new : g.fields.contains field.name = false) (limit : vs.length ≤ settings.maxValues)
      (items : Items loose settings fields depth c₂ rest
        (g.addField field.name (vs.foldl Bag.add {})) g') :
      Items loose settings fields depth cs rest g g'
  | group {depth : Nat} {cs c₁ c₂ c₃ c₄ rest : List Char} {g sub g' : Group} {logical : Logical}
      (spaces : Spaces cs c₁) (start : GroupStart c₁ c₂ logical)
      (deep : depth < settings.maxDepth) (limit : g.groups.length < settings.maxGroups)
      (body : Items loose settings fields (depth + 1) c₂ (')' :: c₃) { logical } sub)
      (finish : GroupEnd c₃ c₄)
      (items : Items loose settings fields depth c₄ rest (g.addGroup sub) g') :
      Items loose settings fields depth cs rest g g'

/-- A whole condition.  A `*` in front of it that does not start a group makes it an OR group. -/
inductive ConditionText (loose : Bool) (settings : Settings) (fields : FieldSet) :
    List Char → Group → Prop
  | and {cs : List Char} {t : Group} (items : Items loose settings fields 0 cs [] {} t) :
      ConditionText loose settings fields cs t
  | or {cs c₁ : List Char} {t : Group} (spaces : Spaces cs ('*' :: c₁))
      (noGroup : ∀ c₂, ¬ Gaps c₁ ('(' :: c₂))
      (items : Items loose settings fields 0 c₁ [] { logical := .or } t) :
      ConditionText loose settings fields cs t

end Grammar
end Criteria
