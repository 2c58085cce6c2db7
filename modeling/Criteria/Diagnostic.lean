import Criteria.Assembly

/-!
# What can be wrong with a condition

## What is here

* `Diagnostic` — a kind of fault, the column it is reported at, and a text; `Diagnostic.display` and
  `Diagnostic.rejection` are the texts for one and for all faults of a condition.
* `Fault` — the causes of diagnostics, with `Fault.kind` and `Fault.message`.
-/

set_option autoImplicit false

namespace Criteria

/-- The kinds of faults. -/
inductive FaultKind where
  | lexical
  | wrongSyntax
  | unknownField
  | depthExceeded
  | validation
  | valuesOverflow
  | groupsOverflow
deriving DecidableEq

/-- The kind in words. -/
def FaultKind.title : FaultKind → String
  | lexical => "lexical"
  | wrongSyntax => "syntax"
  | unknownField => "unknown field"
  | depthExceeded => "nesting depth"
  | validation => "validation"
  | valuesOverflow => "values overflow"
  | groupsOverflow => "groups overflow"

/-- A fault at a place in the text of a condition. -/
structure Diagnostic where
  kind : FaultKind
  /-- The column of the place, counted in characters from one. -/
  column : Nat
  message : String
deriving DecidableEq

namespace Diagnostic

/-- The fault in one line. -/
def display (d : Diagnostic) : String :=
  d.kind.title ++ " error at column " ++ toString d.column ++ ": " ++ d.message

/-- All faults of a condition in one line. -/
def rejection (ds : List Diagnostic) : String :=
  "invalid search condition: " ++ "; ".intercalate (ds.map display)

end Diagnostic

/-! ## Causes -/

/-- What stands at a place: a character or nothing. -/
def describe : Option Char → String
  | some c => "\"" ++ c.toString ++ "\""
  | none => "end of input"

/-- The causes of faults. -/
inductive Fault where
  | reservedCharacter (literal : String) (c : Char)
  | lineBreak
  | unterminated
  | looseText
  | expectedToken (token : String) (found : Option Char)
  | expectedFieldName (found : Option Char)
  | expectedLabel (found : Option Char)
  | expectedValue (found : Option Char)
  | expectedOperator (found : Option Char)
  | expectedMatcher
  | expectedSeparator (found : Option Char)
  | danglingSeparator
  | noValues (field : String)
  | loneMarker
  | unopenedGroup
  | unclosedGroup (column : Nat)
  | unfinished
  | misuse (reason : Misuse)
  | unknownField (token : String)
  | invalidValue (field : String) (reason : String)
  | tooDeep (limit : Nat)
  | tooManyValues (field : String) (limit : Nat)
  | tooManyGroups (limit : Nat)

namespace Fault

/-- The kind of a fault. -/
def kind : Fault → FaultKind
  | reservedCharacter .. | lineBreak | unterminated | looseText => .lexical
  | unknownField _ => .unknownField
  | invalidValue .. => .validation
  | tooDeep _ => .depthExceeded
  | tooManyValues .. => .valuesOverflow
  | tooManyGroups _ => .groupsOverflow
  | _ => .wrongSyntax

/-- The text of a fault. -/
def message : Fault → String
  | reservedCharacter literal c =>
    "unquoted value \"" ++ literal ++ "\" contains reserved character \"" ++ c.toString ++
      "\", quote the value"
  | lineBreak => "line breaks are not allowed within a value"
  | unterminated => "unterminated quoted value, expected closing \""
  | looseText => "unquoted values cannot contain whitespace, quote the value"
  | expectedToken token found => "expected \"" ++ token ++ "\", found " ++ describe found
  | expectedFieldName found =>
    "expected a field name followed by \":\", found " ++ describe found
  | expectedLabel found => "expected a field label followed by \":\", found " ++ describe found
  | expectedValue found => "expected a value, found " ++ describe found
  | expectedOperator found => "expected a comparison operator, found " ++ describe found
  | expectedMatcher => "expected a pattern-match operator (\"~*\", \"~>\" or \"~<\")"
  | expectedSeparator found => "expected \",\" or \";\" after a value, found " ++ describe found
  | danglingSeparator => "dangling value separator \",\", expected another value"
  | noValues field => "field \"" ++ field ++ "\" requires at least one value"
  | loneMarker => "group logical marker must be followed by \"(\""
  | unopenedGroup => "cannot close a group that was never opened"
  | unclosedGroup column =>
    "group opened at column " ++ toString column ++ " is never closed, expected \")\""
  | unfinished => "unclosed construct at end of input"
  | misuse reason => reason.message
  | unknownField token => "unknown field \"" ++ token ++ "\""
  | invalidValue field reason => "invalid value for field \"" ++ field ++ "\": " ++ reason
  | tooDeep limit => "group nesting exceeds the maximum level of " ++ toString limit
  | tooManyValues field limit =>
    "field \"" ++ field ++ "\" exceeds the maximum of " ++ toString limit ++ " values"
  | tooManyGroups limit => "group exceeds the maximum of " ++ toString limit ++ " subgroups"

/-- The diagnostic for a fault in a column. -/
def inColumn (f : Fault) (column : Nat) : Diagnostic :=
  ⟨f.kind, column, f.message⟩

end Fault
end Criteria
