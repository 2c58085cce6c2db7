import Criteria.Diagnostic

/-!
# What can be observed while a condition is read or written

## What is here

* `Event` — the steps that are reported, with `Event.level` and `Event.message`.
-/

set_option autoImplicit false

namespace Criteria

/-- A step of reading or writing a condition. -/
inductive Event where
  | started (set : String) (characters : Nat)
  | readingField (name : String)
  | enteredGroup (logical : Logical) (level : Nat)
  | abandoned (fault : Diagnostic)
  | accepted (fields groups : Nat)
  | rejected (faults : Nat)
  | wroteText (set : String) (bytes : Nat)
  | wroteDocument (set : String) (bytes : Nat)

namespace Event

/-- How much detail a step is. -/
inductive Level where
  | debug
  | trace
deriving DecidableEq

/-- The name of a level. -/
def Level.name : Level → String
  | debug => "DEBUG"
  | trace => "TRACE"

/-- The level of a step. -/
def level : Event → Level
  | started .. | accepted .. | rejected _ => .debug
  | _ => .trace

/-- The text of a step. -/
def message : Event → String
  | started set characters =>
    "parsing condition for field set \"" ++ set ++ "\" (" ++ toString characters ++ " characters)"
  | readingField name => "reading values of field \"" ++ name ++ "\""
  | enteredGroup logical level =>
    "entered " ++ logical.name ++ " group at level " ++ toString level
  | abandoned fault => "abandoning field-value pair: " ++ fault.display
  | accepted fields groups =>
    "parsed condition with " ++ toString fields ++ " field(s) and " ++ toString groups ++
      " group(s) at root"
  | rejected faults => "condition rejected with " ++ toString faults ++ " error(s)"
  | wroteText set bytes =>
    "exported condition for field set \"" ++ set ++ "\" (" ++ toString bytes ++ " characters)"
  | wroteDocument set bytes =>
    "exported condition for field set \"" ++ set ++ "\" as JSON (" ++ toString bytes ++ " bytes)"

end Event
end Criteria
