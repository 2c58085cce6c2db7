import Criteria.Condition
import Criteria.Parse.State

/-!
# Reading a condition

## What is here

* `Condition.parse` — the condition that a text denotes, or all that is wrong with it, in the order
  in which it was found.
* `Condition.parseTraced` — the same, and the steps taken.
-/

set_option autoImplicit false

namespace Criteria
namespace Condition

/-- The condition put together in a session that has come to the end of the text. -/
def ofSession (fields : FieldSet) (s : Session) : Except (List Diagnostic) Condition :=
  if s.faults.isEmpty then
    match s.assembly.finish with
    | .ok root => .ok ⟨fields, root⟩
    | .error reason => .error [(Fault.misuse reason).inColumn s.cursor.column]
  else .error s.faults.toList

/-- Reads a text as a condition about the fields of a set, and reports the steps taken. -/
def parseTraced (settings : Settings) (fields : FieldSet) (text : String) :
    Except (List Diagnostic) Condition × List Event :=
  let session := State.run settings fields (.start text)
  let result := ofSession fields session
  let outcome := match result with
    | .ok c => Event.accepted c.root.fields.entries.length c.root.groups.length
    | .error faults => Event.rejected faults.length
  (result, Event.started fields.name text.length :: (session.events.push outcome).toList)

/-- Reads a text as a condition about the fields of a set. -/
def parse (settings : Settings) (fields : FieldSet) (text : String) :
    Except (List Diagnostic) Condition :=
  ofSession fields (State.run settings fields (.start text))

theorem parseTraced_fst (settings : Settings) (fields : FieldSet) (text : String) :
    (parseTraced settings fields text).1 = parse settings fields text := rfl

end Condition
end Criteria
