import Criteria.Json.Token

/-!
# Reading JSON documents

Reading goes token by token.  The arrays and objects that are open are a stack, so nesting has no
limit here; what looks into a document sets its own.

## What is here

* `Json.ofText?` — the document that a text denotes.
-/

set_option autoImplicit false

namespace Criteria
namespace Json

/-- An open array with the items read so far, the last one first, or an open object with the members
read so far, unless a name among them has no value, and the name of the next member. -/
inductive Open where
  | array (items : List Json)
  | object (members : Option (List (String × Json))) (name : Option String)

/-- The members of an object with one more. -/
def Open.member (members : Option (List (String × Json))) (name : Option String) (j : Json) :
    Option (List (String × Json)) := do
  let ms ← members
  let n ← name
  return (n, j) :: ms

/-- The object with the given members, the last one first. -/
def Open.close : Option (List (String × Json)) → Json
  | some members => .object members.reverse
  | none => .unreadable

mutual

/-- Reads a value inside the open arrays and objects, the innermost first. -/
def readValue? (stack : List Open) : List Token → Option Json
  | .openArray :: .closeArray :: ts => readBehind? stack (.array []) ts
  | .openArray :: ts => readValue? (.array [] :: stack) ts
  | .openObject :: .closeObject :: ts => readBehind? stack (.object []) ts
  | .openObject :: .string name :: .colon :: ts => readValue? (.object (some []) name :: stack) ts
  | .string (some s) :: ts => readBehind? stack (.text s) ts
  | .string none :: ts => readBehind? stack .unreadable ts
  | .other j :: ts => readBehind? stack j ts
  | _ => none

/-- Reads what follows the value `j` inside the open arrays and objects. -/
def readBehind? (stack : List Open) (j : Json) : List Token → Option Json
  | [] => if stack.isEmpty then some j else none
  | .comma :: .string name :: .colon :: ts =>
    match stack with
    | .object members last :: outer =>
      readValue? (.object (Open.member members last j) name :: outer) ts
    | _ => none
  | .comma :: ts =>
    match stack with
    | .array items :: outer => readValue? (.array (j :: items) :: outer) ts
    | _ => none
  | .closeArray :: ts =>
    match stack with
    | .array items :: outer => readBehind? outer (.array (j :: items).reverse) ts
    | _ => none
  | .closeObject :: ts =>
    match stack with
    | .object members last :: outer =>
      readBehind? outer (Open.close (Open.member members last j)) ts
    | _ => none
  | _ => none

end

/-- The document that a text denotes. -/
def ofText? (s : String) : Option Json :=
  (Token.ofText? s).bind (readValue? [])

end Json
end Criteria
