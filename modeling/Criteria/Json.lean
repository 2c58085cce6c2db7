import Criteria.Decimal.Text
import Criteria.Integer

/-!
# JSON documents

## What is here

* `Json` — a document.  Objects keep the order of their members, and may have several of one name.
* `Json.render` — the document without white space.
-/

set_option autoImplicit false

namespace Criteria

/-- A JSON document. -/
inductive Json where
  | null
  | bool (b : Bool)
  | whole (n : Int)
  | decimal (x : Float)
  | text (s : String)
  /-- A text or a number without a value, or an object with such a name.  It may stand wherever
  nothing looks at it. -/
  | unreadable
  | array (items : List Json)
  | object (members : List (String × Json))

namespace Json

/-- A character of a text: quotes, backslashes and controls are escaped. -/
def escape (c : Char) : List Char :=
  if c = '"' then ['\\', '"']
  else if c = '\\' then ['\\', '\\']
  else if c = '\x08' then ['\\', 'b']
  else if c = '\x0c' then ['\\', 'f']
  else if c = '\n' then ['\\', 'n']
  else if c = '\r' then ['\\', 'r']
  else if c = '\t' then ['\\', 't']
  else if c.toNat < 0x20 then
    ['\\', 'u', '0', '0', Nat.digitChar (c.toNat / 16), Nat.digitChar (c.toNat % 16)]
  else [c]

/-- A text in quotes. -/
def renderText (s : String) : String :=
  "\"" ++ .ofList (s.toList.flatMap escape) ++ "\""

/-- A number; an infinite one, or one that is none, is written as `null`. -/
def renderDecimal (x : Float) : String :=
  if x.isFinite then Decimal.write Decimal.interchange x else "null"

mutual

/-- The document without white space. -/
def render : Json → String
  | null => "null"
  | bool b => if b then "true" else "false"
  | whole n => .ofList (Integer.digits n)
  | decimal x => renderDecimal x
  | text s => renderText s
  | unreadable => "null"
  | array items => "[" ++ ",".intercalate (renderItems items) ++ "]"
  | object members => "\x7b" ++ ",".intercalate (renderMembers members) ++ "\x7d"

/-- The items of an array. -/
def renderItems : List Json → List String
  | [] => []
  | j :: js => render j :: renderItems js

/-- The members of an object. -/
def renderMembers : List (String × Json) → List String
  | [] => []
  | (name, j) :: ms => (renderText name ++ ":" ++ render j) :: renderMembers ms

end

end Json
end Criteria
