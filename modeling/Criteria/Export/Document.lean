import Criteria.Export.Text
import Criteria.Json

/-!
# A condition as a document

A document holds the same as the text of a condition, values as texts.  What is empty is left out:
lists of entries, groups in which nothing is written, and flags of bounds that belong to their
range.  A group is marked as an OR group only if a field of it is written.

## What is here

* `Bag.document`, `Group.document`, `Condition.document`.
-/

set_option autoImplicit false

namespace Criteria

/-- A member of an object that is left out if the list is empty. -/
def Json.listMember (name : String) (items : List Json) : List (String × Json) :=
  if items.isEmpty then [] else [(name, .array items)]

/-- A range. -/
def Range.document (write : Value → String) (r : Range) : Json :=
  .object <| [("lower", .text (write r.lower)), ("upper", .text (write r.upper))] ++
    (if r.lowerInclusive then [] else [("inclusive-lower", .bool false)]) ++
    (if r.upperInclusive then [] else [("inclusive-upper", .bool false)])

/-- A comparison. -/
def Comparison.document (write : Value → String) (c : Comparison) : Json :=
  .object [("operator", .text c.operator.symbol), ("value", .text (write c.value))]

/-- A pattern. -/
def Pattern.document (p : Pattern) : Json :=
  .object [("type", .text p.matcher.name), ("value", .text p.text),
    ("case-insensitive", .bool p.ignoresCase)]

/-- The entries of a field, kind by kind. -/
def Bag.document (write : Value → String) (b : Bag) : Json :=
  .object <|
    Json.listMember "simple-values" (b.simple.toList.map fun v => .text (write v)) ++
    Json.listMember "excluded-simple-values" (b.excluded.toList.map fun v => .text (write v)) ++
    Json.listMember "ranges" (b.ranges.toList.map (Range.document write)) ++
    Json.listMember "excluded-ranges" (b.excludedRanges.toList.map (Range.document write)) ++
    Json.listMember "comparisons" (b.comparisons.toList.map (Comparison.document write)) ++
    Json.listMember "pattern-matchers" (b.patterns.toList.map Pattern.document)

namespace Group

/-- The fields of a group that are written. -/
def fieldMembers (s : FieldSet) (fields : NameMap Bag) : List (String × Json) :=
  (fields.entries.filter s.exports).map fun field =>
    (field.1, field.2.document (s.write field.1))

mutual

/-- The members of the document of a group; there are none if nothing in it is written. -/
def members (s : FieldSet) : Group → List (String × Json)
  | ⟨logical, fields, groups⟩ =>
    let fields := fieldMembers s fields
    (if fields.isEmpty then [] else [("fields", .object fields)]) ++
      Json.listMember "groups" (documents s groups) ++
      (if !fields.isEmpty && logical == .or then [("logical-case", .text "OR")] else [])

/-- The documents of the groups in which something is written. -/
def documents (s : FieldSet) : List Group → List Json
  | [] => []
  | g :: gs =>
    let ms := members s g
    if ms.isEmpty then documents s gs else .object ms :: documents s gs

end

/-- The document of a group. -/
def document (s : FieldSet) (g : Group) : Json :=
  .object (members s g)

end Group

/-- The document of a condition. -/
def Condition.document (c : Condition) : Json :=
  c.root.document c.fields

end Criteria
