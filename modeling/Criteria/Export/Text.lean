import Criteria.Condition
import Criteria.Text.Literal

/-!
# Writing a condition

A condition is written so that it reads back: fields first, then subgroups, items between `"; "`.
Hidden fields and fields without entries are left out.

## What is here

* `Criterion.write`, `Bag.write` — the entries of a field.
* `Group.items` — the items of a group.
* `Condition.write` — the text of a condition, which refers to fields by their names;
  `Condition.writeLabelled` refers to them by a text of the caller's choice.
-/

set_option autoImplicit false

namespace Criteria

/-! ## Entries -/

/-- A range, with brackets for the bounds that do not belong to it. -/
def Range.write (text : Value → String) (r : Range) : String :=
  (if r.lowerInclusive then "" else "]") ++ Literal.write (text r.lower) ++ " ~ " ++
    Literal.write (text r.upper) ++ (if r.upperInclusive then "" else "[")

/-- A comparison. -/
def Comparison.write (text : Value → String) (c : Comparison) : String :=
  c.operator.symbol ++ Literal.write (text c.value)

/-- A pattern. -/
def Pattern.write (p : Pattern) : String :=
  "~" ++ (if p.ignoresCase then "i" else "") ++ (if p.matcher.negated then "!" else "") ++
    p.matcher.place.symbol.toString ++ Literal.write p.text

/-- An entry of a field. -/
def Criterion.write (text : Value → String) : Criterion → String
  | simple v => Literal.write (text v)
  | excluded v => "!" ++ Literal.write (text v)
  | range r => r.write text
  | excludedRange r => "!" ++ r.write text
  | comparison c => c.write text
  | pattern p => p.write

/-- The entries of a field. -/
def Bag.write (text : Value → String) (b : Bag) : String :=
  ", ".intercalate (b.toList.map (Criterion.write text))

/-! ## Groups -/

/-- Whether a field of a group is written. -/
def FieldSet.exports (s : FieldSet) (field : String × Bag) : Bool :=
  !s.isHidden field.1 && !field.2.isEmpty

/-- The marker of a subgroup.  An AND group has one only where it is `forced`. -/
def Logical.marker (forced : Bool) : Logical → String
  | .or => "*"
  | .and => if forced then "&" else ""

namespace Group

/-- The fields of a group, each with its values. -/
def fieldItems (s : FieldSet) (caption : String → String) (fields : NameMap Bag) : List String :=
  (fields.entries.filter s.exports).map fun field =>
    caption field.1 ++ ": " ++ field.2.write (s.write field.1)

mutual

/-- The items of a subgroup: its fields, then its subgroups. -/
def items (s : FieldSet) (caption : String → String) : Group → List String
  | ⟨_, fields, groups⟩ => fieldItems s caption fields ++ groupItems s caption false groups

/-- The items of subgroups.  The first one has a marker if `forced` holds. -/
def groupItems (s : FieldSet) (caption : String → String) (forced : Bool) :
    List Group → List String
  | [] => []
  | g :: gs =>
    (g.logical.marker forced ++ "(" ++ "; ".intercalate (items s caption g) ++ ")") ::
      groupItems s caption false gs

end

/-- The items of the root.  Behind the marker of an OR root, an AND group in first place needs a
marker of its own, or the two would read like the start of an OR group. -/
def rootItems (s : FieldSet) (caption : String → String) (g : Group) : List String :=
  let fields := fieldItems s caption g.fields
  fields ++ groupItems s caption (g.logical == .or && fields.isEmpty) g.groups

end Group

/-! ## Conditions -/

namespace Condition

/-- The text of a condition that refers to fields by captions. -/
def writeWith (c : Condition) (caption : String → String) : String :=
  let items := c.root.rootItems c.fields caption
  (if c.root.logical == .or && !items.isEmpty then "* " else "") ++ "; ".intercalate items

/-- The text of a condition that refers to fields by their names. -/
def write (c : Condition) : String :=
  c.writeWith fun name => name

/-- The text of a condition that refers to fields by what `label` gives for them.  A field that is
not in the set is referred to by its name. -/
def writeLabelled (c : Condition) (label : Field → String) : String :=
  c.writeWith fun name => match c.fields.find? name with
    | some f => label f
    | none => name

end Condition
end Criteria
