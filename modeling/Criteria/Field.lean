import Criteria.Text.Character
import Criteria.Unicode.Display
import Criteria.Value

/-!
# Fields

## What is here

* `Converter` — how the texts of a field become values, and values texts; `Converter.text`,
  `Converter.integer`, `Converter.decimal`.
* `Field` — a name, an optional label, a converter, and whether the field is kept out of exports.
* `Field.describe` — the field for a developer.
* `FieldSet` — a named list of fields with different names, each of which can be written in a
  condition.
* `FieldSet.build` — the set with the given fields, or the first name that cannot be written.
-/

set_option autoImplicit false

namespace Criteria

/-! ## Converters -/

/-- How texts become values, or are refused with a reason, and how values become texts. -/
structure Converter where
  read : String → Except String Value
  write : Value → String

namespace Converter

/-- Takes texts as they are. -/
def text : Converter :=
  ⟨fun s => .ok (.text s), Value.display⟩

/-- The signed 64-bit number that a text denotes, white space around it aside. -/
def readInteger (s : String) : Except String Value :=
  match (Integer.ofDigits? (Unicode.trim s.toList)).bind Integer.toInt64? with
  | some n => .ok (.integer n)
  | none => .error ("\"" ++ s ++ "\" is not a valid integer")

/-- Takes signed 64-bit numbers. -/
def integer : Converter :=
  ⟨readInteger, Value.display⟩

/-- The finite decimal number that a text denotes, white space around it aside. -/
def readDecimal (s : String) : Except String Value :=
  match Decimal.ofText? (Unicode.trim s.toList) with
  | none => .error ("\"" ++ s ++ "\" is not a valid number")
  | some x =>
    if x.isFinite then .ok (.decimal x) else .error ("\"" ++ s ++ "\" is not a finite number")

/-- Takes finite decimal numbers. -/
def decimal : Converter :=
  ⟨readDecimal, Value.display⟩

end Converter

/-! ## Fields -/

/-- A field that conditions can be put on. -/
structure Field where
  name : String
  label : Option String := none
  /-- Whether the field is kept out of exports. -/
  hidden : Bool := false
  converter : Converter

namespace Field

/-- The label, or the name if there is none. -/
def caption (f : Field) : String :=
  f.label.getD f.name

/-- A character of a text in quotes: one that is not shown as it is stands as an escape. -/
def escape (c : Char) : String :=
  if c = '\x00' then "\\0"
  else if c = '\t' then "\\t"
  else if c = '\r' then "\\r"
  else if c = '\n' then "\\n"
  else if c = '"' then "\\\""
  else if c = '\\' then "\\\\"
  else if Unicode.isShown c then c.toString
  else "\\u\x7b" ++ .ofList (Nat.toDigits 16 c.toNat) ++ "\x7d"

/-- A text in quotes, with escapes. -/
def literal (s : String) : String :=
  "\"" ++ String.join (s.toList.map escape) ++ "\""

/-- The field for a developer. -/
def describe (f : Field) : String :=
  let label := match f.label with
    | some l => "Some(" ++ literal l ++ ")"
    | none => "None"
  "FieldDescriptor \x7b name: " ++ literal f.name ++ ", label: " ++ label ++ ", private: " ++
    toString f.hidden ++ ", .. \x7d"

end Field

/-! ## Sets of fields -/

/-- A named list of fields with different names, all of which can be written in a condition. -/
structure FieldSet where
  name : String
  fields : List Field
  writable : ∀ f ∈ fields, Text.isFieldName f.name = true
  nodup : (fields.map Field.name).Nodup

namespace FieldSet

/-- The list in which `f` stands in the place of the field of its name, or at the end if there is
none. -/
def put (f : Field) : List Field → List Field
  | [] => [f]
  | g :: gs => if g.name = f.name then f :: gs else g :: put f gs

theorem names_put (f : Field) (fs : List Field) :
    (put f fs).map Field.name =
      if f.name ∈ fs.map Field.name then fs.map Field.name else fs.map Field.name ++ [f.name] := by
  induction fs with
  | nil => simp [put]
  | cons g gs ih =>
    by_cases h : g.name = f.name
    · simp [put, h]
    · have h' : f.name ≠ g.name := fun e => h e.symm
      by_cases hm : f.name ∈ gs.map Field.name
      · simp only [put, h, if_false, List.map_cons, ih, hm, if_true, List.mem_cons, or_true]
      · simp only [put, h, if_false, List.map_cons, ih, hm, List.mem_cons, h', or_false,
          List.cons_append]

theorem nodup_put {f : Field} {fs : List Field} (h : (fs.map Field.name).Nodup) :
    ((put f fs).map Field.name).Nodup := by
  rw [names_put]
  split
  · exact h
  · next hf =>
    rw [List.nodup_append]
    refine ⟨h, by simp, fun a ha b hb => ?_⟩
    rw [List.mem_singleton] at hb
    exact fun hab => hf (hb ▸ hab ▸ ha)

/-- The fields of a list of declarations: a later field replaces an earlier one of its name in its
place. -/
def declare (declarations : List Field) : List Field :=
  declarations.foldl (fun fs f => put f fs) []

theorem nodup_declare (declarations : List Field) :
    ((declare declarations).map Field.name).Nodup := by
  suffices h : ∀ fs : List Field, (fs.map Field.name).Nodup →
      ((declarations.foldl (fun fs f => put f fs) fs).map Field.name).Nodup from h [] .nil
  induction declarations with
  | nil => exact fun _ h => h
  | cons f _ ih => exact fun fs h => ih _ (nodup_put h)

/-- The set with the declared fields, or the first name that cannot be written. -/
def build (name : String) (declarations : List Field) : Except String FieldSet :=
  let fields := declare declarations
  match h : fields.find? fun f => !Text.isFieldName f.name with
  | some f => .error f.name
  | none => .ok {
      name, fields
      writable := fun f hf => by simpa using List.find?_eq_none.1 h f hf
      nodup := nodup_declare declarations }

/-- What is wrong with a name that cannot be written. -/
def refusal (name : String) : String :=
  "field name \"" ++ name ++ "\" cannot be used in a condition"

/-- The field with a name. -/
def find? (s : FieldSet) (name : String) : Option Field :=
  s.fields.find? (·.name == name)

/-- The first field with a label, or without one and with that name. -/
def findByLabel? (s : FieldSet) (label : String) : Option Field :=
  s.fields.find? (·.caption == label)

/-- Whether there is a field with a name. -/
def contains (s : FieldSet) (name : String) : Bool :=
  (s.find? name).isSome

/-- Whether the field with a name is kept out of exports.  A name without a field is not. -/
def isHidden (s : FieldSet) (name : String) : Bool :=
  (s.find? name).any Field.hidden

/-- The text of a value under a name: that of the field, or the plain text without a field. -/
def write (s : FieldSet) (name : String) (v : Value) : String :=
  match s.find? name with
  | some f => f.converter.write v
  | none => v.display

end FieldSet
end Criteria
