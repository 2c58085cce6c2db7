import Criteria.Diagnostic
import Criteria.Settings
import Criteria.Stored.Decoder

/-!
# Diagnostics and settings as documents

## What is here

* `toJson` and `ofJson?` for `FaultKind`, `Diagnostic`, `Naming` and `Settings`.  Settings may be
  incomplete; what is missing has its usual value.
-/

set_option autoImplicit false

namespace Criteria

namespace FaultKind

/-- The stored name of a kind. -/
def storedName : FaultKind → String
  | lexical => "lexical"
  | wrongSyntax => "syntax"
  | unknownField => "unknown_field"
  | depthExceeded => "depth_exceeded"
  | validation => "validation"
  | valuesOverflow => "values_overflow"
  | groupsOverflow => "groups_overflow"

/-- All kinds. -/
def all : List FaultKind :=
  [lexical, wrongSyntax, unknownField, depthExceeded, validation, valuesOverflow, groupsOverflow]

/-- The document of a kind. -/
def toJson (k : FaultKind) : Json :=
  .text k.storedName

/-- The kind that a document stands for. -/
def ofJson? : Nat → Json → Option FaultKind :=
  Json.tag? (all.map fun k => (k.storedName, k))

end FaultKind

namespace Diagnostic

/-- The document of a diagnostic. -/
def toJson (d : Diagnostic) : Json :=
  .object [("message", .text d.message), ("column", .whole d.column), ("kind", d.kind.toJson)]

/-- The diagnostic that a document stands for. -/
def ofJson? (room : Nat) (j : Json) : Option Diagnostic := do
  match ← Json.record? ["message", "column", "kind"] room j with
  | [m, c, k] => return ⟨← FaultKind.ofJson? (room - 1) k, ← Json.natural? c, ← Json.text? m⟩
  | _ => none

end Diagnostic

namespace Naming

/-- The stored name of a way to refer to fields. -/
def storedName : Naming → String
  | byName => "name"
  | byLabel => "label"

/-- The document of a way to refer to fields. -/
def toJson (n : Naming) : Json :=
  .text n.storedName

/-- The way to refer to fields that a document stands for. -/
def ofJson? : Nat → Json → Option Naming :=
  Json.tag? [("name", byName), ("label", byLabel)]

end Naming

namespace Settings

/-- The document of settings. -/
def toJson (s : Settings) : Json :=
  .object [("max_nesting_level", .whole s.maxDepth), ("max_values", .whole s.maxValues),
    ("max_groups", .whole s.maxGroups), ("field_names", s.naming.toJson)]

/-- The part that a document stands for, or its usual value if there is none. -/
def part? {α : Type} (usual : α) (read : Json → Option α) : Option Json → Option α
  | some j => read j
  | none => some usual

/-- The settings that a document stands for. -/
def ofJson? (room : Nat) (j : Json) : Option Settings := do
  let usual : Settings := {}
  match ← Json.parts? ["max_nesting_level", "max_values", "max_groups", "field_names"] room j with
  | [d, v, g, n] =>
    return ⟨← part? usual.maxDepth Json.natural? d, ← part? usual.maxValues Json.natural? v,
      ← part? usual.maxGroups Json.natural? g,
      ← part? usual.naming (Naming.ofJson? (room - 1)) n⟩
  | _ => none

end Settings

end Criteria
