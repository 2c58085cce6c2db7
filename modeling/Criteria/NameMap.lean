/-!
# Maps from names, in the order of their first insertion

## What is here

* `NameMap` — an association list in which every name occurs once.
* `NameMap.insert` — a new name goes to the end; a name that is there keeps its place and gets the
  new value.
* `NameMap.find?`, `NameMap.contains`, `NameMap.names`; `NameMap.find?_eq_some_iff`,
  `NameMap.contains_iff` say what is found.
* `NameMap.agrees` — equality of the values under each name, whatever the order of the names.
-/

set_option autoImplicit false

namespace Criteria

/-- A map from names, in the order of their first insertion. -/
structure NameMap (α : Type) where
  entries : List (String × α)
  nodup : (entries.map Prod.fst).Nodup

namespace NameMap

variable {α : Type}

/-- The map without names. -/
def empty : NameMap α :=
  ⟨[], .nil⟩

instance : Inhabited (NameMap α) :=
  ⟨empty⟩

/-- The names, in order. -/
def names (m : NameMap α) : List String :=
  m.entries.map Prod.fst

/-- The value under a name. -/
def find? (m : NameMap α) (name : String) : Option α :=
  m.entries.lookup name

/-- Whether there is a value under a name. -/
def contains (m : NameMap α) (name : String) : Bool :=
  m.entries.any (·.1 == name)

theorem contains_iff {m : NameMap α} {name : String} :
    m.contains name = true ↔ name ∈ m.names := by
  simp [contains, names, List.any_eq_true]

/-- Among pairs with different names, what is found under a name is the one pair of this name. -/
theorem lookup_eq_some_iff {pairs : List (String × α)} (h : (pairs.map Prod.fst).Nodup)
    {name : String} {value : α} : pairs.lookup name = some value ↔ (name, value) ∈ pairs := by
  rw [List.lookup_eq_some_iff]
  constructor
  · rintro ⟨before, behind, rfl, -⟩
    simp
  · intro hm
    obtain ⟨before, behind, rfl⟩ := List.append_of_mem hm
    refine ⟨before, behind, rfl, fun p hp => ?_⟩
    rw [List.map_append, List.nodup_append] at h
    have hne := h.2.2 p.1 (List.mem_map_of_mem hp) name (by simp)
    simpa using Ne.symm hne

theorem find?_eq_some_iff {m : NameMap α} {name : String} {value : α} :
    m.find? name = some value ↔ (name, value) ∈ m.entries :=
  lookup_eq_some_iff m.nodup

/-- Gives a name a value: in its place if it is there, at the end otherwise. -/
def insert (m : NameMap α) (name : String) (value : α) : NameMap α :=
  if h : m.contains name then
    { entries := m.entries.map fun e => if e.1 = name then (name, value) else e
      nodup := by
        have : (m.entries.map fun e => if e.1 = name then (name, value) else e).map Prod.fst =
            m.entries.map Prod.fst := by
          rw [List.map_map]
          refine List.map_congr_left fun e _ => ?_
          by_cases he : e.1 = name <;> simp [he]
        rw [this]
        exact m.nodup }
  else
    { entries := m.entries ++ [(name, value)]
      nodup := by
        have hn : name ∉ m.entries.map Prod.fst := fun hm => h (contains_iff.2 hm)
        rw [List.map_append, List.nodup_append]
        refine ⟨m.nodup, by simp, fun a ha b hb => ?_⟩
        simp only [List.map_cons, List.map_nil, List.mem_singleton] at hb
        exact fun hab => hn (hb ▸ hab ▸ ha) }

/-- The map that inserting the pairs one after another gives. -/
def ofList (pairs : List (String × α)) : NameMap α :=
  pairs.foldl (fun m p => m.insert p.1 p.2) empty

/-- Whether two maps have the same names and equal values under each of them. -/
def agrees [BEq α] (a b : NameMap α) : Bool :=
  a.entries.length == b.entries.length &&
    a.entries.all fun e => match b.find? e.1 with
      | some value => e.2 == value
      | none => false

theorem insert_entries_of_not_contains {m : NameMap α} {name : String} (h : m.contains name = false)
    (value : α) : (m.insert name value).entries = m.entries ++ [(name, value)] := by
  simp [insert, h]

end NameMap
end Criteria
