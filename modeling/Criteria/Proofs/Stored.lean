import Criteria.Proofs.Json.Read
import Criteria.Proofs.Tree
import Criteria.Stored.Group

/-!
# Condition trees, stored and read

A tree without decimal numbers is read back from the text of its document, unless its groups are
nested too deep.  The document does not say of which type a value is, but a number and a text are
written in different ways, and so an integer stays an integer and a text stays a text.

A document of this kind is for storing a tree and not for showing it: nothing is left out, and every
part of the data has a member of its own.  So each type is read back by reading its members, and the
lemmas go up from values to groups.  What limits this is the reader of documents, which descends
only so far; a tree that is nested deeper can be written and not be read.  How much room there is
left is carried along as a number.

## What is here

* `Json.record?_object` — the parts of an object that has just these.
* `NameMap.ofList_entries` — a map is made of its entries.
* `ofJson?_toJson` for each type — data is read from its document, if there is room for it.
* `exact_toJson` for each type — without decimal numbers, the document is read from its text.
* `Group.Storable`, `Group.ofText?_render_toJson` — a tree is read from the text of its document.

The two halves are independent of each other.  `ofJson?_toJson` is about documents as data;
`exact_toJson` says that the document of a tree is one of those that survive being written as a
text.
-/

set_option autoImplicit false

namespace Criteria

/-! ## Objects and maps

An object is read as a record if it has each part once and no other member.  A map is read from an
object by inserting its members one by one, which keeps their order because no name is there
twice. -/

namespace Json

variable {members : List (String × Json)}

/-- A name that is not repeated occurs at most once. -/
theorem length_filter_le_one (h : (members.map Prod.fst).Nodup) (name : String) :
    (members.filter (·.1 == name)).length ≤ 1 := by
  have hcount := List.nodup_iff_count.1 h name
  rwa [List.count, List.countP_map, List.countP_eq_length_filter] at hcount

/-- The parts of an object that has just these, under different names. -/
theorem record?_object {names : List String} {parts : List Json} (room : Nat)
    (hnames : members.map Prod.fst = names) (hparts : members.map Prod.snd = parts)
    (hnodup : names.Nodup) : record? names (room + 1) (.object members) = some parts := by
  subst hnames hparts
  have hlookup : (members.map Prod.fst).map (fun name => members.lookup name) =
      members.map fun m => some m.2 := by
    rw [List.map_map]
    exact List.map_congr_left fun m hm => (NameMap.lookup_eq_some_iff hnodup).2 hm
  rw [record?, parts?, if_pos, hlookup, Option.bind_some, List.mapM_map]
  · exact List.mapM_pure
  · simpa using fun name _ _ => length_filter_le_one hnodup name

end Json

namespace NameMap

variable {α : Type}

/-- Inserting under new names appends. -/
theorem entries_foldl_insert (pairs : List (String × α)) (m : NameMap α)
    (h : ((m.entries ++ pairs).map Prod.fst).Nodup) :
    (pairs.foldl (fun m p => m.insert p.1 p.2) m).entries = m.entries ++ pairs := by
  induction pairs generalizing m with
  | nil => rw [List.foldl_nil, List.append_nil]
  | cons p ps ih =>
    have hnew : m.contains p.1 = false := by
      rw [Bool.eq_false_iff, Ne, contains_iff]
      intro hmem
      rw [List.map_append, List.nodup_append] at h
      exact h.2.2 p.1 hmem p.1 (by simp) rfl
    have hentries := insert_entries_of_not_contains hnew p.2
    rw [List.foldl_cons, ih, hentries, List.append_assoc, List.singleton_append]
    rwa [hentries, List.append_assoc, List.singleton_append]

/-- A map is made of its entries, in their order. -/
theorem ofList_entries (m : NameMap α) : ofList m.entries = m := by
  obtain ⟨entries, nodup⟩ := m
  have h := entries_foldl_insert entries empty nodup
  rwa [NameMap.mk.injEq]

end NameMap

/-! ## Data from documents

Each object takes one level of the room, and so does each list.  The types that cannot be nested
need only so many levels; a group needs as many as the groups in it. -/

/-- A value is read from its document by what sort of document it is. -/
theorem Value.ofJson?_toJson (v : Value) : ofJson? v.toJson = some v := by
  cases v with
  | integer n =>
    have hrange : Int64.minValue.toInt ≤ n.toInt ∧ n.toInt ≤ Int64.maxValue.toInt :=
      ⟨Int64.minValue_le_toInt n, Int64.toInt_le n⟩
    rw [toJson, ofJson?, Integer.toInt64?, if_pos hrange, Int64.ofInt_toInt]
  | decimal x => rfl
  | text s => rfl

theorem Range.ofJson?_toJson (r : Range) (room : Nat) :
    ofJson? (room + 1) r.toJson = some r := by
  have hparts : Json.record? ["lower", "upper", "lower_inclusive", "upper_inclusive"] (room + 1)
      r.toJson = some [r.lower.toJson, r.upper.toJson, .bool r.lowerInclusive,
        .bool r.upperInclusive] := Json.record?_object room rfl rfl (by decide)
  simp only [ofJson?, hparts, Value.ofJson?_toJson, Json.bool?, Option.bind_eq_bind,
    Option.bind_some]
  rfl

/-- An operator is read from its name. -/
theorem Operator.ofJson?_toJson (o : Operator) (room : Nat) :
    ofJson? room o.toJson = some o := by
  cases o <;> rfl

theorem Comparison.ofJson?_toJson (c : Comparison) (room : Nat) :
    ofJson? (room + 1) c.toJson = some c := by
  have hparts : Json.record? ["operator", "value"] (room + 1) c.toJson =
      some [c.operator.toJson, c.value.toJson] := Json.record?_object room rfl rfl (by decide)
  simp only [ofJson?, hparts, Operator.ofJson?_toJson, Value.ofJson?_toJson, Option.bind_eq_bind,
    Option.bind_some]
  rfl

/-- The assertion of a pattern is read from its name. -/
theorem Matcher.ofJson?_toJson (m : Matcher) (room : Nat) : ofJson? room m.toJson = some m := by
  obtain ⟨place, negated⟩ := m
  cases place <;> cases negated <;> rfl

theorem Pattern.ofJson?_toJson (p : Pattern) (room : Nat) :
    ofJson? (room + 1) p.toJson = some p := by
  have hparts : Json.record? ["kind", "value", "case_insensitive"] (room + 1) p.toJson =
      some [p.matcher.toJson, .text p.text, .bool p.ignoresCase] :=
    Json.record?_object room rfl rfl (by decide)
  simp only [ofJson?, hparts, Matcher.ofJson?_toJson, Json.text?, Json.bool?, Option.bind_eq_bind,
    Option.bind_some]
  rfl

/-- A list is read if each of its items is. -/
theorem mapM_map_of_forall {α β : Type} {write : α → β} {read : β → Option α} {as : List α}
    (h : ∀ a ∈ as, read (write a) = some a) : (as.map write).mapM read = some as := by
  induction as with
  | nil => rfl
  | cons a as ih =>
    rw [List.map_cons, List.mapM_cons, h a List.mem_cons_self,
      ih fun b hb => h b (List.mem_cons_of_mem _ hb)]
    rfl

namespace Bag

/-- A list is read if all its items can be. -/
theorem list?_map {α : Type} {write : α → Json} {read : Nat → Json → Option α} {room : Nat}
    (h : ∀ a, read room (write a) = some a) (as : Array α) :
    list? read (room + 1) (.array (as.toList.map write)) = some as := by
  simp only [list?, Json.items?, Nat.add_sub_cancel, Option.bind_eq_bind, Option.bind_some,
    mapM_map_of_forall fun a _ => h a]
  rfl

/-- The entries of a field need three levels: their own, that of a list, and that of a range. -/
theorem ofJson?_toJson (b : Bag) (room : Nat) : ofJson? (room + 3) b.toJson = some b := by
  have hparts : Json.record? ["simple_values", "excluded_simple_values", "ranges",
      "excluded_ranges", "comparisons", "pattern_matchers"] (room + 3) b.toJson =
      some [.array (b.simple.toList.map Value.toJson), .array (b.excluded.toList.map Value.toJson),
        .array (b.ranges.toList.map Range.toJson),
        .array (b.excludedRanges.toList.map Range.toJson),
        .array (b.comparisons.toList.map Comparison.toJson),
        .array (b.patterns.toList.map Pattern.toJson)] :=
    Json.record?_object (room + 2) rfl rfl (by decide)
  have hvalues (vs : Array Value) : list? (fun _ => Value.ofJson?) (room + 3 - 1)
      (.array (vs.toList.map Value.toJson)) = some vs :=
    list?_map (fun v => v.ofJson?_toJson) vs
  have hranges (rs : Array Range) : list? Range.ofJson? (room + 3 - 1)
      (.array (rs.toList.map Range.toJson)) = some rs :=
    list?_map (fun r => r.ofJson?_toJson room) rs
  have hcomparisons : list? Comparison.ofJson? (room + 3 - 1)
      (.array (b.comparisons.toList.map Comparison.toJson)) = some b.comparisons :=
    list?_map (fun c => c.ofJson?_toJson room) _
  have hpatterns : list? Pattern.ofJson? (room + 3 - 1)
      (.array (b.patterns.toList.map Pattern.toJson)) = some b.patterns :=
    list?_map (fun p => p.ofJson?_toJson room) _
  simp only [ofJson?, hparts, hvalues, hranges, hcomparisons, hpatterns, Option.bind_eq_bind,
    Option.bind_some]
  rfl

end Bag

theorem Logical.ofJson?_toJson (l : Logical) (room : Nat) : ofJson? room l.toJson = some l := by
  cases l <;> rfl

namespace Group

variable {depth room : Nat} {g : Group}

/-- The documents of a list of groups are those of the groups. -/
theorem listToJson_eq (gs : List Group) : listToJson gs = gs.map toJson := by
  induction gs with
  | nil => rfl
  | cons g gs ih => rw [listToJson, ih, List.map_cons]

/-- The fields of a group are read from an object with a member for each. -/
theorem fieldsOfJson?_map (fields : NameMap Bag) (room : Nat) :
    fieldsOfJson? (room + 4) (.object (fields.entries.map fun f => (f.1, f.2.toJson))) =
      some fields := by
  have hentries : (fields.entries.map fun f => (f.1, f.2.toJson)).mapM (fun m =>
      (Bag.ofJson? (room + 4 - 1) m.2).map fun b => (m.1, b)) = some fields.entries :=
    mapM_map_of_forall fun f _ => congrArg (Option.map fun b => (f.1, b))
      (f.2.ofJson?_toJson room)
  simp only [fieldsOfJson?, Json.members?, hentries, Option.bind_eq_bind, Option.bind_some]
  exact congrArg some fields.ofList_entries

/-- A group that can be read back at its depth in a tree.  Each group around it takes two levels of
nesting, and what is in it takes up to five: its own object, that of its fields, that of the entries
of a field, a list of them, and a range.  That leaves room for groups down to a depth of 61.  No
decimal number is among the entries. -/
structure Storable (depth : Nat) (g : Group) : Prop where
  depth : 2 * depth + 5 ≤ Json.nesting
  entries : ∀ e ∈ g.fields.entries, ∀ c ∈ e.2.toList,
    c.Holds (fun v => ∀ x, v ≠ .decimal x) fun _ => True

/-- A group is read from its document where there is room for it. -/
theorem ofJson?_toJson (h : g.Everywhere Storable depth) (hroom : Json.nesting ≤ room + 2 * depth) :
    ofJson? room g.toJson = some g := by
  induction h generalizing room with
  | @mk depth g here _ ih =>
    obtain ⟨logical, fields, groups⟩ := g
    have hdepth := here.depth
    obtain ⟨room, rfl⟩ : ∃ r, room = r + 5 := ⟨room - 5, by omega⟩
    have hparts : Json.record? ["logical", "fields", "groups"] (room + 3 + 2)
        (toJson ⟨logical, fields, groups⟩) = some [logical.toJson,
          .object (fields.entries.map fun f => (f.1, f.2.toJson)), .array (groups.map toJson)] :=
      Json.record?_object (room + 4) rfl (by rw [listToJson_eq]; rfl) (by decide)
    -- one level deeper there are two less to go, so that there is room for the subgroups again
    have hgroups : (groups.map toJson).mapM (ofJson? (room + 3)) = some groups :=
      mapM_map_of_forall fun sub hsub => ih sub hsub (by omega)
    rw [ofJson?]
    simp only [hparts, Logical.ofJson?_toJson, fieldsOfJson?_map, Json.items?, hgroups,
      Option.bind_eq_bind, Option.bind_some]
    rfl

end Group

/-! ## Documents from texts

No number in a document of this kind is anything but a whole one of 64 bits, so the text of the
document tells it. -/

open Json (Exact)

/-- The document of a value that is not a decimal number. -/
theorem Value.exact_toJson {v : Value} (h : ∀ x, v ≠ .decimal x) : Exact v.toJson := by
  cases v with
  | integer n =>
    exact .whole (Int64.minValue_le_toInt n) (Int.lt_of_le_of_lt (Int64.toInt_le n) (by decide))
  | decimal x => exact absurd rfl (h x)
  | text s => exact .text s

/-- The document of a range without decimal numbers is read from its text. -/
theorem Range.exact_toJson {r : Range} (hl : ∀ x, r.lower ≠ .decimal x)
    (hu : ∀ x, r.upper ≠ .decimal x) : Exact r.toJson := by
  refine .object ?_
  simp only [List.forall_mem_cons]
  exact ⟨Value.exact_toJson hl, Value.exact_toJson hu, .bool _, .bool _, by simp⟩

theorem Operator.exact_toJson (o : Operator) : Exact o.toJson := by
  cases o <;> exact .text _

theorem Comparison.exact_toJson {c : Comparison} (h : ∀ x, c.value ≠ .decimal x) :
    Exact c.toJson := by
  refine .object ?_
  simp only [List.forall_mem_cons]
  exact ⟨c.operator.exact_toJson, Value.exact_toJson h, by simp⟩

theorem Pattern.exact_toJson (p : Pattern) : Exact p.toJson := by
  refine .object ?_
  simp only [List.forall_mem_cons]
  exact ⟨.text _, .text _, .bool _, by simp⟩

/-- The document of a field without decimal numbers is read from its text. -/
theorem Bag.exact_toJson {b : Bag} (h : ∀ c ∈ b.toList,
    c.Holds (fun v => ∀ x, v ≠ .decimal x) fun _ => True) : Exact b.toJson := by
  simp only [toList, List.forall_mem_append, List.forall_mem_map] at h
  obtain ⟨⟨⟨⟨⟨hs, he⟩, hr⟩, her⟩, hc⟩, -⟩ := h
  refine .object ?_
  simp only [List.forall_mem_cons]
  refine ⟨.array ?_, .array ?_, .array ?_, .array ?_, .array ?_, .array ?_, by simp⟩
  all_goals rw [List.forall_mem_map]
  · exact fun v hv => Value.exact_toJson (hs v hv)
  · exact fun v hv => Value.exact_toJson (he v hv)
  · exact fun r hm => Range.exact_toJson (hr r hm).1 (hr r hm).2
  · exact fun r hm => Range.exact_toJson (her r hm).1 (her r hm).2
  · exact fun c hm => Comparison.exact_toJson (hc c hm)
  · exact fun p _ => p.exact_toJson

namespace Group

variable {depth : Nat} {g : Group}

/-- **The document of a tree without decimal numbers is read from its text.** -/
theorem exact_toJson (h : g.Everywhere Storable depth) : Exact g.toJson := by
  induction h with
  | @mk depth g here _ ih =>
    obtain ⟨logical, fields, groups⟩ := g
    rw [toJson, listToJson_eq]
    refine .object ?_
    simp only [List.forall_mem_cons]
    refine ⟨.text _, .object ?_, .array ?_, by simp⟩
    · rw [List.forall_mem_map]
      exact fun f hf => Bag.exact_toJson (here.entries f hf)
    · rw [List.forall_mem_map]
      exact ih

/-- **A stored tree is read back as it was.**  From the text of its document, the same tree is read,
with the same order of its fields, of the values in each of them and of the groups; a text that
looks like a number stays a text. -/
theorem ofText?_render_toJson {t : Group} (h : t.Everywhere Storable 0) :
    (Json.ofText? t.toJson.render).bind (ofJson? Json.nesting) = some t := by
  rw [Json.ofText?_render (exact_toJson h), Option.bind_some]
  exact ofJson?_toJson h (Nat.le_refl _)

/-- A tree with a number, a text that looks like it, and characters that are escaped. -/
def storedSample : Group where
  logical := .or
  fields := ⟨[("\t\"é", { simple := #[.text "1", .integer 1] }),
    ("a", { excludedRanges := #[⟨.integer Int64.minValue, .text "null", true, false⟩] })],
    by decide⟩
  groups := [{ fields := ⟨[("a", { patterns := #[⟨⟨.atEnd, true⟩, "\\", false⟩] })], by decide⟩ }]

/-- The sample can be stored, down to its innermost group. -/
theorem storable_sample : storedSample.Everywhere Storable 0 := by
  refine .mk ⟨by decide, ?_⟩ fun sub hsub => ?_
  · simp [storedSample, Bag.toList, Criterion.Holds, or_imp, forall_and]
  · cases List.mem_singleton.1 hsub
    exact .mk ⟨by decide, by simp [Bag.toList, Criterion.Holds]⟩
      fun sub hsub => absurd hsub List.not_mem_nil

theorem ofText?_render_toJson_sample :
    (Json.ofText? storedSample.toJson.render).bind (ofJson? Json.nesting) = some storedSample :=
  ofText?_render_toJson storable_sample

end Group

end Criteria
