import Criteria.Proofs.Reading.Items
import Criteria.Proofs.Reading.Mirror
import Criteria.Proofs.Rejection

/-!
# A field that cannot be read, and what is behind it

If a field in front of a `;` cannot be read, then reading goes on behind the `;` as if the text
started there.

One fault is rarely alone, and a list of faults is of use only if each of them would be there
without the others.  So a field that cannot be read must be left behind entirely: its entries, its
place in the tree, and what was still to be read of it.  The text behind it is then compared with a
text of its own, by the frames of `Criteria.Proofs.Reading.Frame`: the text in front is the start of
the longer text and sealed, the text behind is its end.

## What is here

* `Session.Tidy`, `State.ends_readPair_of_tidy` — a field in a sealed text that can be read is read
  to its end.
* `Grammar.RootMarker` — the `*` in front of the items of a condition.
* `State.exists_error_of_stays` — a fault that ends the field in a sealed text ends it in a longer
  text, too.
* `State.mirrors_start` — the state behind such a field is the first state of what follows.
* `Condition.errors_append` — the faults in a text are those in its parts.

A fault in front has to end the field, and there are faults that do not: a value that its field
refuses is recorded, and the field goes on.  So these are excluded by their kind, and it has to be
seen that a field with no other faults is read to its end, which is what `Session.Tidy` is for.
-/

set_option autoImplicit false

namespace Criteria

open Grammar

/-! ## Fields that can be read

If a field with its values can be read in a sealed text, what is left of the text is its end, since
the `;` is the only sign that can follow. -/

/-- A sealed text is left, and the only faults so far are texts that their fields do not take. -/
structure Session.Tidy (s : Session) : Prop where
  sealed : Sealed s.cursor.rest
  faults : ∀ d ∈ s.faults.toList, d.kind = .validation

namespace Session.Tidy

variable {s t : Session}

/-- Only the place and the faults matter. -/
theorem congr (h : s.Tidy) (hc : t.cursor = s.cursor) (hf : t.faults = s.faults) : t.Tidy :=
  ⟨hc ▸ h.sealed, hf ▸ h.faults⟩

theorem skipSpace (h : s.Tidy) : (s.move Cursor.skipSpace).Tidy :=
  have hsealed : (Frame.before []).Admits s.cursor.skipSpace.rest :=
    Frame.Admits.skipSpace (F := .before []) h.sealed
  ⟨hsealed, h.faults⟩

end Session.Tidy

/-- A field ends in a sealed text only at its `;`. -/
theorem Sealed.of_fieldEnds {cs : List Char} (h : Sealed cs) (he : FieldEnds cs) : cs = [';'] := by
  cases h with
  | last => rfl
  | @cons c cs ordinary _ =>
    rcases he c rfl with rfl | rfl <;> exact absurd ordinary (by decide)

/-- What is wrong with a value are texts that its field does not take. -/
theorem Form.kind_of_resolve {field : Field} {form : Form} {ds : List Diagnostic}
    (h : form.resolve field = .error ds) : ∀ d ∈ ds, d.kind = .validation := by
  have hliteral : ∀ {l : Literal} {d : Diagnostic}, l.resolve field = .error d →
      d.kind = .validation := fun {l d} hd => by
    rw [Literal.resolve] at hd
    split at hd <;> cases hd
    rfl
  cases form with
  | simple excluded l | comparison operator l =>
    rw [resolve] at h
    split at h
    · cases h
    · next hd =>
      cases h
      simpa using hliteral hd
  | range excluded r =>
    rw [resolve] at h
    split at h
    · cases h
    · next hd hd' =>
      cases h
      simpa using ⟨hliteral hd, hliteral hd'⟩
    · next hd _ =>
      cases h
      simpa using hliteral hd
    · next hd =>
      cases h
      simpa using hliteral hd
  | pattern p => cases h

namespace Parser

variable {settings : Settings} {fields : FieldSet} {field : Field} {s : Session}

/-- A reader that stays inside of a sealed text leaves one. -/
theorem ends_scan_of_tidy {α β : Type} {g : α → β} {x : Scanner α} {y : Scanner β}
    (hx : (Frame.before []).Carries g x y) (h : s.Tidy) :
    Ends (scan x) s (fun a t => x s.cursor = .ok a t.cursor ∧ t.Tidy) fun _ _ => True := by
  obtain ⟨cursor, assembly, faults, events⟩ := s
  have hsealed := (hx cursor h.sealed).2
  rw [Ends, scan]
  cases hxc : x cursor with
  | ok a c =>
    rw [hxc] at hsealed
    exact ⟨rfl, hsealed, h.faults⟩
  | error d c => trivial

/-- An operation on the tree changes neither the place nor the faults. -/
theorem ends_edit (column : Nat) (x : Assembly.Edit) (s : Session) : Ends (edit column x) s
    (fun _ t => t.cursor = s.cursor ∧ t.faults = s.faults) fun _ _ => True := by
  obtain ⟨cursor, assembly, faults, events⟩ := s
  rw [Ends, edit]
  cases x assembly with
  | ok _ b => exact ⟨rfl, rfl⟩
  | error m b => trivial

/-- A value that can be read adds faults of its field only. -/
theorem ends_readEntry_of_tidy (h : s.Tidy) :
    Ends (readEntry field) s (fun _ t => t.Tidy) fun _ _ => True := by
  refine .bind_of_ok rfl ((ends_scan_of_tidy Frame.carries_readForm h).bind
    fun form t ⟨_, ht⟩ => ?_)
  split
  · exact (ends_edit _ _ t).bind fun _ u hu => ht.congr hu.1 hu.2
  · next ds hds =>
    refine .bind_of_ok (report_eq ds t) ⟨ht.sealed, fun d hd => ?_⟩
    have hmem : d ∈ t.faults.toList ++ ds := Array.toList_appendList ▸ hd
    exact (List.mem_append.1 hmem).elim (ht.faults d) (Form.kind_of_resolve hds d)

theorem ends_readStep_of_tidy (h : s.Tidy) : Ends (readStep field) s
    (fun more t => t.Tidy ∧ (more = false → FieldEnds t.cursor.rest)) fun _ _ => True := by
  refine (ends_readEntry_of_tidy h).bind fun bare t ht =>
    (ends_scan_of_tidy (Frame.carries_readSeparator bare) ht).mono ?_ fun _ _ h => h
  rintro _ u ⟨hread, hu⟩
  refine ⟨hu, ?_⟩
  rintro rfl
  exact (end_of_readSeparator hread).2

/-- Values that can be read lead to the end of the field. -/
theorem ends_readEntries_of_tidy (count : Nat) (h : s.Tidy) :
    Ends (readEntries settings field count) s
      (fun _ t => t.Tidy ∧ FieldEnds t.cursor.rest) fun _ _ => True := by
  unfold Ends
  fun_induction readEntries settings field count s with
  | case1 s => trivial
  | case2 count s _ t hstep ih => exact ih ((ends_readStep_of_tidy h).of_ok hstep).1
  | case3 count s _ t hstep =>
    obtain ⟨ht, hend⟩ := (ends_readStep_of_tidy h).of_ok hstep
    exact ⟨ht, hend rfl⟩
  | case4 count s _ d t hstep => trivial

/-- All of a sealed text belongs to its first field. -/
theorem ends_readField_of_tidy (h : s.Tidy) : Ends (readField settings fields) s
    (fun _ t => t.cursor.rest = [] ∧ ∀ d ∈ t.faults.toList, d.kind = .validation)
    fun _ _ => True := by
  refine .bind_of_ok rfl ((ends_scan_of_tidy (Frame.carries_readToken _) h).bind
    fun token t ⟨_, ht⟩ => ?_)
  split
  · next field _ =>
    refine (ends_edit _ _ t).bind fun _ u hu =>
      .bind_of_ok rfl (.bind_of_ok rfl (.bind_of_ok rfl ?_))
    have hv : ((u.log (.readingField field.name)).move Cursor.skipSpace).Tidy :=
      .skipSpace ⟨hu.1 ▸ ht.sealed, hu.2 ▸ ht.faults⟩
    split
    · trivial
    · refine (ends_readEntries_of_tidy 0 hv).bind fun _ w ⟨hw, hend⟩ =>
        (ends_edit _ _ w).bind fun _ v ⟨hcursor, hfaults⟩ => ⟨?_, hfaults ▸ hw.faults⟩
      have hrest : v.cursor.rest = [';'] := by rw [hcursor, hw.sealed.of_fieldEnds hend]
      exact Cursor.skipTerminator_of_pairEnd (hrest ▸ .semicolon)
  · trivial

end Parser

/-! ## The first item

Both texts start in the same way: with white space, and with a `*` if this is not that of a
group. -/

/-- A `*` that does not start a group stands in front of the items. -/
def Grammar.RootMarker (cs : List Char) : Prop :=
  ∃ c₁, Spaces cs ('*' :: c₁) ∧ ∀ c₂, ¬Gaps c₁ ('(' :: c₂)

/-- The marker of the root is the `*` that is taken off the text before the first item. -/
theorem Grammar.rootMarker_iff {cs : List Char} : RootMarker cs ↔
    (cs.dropWhile Unicode.isSpace).head? = some '*' ∧
      Opening.at? (cs.dropWhile Unicode.isSpace) = none := by
  constructor
  · rintro ⟨c₁, hspaces, hgroup⟩
    rw [← hspaces.eq_dropWhile ((stops_cons ..).2 rfl)]
    exact ⟨rfl, State.at?_star_eq_none_iff.2 hgroup⟩
  · rintro ⟨hstar, hat⟩
    obtain ⟨c₁, hc₁⟩ := List.head?_eq_some_iff.1 hstar
    have hspaces := run_dropWhile Unicode.isSpace cs
    rw [hc₁] at hspaces hat
    exact ⟨c₁, hspaces, State.at?_star_eq_none_iff.1 hat⟩

instance (cs : List Char) : Decidable (RootMarker cs) :=
  decidable_of_iff _ rootMarker_iff.symm

namespace State

variable {settings : Settings} {fields : FieldSet} {text tail : String}

/-- The start of the longer text is the start of its first part, in front of the rest. -/
theorem cursor_start_append (text tail : String) :
    Cursor.start (text ++ tail) = (Frame.before tail.toList).place (Cursor.start text) := by
  rw [Cursor.start, String.toList_append]
  rfl

/-- The first state of a longer text, where the part in front is sealed. -/
theorem stays_start (h : Sealed text.toList) (tail : String) : ∃ logical,
    Parser.Stays (.before tail.toList) logical [] (start text).session
      (start (text ++ tail)).session := by
  have hstart : (Frame.before tail.toList).Admits (Cursor.start text).rest := h
  have hspace := hstart.skipSpace
  rw [start, start, cursor_start_append, Frame.skipSpace_place hstart]
  generalize (Cursor.start text).skipSpace = c at hspace
  have hat : ∀ tail, Opening.at? (c.rest ++ tail) = none := Sealed.at?_append hspace
  have hat' : Opening.at? c.rest = none := by simpa using hat []
  rw [Frame.rest_place, hspace.head?_append, Frame.tail, hat, hat']
  split
  · next hmarker =>
    simp only [Option.isNone_none, Bool.and_true, decide_eq_true_eq] at hmarker
    obtain ⟨hnext, hadmits⟩ := hspace.next_of_head? hmarker (by decide)
    rw [hnext]
    exact ⟨.or, ⟨Frame.skipSpace_place hadmits, rfl, rfl⟩, hadmits.skipSpace⟩
  · exact ⟨.and, ⟨rfl, rfl, rfl⟩, hspace⟩

/-- The first state of a text without a marker in front of its items. -/
theorem start_eq (h : ¬RootMarker text.toList) :
    start text = ⟨⟨(Cursor.start text).skipSpace, {}, #[], #[]⟩, []⟩ := by
  rw [start]
  refine if_neg fun hmarker => h (rootMarker_iff.2 ?_)
  rwa [Bool.and_eq_true, decide_eq_true_eq, Option.isNone_iff_eq_none, Cursor.rest_skipSpace]
    at hmarker

theorem start_eq_mk (text : String) : start text = ⟨(start text).session, []⟩ := by
  rw [start]
  split <;> rfl

/-- No fault is recorded at the start. -/
theorem faults_start (text : String) : (start text).session.faults = #[] := by
  rw [start]
  split <;> rfl

/-- The tree at the start is a root without fields and groups. -/
theorem assembly_start (text : String) : (start text).session.assembly.openField? = none ∧
    ∃ logical, (start text).session.assembly = Assembly.setRootLogical logical {} := by
  rw [start]
  split <;> exact ⟨rfl, _, rfl⟩

/-- A sealed text starts with a field. -/
theorem step?_of_sealed {s : Session} {cs tail : List Char} (h : Sealed cs)
    (hr : s.cursor.rest = cs ++ tail) :
    step? settings fields ⟨s, []⟩ = some ⟨readItem settings fields s, []⟩ := by
  have hat := h.at?_append tail
  have hhead := h.head?_append tail
  cases hc : cs ++ tail with
  | nil =>
    rw [hc] at hhead
    cases h <;> cases hhead
  | cons x xs =>
    rw [hc] at hr hat hhead
    refine step?_pair hr ?_ hat
    rintro rfl
    exact h.head?_ne rfl (by decide) hhead.symm

/-! ## Reading on behind a fault

The field that cannot be read is the only item of the text in front.  In the longer text it ends
with the same fault, is skipped up to the same `;`, and leaves the tree that was there. -/

/-- If a field in a sealed text can be read, then all of the text belongs to it. -/
theorem ends_readPair_of_tidy (settings : Settings) (fields : FieldSet) {s : Session}
    (h : s.Tidy) : Ends (readPair settings fields) s
      (fun _ t => t.cursor.rest = [] ∧ ∀ d ∈ t.faults.toList, d.kind = .validation)
      fun _ _ => True := by
  refine .bind_of_ok rfl ?_
  split
  · trivial
  · exact Parser.ends_readField_of_tidy h

/-- Behind the last item nothing is added. -/
theorem run_of_nil {s : Session} (h : Sound text ⟨s, []⟩) (hrest : s.cursor.rest = []) :
    run settings fields ⟨s, []⟩ = s :=
  have hend : step? settings fields ⟨s, []⟩ = none := step?_end hrest
  (run_of_end hend).trans (assertFinished_of_step? hend (h.depth_eq_zero rfl))

/-- Skipping ends behind the `;` of a sealed text. -/
theorem rest_skipPair_of_sealed {c : Cursor} {cs : List Char} (h : Sealed cs) (tail : List Char)
    (hr : c.rest = cs ++ tail) : c.skipPair.rest = tail := by
  rw [Cursor.skipPair, Cursor.rest_advance, hr, h.pairLength_append, Nat.zero_add, List.drop_left]

/-- A fault that ends a field ends it in the longer text, too, and skipping leads behind the
part. -/
theorem exists_error_of_stays {logical : Logical} {s s' : Session} {cs : List Char}
    (hs : Sound text ⟨s, []⟩) (hf : s.faults = #[])
    (h : Parser.Stays (.before cs) logical [] s s')
    (hfault : ∃ d ∈ (run settings fields ⟨s, []⟩).faults.toList, d.kind ≠ .validation) :
    ∃ d t, readPair settings fields s' = .error d t ∧ t.cursor.skipPair.rest = cs ∧
      (t.faults.push d).toList.map Diagnostic.site =
        (run settings fields ⟨s, []⟩).faults.toList.map Diagnostic.site := by
  -- the part is read by this one item, so what is reported about it is what the item reports
  have hall : s.cursor.rest = s.cursor.rest ++ [] := (List.append_nil _).symm
  have hstep : step? settings fields ⟨s, []⟩ = some ⟨readItem settings fields s, []⟩ :=
    step?_of_sealed h.2 hall
  have hnext := sound_step? hstep hs
  have hpair := ends_readPair_of_tidy settings fields (s := s) ⟨h.2, by simp [hf]⟩
  rw [run_of_step? hstep] at hfault ⊢
  cases hx : readPair settings fields s with
  | ok _ t =>
    -- then only invalid values are reported, which `hfault` excludes
    obtain ⟨hrest, hkinds⟩ := hpair.of_ok hx
    rw [readItem_of_ok hx] at hnext hfault
    have hend : (t.move Cursor.skipSpace).cursor.rest = [] := by
      simp [Session.move, Cursor.rest_skipSpace, hrest]
    rw [run_of_nil hnext hend] at hfault
    obtain ⟨d, hd, hkind⟩ := hfault
    exact absurd (hkinds d hd) hkind
  | error d t =>
    obtain ⟨d', t', hx', hsite, hmirrors, hsealed⟩ := (alike_readPair settings fields h).of_error hx
    rw [readItem_of_error hx] at hnext ⊢
    have hend : (abandon d t).cursor.rest = [] := by
      have hskip := rest_skipPair_of_sealed hsealed [] (List.append_nil _).symm
      simp [abandon, Cursor.rest_skipSpace, hskip]
    rw [run_of_nil hnext hend]
    refine ⟨d', t', hx', ?_, ?_⟩
    · exact rest_skipPair_of_sealed hsealed cs (congrArg Cursor.rest hmirrors.cursor)
    · exact (hmirrors.report hsite).sites

/-- The place behind the part in front is that at the start of what follows. -/
theorem place_of_reaches {c : Cursor} (h : (Cursor.start (text ++ tail)).Reaches c)
    (hr : c.rest = tail.toList) :
    c = (Frame.behind (Cursor.utf8Length text.toList) text.length).place (Cursor.start tail) := by
  obtain ⟨rest, offset, column⟩ := c
  obtain ⟨cs, htext, hoffset, hcolumn⟩ := Cursor.reaches_iff.1 h
  cases hr
  rw [Cursor.start, String.toList_append] at htext
  cases List.append_cancel_right htext
  rw [String.length_toList] at hcolumn
  simp only [Frame.place, Frame.tail, List.append_nil, Cursor.mk.injEq]
  exact ⟨rfl, hoffset, hcolumn⟩

/-- **Behind the `;` reading goes on as if the text started there**, if the field in front of it
cannot be read. -/
theorem mirrors_start (h : Sealed text.toList) (hmarker : ¬RootMarker tail.toList)
    (hfault : ∃ d ∈ (run settings fields (start text)).faults.toList, d.kind ≠ .validation) :
    ∃ logical next, step? settings fields (start (text ++ tail)) = some next ∧
      (start tail).Mirrors (Cursor.utf8Length text.toList) text.length logical
        ((run settings fields (start text)).faults.toList.map Diagnostic.site) next := by
  obtain ⟨_, hstays⟩ := stays_start h tail
  obtain ⟨hclosed, logical, hassembly⟩ := assembly_start (text ++ tail)
  have hordered := (sound_start (text ++ tail)).ordered
  have hsound := sound_start text
  rw [start_eq_mk text] at hsound hfault ⊢
  rw [start_eq_mk (text ++ tail), start_eq hmarker]
  obtain ⟨d, t, hx, hrest, hsites⟩ :=
    exists_error_of_stays hsound (faults_start text) hstays hfault
  refine ⟨logical, _, step?_of_sealed hstays.2 (congrArg Cursor.rest hstays.1.cursor), ?_, rfl⟩
  -- the field leaves nothing behind in the tree, and the place is the one behind its `;`
  obtain ⟨hassembly', hreaches, -⟩ :=
    (ends_readPair settings fields hordered hclosed).of_error hx
  have hplace : t.cursor.skipPair =
      (Frame.behind (Cursor.utf8Length text.toList) text.length).place (Cursor.start tail) :=
    place_of_reaches hreaches hrest
  rw [readItem_of_error hx]
  refine ⟨?_, ?_, hsites.trans (List.append_nil _).symm⟩
  · show t.cursor.skipPair.skipSpace = _
    rw [hplace, Frame.skipSpace_place_behind]
  · show t.assembly.abandonField = _
    rw [hassembly', Assembly.abandonField_eq hclosed, hassembly]

end State

/-! ## Texts

The faults of a text, without their messages, since these may name columns of their own. -/

namespace Condition

variable {settings : Settings} {fields : FieldSet} {text : String}

/-- What is reported about a text: the kinds of the faults and their columns. -/
def errors (settings : Settings) (fields : FieldSet) (text : String) : List (FaultKind × Nat) :=
  match parse settings fields text with
  | .ok _ => []
  | .error ds => ds.map Diagnostic.site

/-- The faults of a text are those that are recorded on the way. -/
theorem errors_eq (settings : Settings) (fields : FieldSet) (text : String) :
    errors settings fields text =
      (State.run settings fields (.start text)).faults.toList.map Diagnostic.site := by
  rw [errors]
  split
  · next hok =>
    have hnil : (State.run settings fields (.start text)).faults.toList = [] :=
      Classical.byContradiction fun hne => by
        cases hok.symm.trans (parse_eq_error_iff.2 ⟨rfl, hne⟩)
    rw [hnil]
    rfl
  · next herror => rw [(parse_eq_error_iff.1 herror).1]

/-- **A field that cannot be read does not disturb its siblings.**

Let there be no quotes, parentheses and semicolons in `front`, and let something be wrong in `front`
that ends a field.  Then the faults in `front ++ ";" ++ back` are those in `front ++ ";"` and those
in `back`, further on by as many characters as are in front of them.  In front of the items of
`back` there must not be a `*`, since in the longer text it would not be in front of all items. -/
theorem errors_append {front back : String}
    (hfront : ∀ c ∈ front.toList, c ≠ '"' ∧ c ≠ '(' ∧ c ≠ ')' ∧ c ≠ ';')
    (hfault : ∃ e ∈ errors settings fields (front ++ ";"), e.1 ≠ .validation)
    (hback : ¬RootMarker back.toList) :
    errors settings fields (front ++ ";" ++ back) =
      errors settings fields (front ++ ";") ++
        (errors settings fields back).map fun e => (e.1, e.2 + (front.length + 1)) := by
  have hsealed : Sealed (front ++ ";").toList := by
    rw [String.toList_append]
    exact .of_ordinary fun c hc => Recovery.isOrdinary_iff.2 (hfront c hc)
  have hlength : (front ++ ";").length = front.length + 1 := String.length_append ..
  simp only [errors_eq] at hfault ⊢
  obtain ⟨e, he, hkind⟩ := hfault
  obtain ⟨d, hd, rfl⟩ := List.mem_map.1 he
  obtain ⟨_, next, hstep, hmirrors⟩ := State.mirrors_start hsealed hback ⟨d, hd, hkind⟩
  rw [State.run_of_step? hstep, (State.mirrors_run hmirrors).sites, ← hlength, List.map_map]
  rfl

/-- In `id: 1 2` a comma is missing, and `x` is not a field of the set. -/
theorem errors_append_sample :
    errors {} .sample ("id: 1 2" ++ ";" ++ " x: y") = [(.lexical, 7), (.unknownField, 10)] := by
  have hfault : (.lexical, 7) ∈ errors {} .sample ("id: 1 2" ++ ";") := by decide +kernel
  refine (errors_append (forall_mem_of_all (by decide)) ⟨_, hfault, by decide⟩ (by decide)).trans ?_
  decide +kernel

end Condition
end Criteria
