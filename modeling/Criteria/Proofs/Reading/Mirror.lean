import Criteria.Proofs.Reading.Bookkeeping
import Criteria.Proofs.Reading.Embedding

/-!
# Reading a part of a text, with its tree and its faults

`Frame.Carries` compares readers of texts, which know their place only.  A session also has the tree
that is being put together and the faults that were found, and both differ between the part and the
longer text: what was in front of the part may have made the root an OR group, and it may have had
faults.  So three things are compared, `Session.Mirrors`: the places by the frame, the trees up to
the logical of the root, and the faults up to those in front.

Of the faults only the kinds and the columns are compared.  A message may name a column itself, and
would then differ by more than the place of its fault.

## What is here

* `EndAlike` — two readers end alike; `EndAlike.bind` for composed readers.
* `Diagnostic.site` — what a fault is and where it stands.
* `Session.Mirrors` — a session in the longer text and the one in the part.
* `State.alike_readPair` — reading a field does the same in both.
* `State.Mirrors`, `State.mirrors_step?`, `State.mirrors_run` — so do reading an item and reading
  all items, where the part is the end of the longer text.

Fields are compared in both frames, since a field may stand in the part in front of the `;` or
behind it.  Groups occur only behind, where the part is the end of the longer text, so that from
items on one frame is enough.
-/

set_option autoImplicit false

namespace Criteria

open Grammar

/-! ## Two readers

Two readers that end alike have both a result or both a fault.  This is said of two runs from two
states, so that one induction can follow both. -/

section Alike

variable {ε σ α β γ δ : Type} {x : EStateM ε σ α} {y : EStateM ε σ β} {s s' : σ}
  {ok : α → β → σ → σ → Prop} {error : ε → ε → σ → σ → Prop}

/-- From `s` and `s'` the readers end alike, with results as in `ok` or with faults as in
`error`. -/
def EndAlike (x : EStateM ε σ α) (y : EStateM ε σ β) (s s' : σ) (ok : α → β → σ → σ → Prop)
    (error : ε → ε → σ → σ → Prop) : Prop :=
  match x s, y s' with
  | .ok a t, .ok b t' => ok a b t t'
  | .error e t, .error e' t' => error e e' t t'
  | _, _ => False

namespace EndAlike

/-- Two readers end alike if their results are known and correspond. -/
theorem of_eq {a : α} {b : β} {t t' : σ} (hx : x s = .ok a t) (hy : y s' = .ok b t')
    (h : ok a b t t') : EndAlike x y s s' ok error := by
  rwa [EndAlike, hx, hy]

/-- A result of the one is accompanied by a result of the other. -/
theorem of_ok {a : α} {t : σ} (h : EndAlike x y s s' ok error) (hx : x s = .ok a t) :
    ∃ b t', y s' = .ok b t' ∧ ok a b t t' := by
  rw [EndAlike, hx] at h
  split at h
  · next hxa hy =>
    cases hxa
    exact ⟨_, _, hy, h⟩
  · next hxa _ => cases hxa
  · cases h

/-- A fault of the one is accompanied by a fault of the other. -/
theorem of_error {e : ε} {t : σ} (h : EndAlike x y s s' ok error) (hx : x s = .error e t) :
    ∃ e' t', y s' = .error e' t' ∧ error e e' t t' := by
  rw [EndAlike, hx] at h
  split at h
  · next hxa _ => cases hxa
  · next hxa hy =>
    cases hxa
    exact ⟨_, _, hy, h⟩
  · cases h

/-- Composed readers end alike if the second parts do, behind all results that the first ones can
have. -/
theorem bind {ok' : γ → δ → σ → σ → Prop} {f : α → EStateM ε σ γ} {g : β → EStateM ε σ δ}
    (h : EndAlike x y s s' ok error)
    (hf : ∀ a b t t', ok a b t t' → EndAlike (f a) (g b) t t' ok' error) :
    EndAlike (x >>= f) (y >>= g) s s' ok' error := by
  show EndAlike (EStateM.bind x f) (EStateM.bind y g) s s' ok' error
  rw [EndAlike, EStateM.bind, EStateM.bind]
  cases hx : x s with
  | ok a t =>
    obtain ⟨b, t', hy, hok⟩ := h.of_ok hx
    rw [hy]
    exact hf a b t t' hok
  | error e t =>
    obtain ⟨e', t', hy, herror⟩ := h.of_error hx
    rw [hy]
    exact herror

/-- First parts whose results are known can be left out. -/
theorem bind_of_ok {ok' : γ → δ → σ → σ → Prop} {f : α → EStateM ε σ γ} {g : β → EStateM ε σ δ}
    {a : α} {b : β} {t t' : σ} (hx : x s = .ok a t) (hy : y s' = .ok b t')
    (h : EndAlike (f a) (g b) t t' ok' error) : EndAlike (x >>= f) (y >>= g) s s' ok' error := by
  rwa [EndAlike, Criteria.bind_of_ok hx, Criteria.bind_of_ok hy]

end EndAlike
end Alike

/-! ## The tree

How the root combines its members is written down once and never looked at again.  So each operation
does the same to two trees that differ in this only; one lemma for each. -/

namespace Assembly

variable {logical : Logical}

/-- The operation does not depend on how the members of the root are combined. -/
def Indifferent (x : Edit) : Prop :=
  ∀ (logical : Logical) (a : Assembly), EndAlike x x a (a.setRootLogical logical)
    (fun _ _ b b' => b' = b.setRootLogical logical)
    fun m m' b b' => m' = m ∧ b' = b.setRootLogical logical

/-- The current group has the same fields, however the root combines its members. -/
theorem fields_current_setRootLogical (logical : Logical) (a : Assembly) :
    (a.setRootLogical logical).current.fields = a.current.fields := by
  obtain ⟨root, _ | ⟨g, frames⟩, o⟩ := a <;> rfl

/-- The current group has the same subgroups. -/
theorem groups_current_setRootLogical (logical : Logical) (a : Assembly) :
    (a.setRootLogical logical).current.groups = a.current.groups := by
  obtain ⟨root, _ | ⟨g, frames⟩, o⟩ := a <;> rfl

theorem indifferent_openField (name : String) : Indifferent (openField name) := by
  intro logical a
  obtain ⟨root, frames, _ | ⟨other, bag⟩⟩ := a
  · have hf := fields_current_setRootLogical logical ⟨root, frames, none⟩
    rw [EndAlike, openField_eq rfl, openField_eq rfl, hf]
    by_cases hc : (current ⟨root, frames, none⟩).fields.contains name = true
    · rw [if_pos hc, if_pos hc]
      exact ⟨rfl, rfl⟩
    · rw [if_neg hc, if_neg hc]
      rfl
  · exact ⟨rfl, rfl⟩

theorem indifferent_add (c : Criterion) : Indifferent (add c) := by
  rintro logical ⟨root, frames, _ | ⟨name, bag⟩⟩
  · exact ⟨rfl, rfl⟩
  · rfl

theorem indifferent_closeField : Indifferent closeField := by
  rintro logical ⟨root, _ | ⟨g, frames⟩, _ | ⟨name, bag⟩⟩
  · exact ⟨rfl, rfl⟩
  · rfl
  · exact ⟨rfl, rfl⟩
  · rfl

theorem indifferent_enterGroup (l : Logical) : Indifferent (enterGroup l) := by
  rintro logical ⟨root, frames, _ | ⟨name, bag⟩⟩
  · rfl
  · exact ⟨rfl, rfl⟩

/-- Leaving a group makes no difference even where the root is its parent. -/
theorem indifferent_leaveGroup : Indifferent leaveGroup := by
  rintro logical ⟨root, _ | ⟨g, _ | ⟨p, frames⟩⟩, _ | ⟨name, bag⟩⟩
  · exact ⟨rfl, rfl⟩
  · exact ⟨rfl, rfl⟩
  · rfl
  · exact ⟨rfl, rfl⟩
  · rfl
  · exact ⟨rfl, rfl⟩

theorem indifferent_discardGroup : Indifferent discardGroup := by
  rintro logical ⟨root, _ | ⟨g, frames⟩, o⟩
  · exact ⟨rfl, rfl⟩
  · rfl

end Assembly

/-! ## Sessions

The comparison of two sessions is kept by what readers do to them: a fault is recorded in both, and
both move. -/

/-- What a fault is, and where it stands. -/
def Diagnostic.site (d : Diagnostic) : FaultKind × Nat :=
  (d.kind, d.column)

/-- The session `s'` is in the longer text where `s` is in the part.  The faults with the sites
`earlier` stand in front of the part, and `logical` combines the members of the root. -/
structure Session.Mirrors (F : Frame) (logical : Logical) (earlier : List (FaultKind × Nat))
    (s s' : Session) : Prop where
  cursor : s'.cursor = F.place s.cursor
  assembly : s'.assembly = s.assembly.setRootLogical logical
  sites : s'.faults.toList.map Diagnostic.site =
    earlier ++ s.faults.toList.map fun d => (d.shift F.chars).site

namespace Session.Mirrors

variable {F : Frame} {logical : Logical} {earlier : List (FaultKind × Nat)} {s s' : Session}

theorem report {d d' : Diagnostic} (h : s.Mirrors F logical earlier s')
    (hd : d'.site = (d.shift F.chars).site) :
    (s.report d).Mirrors F logical earlier (s'.report d') := by
  refine ⟨h.cursor, h.assembly, ?_⟩
  simp [Session.report, h.sites, hd]

theorem move {f : Cursor → Cursor} (h : s.Mirrors F logical earlier s')
    (hf : f (F.place s.cursor) = F.place (f s.cursor)) :
    (s.move f).Mirrors F logical earlier (s'.move f) :=
  ⟨(congrArg f h.cursor).trans hf, h.assembly, h.sites⟩

end Session.Mirrors

open Session

namespace Parser

variable {settings : Settings} {fields : FieldSet} {field : Field} {F : Frame} {logical : Logical}
  {earlier : List (FaultKind × Nat)} {s s' : Session}

/-- The session `s'` mirrors `s`, and what is behind the part makes no difference for what is left
of it. -/
def Stays (F : Frame) (logical : Logical) (earlier : List (FaultKind × Nat)) (s s' : Session) :
    Prop :=
  s.Mirrors F logical earlier s' ∧ F.Admits s.cursor.rest

/-- Both sessions are at a fault, which is of the same kind and stands at the same place. -/
def Breaks (F : Frame) (logical : Logical) (earlier : List (FaultKind × Nat)) (d d' : Diagnostic)
    (s s' : Session) : Prop :=
  d'.site = (d.shift F.chars).site ∧ Stays F logical earlier s s'

/-- A reader of texts ends alike in both sessions if it does in the two texts. -/
theorem alike_scan {α β : Type} {g : α → β} {x : Scanner α} {y : Scanner β}
    (hx : F.Carries g x y) (h : Stays F logical earlier s s') :
    EndAlike (scan x) (scan y) s s' (fun a b t t' => b = g a ∧ Stays F logical earlier t t')
      (Breaks F logical earlier) := by
  obtain ⟨cursor, assembly, faults, events⟩ := s
  obtain ⟨cursor', assembly', faults', events'⟩ := s'
  obtain ⟨⟨rfl, ha, hf⟩, hadmits⟩ := h
  obtain ⟨hy, hadmits'⟩ := hx cursor hadmits
  rw [EndAlike, scan, scan, hy]
  cases hxc : x cursor with
  | ok a c =>
    rw [hxc] at hadmits'
    exact ⟨rfl, ⟨rfl, ha, hf⟩, hadmits'⟩
  | error d c =>
    rw [hxc] at hadmits'
    exact ⟨rfl, ⟨rfl, ha, hf⟩, hadmits'⟩

/-- An operation on the tree is refused in both sessions or in none, and for the same reason. -/
theorem alike_edit {x : Assembly.Edit} (hx : Assembly.Indifferent x) (column : Nat)
    (h : Stays F logical earlier s s') :
    EndAlike (edit column x) (edit (column + F.chars) x) s s'
      (fun _ _ t t' => Stays F logical earlier t t') (Breaks F logical earlier) := by
  obtain ⟨cursor, assembly, faults, events⟩ := s
  obtain ⟨cursor', assembly', faults', events'⟩ := s'
  obtain ⟨⟨hc, rfl, hf⟩, hadmits⟩ := h
  have hsame := hx logical assembly
  rw [EndAlike, edit, edit]
  cases hxa : x assembly with
  | ok a b =>
    obtain ⟨_, b', hb', rfl⟩ := hsame.of_ok hxa
    simp only at hb' ⊢
    rw [hb']
    exact ⟨⟨hc, rfl, hf⟩, hadmits⟩
  | error m b =>
    obtain ⟨_, b', hb', rfl, rfl⟩ := hsame.of_error hxa
    simp only at hb' ⊢
    rw [hb']
    exact ⟨rfl, ⟨hc, rfl, hf⟩, hadmits⟩

theorem alike_here (h : Stays F logical earlier s s') :
    EndAlike here here s s'
      (fun c c' t t' => c' = F.place c ∧ c = t.cursor ∧ Stays F logical earlier t t')
      (Breaks F logical earlier) :=
  .of_eq rfl rfl ⟨h.1.cursor, rfl, h⟩

theorem alike_log (e : Event) (h : Stays F logical earlier s s') :
    EndAlike (log e) (log e) s s' (fun _ _ t t' => Stays F logical earlier t t')
      (Breaks F logical earlier) :=
  .of_eq rfl rfl ⟨⟨h.1.cursor, h.1.assembly, h.1.sites⟩, h.2⟩

theorem alike_skipSpace (h : Stays F logical earlier s s') :
    EndAlike (move Cursor.skipSpace) (move Cursor.skipSpace) s s'
      (fun _ _ t t' => Stays F logical earlier t t') (Breaks F logical earlier) :=
  .of_eq rfl rfl ⟨h.1.move (Frame.skipSpace_place h.2), h.2.skipSpace⟩

/-! ### Values

What is read for a value remembers its columns, and its field refuses it in the longer text just as
in the part, only with the columns further on. -/

/-- A field takes a text or refuses it wherever this stands. -/
theorem resolve_literal_shift (field : Field) (l : Literal) (k : Nat) :
    (l.shift k).resolve field = (l.resolve field).mapError (·.shift k) := by
  rw [Literal.resolve, Literal.resolve, show (l.shift k).text = l.text from rfl]
  cases field.converter.read l.text <;> rfl

/-- A field takes or refuses all the texts of a value wherever this stands. -/
theorem resolve_shift (field : Field) (form : Form) (k : Nat) :
    (form.shift k).resolve field =
      (form.resolve field).mapError (List.map (Diagnostic.shift k)) := by
  cases form with
  | simple excluded l | comparison operator l =>
    rw [Form.shift, Form.resolve, Form.resolve, resolve_literal_shift]
    cases l.resolve field <;> rfl
  | range excluded r =>
    rw [Form.shift, Form.resolve, Form.resolve, resolve_literal_shift, resolve_literal_shift]
    cases r.lower.resolve field <;> cases r.upper.resolve field <;> rfl
  | pattern p => rfl

theorem endsBare_shift (form : Form) (k : Nat) : (form.shift k).endsBare = form.endsBare := by
  cases form <;> rfl

/-- Faults that are recorded are recorded in both. -/
theorem alike_report (ds : List Diagnostic) (h : Stays F logical earlier s s') :
    EndAlike (report ds) (report (ds.map (Diagnostic.shift F.chars))) s s'
      (fun _ _ t t' => Stays F logical earlier t t') (Breaks F logical earlier) := by
  obtain ⟨⟨hc, ha, hf⟩, hadmits⟩ := h
  refine .of_eq (report_eq ..) (report_eq ..) ⟨⟨hc, ha, ?_⟩, hadmits⟩
  simp [hf, Function.comp_def]

/-- A value is read alike, and added to both trees or refused in both. -/
theorem alike_readEntry (h : Stays F logical earlier s s') :
    EndAlike (readEntry field) (readEntry field) s s'
      (fun a b t t' => b = a ∧ Stays F logical earlier t t') (Breaks F logical earlier) := by
  refine .bind_of_ok rfl rfl ((alike_scan F.carries_readForm h).bind ?_)
  rintro form _ t t' ⟨rfl, ht⟩
  rw [resolve_shift, endsBare_shift, h.1.cursor, Frame.column_place]
  cases form.resolve field with
  | ok entry =>
    exact (alike_edit (Assembly.indifferent_add entry) _ ht).bind
      fun _ _ u u' hu => ⟨rfl, hu⟩
  | error ds => exact (alike_report ds ht).bind fun _ _ u u' hu => ⟨rfl, hu⟩

/-- A value is read alike together with what follows it. -/
theorem alike_readStep (h : Stays F logical earlier s s') :
    EndAlike (readStep field) (readStep field) s s'
      (fun a b t t' => b = a ∧ Stays F logical earlier t t') (Breaks F logical earlier) := by
  refine (alike_readEntry h).bind ?_
  rintro _ _ t t' ⟨rfl, ht⟩
  exact alike_scan (F.carries_readSeparator _) ht

/-- The values end with the fault of the first that cannot be read. -/
theorem readEntries_of_error {count : Nat} {d : Diagnostic} {t : Session}
    (hne : count ≠ settings.maxValues) (h : readStep field s = .error d t) :
    readEntries settings field count s = .error d t := by
  rw [readEntries, if_neg hne]
  split <;> next hstep => cases h.symm.trans hstep <;> rfl

/-- **The values of a field are read alike**, one after another. -/
theorem alike_readEntries (count : Nat) (h : Stays F logical earlier s s') :
    EndAlike (readEntries settings field count) (readEntries settings field count) s s'
      (fun _ _ t t' => Stays F logical earlier t t') (Breaks F logical earlier) := by
  unfold EndAlike
  fun_induction readEntries settings field count s generalizing s' with
  | case1 s =>
    rw [readEntries, if_pos rfl, h.1.cursor]
    exact ⟨rfl, h⟩
  | case2 count s hne t hstep ih =>
    obtain ⟨_, t', hstep', rfl, ht⟩ := (alike_readStep h).of_ok hstep
    rw [readEntries_of_more hne hstep']
    exact ih ht
  | case3 count s hne t hstep =>
    obtain ⟨_, t', hstep', rfl, ht⟩ := (alike_readStep h).of_ok hstep
    rw [readEntries_of_last hne hstep']
    exact ht
  | case4 count s hne d t hstep =>
    obtain ⟨d', t', hstep', hd⟩ := (alike_readStep h).of_error hstep
    rw [readEntries_of_error hne hstep']
    exact hd

/-! ### Fields

A field is over behind its `;`, and then the two sessions mirror each other still, but what is left
of the part is no longer sealed: it may be empty. -/

/-- A `;` that belongs to a field is the end of a sealed text. -/
theorem alike_skipTerminator (h : Stays F logical earlier s s') :
    EndAlike (move Cursor.skipTerminator) (move Cursor.skipTerminator) s s'
      (fun _ _ t t' => t.Mirrors F logical earlier t') (Breaks F logical earlier) :=
  .of_eq rfl rfl (h.1.move (Frame.skipTerminator_place h.2))

/-- The values of a field are read alike, from the place behind its name. -/
theorem alike_readValues (column : Nat) (h : Stays F logical earlier s s') :
    EndAlike (readValues settings field column) (readValues settings field (column + F.chars)) s s'
      (fun _ _ t t' => t.Mirrors F logical earlier t') (Breaks F logical earlier) := by
  refine (alike_edit (Assembly.indifferent_openField field.name) column h).bind
    fun _ _ t t' ht => (alike_log _ ht).bind fun _ _ t t' ht => (alike_skipSpace ht).bind
      fun _ _ t t' ht => (alike_here ht).bind ?_
  rintro c _ t t' ⟨rfl, rfl, ht⟩
  rw [ht.2.atFieldEnd_place]
  split
  · exact ⟨rfl, ht⟩
  · exact (alike_readEntries 0 ht).bind fun _ _ u u' hu =>
      (alike_edit Assembly.indifferent_closeField column hu).bind fun _ _ v v' hv =>
        alike_skipTerminator hv

/-- **A field with its values is read alike.** -/
theorem alike_readField (h : Stays F logical earlier s s') :
    EndAlike (readField settings fields) (readField settings fields) s s'
      (fun _ _ t t' => t.Mirrors F logical earlier t') (Breaks F logical earlier) := by
  refine (alike_here h).bind ?_
  rintro c _ t t' ⟨rfl, rfl, ht⟩
  refine (alike_scan (F.carries_readToken settings.naming) ht).bind ?_
  rintro _ token u u' ⟨rfl, hu⟩
  rw [Frame.column_place]
  split
  · exact alike_readValues _ hu
  · exact ⟨rfl, hu⟩

end Parser

/-! ## Items

From here on the part is the end of the longer text.  Every sort of item does the same in both, and
so does the whole run, by induction on the part. -/

namespace Frame

variable {bytes chars : Nat}

theorem behindGroup_place_behind (c : Cursor) :
    State.behindGroup ((behind bytes chars).place c) =
      (behind bytes chars).place (State.behindGroup c) := by
  have hterm : ((behind bytes chars).place c.skipSpace).skipTerminator =
      (behind bytes chars).place c.skipSpace.skipTerminator := Frame.skipTerminator_place trivial
  rw [State.behindGroup, skipSpace_place_behind, hterm, skipSpace_place_behind, State.behindGroup]

end Frame

namespace State

variable {settings : Settings} {fields : FieldSet} {logical : Logical}
  {earlier : List (FaultKind × Nat)} {bytes chars : Nat} {s s' : Session} {st st' next : State}

/-- A field is read alike, also if a marker stands in its place. -/
theorem alike_readPair (settings : Settings) (fields : FieldSet) {F : Frame}
    (h : Parser.Stays F logical earlier s s') :
    EndAlike (readPair settings fields) (readPair settings fields) s s'
      (fun _ _ t t' => t.Mirrors F logical earlier t') (Parser.Breaks F logical earlier) := by
  refine (Parser.alike_here h).bind ?_
  rintro c _ t t' ⟨rfl, rfl, ht⟩
  rw [Frame.rest_place, ht.2.head?_append]
  split
  · exact ⟨rfl, ht⟩
  · exact Parser.alike_readField ht

/-- The state `st'` is in the longer text where `st` is in the end of it. -/
structure Mirrors (bytes chars : Nat) (logical : Logical) (earlier : List (FaultKind × Nat))
    (st st' : State) : Prop where
  session : st.session.Mirrors (.behind bytes chars) logical earlier st'.session
  openings : st'.openings = st.openings.map (· + chars)

/-! ### Groups

Whether a group is refused depends on the number of groups around it and on that of its siblings,
which are the same in both sessions.  Behind a group that is refused, skipping is alike because the
texts are. -/

/-- A group that is refused is skipped alike. -/
theorem mirrors_refuse {d d' : Diagnostic} (h : s.Mirrors (.behind bytes chars) logical earlier s')
    (hd : d'.site = (d.shift chars).site) :
    (refuse d s).Mirrors (.behind bytes chars) logical earlier (refuse d' s') := by
  refine (h.report hd).move ?_
  rw [Frame.skipBody_place_behind, Frame.behindGroup_place_behind]

/-- A group is entered in both, or refused in both. -/
theorem mirrors_openGroup (marker : Option Logical) (length : Nat)
    (h : st.Mirrors bytes chars logical earlier st') :
    (openGroup settings marker length st).Mirrors bytes chars logical earlier
      (openGroup settings marker length st') := by
  obtain ⟨⟨cursor, assembly, faults, events⟩, openings⟩ := st
  obtain ⟨⟨cursor', assembly', faults', events'⟩, openings'⟩ := st'
  obtain ⟨⟨rfl, rfl, hf⟩, rfl⟩ := h
  have hgroups := Assembly.groups_current_setRootLogical logical assembly
  have hinside : ((Frame.behind bytes chars).place cursor).advance length =
      (Frame.behind bytes chars).place (cursor.advance length) := Frame.advance_place_behind ..
  have hrefuse : ∀ (f : Fault) (b : Assembly), Session.Mirrors (.behind bytes chars) logical earlier
      (refuse (f.inColumn cursor.column) ⟨cursor.advance length, b, faults, events⟩)
      (refuse (f.inColumn (cursor.column + chars))
        ⟨(Frame.behind bytes chars).place (cursor.advance length),
          b.setRootLogical logical, faults', events'⟩) :=
    fun f b => mirrors_refuse ⟨rfl, rfl, hf⟩ rfl
  -- a limit that is reached in one text is reached in the other, and all refusals end alike
  rw [openGroup, openGroup]
  dsimp only
  rw [List.length_map, hgroups, hinside]
  split
  · exact ⟨hrefuse _ assembly, rfl⟩
  · split
    · exact ⟨hrefuse _ assembly, rfl⟩
    · have henter := Assembly.indifferent_enterGroup (marker.getD .and) logical assembly
      cases hx : Assembly.enterGroup (marker.getD .and) assembly with
      | ok _ b =>
        obtain ⟨_, b', hb', rfl⟩ := henter.of_ok hx
        rw [hb']
        exact ⟨⟨Frame.skipSpace_place_behind _, rfl, hf⟩, rfl⟩
      | error _ b =>
        obtain ⟨m, b', hb', rfl, rfl⟩ := henter.of_error hx
        rw [hb']
        exact ⟨hrefuse (.misuse m) b, rfl⟩

theorem mirrors_closeGroup (column : Nat)
    (h : s.Mirrors (.behind bytes chars) logical earlier s') :
    (closeGroup column s).Mirrors (.behind bytes chars) logical earlier
      (closeGroup (column + chars) s') := by
  obtain ⟨cursor, assembly, faults, events⟩ := s
  obtain ⟨cursor', assembly', faults', events'⟩ := s'
  obtain ⟨rfl, rfl, hf⟩ := h
  have hcursor : behindGroup ((Frame.behind bytes chars).place cursor).next =
      (Frame.behind bytes chars).place (behindGroup cursor.next) := by
    rw [Frame.next_place_behind, Frame.behindGroup_place_behind]
  have hleave := Assembly.indifferent_leaveGroup logical assembly
  cases hx : Assembly.leaveGroup assembly with
  | ok _ b =>
    obtain ⟨_, b', hb', rfl⟩ := hleave.of_ok hx
    rw [closeGroup, closeGroup, hx, hb']
    exact ⟨hcursor, rfl, hf⟩
  | error m b =>
    obtain ⟨_, b', hb', rfl, rfl⟩ := hleave.of_error hx
    rw [closeGroup, closeGroup, hx, hb']
    have hclosed : Session.Mirrors (.behind bytes chars) logical earlier
        ⟨behindGroup cursor.next, b, faults, events⟩
        ⟨behindGroup ((Frame.behind bytes chars).place cursor).next, b.setRootLogical logical,
          faults', events'⟩ := ⟨hcursor, rfl, hf⟩
    exact hclosed.report rfl

theorem mirrors_dropGroup (column : Nat)
    (h : s.Mirrors (.behind bytes chars) logical earlier s') :
    (dropGroup column s).Mirrors (.behind bytes chars) logical earlier
      (dropGroup (column + chars) s') := by
  obtain ⟨cursor, assembly, faults, events⟩ := s
  obtain ⟨cursor', assembly', faults', events'⟩ := s'
  obtain ⟨rfl, rfl, hf⟩ := h
  have hdropped : ∀ b : Assembly, Session.Mirrors (.behind bytes chars) logical earlier
      ⟨cursor, b, faults.push ((Fault.unclosedGroup column).inColumn cursor.column), events⟩
      ⟨(Frame.behind bytes chars).place cursor, b.setRootLogical logical,
        faults'.push ((Fault.unclosedGroup (column + chars)).inColumn (cursor.column + chars)),
        events'⟩ := fun b =>
    have hsame : Session.Mirrors (.behind bytes chars) logical earlier ⟨cursor, b, faults, events⟩
        ⟨(Frame.behind bytes chars).place cursor, b.setRootLogical logical, faults', events'⟩ :=
      ⟨rfl, rfl, hf⟩
    hsame.report rfl
  have hdiscard := Assembly.indifferent_discardGroup logical assembly
  cases hx : Assembly.discardGroup assembly with
  | ok _ b =>
    obtain ⟨_, b', hb', rfl⟩ := hdiscard.of_ok hx
    rw [dropGroup, dropGroup, hx, hb']
    exact hdropped b
  | error m b =>
    obtain ⟨_, b', hb', rfl, rfl⟩ := hdiscard.of_error hx
    rw [dropGroup, dropGroup, hx, hb']
    exact hdropped b

theorem mirrors_skipStrayEnd (h : s.Mirrors (.behind bytes chars) logical earlier s') :
    (skipStrayEnd s).Mirrors (.behind bytes chars) logical earlier (skipStrayEnd s') := by
  have hterm : ∀ c : Cursor, ((Frame.behind bytes chars).place c).skipTerminator =
      (Frame.behind bytes chars).place c.skipTerminator :=
    fun c => Frame.skipTerminator_place trivial
  have hsite : (Fault.unopenedGroup.inColumn s'.cursor.column).site =
      ((Fault.unopenedGroup.inColumn s.cursor.column).shift chars).site := by
    rw [h.cursor]
    rfl
  refine (h.report hsite).move (f := fun c => c.next.skipTerminator.skipSpace) ?_
  rw [Frame.next_place_behind, hterm, Frame.skipSpace_place_behind]

/-! ### Fields and runs

A field that cannot be read is left behind where skipping ends, in both sessions. -/

/-- A field that cannot be read is dropped and skipped alike. -/
theorem mirrors_abandon {d d' : Diagnostic} (h : s.Mirrors (.behind bytes chars) logical earlier s')
    (hd : d'.site = (d.shift chars).site) :
    (abandon d s).Mirrors (.behind bytes chars) logical earlier (abandon d' s') := by
  obtain ⟨cursor, assembly, faults, events⟩ := s
  obtain ⟨cursor', assembly', faults', events'⟩ := s'
  have hsites := (h.report hd).sites
  obtain ⟨rfl, rfl, -⟩ := h
  refine ⟨?_, rfl, hsites⟩
  show ((Frame.behind bytes chars).place cursor).skipPair.skipSpace = _
  rw [Frame.skipPair_place_behind, Frame.skipSpace_place_behind]
  rfl

/-- Whether it can be read or not, behind a field the sessions mirror each other. -/
theorem mirrors_readItem (h : s.Mirrors (.behind bytes chars) logical earlier s') :
    (readItem settings fields s).Mirrors (.behind bytes chars) logical earlier
      (readItem settings fields s') := by
  have hpair := alike_readPair settings fields (F := .behind bytes chars) ⟨h, trivial⟩
  cases hx : readPair settings fields s with
  | ok _ t =>
    obtain ⟨_, t', hy, ht⟩ := hpair.of_ok hx
    rw [readItem_of_ok hx, readItem_of_ok hy]
    exact ht.move (Frame.skipSpace_place_behind _)
  | error d t =>
    obtain ⟨d', t', hy, hd, ht, -⟩ := hpair.of_error hx
    rw [readItem_of_error hx, readItem_of_error hy]
    exact mirrors_abandon ht hd

/-- **An item is read alike**, up to the places. -/
theorem mirrors_step? (settings : Settings) (fields : FieldSet)
    (h : st.Mirrors bytes chars logical earlier st') :
    (step? settings fields st = none ∧ step? settings fields st' = none) ∨
      ∃ next next', step? settings fields st = some next ∧
        step? settings fields st' = some next' ∧
        next.Mirrors bytes chars logical earlier next' := by
  obtain ⟨s, openings⟩ := st
  obtain ⟨s', openings'⟩ := st'
  obtain ⟨h, rfl⟩ := h
  have hrest : s'.cursor.rest = s.cursor.rest := by rw [h.cursor, Frame.rest_place_behind]
  cases hr : s.cursor.rest with
  | nil =>
    cases openings with
    | nil => exact .inl ⟨step?_end hr, step?_end (hrest.trans hr)⟩
    | cons column outer =>
      exact .inr ⟨_, _, step?_drop hr column, step?_drop (hrest.trans hr) _,
        mirrors_dropGroup column h, rfl⟩
  | cons x cs =>
    by_cases hx : x = ')'
    · subst hx
      cases openings with
      | nil =>
        exact .inr ⟨_, _, step?_stray hr, step?_stray (hrest.trans hr), mirrors_skipStrayEnd h, rfl⟩
      | cons column outer =>
        exact .inr ⟨_, _, step?_close hr column, step?_close (hrest.trans hr) _,
          mirrors_closeGroup column h, rfl⟩
    · cases ha : Opening.at? (x :: cs) with
      | some found =>
        obtain ⟨marker, length⟩ := found
        exact .inr ⟨_, _, step?_open hr hx ha, step?_open (hrest.trans hr) hx ha,
          mirrors_openGroup marker length ⟨h, rfl⟩⟩
      | none =>
        exact .inr ⟨_, _, step?_pair hr hx ha, step?_pair (hrest.trans hr) hx ha,
          mirrors_readItem h, rfl⟩

theorem mirrors_assertFinished (h : st.Mirrors bytes chars logical earlier st') :
    st.assertFinished.Mirrors (.behind bytes chars) logical earlier st'.assertFinished := by
  obtain ⟨s, openings⟩ := st
  obtain ⟨s', openings'⟩ := st'
  obtain ⟨h, rfl⟩ := h
  have hdepth : s'.assembly.depth = s.assembly.depth := by rw [h.assembly]; rfl
  have hend : s'.cursor.atEnd = s.cursor.atEnd := by
    rw [h.cursor, Cursor.atEnd, Frame.rest_place_behind, Cursor.atEnd]
  rw [assertFinished, assertFinished]
  simp only [List.length_map, hdepth, hend]
  split
  · refine h.report ?_
    rw [h.cursor]
    rfl
  · exact h

/-- **All items are read alike**, up to the places. -/
theorem mirrors_run (h : st.Mirrors bytes chars logical earlier st') :
    (run settings fields st).Mirrors (.behind bytes chars) logical earlier
      (run settings fields st') := by
  fun_induction run settings fields st generalizing st' with
  | case1 st next hstep ih =>
    rcases mirrors_step? settings fields h with
      ⟨hnone, -⟩ | ⟨_, next', hsome, hstep', hnext⟩
    · cases hstep.symm.trans hnone
    · cases hstep.symm.trans hsome
      rw [run_of_step? hstep']
      exact ih hnext
  | case2 st hstep =>
    rcases mirrors_step? settings fields h with
      ⟨-, hnone⟩ | ⟨_, next', hsome, -⟩
    · rw [run_of_end hnone]
      exact mirrors_assertFinished h
    · cases hstep.symm.trans hsome

end State
end Criteria
