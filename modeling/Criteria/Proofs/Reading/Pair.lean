import Criteria.Proofs.Assembly
import Criteria.Proofs.Reading.Faults
import Criteria.Proofs.Reading.FieldToken
import Criteria.Proofs.Reading.Form

/-!
# Reading a field with its values

A field is a loop over its values with a name in front of it, and a sign behind it that belongs to
it or not.  The grammar says the same with a list.  The two are brought together by induction on the
loop in one direction, and on the list in the other; what each value adds to the session is said by
`Assembly.Shows`, so that the entries of the open field are known all the time.

## What is here

* `Parser.valueText_of_readEntry`, `Parser.readEntry_of_valueText` — one value.
* `Parser.valueList_of_readEntries`, `Parser.readEntries_of_valueList` — the values of a field.
* `State.pair_of_readPair` — a field that is read without a fault is a `Pair` of the grammar, is new
  in its group, keeps the limit on values, and ends up in the group with these values.
* `State.readPair_of_pair` — the converse.

In the one direction it is assumed that no fault was recorded, since a field whose values are
refused is still read to its end.  In the other direction nothing is assumed of the session but what
the tree shows, and it is part of the result that no fault is added.
-/

set_option autoImplicit false

namespace Criteria

open Grammar

/-! ## The start of a value

Values start with something that is neither white space nor the end of a field.  Otherwise the
reader, behind a comma, would see no value. -/

namespace Grammar

variable {field : Field} {cs rest : List Char}

/-- A value starts with none of the signs that end a field. -/
theorem head_of_valueText {v : Criterion} (h : ValueText false field cs rest v) :
    ∃ x xs, cs = x :: xs ∧ Unicode.isSpace x = false ∧ x ≠ ';' ∧ x ≠ ')' := by
  have hliteral : ∀ {cs rest s}, LiteralText cs rest s →
      ∃ x xs, cs = x :: xs ∧ Unicode.isSpace x = false ∧ x ≠ ';' ∧ x ≠ ')' := fun h => by
    obtain ⟨x, xs, rfl, hx⟩ := Form.head_of_literalText h
    obtain ⟨hs, hm⟩ := Form.not_mem_of_isPlain hx
    exact ⟨x, xs, rfl, hs, fun e => hm (e ▸ by decide), fun e => hm (e ▸ by decide)⟩
  have hsign : ∀ (x : Char) (xs : List Char), x ∈ ['!', '[', ']', '<', '>', '~'] →
      ∃ y ys, x :: xs = y :: ys ∧ Unicode.isSpace y = false ∧ y ≠ ';' ∧ y ≠ ')' := fun x xs hx => by
    have hall : ∀ y ∈ ['!', '[', ']', '<', '>', '~'],
        Unicode.isSpace y = false ∧ y ≠ ';' ∧ y ≠ ')' := forall_mem_of_all (by decide)
    exact ⟨x, xs, rfl, hall x hx⟩
  cases h with
  | simple hl =>
    obtain ⟨s, hl, -⟩ := hl
    exact hliteral hl
  | excluded => exact hsign '!' _ (by decide)
  | range hr =>
    obtain ⟨hstart, ⟨s, hl, -⟩, -, -, -, -⟩ := hr
    cases hstart with
    | included => exact hsign '[' _ (by decide)
    | excluded => exact hsign ']' _ (by decide)
    | bare => exact hliteral hl
    | blanks allowed => cases allowed
  | excludedRange => exact hsign '!' _ (by decide)
  | @comparison _ c₁ _ _ o v hmark hb hl =>
    rw [hmark]
    cases o with
    | less | lessOrEqual | notEqual => exact hsign '<' _ (by decide)
    | greater | greaterOrEqual => exact hsign '>' _ (by decide)
  | pattern hmark => exact hmark ▸ hsign '~' _ (by decide)

/-- The values of a field start with none of the signs that end it. -/
theorem head_of_valueList {vs : List Criterion} (h : ValueList false field cs rest vs) :
    ∃ x xs, cs = x :: xs ∧ Unicode.isSpace x = false ∧ x ≠ ';' ∧ x ≠ ')' := by
  cases h with
  | one hv => exact head_of_valueText hv
  | more hv => exact head_of_valueText hv

end Grammar

/-! ## The end of a field

A field ends at a `;`, at a `)` or at the end of the text.  The reader asks this of the next
character; the grammar also says what is left behind. -/

/-- What may follow the values of a field, with the white space behind them. -/
def FieldEnds (cs : List Char) : Prop :=
  ∀ x ∈ cs.head?, x = ';' ∨ x = ')'

namespace FieldEnds

variable {cs : List Char}

theorem stops (h : FieldEnds cs) : Stops Unicode.isSpace cs := by
  intro x hx
  rcases h x hx with rfl | rfl <;> decide

theorem stops_isBlank (h : FieldEnds cs) : Stops Text.isBlank cs :=
  h.stops.mono fun _ => Text.isSpace_of_isBlank

theorem head?_ne (h : FieldEnds cs) : cs.head? ≠ some ',' := by
  intro hc
  rcases h ',' hc with he | he <;> cases he

/-- Where a field may end, one of the ends of the grammar follows. -/
theorem pairEnd (h : FieldEnds cs) : ∃ rest, PairEnd cs rest := by
  cases cs with
  | nil => exact ⟨[], .atEnd⟩
  | cons x xs =>
    rcases h x rfl with rfl | rfl
    · exact ⟨xs, .semicolon⟩
    · exact ⟨')' :: xs, .close⟩

end FieldEnds

theorem Grammar.PairEnd.fieldEnds {cs rest : List Char} (h : PairEnd cs rest) : FieldEnds cs := by
  intro x hx
  cases h with
  | semicolon => exact .inl (Option.some.inj hx).symm
  | close => exact .inr (Option.some.inj hx).symm
  | atEnd => cases hx

namespace Cursor

theorem atFieldEnd_iff {c : Cursor} : c.atFieldEnd = true ↔ FieldEnds c.rest := by
  rw [atFieldEnd, FieldEnds]
  split
  · next hc => simp [hc]
  · next x cs hc => simp [hc]

/-- A field does not end at any other character. -/
theorem not_atFieldEnd {c : Cursor} {x : Char} {xs : List Char} (h : c.rest = x :: xs)
    (hs : x ≠ ';') (hp : x ≠ ')') : c.atFieldEnd = false := by
  rw [Bool.eq_false_iff]
  intro he
  exact (atFieldEnd_iff.1 he x (by rw [h]; rfl)).elim hs hp

/-- The end of a field is where the grammar has it. -/
theorem skipTerminator_of_pairEnd {c : Cursor} {rest : List Char} (h : PairEnd c.rest rest) :
    c.skipTerminator.rest = rest := by
  have hb : c.skipBlanks = c := skipWhile_of_stops h.fieldEnds.stops_isBlank
  rw [skipTerminator, hb]
  generalize hc : c.rest = cs at h
  cases h with
  | semicolon => exact rest_next hc
  | close => exact hc
  | atEnd => exact hc

end Cursor

namespace Parser

variable {settings : Settings} {fields : FieldSet} {field : Field} {s t : Session} {g : Group}
  {outer : List Group} {name : String} {bag : Bag} {c d : Cursor} {cs rest : List Char}

/-! ## The two halves of a reader

A reader of fields either reads a text and leaves the tree alone, or changes the tree and stays
where it is. -/

theorem here_eq (s : Session) : here s = .ok s.cursor s := rfl

/-- Reading a text changes neither the tree nor the faults. -/
theorem eq_of_scan {α : Type} {x : Scanner α} {a : α} (h : scan x s = .ok a t) :
    x s.cursor = .ok a t.cursor ∧ t.assembly = s.assembly ∧ t.faults = s.faults := by
  obtain ⟨cursor, assembly, faults, events⟩ := s
  rw [scan] at h
  split at h
  · next hx =>
    cases h
    exact ⟨hx, rfl, rfl⟩
  · cases h

/-- A text that can be read is read in the session. -/
theorem scan_of_ok {α : Type} {x : Scanner α} {a : α} (h : x s.cursor = .ok a d) :
    scan x s = .ok a { s with cursor := d } := by
  obtain ⟨cursor, assembly, faults, events⟩ := s
  rw [scan, h]

/-- An operation that is not refused is done in the session. -/
theorem edit_of_ok {x : Assembly.Edit} {b : Assembly} (column : Nat)
    (h : x s.assembly = .ok () b) : edit column x s = .ok () { s with assembly := b } := by
  obtain ⟨cursor, assembly, faults, events⟩ := s
  rw [edit, h]

/-- An operation that was done was not refused. -/
theorem ok_of_edit {x : Assembly.Edit} {column : Nat} (h : edit column x s = .ok () t) :
    ∃ b, x s.assembly = .ok () b := by
  obtain ⟨cursor, assembly, faults, events⟩ := s
  rw [edit] at h
  split at h
  · next b hx => exact ⟨b, hx⟩
  · cases h

/-! ## One value

A value that was read without a fault has been taken by its field and was added to it. -/

/-- A value is refused for some reason. -/
theorem resolve_ne_nil {form : Form} {ds : List Diagnostic} (h : form.resolve field = .error ds) :
    ds ≠ [] := by
  cases form with
  | simple excluded l | comparison operator l =>
    rw [Form.resolve] at h
    split at h <;> cases h
    simp
  | range excluded r =>
    rw [Form.resolve] at h
    split at h <;> cases h <;> simp
  | pattern p => cases h

/-- What is reported is recorded. -/
theorem faults_report_ne {ds : List Diagnostic} (h : ds ≠ []) :
    (final (report ds s)).faults ≠ #[] := by
  obtain ⟨d, ds, rfl⟩ := List.exists_cons_of_ne_nil h
  intro he
  have hk : (s.report d).faults = #[] := faults_eq_empty (Keeps.report ds (s.report d)) he
  exact absurd hk (by simp [Session.report])

/-- A value that is read without a fault is one of the grammar and becomes an entry of the open
field. -/
theorem valueText_of_readEntry {bare : Bool} (h : readEntry field s = .ok bare t)
    (hf : t.faults = #[]) (ha : s.assembly.Shows g outer (some (name, bag)))
    (hs : Stops Unicode.isSpace s.cursor.rest) :
    ∃ v, ValueText false field s.cursor.rest t.cursor.rest v ∧
      t.assembly.Shows g outer (some (name, bag.add v)) := by
  obtain ⟨_, _, ⟨⟩, h⟩ := ok_of_bind h
  obtain ⟨form, u, hscan, h⟩ := ok_of_bind h
  obtain ⟨hread, hassembly, -⟩ := eq_of_scan hscan
  rw [← hassembly] at ha
  split at h
  · next v hv =>
    obtain ⟨b, hadd, hb⟩ := ha.add v
    rw [bind_of_ok (edit_of_ok _ hadd)] at h
    cases h
    exact ⟨v, Form.valueText_of_read hs hread hv, hb⟩
  · next ds hd =>
    obtain ⟨_, w, hw, ⟨⟩⟩ := ok_of_bind h
    refine absurd hf ?_
    have hne := faults_report_ne (s := u) (resolve_ne_nil hd)
    rwa [hw] at hne

/-- A value of the grammar is read and added to the field. -/
theorem readEntry_of_valueText {v : Criterion} (h : ValueText false field s.cursor.rest rest v)
    (hv : ValueEnds rest) (ha : s.assembly.Shows g outer (some (name, bag))) :
    ∃ bare t, readEntry field s = .ok bare t ∧ t.cursor.rest = rest ∧ t.faults = s.faults ∧
      t.assembly.Shows g outer (some (name, bag.add v)) := by
  obtain ⟨form, d, hread, hresolve, hd⟩ := Form.read_of_valueText h hv
  obtain ⟨b, hadd, hb⟩ := ha.add v
  refine ⟨form.endsBare, ⟨d, b, s.faults, s.events⟩, ?_, hd, rfl, hb⟩
  rw [readEntry]
  refine (bind_of_ok (here_eq s)).trans ((bind_of_ok (scan_of_ok hread)).trans ?_)
  rw [hresolve]
  exact bind_of_ok (edit_of_ok _ hadd)

/-! ## What follows a value

Whatever follows a value in the grammar ends it.  For this, a comma or the end of the field may be
behind white space, which is all the same to the value. -/

/-- White space and a sign, or the end of the text, end a value. -/
theorem valueEnds_of_spaces (h : Spaces cs rest) (hs : Stops Unicode.isSpace rest)
    (hx : ∀ x ∈ rest.head?, x ∈ [',', ';', ')']) : ValueEnds cs := by
  rw [ValueEnds, ← h.eq_dropWhile hs]
  exact hx

theorem valueEnds_of_comma (h : Spaces cs (',' :: rest)) : ValueEnds cs :=
  valueEnds_of_spaces h ((stops_cons ..).2 rfl) fun x hx => by
    rw [Option.some.inj hx]
    simp

theorem valueEnds_of_fieldEnds (h : Spaces cs rest) (he : FieldEnds rest) : ValueEnds cs :=
  valueEnds_of_spaces h he.stops fun x hx => by
    rcases he x hx with rfl | rfl <;> simp

/-- Another value follows behind a comma. -/
theorem comma_of_readSeparator {bare : Bool} (h : readSeparator bare c = .ok true d) :
    ∃ c₁, Spaces c.rest (',' :: c₁) ∧ Spaces c₁ d.rest ∧ Stops Unicode.isSpace d.rest := by
  rw [readSeparator] at h
  dsimp only at h
  split at h
  · next hc =>
    split at h <;> cases h
    obtain ⟨c₁, hc₁⟩ := List.head?_eq_some_iff.1 hc
    have hspaces := c.spaces_skipSpace
    have hnext := c.skipSpace.next.spaces_skipSpace
    rw [hc₁] at hspaces
    rw [Cursor.rest_next hc₁] at hnext
    refine ⟨c₁, hspaces, hnext, ?_⟩
    rw [Cursor.rest_skipSpace]
    exact stops_dropWhile _ _
  · split at h
    · cases h
    · split at h <;> cases h

/-- Where no comma was found, the field ends. -/
theorem end_of_readSeparator {bare : Bool} (h : readSeparator bare c = .ok false d) :
    Spaces c.rest d.rest ∧ FieldEnds d.rest := by
  rw [readSeparator] at h
  dsimp only at h
  split at h
  · split at h <;> cases h
  · split at h
    · next he =>
      cases h
      exact ⟨c.spaces_skipSpace, Cursor.atFieldEnd_iff.1 he⟩
    · split at h <;> cases h

/-- A comma with a value behind it is read. -/
theorem readSeparator_of_comma (bare : Bool) {c₁ : List Char} {x : Char} {xs : List Char}
    (h : Spaces c.rest (',' :: c₁)) (k : Spaces c₁ (x :: xs)) (hx : Unicode.isSpace x = false)
    (hs : x ≠ ';') (hp : x ≠ ')') :
    ∃ d, readSeparator bare c = .ok true d ∧ d.rest = x :: xs := by
  have hd := Cursor.rest_skipSpace_of_spaces h ((stops_cons ..).2 rfl)
  have he : c.skipSpace.next.skipSpace.rest = x :: xs :=
    Cursor.rest_skipSpace_of_spaces ((Cursor.rest_next hd).symm ▸ k) ((stops_cons ..).2 hx)
  refine ⟨c.skipSpace.next.skipSpace, ?_, he⟩
  rw [readSeparator]
  dsimp only
  rw [if_pos (by rw [hd]; rfl), if_neg (by simp [Cursor.not_atFieldEnd he hs hp])]

/-- The end of a field is read, and nothing is taken for it. -/
theorem readSeparator_of_end (bare : Bool) (h : Spaces c.rest rest) (he : FieldEnds rest) :
    ∃ d, readSeparator bare c = .ok false d ∧ d.rest = rest := by
  have hd : c.skipSpace.rest = rest := Cursor.rest_skipSpace_of_spaces h he.stops
  refine ⟨c.skipSpace, ?_, hd⟩
  rw [← hd] at he
  rw [readSeparator]
  dsimp only
  rw [if_neg he.head?_ne, if_pos (Cursor.atFieldEnd_iff.2 he)]

/-! ## The values of a field

The loop counts the values that it has read and stops at the limit, so the limit is on the length of
the list in the grammar and on what is left of the count. -/

/-- Values that are read without a fault are values of the grammar, in their order, and with those
read before they keep the limit. -/
theorem valueList_of_readEntries {count : Nat} (h : readEntries settings field count s = .ok () t)
    (hf : t.faults = #[]) (ha : s.assembly.Shows g outer (some (name, bag)))
    (hs : Stops Unicode.isSpace s.cursor.rest) (hcount : count ≤ settings.maxValues) :
    ∃ vs c₁, ValueList false field s.cursor.rest c₁ vs ∧ Spaces c₁ t.cursor.rest ∧
      FieldEnds t.cursor.rest ∧ count + vs.length ≤ settings.maxValues ∧
      t.assembly.Shows g outer (some (name, vs.foldl Bag.add bag)) := by
  fun_induction readEntries settings field count s generalizing bag with
  | case1 s => cases h
  | case2 count s hne u hstep ih =>
    obtain ⟨bare, w, hentry, hscan⟩ := ok_of_bind hstep
    obtain ⟨hsep, hassembly, hfaults⟩ := eq_of_scan hscan
    have hu : u.faults = #[] :=
      faults_eq_empty (faults_of_ok (keeps_readEntries settings field _) h) hf
    obtain ⟨v, hv, hb⟩ := valueText_of_readEntry hentry (hfaults ▸ hu) ha hs
    obtain ⟨c₁, hbefore, hbehind, hstops⟩ := comma_of_readSeparator hsep
    obtain ⟨vs, c₂, hvs, hspaces, hends, hlimit, hshows⟩ :=
      ih h (hassembly ▸ hb) hstops (by omega)
    refine ⟨v :: vs, c₂, .more hv hbefore hbehind hvs, hspaces, hends, ?_, hshows⟩
    rw [List.length_cons]
    omega
  | case3 count s hne u hstep =>
    cases h
    obtain ⟨bare, w, hentry, hscan⟩ := ok_of_bind hstep
    obtain ⟨hsep, hassembly, hfaults⟩ := eq_of_scan hscan
    obtain ⟨v, hv, hb⟩ := valueText_of_readEntry hentry (hfaults ▸ hf) ha hs
    obtain ⟨hspaces, hends⟩ := end_of_readSeparator hsep
    refine ⟨[v], w.cursor.rest, .one hv, hspaces, hends, ?_, hassembly ▸ hb⟩
    rw [List.length_singleton]
    omega
  | case4 => cases h

/-- One round of the loop, behind which there are other values. -/
theorem readEntries_of_more {count : Nat} (hne : count ≠ settings.maxValues)
    (h : readStep field s = .ok true t) :
    readEntries settings field count s = readEntries settings field (count + 1) t := by
  rw [readEntries, if_neg hne]
  split <;> next hstep => cases h.symm.trans hstep <;> rfl

/-- The last round of the loop. -/
theorem readEntries_of_last {count : Nat} (hne : count ≠ settings.maxValues)
    (h : readStep field s = .ok false t) : readEntries settings field count s = .ok () t := by
  rw [readEntries, if_neg hne]
  split <;> next hstep => cases h.symm.trans hstep <;> rfl

/-- Values of the grammar that keep the limit are read. -/
theorem readEntries_of_valueList {vs : List Criterion} {c₁ : List Char}
    (h : ValueList false field cs c₁ vs) (hspaces : Spaces c₁ rest) (he : FieldEnds rest) :
    ∀ {count : Nat} {s : Session} {bag : Bag}, s.cursor.rest = cs →
      count + vs.length ≤ settings.maxValues → s.assembly.Shows g outer (some (name, bag)) →
      ∃ t, readEntries settings field count s = .ok () t ∧ t.cursor.rest = rest ∧
        t.faults = s.faults ∧ t.assembly.Shows g outer (some (name, vs.foldl Bag.add bag)) := by
  induction h with
  | @one cs c₁ v hv =>
    rintro count s bag rfl hlimit ha
    rw [List.length_singleton] at hlimit
    obtain ⟨bare, u, hentry, hu, hfaults, hb⟩ :=
      readEntry_of_valueText hv (valueEnds_of_fieldEnds hspaces he) ha
    obtain ⟨d, hsep, hd⟩ := readSeparator_of_end bare (hu.symm ▸ hspaces) he
    have hstep : readStep field s = .ok false { u with cursor := d } :=
      (bind_of_ok hentry).trans (scan_of_ok hsep)
    exact ⟨{ u with cursor := d }, readEntries_of_last (by omega) hstep, hd, hfaults, hb⟩
  | @more cs c₁ c₂ c₃ _ v vs hv hbefore hbehind hvs ih =>
    rintro count s bag rfl hlimit ha
    rw [List.length_cons] at hlimit
    obtain ⟨bare, u, hentry, hu, hfaults, hb⟩ :=
      readEntry_of_valueText hv (valueEnds_of_comma hbefore) ha
    obtain ⟨x, xs, rfl, hx, hsemicolon, hclose⟩ := head_of_valueList hvs
    obtain ⟨d, hsep, hd⟩ :=
      readSeparator_of_comma bare (hu.symm ▸ hbefore) hbehind hx hsemicolon hclose
    have hstep : readStep field s = .ok true { u with cursor := d } :=
      (bind_of_ok hentry).trans (scan_of_ok hsep)
    have hlimit' : count + 1 + vs.length ≤ settings.maxValues := by omega
    obtain ⟨t, hread, ht, hfaults', hshows⟩ :=
      ih hspaces (s := { u with cursor := d }) hd hlimit' hb
    have hne : count ≠ settings.maxValues := by omega
    exact ⟨t, (readEntries_of_more hne hstep).trans hread, ht, hfaults'.trans hfaults, hshows⟩

/-! ## Fields

From the name on: the field is opened, its values are read, it is closed, and the `;` is taken. -/

/-- If the values were read without a fault, the grammar has them, and they are in the group. -/
theorem valueList_of_readValues {column : Nat} (h : readValues settings field column s = .ok () t)
    (hf : t.faults = #[]) (ha : s.assembly.Shows g outer none) :
    ∃ vs c₁ c₂ c₃, Spaces s.cursor.rest c₁ ∧ ValueList false field c₁ c₂ vs ∧ Spaces c₂ c₃ ∧
      PairEnd c₃ t.cursor.rest ∧ g.fields.contains field.name = false ∧
      vs.length ≤ settings.maxValues ∧
      t.assembly.Shows (g.addField field.name (vs.foldl Bag.add {})) outer none := by
  obtain ⟨_, u, hopen, h⟩ := ok_of_bind h
  obtain ⟨b, hb⟩ := ok_of_edit hopen
  have hnew := Assembly.new_of_openField ha hb
  obtain ⟨b, hb, hshows⟩ := ha.openField hnew
  cases hopen.symm.trans (edit_of_ok column hb)
  obtain ⟨_, _, ⟨⟩, h⟩ := ok_of_bind h
  obtain ⟨_, _, ⟨⟩, h⟩ := ok_of_bind h
  obtain ⟨_, _, ⟨⟩, h⟩ := ok_of_bind h
  split at h
  · cases h
  · obtain ⟨_, u, hread, h⟩ := ok_of_bind h
    obtain ⟨_, w, hclose, h⟩ := ok_of_bind h
    have hw : w.faults = #[] := faults_eq_empty (faults_of_ok (Keeps.move _) h) hf
    have hu : u.faults = #[] := faults_eq_empty (faults_of_ok (Keeps.edit _ _) hclose) hw
    obtain ⟨vs, c₁, hvs, hspaces, hends, hlimit, hentries⟩ :=
      valueList_of_readEntries hread hu hshows (Cursor.stops_skipSpace _) (Nat.zero_le _)
    obtain ⟨b, hb, hclosed⟩ := hentries.closeField
    cases hclose.symm.trans (edit_of_ok column hb)
    cases h
    obtain ⟨rest, hend⟩ := hends.pairEnd
    refine ⟨vs, _, c₁, u.cursor.rest, s.cursor.spaces_skipSpace, hvs, hspaces, ?_, hnew, ?_,
      hclosed⟩
    · rwa [← Cursor.skipTerminator_of_pairEnd hend] at hend
    · rwa [Nat.zero_add] at hlimit

/-- The values of the grammar are read, and are in the group then. -/
theorem readValues_of_valueList (column : Nat) {vs : List Criterion} {c₁ c₂ c₃ : List Char}
    (hbefore : Spaces s.cursor.rest c₁) (h : ValueList false field c₁ c₂ vs)
    (hbehind : Spaces c₂ c₃) (he : PairEnd c₃ rest) (hnew : g.fields.contains field.name = false)
    (hlimit : vs.length ≤ settings.maxValues) (ha : s.assembly.Shows g outer none) :
    ∃ t, readValues settings field column s = .ok () t ∧ t.cursor.rest = rest ∧
      t.faults = s.faults ∧
      t.assembly.Shows (g.addField field.name (vs.foldl Bag.add {})) outer none := by
  obtain ⟨b, hb, hshows⟩ := ha.openField hnew
  obtain ⟨x, xs, rfl, hx, hsemicolon, hparen⟩ := head_of_valueList h
  have hc : s.cursor.skipSpace.rest = x :: xs :=
    Cursor.rest_skipSpace_of_spaces hbefore ((stops_cons ..).2 hx)
  obtain ⟨u, hread, hu, hfaults, hentries⟩ := readEntries_of_valueList h hbehind he.fieldEnds
    (s := ⟨s.cursor.skipSpace, b, s.faults, s.events.push (.readingField field.name)⟩)
    hc ((Nat.zero_add vs.length).symm ▸ hlimit) hshows
  obtain ⟨b, hb', hclosed⟩ := hentries.closeField
  refine ⟨⟨u.cursor.skipTerminator, b, u.faults, u.events⟩, ?_,
    Cursor.skipTerminator_of_pairEnd (hu.symm ▸ he), hfaults, hclosed⟩
  rw [readValues]
  refine (bind_of_ok (edit_of_ok column hb)).trans ?_
  show (if s.cursor.skipSpace.atFieldEnd = true then _ else _ : Parser Unit) _ = _
  rw [if_neg (by simp [Cursor.not_atFieldEnd hc hsemicolon hparen])]
  exact (bind_of_ok hread).trans (bind_of_ok (edit_of_ok column hb'))

end Parser

/-! ## A field with its values -/

namespace State

variable {settings : Settings} {fields : FieldSet} {s t : Session} {g : Group} {outer : List Group}
  {rest : List Char}

/-- **What is read without a fault is a field of the grammar**, is new in its group and keeps the
limit on values. -/
theorem pair_of_readPair (h : readPair settings fields s = .ok () t) (hf : t.faults = #[])
    (ha : s.assembly.Shows g outer none) (hs : Stops Unicode.isSpace s.cursor.rest) :
    ∃ field vs, Pair false settings.naming fields s.cursor.rest t.cursor.rest field vs ∧
      g.fields.contains field.name = false ∧ vs.length ≤ settings.maxValues ∧
      t.assembly.Shows (g.addField field.name (vs.foldl Bag.add {})) outer none := by
  obtain ⟨_, _, ⟨⟩, h⟩ := ok_of_bind h
  split at h
  · cases h
  · next hmark =>
    simp only [Bool.or_eq_true, decide_eq_true_eq, not_or] at hmark
    obtain ⟨_, _, ⟨⟩, h⟩ := ok_of_bind h
    obtain ⟨token, u, hscan, h⟩ := ok_of_bind h
    obtain ⟨htoken, hassembly, -⟩ := Parser.eq_of_scan hscan
    cases hfield : Parser.lookUp fields token settings.naming with
    | some field =>
      rw [hfield] at h
      obtain ⟨vs, c₁, c₂, c₃, hbefore, hvs, hbehind, hend, hnew, hlimit, hshows⟩ :=
        Parser.valueList_of_readValues h hf (hassembly ▸ ha)
      have hname := Parser.fieldToken_of_readToken htoken hfield hs hmark.2
      exact ⟨field, vs, .mk hname hbefore hvs hbehind hend, hnew, hlimit, hshows⟩
    | none =>
      rw [hfield] at h
      cases h

/-- **A field of the grammar is read**, if it is new in its group and keeps the limit on values. -/
theorem readPair_of_pair {field : Field} {vs : List Criterion}
    (h : Pair false settings.naming fields s.cursor.rest rest field vs)
    (hnew : g.fields.contains field.name = false) (hlimit : vs.length ≤ settings.maxValues)
    (ha : s.assembly.Shows g outer none) (hs : Stops Unicode.isSpace s.cursor.rest) :
    ∃ t, readPair settings fields s = .ok () t ∧ t.cursor.rest = rest ∧ t.faults = s.faults ∧
      t.assembly.Shows (g.addField field.name (vs.foldl Bag.add {})) outer none := by
  obtain ⟨htoken, hbefore, hvs, hbehind, hend⟩ := h
  obtain ⟨x, xs, hx, hmark⟩ := htoken.head
  rw [dropWhile_of_stops hs] at hx
  obtain ⟨token, d, hread, hfield, hd⟩ := Parser.readToken_of_fieldToken htoken hs
  obtain ⟨t, ht, htr, htf, hta⟩ := Parser.readValues_of_valueList s.cursor.column
    (s := { s with cursor := d }) (hd.symm ▸ hbefore) hvs hbehind hend hnew hlimit ha
  refine ⟨t, ?_, htr, htf, hta⟩
  rw [readPair]
  refine (bind_of_ok (Parser.here_eq s)).trans ?_
  rw [if_neg (by rw [hx]; simp at hmark ⊢; grind), Parser.readField]
  refine (bind_of_ok (Parser.here_eq s)).trans ((bind_of_ok (Parser.scan_of_ok hread)).trans ?_)
  rw [hfield]
  exact ht

end State
end Criteria
