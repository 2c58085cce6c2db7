import Criteria.Proofs.Reading.FieldToken

/-!
# Names of fields, written and read

A set of fields takes the names that are read back when a `:` is written behind them.  Where no
name with a sign behind it stands, the fault is reported at the first character that does not fit:
what stands in front of it can still become one, and with it no more.

The fault of a name is to be reported at the first character that does not fit.  What that means is
said here without the reader: a text up to some character can be completed to a name with its sign,
and with this character it cannot, whatever follows.  Completions are any texts, so that nothing
about letters and blanks is presupposed.

For sets of fields, the question is which names they take.  A name that is not read back would be a
field that no text can refer to, so building a set refuses it; and the first such name in the
declarations is the one that is told.

## What is here

* `FieldToken.Accepted`, `FieldToken.FirstUnfit` — the texts in which a name is read, and the place
  at which a text stops being the start of one.
* `FieldToken.readName_error` — where a fault is reported.
* `FieldToken.ReadsBack`, `FieldToken.readsBack_iff` — the names that are read back.
* `FieldSet.find?_names_declare` — the fields of a set stand in the order in which their names were
  first declared.
* `FieldSet.build_takes` — the sets that can be built, and how their names are read.
-/

set_option autoImplicit false

namespace Criteria

open Grammar

namespace FieldToken

variable {c d e : Cursor} {cs name blanks rest : List Char} {sign : Char}

/-! ## Faults

Whether a text is accepted is decided by the name at its start and the sign behind it.  So a text
can be completed as long as it is a part of a name with blanks behind it, and the three cases of
`NameRead` give the three ways in which this ends. -/

/-- The text starts with a name and a sign behind it. -/
def Accepted (cs : List Char) : Prop :=
  ∃ name d, readName (.start (.ofList cs)) = .ok name d

/-- A text is what is left to read at its start. -/
theorem rest_start (cs : List Char) : (Cursor.start (.ofList cs)).rest = cs :=
  String.toList_ofList

/-- A name with a sign behind it is accepted. -/
theorem accepted_of_sign (h : Starts name blanks (sign :: rest) cs)
    (hsign : sign = ':' ∨ sign = '=') : Accepted cs := by
  rw [← rest_start cs] at h
  exact ⟨_, _, readName_of_sign h hsign⟩

/-- A name with something else behind it is not accepted. -/
theorem not_accepted_of_no_sign (h : Starts name blanks rest cs)
    (hsign : ∀ x ∈ rest.head?, ¬(x = ':' ∨ x = '=')) : ¬Accepted cs := by
  rw [← rest_start cs] at h
  rintro ⟨token, d, hread⟩
  cases (readName_of_no_sign h hsign).symm.trans hread

theorem not_accepted_of_no_name (hblanks : Stops Text.isBlank cs)
    (hname : (nameAt cs).isEmpty = true) : ¬Accepted cs := by
  rw [← rest_start cs] at hblanks hname
  rintro ⟨token, d, hread⟩
  cases (readName_of_no_name hblanks hname).symm.trans hread

/-- The place in a text at which a fault is reported: the text in front of it can be completed, and
with the next character, if there is one, it can not. -/
def FirstUnfit (cs : List Char) (n : Nat) : Prop :=
  n ≤ cs.length ∧ (∃ more, Accepted (cs.take n ++ more)) ∧
    (n = cs.length ∨ ∀ more, ¬Accepted (cs.take (n + 1) ++ more))

/-- Where no name starts, the first character does not fit. -/
theorem firstUnfit_of_no_name (hblanks : Stops Text.isBlank cs)
    (hname : (nameAt cs).isEmpty = true) : FirstUnfit cs 0 := by
  have hletter : Starts ['a'] [] [':'] ['a', ':'] :=
    starts_sign (by decide +kernel) (by simp) (.inl rfl) []
  refine ⟨Nat.zero_le _, ⟨['a', ':'], accepted_of_sign hletter (.inl rfl)⟩, ?_⟩
  cases cs with
  | nil => exact .inl rfl
  | cons x xs =>
    refine .inr fun more => ?_
    have hblanks' : Stops Text.isBlank (x :: more) := hblanks
    refine not_accepted_of_no_name hblanks' ?_
    by_cases hx : Text.isNameStart x = true
    · simp [nameAt, hx] at hname
    · simp [nameAt, hx]

/-- Where no sign follows, the character behind the blanks does not fit. -/
theorem firstUnfit_of_no_sign (h : Starts name blanks rest cs)
    (hsign : ∀ x ∈ rest.head?, ¬(x = ':' ∨ x = '=')) :
    FirstUnfit cs (name ++ blanks).length := by
  have htake : cs.take (name ++ blanks).length = name ++ blanks := by rw [h.text, List.take_left]
  have hcolon : Accepted (name ++ blanks ++ [':']) :=
    accepted_of_sign (starts_sign h.writable h.blank (.inl rfl) []) (.inl rfl)
  refine ⟨?_, ⟨[':'], by rwa [htake]⟩, ?_⟩
  · rw [h.text]
    exact (List.prefix_append _ _).length_le
  cases rest with
  | nil => exact .inl (by rw [h.text, List.append_nil])
  | cons x xs =>
    refine .inr fun more => ?_
    have htext : cs.take ((name ++ blanks).length + 1) ++ more = name ++ blanks ++ x :: more := by
      rw [h.text, List.take_length_add_append]
      simp
    have hname : Stops Text.isNameChar (blanks ++ x :: more) := by
      have hstops := h.name_stops
      cases blanks <;> exact hstops
    rw [htext]
    exact not_accepted_of_no_sign (h.replace hname h.blanks_stop) hsign

/-- **A fault is reported at the first character that does not fit.**  Nothing but spaces and tabs
is taken off the text.  Of what is left, the part in front of the reported place can be completed to
a text that is accepted, and there is nothing behind it, or with the character there it can not. -/
theorem readName_error {fault : Diagnostic} (h : readName c = .error fault e) :
    e = c.skipBlanks ∧ ∃ n,
      fault = (Fault.expectedFieldName (e.rest.drop n).head?).inColumn (e.column + n) ∧
      FirstUnfit e.rest n := by
  have hread := nameRead c
  have hstops : Stops Text.isBlank c.skipBlanks.rest := by
    rw [Cursor.rest_skipBlanks]
    exact stops_dropWhile _ _
  rw [h] at hread
  cases hread with
  | noSign hstarts hsign =>
    refine ⟨rfl, _, ?_, firstUnfit_of_no_sign hstarts hsign⟩
    rw [← hstarts.nameLength_eq, hstarts.drop_nameLength]
  | noName hname => exact ⟨rfl, 0, rfl, firstUnfit_of_no_name hstops hname⟩

/-- A `.` in a name, behind blanks. -/
theorem readName_error_sample :
    readName (.start " \tuser.name: 1") =
        .error ((Fault.expectedFieldName (some '.')).inColumn 7) ⟨"user.name: 1".toList, 2, 3⟩ ∧
      (∃ more, Accepted ("user".toList ++ more)) ∧ ∀ more, ¬Accepted ("user.".toList ++ more) := by
  have h : readName (.start " \tuser.name: 1") =
      .error ((Fault.expectedFieldName (some '.')).inColumn 7) ⟨"user.name: 1".toList, 2, 3⟩ := by
    have hskip : (Cursor.start " \tuser.name: 1").skipBlanks =
        ⟨"user.name: 1".toList, 2, 3⟩ := rfl
    have hstarts : Starts "user".toList [] ".name: 1".toList "user.name: 1".toList :=
      ⟨by decide, by decide +kernel, by simp, (stops_cons ..).2 (by decide +kernel),
        (stops_cons ..).2 (by decide)⟩
    rw [← readName_skipBlanks, hskip]
    refine readName_of_no_sign (c := ⟨"user.name: 1".toList, 2, 3⟩) hstarts fun x hx => ?_
    cases Option.mem_some_iff.1 (hx : x ∈ some '.')
    decide
  obtain ⟨-, n, hfault, -, haccepted, hunfit⟩ := readName_error h
  have hcolumn : 7 = 3 + n := congrArg Diagnostic.column hfault
  obtain rfl : n = 4 := by omega
  exact ⟨h, haccepted, hunfit.resolve_left (by decide)⟩

/-! ## Names that are read back -/

/-- The name is read when a `:` is written behind it, and nothing is left then. -/
def ReadsBack (name : String) : Prop :=
  ∃ d, readName (.start (name ++ ":")) = .ok name d ∧ d.rest = []

/-- **The names that are read back are those that start like a name and go on like one.** -/
theorem readsBack_iff {name : String} : ReadsBack name ↔ Text.isFieldName name = true := by
  constructor
  · rintro ⟨d, h, -⟩
    have hread := nameRead (.start (name ++ ":"))
    rw [h] at hread
    cases hread with
    | name hstarts _ => exact hstarts.writable
  · intro h
    have hc : (Cursor.start (name ++ ":")).rest = name.toList ++ [] ++ ':' :: [] := by
      simp [Cursor.start]
    obtain ⟨d, hread, -, hd⟩ := readName_of_isFieldName h (by simp) (.inl rfl) hc
    exact ⟨d, hread, hd⟩

end FieldToken

/-! ## Sets of fields

A later declaration of a name takes the place of an earlier one and keeps its position. -/

namespace FieldSet

open FieldToken (ReadsBack readsBack_iff readName)

variable {name bad : String} {declarations : List Field}

/-- The fields of a set stand in the order in which their names were first declared. -/
theorem find?_names_declare (p : String → Bool) (declarations : List Field) :
    ((declare declarations).map Field.name).find? p = (declarations.map Field.name).find? p := by
  suffices h : ∀ fs : List Field,
      ((declarations.foldl (fun fs f => put f fs) fs).map Field.name).find? p =
        ((fs.map Field.name).find? p).or ((declarations.map Field.name).find? p) from
    (h []).trans (Option.none_or ..)
  induction declarations with
  | nil => exact fun fs => (Option.or_none ..).symm
  | cons f ds ih =>
    intro fs
    rw [List.foldl_cons, ih, names_put, List.map_cons, List.find?_cons]
    split
    · next hmem =>
      cases hp : p f.name with
      | false => rfl
      | true =>
        obtain ⟨n, hn⟩ := Option.isSome_iff_exists.1 (List.find?_isSome.2 ⟨_, hmem, hp⟩)
        rw [hn, Option.some_or, Option.some_or]
    · rw [List.find?_append, Option.or_assoc]
      cases hp : p f.name <;> simp [hp]

/-- The first declared name that cannot be written, if there is one. -/
def firstUnwritable? (declarations : List Field) : Option String :=
  (declarations.map Field.name).find? (!Text.isFieldName ·)

/-- A set is built of the declared fields, or the first name that cannot be written is returned. -/
theorem build_eq (name : String) (declarations : List Field) :
    (firstUnwritable? declarations = none ∧ ∃ s, build name declarations = .ok s ∧
        s.name = name ∧ s.fields = declare declarations) ∨
      ∃ bad, firstUnwritable? declarations = some bad ∧ build name declarations = .error bad := by
  have hfirst : firstUnwritable? declarations =
      ((declare declarations).find? (!Text.isFieldName ·.name)).map Field.name := by
    rw [firstUnwritable?, ← find?_names_declare, List.find?_map]
    rfl
  rw [hfirst, build]
  split
  · next f hf => exact .inr ⟨f.name, congrArg (Option.map Field.name) hf, rfl⟩
  · next hf => exact .inl ⟨congrArg (Option.map Field.name) hf, _, rfl, rfl, rfl⟩

/-- All names are read back if none is found that is not. -/
theorem firstUnwritable?_eq_none_iff :
    firstUnwritable? declarations = none ↔ ∀ f ∈ declare declarations, ReadsBack f.name := by
  rw [firstUnwritable?, ← find?_names_declare]
  simp only [List.find?_eq_none, List.forall_mem_map, readsBack_iff, Bool.not_eq_true',
    Bool.not_eq_false]

/-- The name that is found is the first one that is not read back. -/
theorem firstUnwritable?_eq_some_iff : firstUnwritable? declarations = some bad ↔
    ∃ before behind, declarations.map Field.name = before ++ bad :: behind ∧
      ¬ReadsBack bad ∧ ∀ n ∈ before, ReadsBack n := by
  simp only [firstUnwritable?, List.find?_eq_some_iff_append, readsBack_iff, Bool.not_eq_true',
    Bool.not_not, Bool.not_eq_true]
  constructor
  · rintro ⟨hbad, before, behind, hnames, hbefore⟩
    exact ⟨before, behind, hnames, hbad, hbefore⟩
  · rintro ⟨before, behind, hnames, hbad, hbefore⟩
    exact ⟨hbad, before, behind, hnames, hbefore⟩

/-- The field of a set is found under its name. -/
theorem find?_of_mem {s : FieldSet} {f : Field} (h : f ∈ s.fields) : s.find? f.name = some f := by
  obtain ⟨before, behind, hfields⟩ := List.append_of_mem h
  have hnodup := s.nodup
  rw [hfields, List.map_append, List.nodup_append] at hnodup
  rw [find?, List.find?_eq_some_iff_append]
  refine ⟨beq_self_eq_true _, before, behind, hfields, fun g hg => ?_⟩
  have hne := hnodup.2.2 g.name (List.mem_map_of_mem hg) f.name (by simp)
  simpa using hne

/-- **A set takes exactly the names that can be read back.**

It is built just if every name in it is read back.  Otherwise the name that is returned is the first
one in the order of declaration that is not.  In a set that is built, whatever stands behind the
name of a field, any spaces and tabs and a `:` or `=`, the name is read up to there and refers to
this field. -/
theorem build_takes (name : String) (declarations : List Field) :
    ((∃ s, build name declarations = .ok s) ↔
        ∀ f ∈ declare declarations, ReadsBack f.name) ∧
      (∀ bad, build name declarations = .error bad ↔
        ∃ before behind, declarations.map Field.name = before ++ bad :: behind ∧
          ¬ReadsBack bad ∧ ∀ n ∈ before, ReadsBack n) ∧
      ∀ s, build name declarations = .ok s →
        s.name = name ∧ s.fields = declare declarations ∧
        ∀ f ∈ s.fields, ∀ (c : Cursor) (blanks rest : List Char) (sign : Char),
          (∀ x ∈ blanks, Text.isBlank x = true) → (sign = ':' ∨ sign = '=') →
          c.rest = f.name.toList ++ blanks ++ sign :: rest →
          ∃ d, readName c = .ok f.name d ∧ c.Reaches d ∧ d.rest = rest ∧
            s.find? f.name = some f := by
  simp only [← firstUnwritable?_eq_none_iff, ← firstUnwritable?_eq_some_iff]
  rcases build_eq name declarations with ⟨hnone, s, hs, hname, hfields⟩ | ⟨bad, hbad, hs⟩
  · refine ⟨by simp [hs, hnone], by simp [hs, hnone], fun t ht => ?_⟩
    cases hs.symm.trans ht
    refine ⟨hname, hfields, fun f hf c blanks rest sign hblanks hsign hc => ?_⟩
    obtain ⟨d, hread, hreaches, hd⟩ :=
      FieldToken.readName_of_isFieldName (s.writable f hf) hblanks hsign hc
    exact ⟨d, hread, hreaches, hd, find?_of_mem hf⟩
  · exact ⟨by simp [hs, hbad], by simp [hs, hbad], fun t ht => by cases hs.symm.trans ht⟩

/-- A set in which a name is read, and the first one of the names that keep another set from being
built. -/
theorem build_takes_sample :
    (∃ s f d, build "customers" [{ name := "größe", converter := .integer }] = .ok s ∧
        readName (.start "größe \t= 1") = .ok "größe" d ∧ d.rest = " 1".toList ∧
        s.find? "größe" = some f) ∧
      build "customers" [{ name := "a", converter := .text }, { name := "b.c", converter := .text },
        { name := "", converter := .text }] = .error "b.c" := by
  constructor
  · obtain ⟨hbuilt, -, htaken⟩ :=
      build_takes "customers" [{ name := "größe", converter := .integer }]
    obtain ⟨s, hs⟩ := hbuilt.2 fun f hf => by
      cases List.mem_singleton.1 hf
      rw [readsBack_iff]
      decide +kernel
    obtain ⟨-, hfields, hread⟩ := htaken s hs
    have hblanks : ∀ x ∈ [' ', '\t'], Text.isBlank x = true := forall_mem_of_all (by decide)
    obtain ⟨d, hd, -, hrest, hfound⟩ := hread { name := "größe", converter := .integer }
      (hfields ▸ .head _) (.start "größe \t= 1") _ " 1".toList '=' hblanks (.inr rfl) rfl
    exact ⟨s, _, d, hs, hd, hrest, hfound⟩
  · obtain ⟨-, hbad, -⟩ := build_takes "customers" [{ name := "a", converter := .text },
      { name := "b.c", converter := .text }, { name := "", converter := .text }]
    refine (hbad "b.c").2 ⟨["a"], [""], rfl, ?_, ?_⟩
    · rw [readsBack_iff]
      decide +kernel
    · simp only [List.forall_mem_singleton, readsBack_iff]
      decide +kernel

end FieldSet
end Criteria
