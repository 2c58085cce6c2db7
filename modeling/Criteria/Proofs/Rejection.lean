import Criteria.Parse
import Criteria.Proofs.Reading.Bookkeeping
import Criteria.Proofs.Tree

/-!
# What a rejected text is told

If a text is rejected, its faults are all that is told about it.  So they have to be complete, in
their order, and about the text: a fault that comes from reading itself, because it lost count of
the groups or misused the tree, would tell nothing.  There are faults of this kind among those that
can be expressed, and here it is shown that none of them is ever recorded.

## What is here

* `Diagnostic.Between.duplicateField` — the texts of faults tell whether the tree was misused.
* `Condition.parse_eq_error_iff` — a text is rejected for the faults that are recorded on the way.
* `Condition.parse_keeps_books` — reading keeps the tree, the open groups and the place in the text
  in step, and never misuses the tree.
* `Condition.columns_of_parse` — the faults come in the order of their places.
-/

set_option autoImplicit false

namespace Criteria

/-! ## The texts of faults

A fault is kept as its kind, its column and its text.  Whether it was a misuse of the tree can only
be seen from the text, so the texts are told apart, by their first and last characters. -/

/-- A text starts with what its first part starts with. -/
theorem head?_append_of {s : String} {c : Char} (h : s.toList.head? = some c) (t : String) :
    (s ++ t).toList.head? = some c := by
  rw [String.toList_append, List.head?_append, h]
  rfl

/-- A text ends with what its last part ends with. -/
theorem getLast?_append_of (s : String) {t : String} {c : Char} (h : t.toList.getLast? = some c) :
    (s ++ t).toList.getLast? = some c := by
  rw [String.toList_append, List.getLast?_append, h]
  rfl

/-- The description of a character ends with a quote, and that of the end of the text does not. -/
theorem getLast?_describe (found : Option Char) :
    (describe found).toList.getLast? = some '"' ∨ (describe found).toList.getLast? = some 't' := by
  cases found with
  | none => exact .inr (by decide)
  | some c => exact .inl (getLast?_append_of _ (by decide))

/-- How the messages of syntax faults end that are due to the text. -/
theorem Fault.ends_message {f : Fault} (hf : f.DueToText) (hk : f.kind = .wrongSyntax) :
    (∃ c ∈ ['"', 't', ')', 'e', 'd'], f.message.toList.getLast? = some c) ∨
      (f.message.toList.head? = some 'f' ∧ f.message.toList.getLast? = some 'p') := by
  have hfound : ∀ (s : String) (found : Option Char),
      ∃ c ∈ ['"', 't', ')', 'e', 'd'], (s ++ describe found).toList.getLast? = some c :=
    fun s found => (getLast?_describe found).elim
      (fun h => ⟨_, by decide, getLast?_append_of s h⟩)
      fun h => ⟨_, by decide, getLast?_append_of s h⟩
  cases f with
  | reservedCharacter | lineBreak | unterminated | looseText | unknownField | invalidValue |
    tooDeep | tooManyValues | tooManyGroups => cases hk
  | expectedToken token found => exact .inl (hfound _ found)
  | expectedFieldName found => exact .inl (hfound _ found)
  | expectedLabel found => exact .inl (hfound _ found)
  | expectedValue found => exact .inl (hfound _ found)
  | expectedOperator found => exact .inl (hfound _ found)
  | expectedSeparator found => exact .inl (hfound _ found)
  | expectedMatcher => exact .inl ⟨')', by decide, by decide⟩
  | danglingSeparator => exact .inl ⟨'e', by decide, by decide⟩
  | noValues field => exact .inl ⟨'e', by decide, getLast?_append_of _ (by decide)⟩
  | loneMarker => exact .inl ⟨'"', by decide, by decide⟩
  | unopenedGroup => exact .inl ⟨'d', by decide, by decide⟩
  | unclosedGroup column => exact .inl ⟨'"', by decide, getLast?_append_of _ (by decide)⟩
  | unfinished => exact .inl ⟨'t', by decide, by decide⟩
  | misuse m =>
    cases m with
    | duplicateField name =>
      exact .inr ⟨head?_append_of (head?_append_of (by decide) _) _,
        getLast?_append_of _ (by decide)⟩
    | fieldStillOpen | noOpenField | cannotLeaveRoot | groupsStillOpen => cases hf

/-- The messages about a misuse of the tree end in another way, or start in another way. -/
theorem Misuse.ends_message (m : Misuse) : (∃ name, m = .duplicateField name) ∨
    m.message.toList.getLast? = some 'n' ∨
      (m.message.toList.head? = some 'c' ∧ m.message.toList.getLast? = some 'p') := by
  cases m with
  | duplicateField name => exact .inl ⟨name, rfl⟩
  | fieldStillOpen name => exact .inr (.inl (getLast?_append_of _ (by decide)))
  | noOpenField => exact .inr (.inl (by decide))
  | cannotLeaveRoot => exact .inr (.inr ⟨by decide, by decide⟩)
  | groupsStillOpen number => exact .inr (.inl (getLast?_append_of _ (by decide)))

/-- A fault that is due to the text reads like a misuse of the tree only if this is a field given
twice. -/
theorem Diagnostic.Between.duplicateField {low high column : Nat} {d : Diagnostic} {m : Misuse}
    (h : d.Between low high) (hd : d = (Fault.misuse m).inColumn column) :
    ∃ name, m = .duplicateField name := by
  -- of its cause a fault keeps the kind and the text, so the causes are told apart by these
  obtain ⟨f, hf, hfd⟩ := h.cause
  have hk : f.kind = .wrongSyntax := congrArg Diagnostic.kind (hfd.symm.trans hd)
  have hm : f.message = m.message := congrArg Diagnostic.message (hfd.symm.trans hd)
  rcases m.ends_message with hname | hn | ⟨hc, hp⟩
  · exact hname
  · rcases Fault.ends_message hf hk with ⟨c, hc, hlast⟩ | ⟨-, hlast⟩
    · rw [hm, hn, Option.some_inj] at hlast
      exact absurd (hlast ▸ hc) (by decide)
    · rw [hm, hn] at hlast
      exact absurd hlast (by decide)
  · rcases Fault.ends_message hf hk with ⟨c, hc, hlast⟩ | ⟨hfirst, -⟩
    · rw [hm, hp, Option.some_inj] at hlast
      exact absurd (hlast ▸ hc) (by decide)
    · rw [hm, hc] at hfirst
      exact absurd hfirst (by decide)

namespace Condition

variable {settings : Settings} {fields : FieldSet} {text : String} {ds : List Diagnostic}

/-! ## The faults of a text

The last state of a run is in order like all others, and nothing is left of the text.  So the tree
can be finished, and the faults are those that were recorded. -/

/-- Reading ends in order: outside all groups and fields, at the end of the text, and with the
faults that were recorded on the way. -/
theorem exists_last (settings : Settings) (fields : FieldSet) (text : String) :
    ∃ last : State, State.Reachable settings fields text last ∧
      State.step? settings fields last = none ∧ last.Sound text ∧ last.openings = [] ∧
      last.session.cursor.rest = [] ∧ last.assertFinished = last.session ∧
      State.run settings fields (.start text) = last.session := by
  have hstart : State.Reachable settings fields text (.start text) := .start
  obtain ⟨last, hreach, hstep, hrun⟩ := State.exists_reachable_of_run hstart
  obtain ⟨hrest, hopen⟩ := State.nil_of_step? hstep
  have hsound := State.sound_of_reachable hreach
  have hfinish := State.assertFinished_of_step? hstep (hsound.depth_eq_zero hopen)
  exact ⟨last, hreach, hstep, hsound, hopen, hrest, hfinish, hrun.trans hfinish⟩

/-- **A text is rejected for the faults that are recorded on the way**, if there are any. -/
theorem parse_eq_error_iff : parse settings fields text = .error ds ↔
    ds = (State.run settings fields (.start text)).faults.toList ∧ ds ≠ [] := by
  obtain ⟨last, -, -, hsound, hopen, -, -, hrun⟩ := exists_last settings fields text
  obtain ⟨root, hroot⟩ := Assembly.exists_of_finish hsound.closed (hsound.depth_eq_zero hopen)
  rw [parse, ofSession, hrun, hroot]
  split
  · next he =>
    have hnil : last.session.faults.toList = [] := by simpa using he
    rw [hnil]
    constructor
    · intro h
      cases h
    · rintro ⟨rfl, hne⟩
      exact absurd rfl hne
  · next he =>
    have hne : last.session.faults.toList ≠ [] := by simpa using he
    constructor
    · intro h
      cases h
      exact ⟨rfl, hne⟩
    · rintro ⟨rfl, -⟩
      rfl

/-- **Reading keeps its books, and never misuses the tree that it puts together.**

Before every item no field is open and there is one group under construction for each open group of
the text, and what reading does to the tree from there on is not refused.  The values of a field are
among this: reading the field comes to each session in front of one of them, and goes on from there
with those that are left.  Behind the last item no group is open and nothing of the text is left, so
that there is nothing to report about the end, and the tree can be finished.  A text is rejected
exactly if a fault was recorded on the way, for these faults, and none of them is a refusal but that
of a field given twice. -/
theorem parse_keeps_books (settings : Settings) (fields : FieldSet) (text : String) :
    (∀ st, State.Reachable settings fields text st →
      st.session.assembly.openField? = none ∧
      st.session.assembly.depth = st.openings.length ∧ st.Accepts settings fields ∧
      ∀ field count t, Parser.AtValue settings fields st.session field count t →
        Parser.readField settings fields st.session =
          Parser.readFurther settings field st.session.cursor.column count t) ∧
    (∃ last, State.Reachable settings fields text last ∧
      State.step? settings fields last = none ∧
      last.openings = [] ∧ last.session.assembly.depth = 0 ∧
      last.session.assembly.openField? = none ∧ last.session.cursor.atEnd = true ∧
      last.assertFinished = last.session ∧
      State.run settings fields (.start text) = last.session ∧
      (∃ root, last.session.assembly.finish = .ok root) ∧
      ∀ ds, parse settings fields text = .error ds ↔
        ds = last.session.faults.toList ∧ ds ≠ []) ∧
    ∀ ds, parse settings fields text = .error ds → ∀ d ∈ ds, ∀ m column,
      d = (Fault.misuse m).inColumn column → ∃ name, m = .duplicateField name := by
  obtain ⟨last, hreach, hstep, hsound, hopen, hrest, hfinish, hrun⟩ :=
    exists_last settings fields text
  have hdepth := hsound.depth_eq_zero hopen
  refine ⟨fun st hst => ?_, ⟨last, hreach, hstep, hopen, hdepth, hsound.closed, ?_, hfinish, hrun,
    Assembly.exists_of_finish hsound.closed hdepth, fun ds => ?_⟩,
    fun ds hds d hd m column hm => ?_⟩
  · have h := State.sound_of_reachable hst
    exact ⟨h.closed, h.level, h.accepts, fun _ _ _ ht => Parser.readField_of_atValue ht⟩
  · rw [Cursor.atEnd, hrest]
    rfl
  · rw [parse_eq_error_iff, hrun]
  · obtain ⟨rfl, -⟩ := parse_eq_error_iff.1 hds
    rw [hrun] at hd
    exact (hsound.ordered.faults.between d hd).duplicateField hm

/-! ## Their places

The order was kept from fault to fault; that no column is behind the text is known at the end, where
all of it has been read. -/

/-- **The faults come in the order of their columns, and all columns are in the text** or right
behind it. -/
theorem columns_of_parse (h : parse settings fields text = .error ds) :
    (ds.map Diagnostic.column).Pairwise (· ≤ ·) ∧
      ∀ d ∈ ds, 1 ≤ d.column ∧ d.column ≤ text.length + 1 := by
  obtain ⟨last, -, -, hsound, -, hrest, -, hrun⟩ := exists_last settings fields text
  obtain ⟨rfl, -⟩ := parse_eq_error_iff.1 h
  rw [hrun]
  obtain ⟨hreaches, hfaults⟩ := hsound.ordered
  refine ⟨hfaults.order, fun d hd => ?_⟩
  obtain ⟨hlow, hhigh, -⟩ := hfaults.between d hd
  obtain ⟨cs, hcs, -, hcolumn⟩ := Cursor.reaches_iff.1 hreaches
  rw [hrest, List.append_nil] at hcs
  have hlength : cs.length = text.length := by rw [← hcs]; exact text.length_toList
  have hstart : (Cursor.start text).column = 1 := rfl
  omega

/-- Whether there are faults can be tested. -/
theorem exists_of_not_isOk {ε α : Type} {x : Except ε α} (h : x.isOk = false) :
    ∃ e, x = .error e := by
  cases x with
  | ok a => cases h
  | error e => exact ⟨e, rfl⟩

/-- In the text `id: 1 2; x: y; name: "` every field has a fault. -/
theorem columns_of_parse_sample : ∃ ds,
    parse {} .sample "id: 1 2; x: y; name: \"" = .error ds ∧
      (ds.map Diagnostic.column).Pairwise (· ≤ ·) ∧ ∀ d ∈ ds, 1 ≤ d.column ∧ d.column ≤ 23 := by
  obtain ⟨ds, hds⟩ := exists_of_not_isOk (x := parse {} .sample "id: 1 2; x: y; name: \"")
    (by decide +kernel)
  exact ⟨ds, hds, columns_of_parse hds⟩

end Condition
end Criteria
