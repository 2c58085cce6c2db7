import Criteria.Proofs.Nesting
import Criteria.Proofs.Skipping

/-!
# Reading on behind items

If a text starts with items and further ones follow, then these are added to the group that the
items in front denote.  A `;` has to stand behind the items in front: without it the last value
might go on in what follows.

Putting two texts one behind the other is not as harmless as it looks.  A value without quotes goes
on into the second text, a `;` at the start of the second text belongs to the last item of the first
one, and a `*` at the start of the first text is looked at together with what follows it.  A text
that ends in a `;` has none of these troubles but the second one, which `Unseparated` rules out.

What follows need not be a whole text itself.  It is whatever completes the groups that are open, so
the statement is about `Completes`, and holds inside of groups as well as at the end.

## What is here

* `Grammar.passed_of_values` — a field up to its end is made of ordinary characters and of texts
  in quotes.
* `Grammar.Terminated`, `Grammar.Pair.append` — texts that end in a `;`; a field at the end of such
  a text is a field in front of any other text.
* `Grammar.GroupEnd.completes`, `completes_of_pair`, `completes_of_start` — what is left to read
  does not depend on where the grammar lets groups and fields end.
* `Grammar.Items.completes_append` — behind items reading goes on with what follows.
* `Grammar.conditionText_append` — a condition that ends in a `;` goes on.

Fields are found again in the longer text by what they are made of: ordinary characters and texts in
quotes do not end in a `;`, so a `;` at the end of the first text is the one behind its last field,
and nothing of the field is behind it.
-/

set_option autoImplicit false

namespace Criteria

open Recovery

namespace Recovery

variable {cs rest : List Char}

/-- What is left behind a text that is passed is the end of it. -/
theorem Passed.suffix (h : Passed cs rest) : rest <:+ cs := by
  induction h with
  | refl => exact List.suffix_rfl
  | ordinary _ _ ih => exact ih.trans (List.suffix_cons ..)
  | quoted s _ ih =>
    exact ih.trans ((List.suffix_cons ..).trans
      ((List.suffix_append ..).trans (List.suffix_cons ..)))

end Recovery

namespace Grammar

variable {loose : Bool} {settings : Settings} {fields : FieldSet} {naming : Naming} {field : Field}
  {cs rest : List Char}

/-! ## What fields are made of

One lemma for each production of the grammar up to the values of a field. -/

theorem Run.passed_of_isSpace (h : Spaces cs rest) : Passed cs rest :=
  .of_run (fun _ => Text.isOrdinary_of_isSpace) h

theorem Run.passed_of_isBlank (h : Blanks cs rest) : Passed cs rest :=
  .of_run (fun _ => Text.isOrdinary_of_isBlank) h

theorem LiteralValue.passed {v : Value} (h : LiteralValue field cs rest v) : Passed cs rest := by
  obtain ⟨s, hs, -⟩ := h
  exact .of_literalText hs

theorem RangeStart.passed {included : Bool} (h : RangeStart loose cs rest included) :
    Passed cs rest := by
  cases h with
  | included blanks => exact .ordinary rfl blanks.passed_of_isBlank
  | excluded blanks => exact .ordinary rfl blanks.passed_of_isBlank
  | bare => exact .refl _
  | blanks _ blanks => exact blanks.passed_of_isBlank

theorem RangeEnd.passed {included : Bool} (h : RangeEnd cs rest included) : Passed cs rest := by
  cases h with
  | included blanks => exact blanks.passed_of_isBlank.trans (.ordinary rfl (.refl _))
  | excluded blanks => exact blanks.passed_of_isBlank.trans (.ordinary rfl (.refl _))
  | bare => exact .refl _

theorem RangeText.passed {r : Range} (h : RangeText loose field cs rest r) : Passed cs rest := by
  obtain ⟨start, first, before, behind, second, finish⟩ := h
  have hlower := (start.passed.trans first.passed).trans before.passed_of_isBlank
  have hupper := (behind.passed_of_isBlank.trans second.passed).trans finish.passed
  exact hlower.trans (.ordinary rfl hupper)

/-- A value of any form is passed. -/
theorem ValueText.passed {v : Criterion} (h : ValueText loose field cs rest v) :
    Passed cs rest := by
  cases h with
  | simple literal => exact literal.passed
  | excluded literal => exact .ordinary rfl literal.passed
  | range range => exact range.passed
  | excludedRange range => exact .ordinary rfl range.passed
  | comparison mark blanks literal =>
    rw [mark]
    exact (Passed.append (isOrdinary_of_mem_symbol _) _).trans
      (blanks.passed_of_isBlank.trans literal.passed)
  | pattern mark blanks literal =>
    rw [mark]
    exact (Passed.append (isOrdinary_of_mem_patternMark _) _).trans
      (blanks.passed_of_isBlank.trans (.of_literalText literal))

theorem ValueList.passed {vs : List Criterion} (h : ValueList loose field cs rest vs) :
    Passed cs rest := by
  induction h with
  | one value => exact value.passed
  | more value before behind _ ih =>
    exact (value.passed.trans before.passed_of_isSpace).trans
      (.ordinary rfl (behind.passed_of_isSpace.trans ih))

/-- A name or a label is passed, with the sign behind it. -/
theorem FieldToken.passed (h : FieldToken fields naming cs rest field) : Passed cs rest := by
  cases h with
  | name writable text blanks colon =>
    obtain ⟨x, xs, hx, hstart, hxs⟩ := exists_of_isFieldName writable
    have hname : ∀ c ∈ x :: xs, isOrdinary c = true :=
      List.forall_mem_cons.2 ⟨Text.isOrdinary_of_isNameChar (Text.isNameChar_of_isNameStart hstart),
        fun c hc => Text.isOrdinary_of_isNameChar (hxs c hc)⟩
    rw [text, hx]
    refine (Passed.append hname _).trans (blanks.passed_of_isBlank.trans ?_)
    rcases colon with rfl | rfl <;> exact .ordinary rfl (.refl _)
  | label chars text =>
    rw [text]
    exact (Passed.append (fun c hc => isOrdinary_of (forall_mem_of_all (by decide)) (chars c hc))
      _).trans (.ordinary rfl (.refl _))

/-- A field up to its end is made of ordinary characters and of texts in quotes. -/
theorem passed_of_values {vs : List Criterion} {c₁ c₂ c₃ : List Char}
    (token : FieldToken fields naming cs c₁ field) (before : Spaces c₁ c₂)
    (values : ValueList loose field c₂ c₃ vs) (behind : Spaces c₃ rest) : Passed cs rest :=
  (token.passed.trans before.passed_of_isSpace).trans
    (values.passed.trans behind.passed_of_isSpace)

/-! ## Texts that end in a semicolon

Such a text stays one when items are taken off its front, until nothing is left. -/

/-- The text ends in a `;`, if it is not empty. -/
def Terminated (cs : List Char) : Prop :=
  ∀ c ∈ cs.getLast?, c = ';'

/-- The end of such a text is such a text. -/
theorem Terminated.of_suffix (h : Terminated cs) (hs : rest <:+ cs) : Terminated rest := by
  obtain ⟨front, rfl⟩ := hs
  intro c hc
  exact h c (by rw [List.getLast?_append, Option.mem_def.1 hc]; rfl)

/-- A `;` at the end of a text ends a run of characters that it does not belong to. -/
theorem Terminated.dropWhile_ne_nil {p : Char → Bool} (h : Terminated cs) (hne : cs ≠ [])
    (hp : p ';' = false) : cs.dropWhile p ≠ [] := by
  intro hnil
  obtain ⟨run, hrun, he⟩ := run_dropWhile p cs
  rw [hnil, List.append_nil] at he
  subst he
  have hlast := hrun _ (List.getLast_mem hne)
  rw [h _ (List.getLast?_eq_some_getLast hne), hp] at hlast
  cases hlast

/-- Skipping in front of such a text stays inside it, since it stops at the `;` at the latest. -/
theorem Terminated.exists_dropWhile_append {p : Char → Bool} (h : Terminated cs) (hne : cs ≠ [])
    (hp : p ';' = false) (tail : List Char) :
    ∃ x xs, cs.dropWhile p = x :: xs ∧ (cs ++ tail).dropWhile p = x :: (xs ++ tail) := by
  obtain ⟨x, xs, hx⟩ := List.exists_cons_of_ne_nil (h.dropWhile_ne_nil hne hp)
  refine ⟨x, xs, hx, ?_⟩
  rw [List.dropWhile_append, hx]
  rfl

/-- No text that is passed ends in a `;`. -/
theorem Terminated.eq_nil (ht : Terminated cs) (h : Passed cs rest) (hr : rest = []) :
    cs = [] := by
  induction h with
  | refl => exact hr
  | @ordinary c cs _ hc _ ih =>
    cases ih (ht.of_suffix (List.suffix_cons ..)) hr
    rw [ht c rfl] at hc
    cases hc
  | @quoted s cs _ _ ih =>
    have hs : '"' :: cs <:+ '"' :: (Text.Quoted.double s ++ '"' :: cs) :=
      (List.suffix_append ..).trans (List.suffix_cons ..)
    cases ih (ht.of_suffix ((List.suffix_cons ..).trans hs)) hr
    cases ht.of_suffix hs '"' rfl

/-- A field at the end of such a text is ended by the `;`, whatever follows. -/
theorem Pair.append {vs : List Criterion} (h : Pair loose naming fields cs rest field vs)
    (ht : rest = [] → Terminated cs) (tail : List Char) :
    Pair loose naming fields (cs ++ tail) (rest ++ tail) field vs := by
  obtain ⟨token, before, values, behind, finish⟩ := h
  refine .mk (token.append tail) (before.append tail) (values.append tail) (behind.append tail) ?_
  cases finish with
  | semicolon => exact .semicolon
  | close => exact .close
  | atEnd =>
    cases (ht rfl).eq_nil (passed_of_values token before values behind) rfl
    obtain ⟨x, xs, hx, -⟩ := token.head
    cases hx

/-! ## Parts of a text

What is left behind a production of the grammar is the end of the text. -/

theorem Run.suffix {p : Char → Bool} (h : Run p cs rest) : rest <:+ cs := by
  obtain ⟨run, -, rfl⟩ := h
  exact List.suffix_append ..

theorem Pair.suffix {vs : List Criterion} (h : Pair loose naming fields cs rest field vs) :
    rest <:+ cs := by
  obtain ⟨token, before, values, behind, finish⟩ := h
  refine List.IsSuffix.trans ?_ (passed_of_values token before values behind).suffix
  cases finish with
  | semicolon => exact List.suffix_cons ..
  | close => exact List.suffix_rfl
  | atEnd => exact List.suffix_rfl

theorem GroupStart.suffix {logical : Logical} (h : GroupStart cs rest logical) : rest <:+ cs :=
  (List.suffix_cons ..).trans h.passed.suffix

theorem GroupEnd.suffix (h : GroupEnd cs rest) : rest <:+ cs := by
  cases h with
  | semicolon spaces => exact (List.suffix_cons ..).trans spaces.suffix
  | bare spaces => exact spaces.suffix

/-- What is left behind a group is the end of the text. -/
theorem suffix_of_group {logical : Logical} {c₁ c₂ c₃ : List Char} (spaces : Spaces cs c₁)
    (start : GroupStart c₁ c₂ logical) (body : ')' :: c₃ <:+ c₂) (finish : GroupEnd c₃ rest) :
    rest <:+ cs :=
  finish.suffix.trans ((List.suffix_cons ..).trans
    (body.trans (start.suffix.trans spaces.suffix)))

/-- What is left behind items is the end of the text. -/
theorem Items.suffix {depth : Nat} {g g' : Group}
    (h : Items loose settings fields depth cs rest g g') : rest <:+ cs := by
  induction h with
  | done spaces => exact spaces.suffix
  | pair spaces pair _ _ _ ih => exact ih.trans (pair.suffix.trans spaces.suffix)
  | group spaces start _ _ _ finish _ ihbody ih =>
    exact ih.trans (suffix_of_group spaces start ihbody finish)

end Grammar

/-! ## What is left to read

The grammar is not deterministic, and `completes_group` and `completes_pair` ask for some way to
read an item.  If one way is known, it can be put in their place. -/

variable {settings : Settings} {fields : FieldSet} {cs rest c₁ c₂ tail : List Char}
  {g g' t : Group} {outer : List Group}

open Grammar

/-- The text does not go on with a `;`, with or without white space in front of it. -/
def Unseparated (cs : List Char) : Prop :=
  ∀ rest, ¬Spaces cs (';' :: rest)

/-- Where no `;` follows, reading goes on behind a group in the same way wherever the grammar lets
the group end. -/
theorem Grammar.GroupEnd.completes (h : GroupEnd cs c₁) (h' : GroupEnd cs c₂)
    (hc : Unseparated c₁) (hcompletes : Completes settings fields c₂ g outer t) :
    Completes settings fields c₁ g outer t := by
  have hstops : ∀ rest, Stops Unicode.isSpace (';' :: rest) := fun _ => (stops_cons ..).2 rfl
  cases h with
  | semicolon spaces =>
    cases h' with
    | semicolon spaces' =>
      have he := spaces.eq_dropWhile (hstops _)
      rw [← spaces'.eq_dropWhile (hstops _)] at he
      rwa [(List.cons.inj he).2]
    | bare spaces' =>
      rw [completes_of_spaces (spaces.to_stops spaces' (hstops _))] at hcompletes
      exact absurd hcompletes not_completes_semicolon
  | bare spaces =>
    cases h' with
    | semicolon spaces' => exact absurd (spaces'.to_stops spaces (hstops _)) (hc _)
    | bare spaces' =>
      rwa [← completes_of_spaces spaces, completes_of_spaces spaces']

/-- A field of the grammar is read, into a group of which only the fields matter. -/
theorem exists_readPair {field : Field} {vs : List Criterion}
    (h : Pair false settings.naming fields cs rest field vs)
    (hnew : g.fields.contains field.name = false) (hlimit : vs.length ≤ settings.maxValues) :
    ∃ u, State.readPair settings fields
        { cursor := ⟨cs.dropWhile Unicode.isSpace, 0, 1⟩, assembly := { root := g } } = .ok () u ∧
      u.cursor.rest = rest ∧
      u.assembly.Shows (g.addField field.name (vs.foldl Bag.add {})) [] none := by
  obtain ⟨u, hu, hrest, -, hs⟩ := State.readPair_of_pair
    (s := { cursor := ⟨cs.dropWhile Unicode.isSpace, 0, 1⟩, assembly := { root := g } })
    h.dropWhile hnew hlimit (Assembly.shows_new g) (stops_dropWhile Unicode.isSpace cs)
  exact ⟨u, hu, hrest, hs⟩

/-- A field in front of the text is read, and nothing else is. -/
theorem completes_of_pair {field : Field} {vs : List Criterion}
    (h : Pair false settings.naming fields cs c₁ field vs)
    (hnew : g.fields.contains field.name = false) (hlimit : vs.length ≤ settings.maxValues) :
    Completes settings fields cs g outer t ↔
      Completes settings fields c₁ (g.addField field.name (vs.foldl Bag.add {})) outer t := by
  have hstops := stops_dropWhile Unicode.isSpace cs
  obtain ⟨x, xs, hx, hm⟩ := h.dropWhile.head hstops
  have hpair := h.dropWhile
  rw [completes_of_spaces (run_dropWhile Unicode.isSpace cs)]
  rw [hx] at hstops hpair ⊢
  have hnone : Opening.at? (x :: xs) = none := at?_eq_none fun _ _ start => by
    obtain ⟨y, ys, hy, hmem⟩ := start.head hstops
    cases hy
    exact absurd (by grind) hm
  rw [completes_pair hstops (by rintro rfl; simp at hm) hnone]
  constructor
  · rintro ⟨field', vs', c₂, hpair', hnew', hlimit', hc⟩
    -- both fields are the one that is read
    obtain ⟨u, hu, rfl, hs⟩ := exists_readPair hpair hnew hlimit
    obtain ⟨u', hu', rfl, hs'⟩ := exists_readPair hpair' hnew' hlimit'
    cases hu.symm.trans hu'
    rwa [(List.cons.inj (hs.groups.symm.trans hs'.groups)).1]
  · exact fun hc => ⟨field, vs, c₁, hpair, hnew, hlimit, hc⟩

/-- The start of a group in front of the text, with white space in front of it or none. -/
theorem completes_of_start {logical : Logical} (h : GroupStart cs c₁ logical) :
    Completes settings fields cs g outer t ↔
      outer.length < settings.maxDepth ∧ g.groups.length < settings.maxGroups ∧
        Completes settings fields c₁ { logical } (g :: outer) t := by
  rw [completes_of_spaces (run_dropWhile Unicode.isSpace cs),
    completes_group h.dropWhile (stops_dropWhile Unicode.isSpace cs)]

/-! ## Items in front

By induction on the items in front.  Inside a group what follows is the `)`, so the condition on the
last `;` is needed only where the items reach up to the end of the text. -/

/-- White space in front of such a text makes no difference. -/
theorem Unseparated.of_spaces (h : Spaces cs c₁) (hc : Unseparated c₁) : Unseparated cs :=
  fun rest hr => hc rest (hr.to_stops h ((stops_cons ..).2 rfl))

/-- A text that starts with another sign does not go on with a `;`. -/
theorem unseparated_cons {x : Char} (hs : Stops Unicode.isSpace (x :: cs)) (hx : x ≠ ';') :
    Unseparated (x :: cs) := fun _ hr => by
  cases hr.eq_of_stops hs
  exact hx rfl

/-- A text that starts with an item does not go on with a `;`. -/
theorem Grammar.Items.unseparated {depth : Nat}
    (h : Items false settings fields depth cs rest g g') (hr : Unseparated (rest ++ tail)) :
    Unseparated (cs ++ tail) := by
  have hhead : ∀ {c₁ : List Char}, (∃ x xs, c₁.dropWhile Unicode.isSpace = x :: xs ∧ x ≠ ';') →
      Unseparated (c₁ ++ tail) := fun {c₁} ⟨x, xs, hx, hne⟩ => by
    have hstops := stops_dropWhile Unicode.isSpace c₁
    have hspaces := (run_dropWhile Unicode.isSpace c₁).append tail
    rw [hx] at hstops hspaces
    exact .of_spaces hspaces (unseparated_cons ((stops_cons ..).2 ((stops_cons ..).1 hstops)) hne)
  have hstops := fun c₁ => stops_dropWhile Unicode.isSpace c₁
  cases h with
  | done spaces => exact .of_spaces (spaces.append tail) hr
  | pair spaces pair =>
    obtain ⟨x, xs, hx, hm⟩ := pair.dropWhile.head (hstops _)
    exact .of_spaces (spaces.append tail) (hhead ⟨x, xs, hx, by rintro rfl; simp at hm⟩)
  | group spaces start =>
    obtain ⟨x, xs, hx, hm⟩ := start.dropWhile.head (hstops _)
    exact .of_spaces (spaces.append tail) (hhead ⟨x, xs, hx, by rintro rfl; simp at hm⟩)

/-- **Behind items reading goes on with what follows**, and adds it to the group that the items
denote.  If they reach up to the end of a text, this has to end in a `;`. -/
theorem Grammar.Items.completes_append {depth : Nat}
    (h : Items false settings fields depth cs rest g g') (ho : outer.length = depth)
    (ht : rest = [] → Terminated cs) (hr : Unseparated (rest ++ tail)) :
    Completes settings fields (cs ++ tail) g outer t ↔
      Completes settings fields (rest ++ tail) g' outer t := by
  induction h generalizing outer t with
  | done spaces => exact completes_of_spaces (spaces.append tail)
  | pair spaces pair new limit items ih =>
    have hpair := pair.append (fun hnil => (ht (List.suffix_nil.1 (hnil ▸ items.suffix))).of_suffix
      spaces.suffix) tail
    rw [completes_of_spaces (spaces.append tail), completes_of_pair hpair new limit]
    exact ih ho (fun hnil => (ht hnil).of_suffix (pair.suffix.trans spaces.suffix)) hr
  | @group _ _ _ _ c₃ _ _ g sub _ _ spaces start deep limit body finish items ihbody ih =>
    have hbody := @ihbody t (g :: outer) (congrArg Nat.succ ho) nofun
      (unseparated_cons ((stops_cons ..).2 rfl) (by decide))
    have hitems := @ih t outer ho (fun hnil => (ht hnil).of_suffix
      (suffix_of_group spaces start body.suffix finish)) hr
    rw [completes_of_spaces (spaces.append tail), completes_of_start (start.append tail), hbody,
      ← hitems, List.cons_append, completes_close]
    constructor
    · rintro ⟨-, -, p, around, c, ⟨⟩, hend, hc⟩
      exact (finish.append tail).completes hend (items.unseparated hr) hc
    · exact fun hc => ⟨ho ▸ deep, limit, g, outer, _, rfl, finish.append tail, hc⟩

/-- **A condition that ends in a `;` goes on**: what follows adds further items to its tree. -/
theorem Grammar.conditionText_append (h : ConditionText false settings fields cs g)
    (ht : Terminated cs) (hne : cs ≠ []) (hr : Unseparated tail) :
    ConditionText false settings fields (cs ++ tail) t ↔
      Completes settings fields tail g [] t := by
  have hitems : ∀ {c₁ : List Char} {root : Group}, c₁ <:+ cs →
      Items false settings fields 0 c₁ [] root g →
      (Completes settings fields (c₁ ++ tail) root [] t ↔ Completes settings fields tail g [] t) :=
    fun hs items => items.completes_append rfl (fun _ => ht.of_suffix hs) hr
  cases h with
  | and items =>
    -- a `*` in front of the longer text starts a group, as it does in the text in front
    refine (State.conditionText_and_iff fun c₁ spaces => ?_).trans (hitems List.suffix_rfl items)
    obtain ⟨x, xs, hx, happend⟩ := ht.exists_dropWhile_append hne (p := Unicode.isSpace) rfl tail
    have hstar := spaces.eq_dropWhile ((stops_cons ..).2 rfl)
    rw [happend] at hstar
    obtain ⟨rfl, rfl⟩ := List.cons.inj hstar
    have hfront := items.dropWhile (stops_nil _)
    rw [hx] at hfront
    refine Classical.byContradiction fun hn => ?_
    have hnone := State.at?_star_eq_none_iff.2 fun c₂ gaps => hn ⟨c₂ ++ tail, gaps.append tail⟩
    exact State.not_items_star hnone (by simp) hfront
  | @or c₁ _ spaces noGroup items =>
    have hsuffix : c₁ <:+ cs := (List.suffix_cons ..).trans spaces.suffix
    -- a group behind the `*` in the longer text starts in the text in front
    refine (State.conditionText_or_iff (spaces.append tail) fun c₂ gaps => ?_).trans
      (hitems hsuffix items)
    have hne₁ : c₁ ≠ [] := by
      rintro rfl
      cases ht.of_suffix spaces.suffix '*' rfl
    obtain ⟨x, xs, hx, happend⟩ :=
      (ht.of_suffix hsuffix).exists_dropWhile_append hne₁ (p := Text.isGap) rfl tail
    have hopen : '(' :: c₂ = x :: (xs ++ tail) :=
      (gaps.eq_dropWhile ((stops_cons ..).2 rfl)).trans happend
    refine noGroup xs ?_
    rw [(List.cons.inj hopen).1, ← hx]
    exact run_dropWhile Text.isGap c₁

end Criteria
