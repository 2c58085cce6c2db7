import Criteria.Proofs.Reading.Literal
import Criteria.Text.Recovery

/-!
# How far skipping goes

Skipping looks at quotes, at parentheses and, in a field, at `;`.  The other characters and the
texts in quotes are passed, in a field as in a group.

There are two ways of skipping, to the end of a field and to the end of a group, and they count in
the same way until they stop.  What they have in common is the structure `Counts`: an ordinary
character counts as one, a quote turns quoting on or off, and between quotes everything counts as
one.  Whatever is proved from this is proved of both.

## What is here

* `Recovery.isOrdinary` — the characters that skipping does not look at.
* `Recovery.Counts`, `Recovery.Passed` — what both ways of counting do with such characters, and the
  texts made of them and of texts in quotes: `Counts.passed`.
* `Cursor.Passes` — from one place on, skipping comes to the other one: `Cursor.Passes.advance_eq`.
* `Cursor.column_skipPair` — the column behind a field that is skipped.

That a text in quotes is passed, with any doubled quotes in it, needs no special case.  The first of
two quotes turns quoting off and the second turns it on again, and nothing in between could be
noticed.
-/

set_option autoImplicit false

namespace Criteria

open Grammar

/-! ## Counting

How many characters are skipped does not depend on how many were skipped before, so the counts of
two parts add up. -/

namespace Recovery

/-- Whether skipping passes `c` without a look at it. -/
def isOrdinary (c : Char) : Bool :=
  c != '"' && c != '(' && c != ')' && c != ';'

/-- Four characters are not ordinary. -/
theorem isOrdinary_iff {c : Char} :
    isOrdinary c = true ↔ c ≠ '"' ∧ c ≠ '(' ∧ c ≠ ')' ∧ c ≠ ';' := by
  simp [isOrdinary, and_assoc]

/-- A class of characters is one of ordinary characters if it does without the four others. -/
theorem isOrdinary_of {p : Char → Bool} (hp : ∀ x ∈ ['"', '(', ')', ';'], p x = false) {c : Char}
    (hc : p c = true) : isOrdinary c = true := by
  rw [isOrdinary_iff]
  refine ⟨?_, ?_, ?_, ?_⟩ <;> rintro rfl <;> rw [hp _ (by simp)] at hc <;> cases hc

/-- What counting the characters of a field or a group does with those that it passes, inside quotes
and outside. -/
structure Counts (f : Bool → Nat → Nat → List Char → Nat) : Prop where
  ordinary : ∀ {c : Char}, isOrdinary c = true → ∀ (quoted : Bool) (depth n : Nat)
    (cs : List Char), f quoted depth n (c :: cs) = f quoted depth (n + 1) cs
  quote : ∀ (quoted : Bool) (depth n : Nat) (cs : List Char),
    f quoted depth n ('"' :: cs) = f (!quoted) depth (n + 1) cs
  inside : ∀ {c : Char}, c ≠ '"' → ∀ (depth n : Nat) (cs : List Char),
    f true depth n (c :: cs) = f true depth (n + 1) cs
  add : ∀ (quoted : Bool) (depth n m : Nat) (cs : List Char),
    f quoted depth (n + m) cs = f quoted depth n cs + m

/-- Skipping a field counts in this way. -/
theorem counts_pairLength : Counts pairLength where
  ordinary hc quoted depth n cs := by
    obtain ⟨hquote, hopen, hclose, hsemicolon⟩ := isOrdinary_iff.1 hc
    rw [pairLength.eq_def]
    split <;> simp_all
  quote _ _ _ _ := rfl
  inside hc depth n cs := by
    rw [pairLength.eq_def]
    split <;> simp_all
  add quoted depth n m cs := by
    fun_induction pairLength quoted depth n cs <;> simp_all [pairLength, Nat.add_right_comm]

/-- Skipping a group counts in this way. -/
theorem counts_bodyLength : Counts bodyLength where
  ordinary hc quoted depth n cs := by
    obtain ⟨hquote, hopen, hclose, -⟩ := isOrdinary_iff.1 hc
    rw [bodyLength.eq_def]
    split <;> simp_all
  quote _ _ _ _ := rfl
  inside hc depth n cs := by
    rw [bodyLength.eq_def]
    split <;> simp_all
  add quoted depth n m cs := by
    fun_induction bodyLength quoted depth n cs <;> simp_all [bodyLength, Nat.add_right_comm]

/-- No more characters are skipped than there are. -/
theorem pairLength_le (quoted : Bool) {depth n : Nat} {cs : List Char} :
    pairLength quoted depth n cs ≤ n + cs.length := by
  fun_induction pairLength quoted depth n cs <;> simp only [List.length_cons, List.length_nil] <;>
    omega

/-! ## What is passed

A text that is passed may be empty, and two of them may be joined. -/

/-- The text up to `rest` is made of ordinary characters and of texts in quotes. -/
inductive Passed : List Char → List Char → Prop
  | refl (cs : List Char) : Passed cs cs
  | ordinary {c : Char} {cs rest : List Char} (hc : isOrdinary c = true) (h : Passed cs rest) :
      Passed (c :: cs) rest
  | quoted (s : List Char) {cs rest : List Char} (h : Passed cs rest) :
      Passed ('"' :: (Text.Quoted.double s ++ '"' :: cs)) rest

variable {cs mid rest : List Char}

theorem Passed.trans (h : Passed cs mid) (k : Passed mid rest) : Passed cs rest := by
  induction h with
  | refl => exact k
  | ordinary hc _ ih => exact .ordinary hc (ih k)
  | quoted s _ ih => exact .quoted s (ih k)

/-- Ordinary characters are passed. -/
theorem Passed.append {front : List Char} (h : ∀ c ∈ front, isOrdinary c = true)
    (rest : List Char) : Passed (front ++ rest) rest := by
  induction front with
  | nil => exact .refl rest
  | cons c front ih => exact .ordinary (h c (by simp)) (ih fun x hx => h x (by simp [hx]))

theorem Passed.of_run {p : Char → Bool} (hp : ∀ c, p c = true → isOrdinary c = true)
    (h : Run p cs rest) : Passed cs rest := by
  obtain ⟨run, hrun, rfl⟩ := h
  exact .append (fun c hc => hp c (hrun c hc)) rest

namespace Counts

variable {f : Bool → Nat → Nat → List Char → Nat} {depth n : Nat}

/-- Between quotes, doubled quotes are passed like other characters. -/
theorem double (hf : Counts f) (s : List Char) :
    f true depth n (Text.Quoted.double s ++ rest) =
      f true depth (n + (Text.Quoted.double s).length) rest := by
  induction s generalizing n with
  | nil => rfl
  | cons c s ih =>
    by_cases hc : c = '"'
    · subst hc
      simp [hf.quote, ih, Nat.add_assoc, Nat.add_comm 2]
    · rw [Text.Quoted.double_cons hc, List.cons_append, hf.inside hc, ih, List.length_cons,
        Nat.add_assoc, Nat.add_comm 1]

/-- A text in quotes is passed, with its quotes. -/
theorem quoted (hf : Counts f) (s : List Char) :
    f false depth n ('"' :: (Text.Quoted.double s ++ '"' :: rest)) =
      f false depth (n + (Text.Quoted.double s).length + 2) rest := by
  rw [hf.quote, Bool.not_false, hf.double, hf.quote, Bool.not_true]
  congr 1
  omega

/-- What is passed is counted, and changes nothing else. -/
theorem passed (hf : Counts f) (depth n : Nat) (h : Passed cs rest) :
    ∃ front, cs = front ++ rest ∧ f false depth n cs = f false depth (n + front.length) rest := by
  induction h generalizing n with
  | refl => exact ⟨[], rfl, rfl⟩
  | @ordinary c _ _ hc _ ih =>
    obtain ⟨front, rfl, he⟩ := ih (n + 1)
    exact ⟨c :: front, rfl, by rw [hf.ordinary hc, he, List.length_cons, Nat.add_right_comm]; rfl⟩
  | quoted s _ ih =>
    obtain ⟨front, rfl, he⟩ := ih (n + (Text.Quoted.double s).length + 2)
    refine ⟨'"' :: (Text.Quoted.double s ++ '"' :: front), by simp, ?_⟩
    rw [hf.quoted, he]
    congr 1
    simp only [List.length_cons, List.length_append]
    omega

end Counts
end Recovery

/-! ## Where skipping leads

The end of what is skipped is a place, and it is the same from all places that are passed on the
way. -/

namespace Cursor

/-- Reading on from the place `c` leads to the place `d`, and skipping passes all that is read. -/
structure Passes (c d : Cursor) : Prop where
  reaches : c.Reaches d
  passed : Recovery.Passed c.rest d.rest

variable {c d e : Cursor}

theorem Passes.refl (c : Cursor) : c.Passes c :=
  ⟨.refl c, .refl c.rest⟩

theorem Passes.trans (h : c.Passes d) (k : d.Passes e) : c.Passes e :=
  ⟨h.reaches.trans k.reaches, h.passed.trans k.passed⟩

/-- Ordinary characters are passed in moving over them. -/
theorem passes_advance {n : Nat} (ho : ∀ x ∈ c.rest.take n, Recovery.isOrdinary x = true) :
    c.Passes (c.advance n) := by
  refine ⟨.advance n c, ?_⟩
  have happend := Recovery.Passed.append ho (c.rest.drop n)
  rwa [List.take_append_drop, ← rest_advance] at happend

/-- A later place is where moving over the text in between leads. -/
theorem Reaches.eq_advance (h : c.Reaches d) {front : List Char} (hr : c.rest = front ++ d.rest) :
    d = c.advance front.length := by
  obtain ⟨cs, hcs, ho, hc⟩ := reaches_iff.1 h
  obtain rfl := List.append_cancel_right (hr.symm.trans hcs)
  rw [Cursor.advance_eq, hr, List.drop_left, List.take_left, ← ho, ← hc]

/-- Skipping ends at the same place, whether it starts before or behind what it passes. -/
theorem Passes.advance_eq {f : Bool → Nat → Nat → List Char → Nat} (hf : Recovery.Counts f)
    (h : c.Passes d) (depth : Nat) :
    c.advance (f false depth 0 c.rest) = d.advance (f false depth 0 d.rest) := by
  obtain ⟨front, hr, he⟩ := hf.passed depth 0 h.passed
  rw [he, hf.add, Nat.add_comm, ← advance_add, ← h.reaches.eq_advance hr]

/-- Skipping a field ends at the same place from both. -/
theorem Passes.skipPair_eq (h : c.Passes d) : c.skipPair = d.skipPair :=
  h.advance_eq Recovery.counts_pairLength 0

/-- A field that is skipped takes as many columns as characters. -/
theorem column_skipPair (c : Cursor) :
    c.skipPair.column = c.column + Recovery.pairLength false 0 0 c.rest := by
  have h : Recovery.pairLength false 0 0 c.rest ≤ 0 + c.rest.length := Recovery.pairLength_le false
  rw [skipPair, advance_eq, List.length_take]
  dsimp only
  omega

/-- The ordinary characters at the start of a text are skipped. -/
theorem le_column_skipPair {c : Cursor} {n : Nat} (hn : n ≤ c.rest.length)
    (ho : ∀ x ∈ c.rest.take n, Recovery.isOrdinary x = true) :
    c.column + n ≤ c.skipPair.column := by
  rw [(passes_advance ho).skipPair_eq, column_skipPair, advance_eq, List.length_take_of_le hn]
  exact Nat.le_add_right ..

end Cursor
end Criteria
