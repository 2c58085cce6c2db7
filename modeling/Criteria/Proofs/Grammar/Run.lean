import Criteria.Proofs.Grammar

/-!
# Runs of characters

A `Run` may end anywhere among characters with the property, while a reader takes all of them.  The
two meet where the text behind the run `Stops`, that is, does not go on with such a character.

## What is here

* `Run.refl`, `Run.trans`, `Run.mono`, `run_dropWhile`.
* `Run.eq_dropWhile`, `Run.eq_of_stops` — a run whose end or start is known to stop.
* `Run.dropWhile_eq` — what is left behind all characters with the property does not depend on the
  run.

Runs are used in both directions.  When a text that was read is to be derived in the grammar, the
runs are those that were skipped, and `run_dropWhile` gives them.  When a text of the grammar is to
be read, its runs come with it, and `Run.eq_dropWhile` says that skipping ends where they do.
-/

set_option autoImplicit false

namespace Criteria
namespace Grammar

variable {p q : Char → Bool} {cs rest : List Char}

/-- The text does not start with a character that has the property. -/
def Stops (p : Char → Bool) (cs : List Char) : Prop :=
  ∀ c ∈ cs.head?, p c = false

@[simp] theorem stops_nil (p : Char → Bool) : Stops p [] := by
  simp [Stops]

@[simp] theorem stops_cons (p : Char → Bool) (c : Char) (cs : List Char) :
    Stops p (c :: cs) ↔ p c = false := by
  simp [Stops]

/-- Behind all characters with the property, the text stops. -/
theorem stops_dropWhile (p : Char → Bool) (cs : List Char) : Stops p (cs.dropWhile p) := by
  induction cs with
  | nil => simp
  | cons c cs ih =>
    by_cases h : p c = true
    · rwa [List.dropWhile_cons_of_pos h]
    · rw [List.dropWhile_cons_of_neg h, stops_cons]
      simpa using h

/-- Where the text stops, nothing is dropped. -/
theorem dropWhile_of_stops (h : Stops p cs) : cs.dropWhile p = cs := by
  cases cs with
  | nil => rfl
  | cons c cs => exact List.dropWhile_cons_of_neg (by simpa using h)

/-- Where the text stops, nothing is taken. -/
theorem takeWhile_of_stops (h : Stops p cs) : cs.takeWhile p = [] := by
  cases cs with
  | nil => rfl
  | cons c cs => exact List.takeWhile_cons_of_neg (by simpa using h)

/-- Characters with the property in front of a text that stops are taken, and no others. -/
theorem takeWhile_append_of_stops {run : List Char} (hrun : ∀ c ∈ run, p c = true)
    (h : Stops p rest) : (run ++ rest).takeWhile p = run := by
  rw [List.takeWhile_append_of_pos hrun, takeWhile_of_stops h, List.append_nil]

theorem drop_length_takeWhile (p : Char → Bool) (cs : List Char) :
    cs.drop (cs.takeWhile p).length = cs.dropWhile p := by
  have h : (cs.takeWhile p ++ cs.dropWhile p).drop (cs.takeWhile p).length = cs.dropWhile p :=
    List.drop_left ..
  rwa [List.takeWhile_append_dropWhile] at h

/-- Where the text stops for a property, it stops for a narrower one. -/
theorem Stops.mono (hqp : ∀ c, q c = true → p c = true) (h : Stops p cs) : Stops q cs := by
  intro c hc
  rw [Bool.eq_false_iff]
  exact fun hq => Bool.eq_false_iff.1 (h c hc) (hqp c hq)

/-! ## Runs

Runs can be empty, joined, and read as runs of a wider class. -/

theorem Run.refl (p : Char → Bool) (cs : List Char) : Run p cs cs :=
  ⟨[], by simp, rfl⟩

theorem Run.cons {c : Char} (hc : p c = true) (h : Run p cs rest) : Run p (c :: cs) rest := by
  obtain ⟨run, hrun, rfl⟩ := h
  exact ⟨c :: run, by simpa [hc] using hrun, rfl⟩

theorem run_cons {c : Char} (hc : p c = true) (cs : List Char) : Run p (c :: cs) cs :=
  (Run.refl p cs).cons hc

theorem Run.trans {mid : List Char} (h : Run p cs mid) (k : Run p mid rest) : Run p cs rest := by
  obtain ⟨run, hrun, rfl⟩ := h
  obtain ⟨run', hrun', rfl⟩ := k
  refine ⟨run ++ run', fun c hc => ?_, (List.append_assoc ..).symm⟩
  exact (List.mem_append.1 hc).elim (hrun c) (hrun' c)

/-- A run of a narrow class is one of a wider class. -/
theorem Run.mono (hpq : ∀ c, p c = true → q c = true) (h : Run p cs rest) : Run q cs rest := by
  obtain ⟨run, hrun, rfl⟩ := h
  exact ⟨run, fun c hc => hpq c (hrun c hc), rfl⟩

/-- All characters with the property are a run. -/
theorem run_dropWhile (p : Char → Bool) (cs : List Char) : Run p cs (cs.dropWhile p) :=
  ⟨cs.takeWhile p, List.all_eq_true.1 List.all_takeWhile, List.takeWhile_append_dropWhile.symm⟩

/-- Behind all characters with the property the same text is left, wherever the run ended. -/
theorem Run.dropWhile_eq (h : Run p cs rest) : cs.dropWhile p = rest.dropWhile p := by
  obtain ⟨run, hrun, rfl⟩ := h
  exact List.dropWhile_append_of_pos hrun

/-- A run that ends where the text stops is the longest one. -/
theorem Run.eq_dropWhile (h : Run p cs rest) (hr : Stops p rest) : rest = cs.dropWhile p := by
  rw [h.dropWhile_eq, dropWhile_of_stops hr]

/-- A run that starts where the text stops is empty. -/
theorem Run.eq_of_stops (h : Run p cs rest) (hc : Stops p cs) : rest = cs := by
  obtain ⟨_ | ⟨c, run⟩, hrun, rfl⟩ := h
  · rfl
  · have hp := hrun c (by simp)
    rw [List.cons_append, stops_cons, hp] at hc
    cases hc

/-- Between two ends of runs from one start there is a run to where the text stops. -/
theorem Run.to_stops {mid : List Char} (h : Run p cs rest) (k : Run p cs mid)
    (hr : Stops p rest) : Run p mid rest := by
  rw [h.eq_dropWhile hr, k.dropWhile_eq]
  exact run_dropWhile p mid

/-- The first character of a run is in it or behind it. -/
theorem Run.head {c x : Char} (h : Run p (c :: cs) (x :: rest)) : p c = true ∨ c = x := by
  obtain ⟨_ | ⟨d, run⟩, hrun, he⟩ := h
  · exact .inr (List.cons.inj he).1
  · rw [(List.cons.inj he).1]
    exact .inl (hrun d (by simp))

/-- A text that starts with a character without the property has an empty run in front of it. -/
theorem Run.head?_eq {c : Char} (h : Run p cs rest) (hc : cs.head? = some c) (hp : p c = false) :
    rest.head? = some c := by
  rwa [h.eq_of_stops fun x hx => by rwa [Option.mem_unique hx hc]]

end Grammar
end Criteria
