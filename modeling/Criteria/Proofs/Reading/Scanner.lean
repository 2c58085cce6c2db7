import Criteria.Proofs.Grammar.Run
import Criteria.Proofs.Text.Character
import Criteria.Text.Scanner

/-!
# Composed readers, moves and tokens

Readers are composed of smaller ones.  This module is the kit with which the proofs follow that
composition: what is known of a composed reader is taken apart into what is known of its parts, in
the order in which they run, and put together in the same way.  It knows nothing of conditions, and
the second half knows only what all their readers share: white space that is skipped, and tokens
that may stand behind it.

Of a reader that is known to succeed, the first pair of lemmas is enough.  Where a fault matters as
much as a result, `Ends` says both at once, and `Ends.bind` follows it through a composition without
telling the two apart until the end.

## What is here

* `ok_of_bind`, `bind_of_ok`, `ok_of_map`, `map_of_ok` — a composed reader that succeeds, taken
  apart and put together.
* `exists_ok_of_run'`, `exists_error_of_run'` — whether a reader ends with a result can be tested.
* `Ends` — how a reader ends, with a result or with a fault; `Ends.bind` for a composed reader.
* `Cursor.skipWhile_of_stops`, `Cursor.blanks_skipBlanks`, `Cursor.spaces_skipSpace` — moves over
  white space as runs of the grammar.
* `Scanner.blanks_of_expect`, `Scanner.expect_of_blanks`, `Scanner.bang_of_accept` — tokens.
-/

set_option autoImplicit false

namespace Criteria

open Grammar

/-! ## Composed readers

A composed reader runs its second part only behind a result of the first one.  So it has a result
just if both have, and its fault is that of the part which failed. -/

section Bind

variable {ε σ α β : Type} {x : EStateM ε σ α} {f : α → EStateM ε σ β} {s t : σ}

/-- A composed reader with a result has had one of each part, the second where the first ended. -/
theorem ok_of_bind {b : β} (h : (x >>= f) s = .ok b t) :
    ∃ a u, x s = .ok a u ∧ f a u = .ok b t := by
  change EStateM.bind x f s = .ok b t at h
  rw [EStateM.bind] at h
  split at h
  · next a u hx => exact ⟨a, u, hx, h⟩
  · cases h

/-- A result that was only changed is that of the reader, at the same place. -/
theorem ok_of_map {g : α → β} {b : β} (h : x.map g s = .ok b t) : ∃ a, x s = .ok a t ∧ g a = b := by
  rw [EStateM.map] at h
  split at h
  · next a u hx =>
    cases h
    exact ⟨a, hx, rfl⟩
  · cases h

theorem map_of_ok {g : α → β} {a : α} (h : x s = .ok a t) : x.map g s = .ok (g a) t := by
  rw [EStateM.map, h]

/-- Behind a result the second part goes on. -/
theorem bind_of_ok {a : α} {u : σ} (h : x s = .ok a u) : (x >>= f) s = f a u := by
  show EStateM.bind x f s = f a u
  rw [EStateM.bind, h]

/-- Behind a fault nothing else is read. -/
theorem bind_of_error {e : ε} (h : x s = .error e t) : (x >>= f) s = .error e t := by
  show EStateM.bind x f s = .error e t
  rw [EStateM.bind, h]

/-- Readers that do the same from two places go on to do the same. -/
theorem bind_congr_left {y : EStateM ε σ α} (h : x s = y t) : (x >>= f) s = (y >>= f) t := by
  show EStateM.bind x f s = EStateM.bind y f t
  rw [EStateM.bind, EStateM.bind, h]

/-- From `s` the reader ends with a result as in `ok`, or with a fault as in `error`. -/
def Ends (x : EStateM ε σ α) (s : σ) (ok : α → σ → Prop) (error : ε → σ → Prop) : Prop :=
  match x s with
  | .ok a t => ok a t
  | .error e t => error e t

/-- What is said of results holds of the one that there is. -/
theorem Ends.of_ok {a : α} {ok : α → σ → Prop} {error : ε → σ → Prop} (h : Ends x s ok error)
    (hx : x s = .ok a t) : ok a t := by
  rwa [Ends, hx] at h

/-- What is said of faults holds of the one that there is. -/
theorem Ends.of_error {e : ε} {ok : α → σ → Prop} {error : ε → σ → Prop} (h : Ends x s ok error)
    (hx : x s = .error e t) : error e t := by
  rwa [Ends, hx] at h

/-- Less may be said of the results and of the faults. -/
theorem Ends.mono {ok ok' : α → σ → Prop} {error error' : ε → σ → Prop} (h : Ends x s ok error)
    (hok : ∀ a t, ok a t → ok' a t) (herror : ∀ e t, error e t → error' e t) :
    Ends x s ok' error' := by
  rw [Ends] at h ⊢
  split at h
  · exact hok _ _ h
  · exact herror _ _ h

/-- A first part whose result is known can be left out. -/
theorem Ends.bind_of_ok {a : α} {ok : β → σ → Prop} {error : ε → σ → Prop} (h : x s = .ok a t)
    (hf : Ends (f a) t ok error) : Ends (x >>= f) s ok error := by
  rwa [Ends, Criteria.bind_of_ok h]

/-- What is said of the results of the first part is all that the second part starts with; a fault
of either is one of the composed reader. -/
theorem Ends.bind {ok : α → σ → Prop} {ok' : β → σ → Prop} {error : ε → σ → Prop}
    (hx : Ends x s ok error) (hf : ∀ a t, ok a t → Ends (f a) t ok' error) :
    Ends (x >>= f) s ok' error := by
  show Ends (EStateM.bind x f) s ok' error
  rw [Ends] at hx
  rw [Ends, EStateM.bind]
  cases hxs : x s with
  | ok a t =>
    rw [hxs] at hx
    exact hf a t hx
  | error e t =>
    rw [hxs] at hx
    exact hx

/-! ### Whether a reader fails, tested without its state -/

theorem exists_ok_of_run' (h : (x.run' s).isSome = true) : ∃ a t, x s = .ok a t := by
  cases hx : x s with
  | ok a t => exact ⟨a, t, rfl⟩
  | error e t =>
    have hnone : x.run' s = none := congrArg (fun r => EStateM.run' (fun _ => r) s) hx
    rw [hnone] at h
    cases h

theorem exists_error_of_run' (h : (x.run' s).isSome = false) : ∃ e t, x s = .error e t := by
  cases hx : x s with
  | ok a t =>
    have hsome : x.run' s = some a := congrArg (fun r => EStateM.run' (fun _ => r) s) hx
    rw [hsome] at h
    cases h
  | error e t => exact ⟨e, t, rfl⟩

end Bind

/-! ## Moves

Skipping takes as much as it can, while a run of the grammar may end anywhere.  The two agree where
what stands behind the run cannot be skipped. -/

namespace Cursor

/-- Nothing is skipped where the next character cannot be. -/
theorem skipWhile_of_stops {p : Char → Bool} {c : Cursor} (h : Stops p c.rest) :
    c.skipWhile p = c := by
  rw [skipWhile, takeWhile_of_stops h]
  rfl

theorem rest_skipBlanks (c : Cursor) : c.skipBlanks.rest = c.rest.dropWhile Text.isBlank :=
  rest_skipWhile ..

theorem rest_skipSpace (c : Cursor) : c.skipSpace.rest = c.rest.dropWhile Unicode.isSpace :=
  rest_skipWhile ..

/-- The text behind the next character. -/
theorem rest_next {c : Cursor} {x : Char} {cs : List Char} (h : c.rest = x :: cs) :
    c.next.rest = cs := by
  obtain ⟨rest, offset, column⟩ := c
  cases h
  rfl

/-- Blanks are skipped at once. -/
@[simp] theorem skipBlanks_skipBlanks (c : Cursor) : c.skipBlanks.skipBlanks = c.skipBlanks :=
  skipWhile_of_stops (by rw [rest_skipBlanks]; exact stops_dropWhile _ _)

/-- What is skipped is a run of blanks. -/
theorem blanks_skipBlanks (c : Cursor) : Blanks c.rest c.skipBlanks.rest := by
  rw [rest_skipBlanks]
  exact run_dropWhile ..

/-- Skipping goes to the end of a run behind which no other character can be skipped. -/
theorem rest_skipBlanks_of_blanks {c : Cursor} {cs : List Char} (h : Blanks c.rest cs)
    (hs : Stops Text.isBlank cs) : c.skipBlanks.rest = cs := by
  rw [rest_skipBlanks, ← h.eq_dropWhile hs]

theorem rest_skipSpace_of_spaces {c : Cursor} {cs : List Char} (h : Spaces c.rest cs)
    (hs : Stops Unicode.isSpace cs) : c.skipSpace.rest = cs := by
  rw [rest_skipSpace, ← h.eq_dropWhile hs]

/-- Behind white space that was skipped there is no more of it. -/
theorem stops_skipSpace (c : Cursor) : Stops Unicode.isSpace c.skipSpace.rest := by
  rw [rest_skipSpace]
  exact stops_dropWhile _ _

/-- What is skipped is a run of white space. -/
theorem spaces_skipSpace (c : Cursor) : Spaces c.rest c.skipSpace.rest := by
  rw [rest_skipSpace]
  exact run_dropWhile ..

end Cursor

/-! ## Tokens

A token may stand behind blanks, which are skipped in any case, so that a reader which looks for a
token in vain has moved nevertheless.  For `!` this makes a difference: it is looked for only where
there is no white space, and then nothing is skipped. -/

namespace Scanner

variable {c d : Cursor}

theorem skipBlanks_eq (c : Cursor) : skipBlanks c = .ok () c.skipBlanks := rfl

/-- A token of one character that follows is taken. -/
theorem accept_of_blanks {token : String} {x : Char} {rest : List Char} (ht : token.toList = [x])
    (hx : Text.isBlank x = false) (h : Blanks c.rest (x :: rest)) :
    ∃ d, accept token c = .ok true d ∧ d.rest = rest := by
  have hd : c.skipBlanks.rest = x :: rest :=
    Cursor.rest_skipBlanks_of_blanks h ((stops_cons ..).2 hx)
  refine ⟨c.skipBlanks.advance token.length, ?_, ?_⟩
  · rw [accept, if_pos (by rw [ht, hd]; simp)]
  · rw [Cursor.rest_advance, hd, ← String.length_toList, ht]
    rfl

/-- A `!` that follows is taken. -/
theorem accept_bang {rest : List Char} (h : c.rest = '!' :: rest) :
    ∃ d, accept "!" c = .ok true d ∧ d.rest = rest :=
  accept_of_blanks rfl rfl (h ▸ Run.refl ..)

/-- No `!` is taken where there is none, and the place stays the same. -/
theorem accept_of_stops (hs : Stops Unicode.isSpace c.rest) (hb : c.rest.head? ≠ some '!') :
    accept "!" c = .ok false c := by
  have hc : c.skipBlanks = c :=
    Cursor.skipWhile_of_stops (hs.mono fun _ => Text.isSpace_of_isBlank)
  have hp : ¬"!".toList.isPrefixOf c.rest = true := by
    rw [show "!".toList = ['!'] from rfl]
    cases hr : c.rest with
    | nil => simp
    | cons x cs =>
      have hx : x ≠ '!' := by simpa [hr] using hb
      simpa using hx.symm
  rw [accept, hc, if_neg hp]

/-- Blanks in front of a token make no difference to whether it follows. -/
theorem accept_skipBlanks (token : String) (c : Cursor) :
    accept token c.skipBlanks = accept token c := by
  rw [accept, accept, Cursor.skipBlanks_skipBlanks]

theorem expect_skipBlanks (token : String) (c : Cursor) :
    expect token c.skipBlanks = expect token c :=
  bind_congr_left (accept_skipBlanks token c)

/-- The text in front of which a `!` stands, or does not. -/
def bang (excluded : Bool) (cs : List Char) : List Char :=
  if excluded then '!' :: cs else cs

/-- Looking for a `!` finds out whether there is one, and leaves what is behind. -/
theorem accept_of_bang {excluded : Bool} {cs : List Char} (h : c.rest = bang excluded cs)
    (hs : Stops Unicode.isSpace cs) (hb : cs.head? ≠ some '!') :
    ∃ d, accept "!" c = .ok excluded d ∧ d.rest = cs := by
  cases excluded with
  | true => exact accept_bang h
  | false =>
    rw [bang, if_neg (by decide)] at h
    exact ⟨c, accept_of_stops (h ▸ hs) (h ▸ hb), h⟩

/-- Whether a `!` was taken tells what the text looked like. -/
theorem bang_of_accept {excluded : Bool} (hs : Stops Unicode.isSpace c.rest)
    (h : accept "!" c = .ok excluded d) :
    (excluded = true ∧ c.rest = '!' :: d.rest) ∨
      (excluded = false ∧ d = c ∧ c.rest.head? ≠ some '!') := by
  by_cases hb : c.rest.head? = some '!'
  · obtain ⟨cs, hc⟩ := List.head?_eq_some_iff.1 hb
    obtain ⟨e, he, hr⟩ := accept_bang hc
    cases he.symm.trans h
    exact .inl ⟨rfl, by rw [hc, hr]⟩
  · cases (accept_of_stops hs hb).symm.trans h
    exact .inr ⟨rfl, rfl, hb⟩

/-- A token that was taken stood behind blanks. -/
theorem blanks_of_expect {token : String} {x : Char} (ht : token.toList = [x])
    (h : expect token c = .ok () d) : Blanks c.rest (x :: d.rest) := by
  obtain ⟨found, e, ha, he⟩ := ok_of_bind h
  rw [accept] at ha
  split at ha
  · next hp =>
    cases ha
    cases he
    rw [ht] at hp
    obtain ⟨r, hr⟩ := List.isPrefixOf_iff_prefix.1 hp
    have hb := c.blanks_skipBlanks
    rw [Cursor.rest_advance, ← String.length_toList, ht]
    rwa [← hr] at hb ⊢
  · cases ha
    cases he

/-- A token behind blanks is taken. -/
theorem expect_of_blanks (token : String) {x : Char} {rest : List Char} (ht : token.toList = [x])
    (hx : Text.isBlank x = false) (h : Blanks c.rest (x :: rest)) :
    ∃ d, expect token c = .ok () d ∧ d.rest = rest := by
  obtain ⟨d, ha, hd⟩ := accept_of_blanks ht hx h
  exact ⟨d, bind_of_ok ha, hd⟩

end Scanner

end Criteria
