import Criteria.Event
import Criteria.Text.Scanner

/-!
# The state of reading a condition

## What is here

* `Session` — the place in the text, the tree put together so far, the faults found and the steps
  taken.
* `Parser` — a reader that puts the tree together as well; `Parser.scan` and `Parser.edit` are its
  two halves.
* `Parser.Forward` — the reader never moves back in the text.
-/

set_option autoImplicit false

namespace Criteria

/-- The state of reading a condition. -/
structure Session where
  cursor : Cursor
  assembly : Assembly := {}
  faults : Array Diagnostic := #[]
  events : Array Event := #[]

namespace Session

/-- Records a fault. -/
def report (d : Diagnostic) : Session → Session
  | ⟨cursor, assembly, faults, events⟩ => ⟨cursor, assembly, faults.push d, events⟩

/-- Records a step. -/
def log (e : Event) : Session → Session
  | ⟨cursor, assembly, faults, events⟩ => ⟨cursor, assembly, faults, events.push e⟩

/-- Moves in the text. -/
def move (f : Cursor → Cursor) : Session → Session
  | ⟨cursor, assembly, faults, events⟩ => ⟨f cursor, assembly, faults, events⟩

end Session

/-- A reader that puts a tree together. -/
abbrev Parser := EStateM Diagnostic Session

namespace Parser

variable {α β : Type}

/-- Reads from the text. -/
def scan (x : Scanner α) : Parser α
  | ⟨cursor, assembly, faults, events⟩ =>
    match x cursor with
    | .ok a c => .ok a ⟨c, assembly, faults, events⟩
    | .error d c => .error d ⟨c, assembly, faults, events⟩

/-- Works on the tree; a refusal is a fault in the given column. -/
def edit (column : Nat) (x : Assembly.Edit) : Parser Unit
  | ⟨cursor, assembly, faults, events⟩ =>
    match x assembly with
    | .ok _ a => .ok () ⟨cursor, a, faults, events⟩
    | .error m a => .error ((Fault.misuse m).inColumn column) ⟨cursor, a, faults, events⟩

/-- Records faults that do not end the reading. -/
def report (ds : List Diagnostic) : Parser Unit :=
  modify fun s => ds.foldl (fun s d => s.report d) s

/-- Records a step. -/
def log (e : Event) : Parser Unit :=
  modify (·.log e)

/-- Moves in the text. -/
def move (f : Cursor → Cursor) : Parser Unit :=
  modify (·.move f)

/-- The current place. -/
def here : Parser Cursor := do
  return (← get).cursor

/-! ## Readers do not move back -/

/-- The state in which a reader ends, with or without a result. -/
def final : EStateM.Result Diagnostic Session α → Session
  | .ok _ s => s
  | .error _ s => s

/-- The reader ends at the place of its start or further on. -/
def Forward (x : Parser α) : Prop :=
  ∀ s : Session, s.cursor.Reaches (final (x s)).cursor

namespace Forward

theorem pure (a : α) : Forward (pure a : Parser α) :=
  fun s => .refl s.cursor

theorem bind {x : Parser α} {f : α → Parser β} (hx : Forward x) (hf : ∀ a, Forward (f a)) :
    Forward (x >>= f) := by
  intro s
  have h : s.cursor.Reaches (final (x s)).cursor := hx s
  show s.cursor.Reaches (final (EStateM.bind x f s)).cursor
  rw [EStateM.bind]
  cases hxs : x s with
  | ok a t => rw [hxs] at h; exact h.trans (hf a t)
  | error e t => rw [hxs] at h; exact h

theorem scan {x : Scanner α} (hx : x.Forward) : Forward (scan x) := by
  intro ⟨cursor, assembly, faults, events⟩
  have h : cursor.Reaches (Scanner.final (x cursor)) := hx cursor
  rw [Parser.scan]
  dsimp only
  split <;> next hxs => rw [hxs] at h; exact h

theorem edit (column : Nat) (x : Assembly.Edit) : Forward (edit column x) := by
  intro ⟨cursor, assembly, faults, events⟩
  rw [Parser.edit]
  dsimp only
  split <;> exact .refl cursor

theorem report (ds : List Diagnostic) : Forward (report ds) := by
  intro s
  show s.cursor.Reaches (ds.foldl (fun s d => s.report d) s).cursor
  have h : (ds.foldl (fun s d => s.report d) s).cursor = s.cursor := by
    induction ds generalizing s with
    | nil => rfl
    | cons d ds ih => exact ih (s.report d)
  rw [h]
  exact .refl s.cursor

theorem log (e : Event) : Forward (log e) :=
  fun s => .refl s.cursor

theorem move {f : Cursor → Cursor} (hf : ∀ c : Cursor, c.Reaches (f c)) : Forward (move f) :=
  fun s => hf s.cursor

theorem here : Forward here :=
  fun s => .refl s.cursor

theorem throw (d : Diagnostic) : Forward (throw d : Parser α) :=
  fun s => .refl s.cursor

end Forward

theorem forward_of_ok {x : Parser α} (hx : Forward x) {s t : Session} {a : α}
    (h : x s = .ok a t) : s.cursor.Reaches t.cursor := by
  have := hx s
  rwa [h] at this

theorem forward_of_error {x : Parser α} (hx : Forward x) {s t : Session} {d : Diagnostic}
    (h : x s = .error d t) : s.cursor.Reaches t.cursor := by
  have := hx s
  rwa [h] at this

/-- A composed reader that succeeds has both parts succeed. -/
theorem ok_of_bind {x : Parser α} {f : α → Parser β} {s t : Session} {b : β}
    (h : (x >>= f) s = .ok b t) : ∃ a u, x s = .ok a u ∧ f a u = .ok b t := by
  change EStateM.bind x f s = .ok b t at h
  rw [EStateM.bind] at h
  split at h
  · next a u hx => exact ⟨a, u, hx, h⟩
  · cases h

theorem cursor_of_scan {x : Scanner α} {s t : Session} {a : α} (h : scan x s = .ok a t) :
    x s.cursor = .ok a t.cursor := by
  rw [scan.eq_def] at h
  split at h
  split at h
  · next hx => cases h; exact hx
  · cases h

end Parser
end Criteria
