import Criteria.Text.Cursor

/-!
# Skipping what cannot be read

Behind a fault, reading goes on with the next item.  Skipping looks at parentheses and quotes only:
parentheses have to be balanced, and whatever stands in quotes does not count.

## What is here

* `Recovery.pairLength` — up to the end of a field and its values.
* `Recovery.bodyLength` — up to the end of a group.
* `Cursor.skipPair`, `Cursor.skipBody`.
-/

set_option autoImplicit false

namespace Criteria
namespace Recovery

/-- The number of characters up to and with the first `;` outside parentheses, up to a `)` that
closes a group opened before, or up to the end; `n` characters have been counted already.  `quoted`
holds inside quotes, and `depth` is the number of parentheses open. -/
def pairLength (quoted : Bool) (depth n : Nat) : List Char → Nat
  | [] => n
  | '"' :: cs => pairLength (!quoted) depth (n + 1) cs
  | '(' :: cs => pairLength quoted (if quoted then depth else depth + 1) (n + 1) cs
  | ')' :: cs =>
    if quoted then pairLength quoted depth (n + 1) cs
    else if depth = 0 then n
    else pairLength quoted (depth - 1) (n + 1) cs
  | ';' :: cs =>
    if !quoted && depth == 0 then n + 1 else pairLength quoted depth (n + 1) cs
  | _ :: cs => pairLength quoted depth (n + 1) cs

/-- The number of characters up to and with the `)` that closes a group opened before, or up to the
end; `n` characters have been counted already. -/
def bodyLength (quoted : Bool) (depth n : Nat) : List Char → Nat
  | [] => n
  | '"' :: cs => bodyLength (!quoted) depth (n + 1) cs
  | '(' :: cs => bodyLength quoted (if quoted then depth else depth + 1) (n + 1) cs
  | ')' :: cs =>
    if quoted then bodyLength quoted depth (n + 1) cs
    else if depth = 0 then n + 1
    else bodyLength quoted (depth - 1) (n + 1) cs
  | _ :: cs => bodyLength quoted depth (n + 1) cs

theorem le_pairLength (quoted : Bool) (depth n : Nat) (cs : List Char) :
    n ≤ pairLength quoted depth n cs := by
  fun_induction pairLength quoted depth n cs <;> omega

end Recovery

namespace Cursor

/-- Skips the rest of a field and its values. -/
def skipPair (c : Cursor) : Cursor :=
  c.advance (Recovery.pairLength false 0 0 c.rest)

/-- Skips the rest of a group. -/
def skipBody (c : Cursor) : Cursor :=
  c.advance (Recovery.bodyLength false 0 0 c.rest)

/-- Skipping makes progress unless a `)` follows. -/
theorem length_skipPair_lt {c : Cursor} {x : Char} {cs : List Char} (h : c.rest = x :: cs)
    (hx : x ≠ ')') : c.skipPair.rest.length < c.rest.length := by
  have hn : 1 ≤ Recovery.pairLength false 0 0 c.rest := by
    rw [h]
    rw [Recovery.pairLength.eq_def]
    split <;> try (split <;> try split)
    all_goals first
      | exact Recovery.le_pairLength ..
      | simp_all
  rw [skipPair, rest_advance, List.length_drop]
  have : 0 < c.rest.length := by simp [h]
  omega

end Cursor
end Criteria
