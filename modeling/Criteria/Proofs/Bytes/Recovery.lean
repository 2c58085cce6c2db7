import Criteria.Proofs.Bytes.Reader
import Criteria.Proofs.Reading.Recovery

/-!
# Skipping with places counted in bytes

Skipping looks at one character after the other and keeps count of the parentheses that are open.  A
text in quotes is passed in one go.

Of the two ways to describe skipping, this one is a loop over the text with a place and a number of
open parentheses, and the other one is a count of characters, given by recursion on the text.  They
differ most at a quote.  The loop looks for the end of the text in quotes and moves there at once;
the count goes through it character by character and is inside quotes meanwhile.  That the count
comes out of the quotes where the loop does is due to doubled quotes being two.

## What is here

* `Bytes.Verdict`, `Bytes.judgePair`, `Bytes.judgeBody` — what skipping does at a character.
* `Bytes.skipRound`, `Bytes.skip` — one round of skipping, and all of them.
* `Bytes.Matches` — a count of characters goes by these verdicts.
* `Bytes.does_skip` — skipping passes as many characters as are counted.

The loop ends because each of its rounds takes something off the text.  In the loop itself this is
tested, and a loop that does not get on stops with `Stop.stuck`; that this never happens is part of
`Bytes.does_skip`.
-/

set_option autoImplicit false

namespace Criteria
namespace Bytes

open Cursor (utf8Length)

/-! ## Rounds

A round looks at one character and gives a verdict: to stop in front of it, to stop behind it, or to
go on with so many parentheses open. -/

/-- What skipping does at a character: it ends in front of it or behind it, or goes on behind it
with a number of open parentheses. -/
inductive Verdict where
  | before
  | behind
  | on (depth : Nat)

/-- Skipping the rest of a field and its values. -/
def judgePair (depth : Nat) : Char → Verdict
  | '(' => .on (depth + 1)
  | ')' => if depth = 0 then .before else .on (depth - 1)
  | ';' => if depth = 0 then .behind else .on depth
  | _ => .on depth

/-- Skipping the rest of a group. -/
def judgeBody (depth : Nat) : Char → Verdict
  | '(' => .on (depth + 1)
  | ')' => if depth = 0 then .behind else .on (depth - 1)
  | _ => .on depth

/-- Moves on by a character, if one follows. -/
def advanceChar : Reader Unit := do
  match (← rest).head? with
  | some x => advance x.utf8Size
  | none => return ()

/-- Passes a text in quotes, up to the end of the text if the quotes are never closed. -/
def skipQuoted : Reader Unit := do
  let parts ← part (cut? 1 (← rest))
  match ← part (scanQuoted parts.2) with
  | some behind => advanceTo behind
  | none => moveTo (← size)

/-- Looks at one character.  Unless skipping ends, the result is the number of parentheses that are
open behind it. -/
def skipRound (judge : Nat → Char → Verdict) (depth : Nat) : Reader (Option Nat) := do
  match (← rest).head? with
  | none => return none
  | some '"' =>
    skipQuoted
    return some depth
  | some x =>
    match judge depth x with
    | .before => return none
    | .behind =>
      advanceChar
      return none
    | .on depth =>
      advanceChar
      return some depth

/-- The bytes that are left to read. -/
def Place.left (b : Place) : Nat :=
  utf8Length b.text.toList - b.offset

/-- Skips round by round.  A round has to get on. -/
def skip (judge : Nat → Char → Verdict) (depth : Nat) : Reader Unit :=
  fun b =>
    match skipRound judge depth b with
    | .error e b' => .error e b'
    | .ok none b' => .ok () b'
    | .ok (some depth') b' => if b'.left < b.left then skip judge depth' b' else .error .stuck b'
termination_by b => b.left

variable {judge : Nat → Char → Verdict} {f : Bool → Nat → Nat → List Char → Nat} {c d : Cursor}
  {depth depth' : Nat} {s : String} {b : Place}

/-- What is left to skip is the size of the text at the cursor. -/
theorem At.left_eq (h : At s b c) : b.left = utf8Length c.rest := by
  rw [Place.left, h.utf8Length_eq, h.offset, Nat.add_sub_cancel_left]

/-- A round that stops is the last one. -/
theorem does_skip_of_none (h : Does (skipRound judge depth) c (.ok none d)) :
    Does (skip judge depth) c (.ok () d) := by
  intro s b hb
  obtain ⟨b', hround, h'⟩ := h.exists_ok hb
  rw [skip, hround]
  exact .ok h'

/-- Fewer characters have fewer bytes, if they are the end of the others. -/
theorem utf8Length_rest_lt (h : c.Reaches d) (hlt : d.rest.length < c.rest.length) :
    utf8Length d.rest < utf8Length c.rest := by
  obtain ⟨front, hrest, -, -⟩ := Cursor.reaches_iff.1 h
  have hne : utf8Length front ≠ 0 := fun hz => by
    rw [hrest, utf8Length_eq_zero_iff.1 hz] at hlt
    exact Nat.lt_irrefl _ hlt
  rw [hrest, utf8Length_append]
  omega

/-- Behind a round that gets on, skipping goes on. -/
theorem does_skip_of_some {r : EStateM.Result Diagnostic Cursor Unit}
    (h : Does (skipRound judge depth) c (.ok (some depth') d)) (hd : c.Reaches d)
    (hlt : d.rest.length < c.rest.length) (hnext : Does (skip judge depth') d r) :
    Does (skip judge depth) c r := by
  have hleft := utf8Length_rest_lt hd hlt
  intro s b hb
  obtain ⟨b', hround, h'⟩ := h.exists_ok hb
  rw [skip, hround]
  dsimp only
  rw [if_pos (by rwa [h'.left_eq, hb.left_eq])]
  exact hnext s b' h'

/-- Moving over one character, by its size. -/
theorem does_advanceChar {x : Char} {cs : List Char} (h : c.rest = x :: cs) :
    Does advanceChar c (.ok () c.next) := by
  have hmove := does_advance 1 c
  rw [h] at hmove
  refine (does_rest c).bind ?_
  rw [h]
  exact hmove

/-! ## Texts in quotes

A text in quotes is passed together with its closing quote.  Without one, everything is passed. -/

/-- Without a closing quote, skipping goes to the end. -/
theorem does_skipQuoted_none {cs : List Char} (hc : c.rest = '"' :: cs)
    (h : Text.Quoted.skip cs = none) :
    Does skipQuoted c (.ok () (c.advance c.rest.length)) := by
  have hmove := does_moveTo (.advance c.rest.length c)
  rw [Cursor.advance_eq, List.take_length] at hmove
  refine (does_rest c).bind ?_
  rw [hc]
  refine (does_part (cut?_append ['"'] cs) c).bind ((does_part (scanQuoted_eq cs) c).bind ?_)
  rw [h]
  rw [← hc, Cursor.advance_eq, List.take_length]
  exact (does_size c).bind hmove

/-- With a closing quote, skipping goes behind it. -/
theorem does_skipQuoted_some {cs behind : List Char} (hc : c.rest = '"' :: cs)
    (h : Text.Quoted.skip cs = some behind) (hd : c.Reaches d) (hr : d.rest = behind) :
    Does skipQuoted c (.ok () d) := by
  refine (does_rest c).bind ?_
  rw [hc]
  refine (does_part (cut?_append ['"'] cs) c).bind ((does_part (scanQuoted_eq cs) c).bind ?_)
  rw [h, ← hr]
  exact does_advanceTo hd

/-! ## Counting

Both ways of counting go by the verdicts of the loops; this is all that the comparison needs to know
about them. -/

/-- The count goes by the verdicts: it ends, or goes on behind the character, which it counts. -/
structure Matches (judge : Nat → Char → Verdict) (f : Bool → Nat → Nat → List Char → Nat) :
    Prop where
  counts : Recovery.Counts f
  nil : ∀ quoted depth, f quoted depth 0 [] = 0
  cons : ∀ {x : Char}, x ≠ '"' → ∀ depth cs, f false depth 0 (x :: cs) =
    match judge depth x with
    | .before => 0
    | .behind => 1
    | .on depth' => f false depth' 0 cs + 1

/-- The characters of a field are counted by the verdicts on fields. -/
theorem matches_pairLength : Matches judgePair Recovery.pairLength where
  counts := Recovery.counts_pairLength
  nil _ _ := rfl
  cons hx depth cs := by
    have hadd := fun depth' => Recovery.counts_pairLength.add false depth' 0 1 cs
    rw [Recovery.pairLength.eq_def, judgePair.eq_def]
    split <;> simp_all
    all_goals split <;> rfl

/-- The characters of a group are counted by the verdicts on groups. -/
theorem matches_bodyLength : Matches judgeBody Recovery.bodyLength where
  counts := Recovery.counts_bodyLength
  nil _ _ := rfl
  cons hx depth cs := by
    have hadd := fun depth' => Recovery.counts_bodyLength.add false depth' 0 1 cs
    rw [Recovery.bodyLength.eq_def, judgeBody.eq_def]
    split <;> simp_all
    split <;> rfl

/-- Inside quotes that are never closed everything is counted. -/
theorem Matches.unclosed (hf : Matches judge f) (depth n : Nat) {cs : List Char}
    (h : Text.Quoted.skip cs = none) : f true depth n cs = n + cs.length := by
  fun_induction Text.Quoted.skip cs generalizing n with
  | case1 => rw [← Nat.zero_add n, hf.counts.add, hf.nil, List.length_nil, Nat.add_zero]
  | case2 cs ih =>
    rw [hf.counts.quote, hf.counts.quote]
    exact (ih _ h).trans (by rw [List.length_cons, List.length_cons]; omega)
  | case3 => cases h
  | case4 x cs _ hx ih =>
    rw [hf.counts.inside hx, ih _ h, List.length_cons]
    omega

/-- At the end of the text there is no other round. -/
theorem does_skipRound_nil (hc : c.rest = []) : Does (skipRound judge depth) c (.ok none c) := by
  refine (does_rest c).bind ?_
  rw [hc]
  exact does_pure none c

/-- A round at any character but a quote does what the verdict says. -/
theorem does_skipRound_cons {x : Char} {cs : List Char} (hc : c.rest = x :: cs) (hx : x ≠ '"') :
    Does (skipRound judge depth) c (match judge depth x with
      | .before => .ok none c
      | .behind => .ok none c.next
      | .on depth' => .ok (some depth') c.next) := by
  refine (does_rest c).bind ?_
  rw [hc, List.head?_cons]
  split
  · next h => cases h
  · next h => exact absurd (Option.some.inj h) hx
  · next y _ h =>
    cases h
    split
    · exact does_pure none c
    · exact (does_advanceChar hc).bind (does_pure none _)
    · exact (does_advanceChar hc).bind (does_pure _ _)

/-- A text in quotes is passed in one round, with all that is counted of it. -/
theorem does_skipRound_quote (hf : Matches judge f) (depth : Nat) {cs : List Char}
    (hc : c.rest = '"' :: cs) :
    ∃ d, Does (skipRound judge depth) c (.ok (some depth) d) ∧ c.Reaches d ∧
      d.rest.length < c.rest.length ∧
      c.advance (f false depth 0 c.rest) = d.advance (f false depth 0 d.rest) := by
  have hround : ∀ d, Does skipQuoted c (.ok () d) →
      Does (skipRound judge depth) c (.ok (some depth) d) := fun d hd => by
    refine (does_rest c).bind ?_
    rw [hc]
    exact hd.bind (does_pure (some depth) d)
  -- without a closing quote the text in quotes goes on to the end
  cases hskip : Text.Quoted.skip cs with
  | none =>
    refine ⟨_, hround _ (does_skipQuoted_none hc hskip), .advance _ c, ?_, ?_⟩
    · rw [Cursor.rest_advance, List.drop_length, hc]
      exact Nat.succ_pos _
    · rw [Cursor.rest_advance, List.drop_length, hf.nil, hc, hf.counts.quote, Bool.not_false,
        hf.unclosed depth _ hskip, Nat.add_comm, List.length_cons]
      rfl
  | some behind =>
    obtain ⟨s, hcs⟩ := Text.Quoted.exists_of_skip hskip
    have hrest := Literal.rest_advance_quoted hc hcs
    have hpasses : c.Passes (c.advance ((Text.Quoted.double s).length + 2)) :=
      ⟨.advance _ c, by rw [hrest, hc, hcs]; exact .quoted s (.refl _)⟩
    refine ⟨_, hround _ (does_skipQuoted_some hc hskip hpasses.reaches hrest), hpasses.reaches, ?_,
      hpasses.advance_eq hf.counts depth⟩
    rw [hrest, hc, hcs, List.length_cons, List.length_append, List.length_cons]
    omega

/-- **Skipping passes as many characters as are counted.** -/
theorem does_skip (hf : Matches judge f) (depth : Nat) (c : Cursor) :
    Does (skip judge depth) c (.ok () (c.advance (f false depth 0 c.rest))) := by
  induction hn : c.rest.length using Nat.strongRecOn generalizing c depth with
  | ind n ih =>
    subst hn
    cases hc : c.rest with
    | nil =>
      rw [hf.nil]
      exact does_skip_of_none (does_skipRound_nil hc)
    | cons x cs =>
      by_cases hx : x = '"'
      · subst hx
        obtain ⟨d, hround, hd, hlt, heq⟩ := does_skipRound_quote hf depth hc
        rw [← hc, heq]
        exact does_skip_of_some hround hd hlt (ih _ hlt depth d rfl)
      · have hround : Does (skipRound judge depth) c _ := does_skipRound_cons hc hx
        rw [hf.cons hx]
        cases hjudge : judge depth x <;> rw [hjudge] at hround
        · exact does_skip_of_none hround
        · exact does_skip_of_none hround
        · next depth' =>
          have hlt : c.next.rest.length < c.rest.length := Cursor.length_next_lt (by simp [hc])
          have hnext := ih _ hlt depth' c.next rfl
          rw [Cursor.rest_next hc] at hnext
          exact does_skip_of_some hround (.next c) hlt hnext

end Bytes
end Criteria
