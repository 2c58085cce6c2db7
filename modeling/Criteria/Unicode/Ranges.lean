/-!
# Sets of characters given by ranges of code points

## What is here

* `inRanges` — membership of a character in a union of ranges, and `inRanges_iff`, which says that
  it is membership in one of them.
-/

set_option autoImplicit false

namespace Criteria
namespace Unicode

/-- Whether the code point of `c` lies in one of the ranges; both ends of a range belong to it. -/
def inRanges (ranges : List (Nat × Nat)) (c : Char) : Bool :=
  ranges.any fun range => range.1 ≤ c.toNat && c.toNat ≤ range.2

theorem inRanges_iff {ranges : List (Nat × Nat)} {c : Char} :
    inRanges ranges c = true ↔ ∃ range ∈ ranges, range.1 ≤ c.toNat ∧ c.toNat ≤ range.2 := by
  simp [inRanges, List.any_eq_true]

end Unicode
end Criteria
