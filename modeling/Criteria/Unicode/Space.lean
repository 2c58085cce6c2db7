import Criteria.Unicode.Ranges

/-!
# White space

## What is here

* `isSpace` — the 25 characters with the Unicode property White_Space, line breaks and the
  no-break space included.
* `trim` — a text without the white space at its two ends.
-/

set_option autoImplicit false

namespace Criteria
namespace Unicode

/-- The code points with the property White_Space, in ascending ranges. -/
def spaceRanges : List (Nat × Nat) :=
  [(0x9, 0xD), (0x20, 0x20), (0x85, 0x85), (0xA0, 0xA0), (0x1680, 0x1680), (0x2000, 0x200A),
    (0x2028, 0x2029), (0x202F, 0x202F), (0x205F, 0x205F), (0x3000, 0x3000)]

/-- Whether `c` is white space. -/
def isSpace (c : Char) : Bool :=
  inRanges spaceRanges c

theorem isSpace_of_isWhitespace {c : Char} (h : c.isWhitespace = true) : isSpace c = true := by
  simp only [Char.isWhitespace, Bool.or_eq_true, decide_eq_true_eq] at h
  rcases h with ((h | h) | h) | h <;> subst h <;> decide

/-- The characters `cs` without the white space before the first and after the last other one. -/
def trim (cs : List Char) : List Char :=
  ((cs.dropWhile isSpace).reverse.dropWhile isSpace).reverse

end Unicode
end Criteria
