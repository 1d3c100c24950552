/-!
# Classes of characters

A class of characters is a list of ranges of code points, bounds included.
Tables of character properties are such lists.

**Results.**

* `inRanges_iff`: membership is membership in one of the ranges.
-/

namespace ChangeFeed
namespace Text

/-- Whether a character lies in one of the ranges of code points. -/
def inRanges (ranges : List (Nat × Nat)) (c : Char) : Bool :=
  ranges.any fun range => range.1 ≤ c.toNat && c.toNat ≤ range.2

theorem inRanges_iff
    (ranges : List (Nat × Nat))
    (c : Char) :
    inRanges ranges c = true ↔
      ∃ range ∈ ranges, range.1 ≤ c.toNat ∧ c.toNat ≤ range.2 := by
  simp [inRanges]

end Text
end ChangeFeed
