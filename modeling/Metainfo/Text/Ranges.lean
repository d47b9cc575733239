/-!
# Ranges of code points

Properties of characters that a standard defines by enumeration are given as ascending
lists of ranges, each by its first and last code point.
-/

namespace Metainfo.Text

/-- Whether a character lies in one of the ranges. -/
def inRanges (ranges : List (Nat × Nat)) (char : Char) : Bool :=
  ranges.any fun range => range.1 ≤ char.toNat && char.toNat ≤ range.2

end Metainfo.Text
