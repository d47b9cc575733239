import Metainfo.Text.Ranges

/-!
# Sets of characters

A set is an ascending list of ranges of code points that neither meet nor overlap.  It
remembers whether it is known to hold with every letter the same letter in the other
case.
-/

namespace Metainfo.Pattern

/-- A set of code points. -/
structure CharSet where
  ranges : List (Nat × Nat)
  /-- The set is known not to change when letters are added in the other case. -/
  caseClosed : Bool
  deriving DecidableEq, Repr

namespace CharSet

/-- The greatest code point of Unicode. -/
def greatest : Nat := 0x10FFFF

/-- The code point after another one that is no surrogate. -/
def after (code : Nat) : Nat :=
  if code = 0xD7FF then 0xE000 else code + 1

/-- The code point before another one that is no surrogate. -/
def before (code : Nat) : Nat :=
  if code = 0xE000 then 0xD7FF else code - 1

/-- Joins ranges that meet or overlap, the ranges being in ascending order. -/
def join : List (Nat × Nat) → List (Nat × Nat)
  | [] => []
  | range :: rest => joinFrom range rest
where
  /-- Joins a range with those that follow. -/
  joinFrom (range : Nat × Nat) : List (Nat × Nat) → List (Nat × Nat)
    | [] => [range]
    | next :: rest =>
        if next.1 ≤ range.2 + 1 then joinFrom (range.1, max range.2 next.2) rest
        else range :: joinFrom next rest

/-- Ranges in any order, made ascending and disjoint. -/
def normalize (ranges : List (Nat × Nat)) : List (Nat × Nat) :=
  join (ranges.mergeSort fun left right =>
    left.1 < right.1 || (left.1 = right.1 && left.2 ≤ right.2))

/-- The empty set. -/
def empty : CharSet := ⟨[], true⟩

/-- The set of the code points in some ranges. -/
def ofRanges (ranges : List (Nat × Nat)) : CharSet :=
  ⟨normalize ranges, ranges.isEmpty⟩

/-- Whether no character is in the set. -/
def isEmpty (set : CharSet) : Bool :=
  set.ranges.isEmpty

/-- Whether all characters of the set are in ASCII. -/
def isAscii (set : CharSet) : Bool :=
  set.ranges.all fun range => range.2 < 0x80

/-- Adds a range. -/
def insert (low high : Nat) (set : CharSet) : CharSet :=
  ⟨normalize ((low, high) :: set.ranges), false⟩

/-- The characters of both sets together. -/
def union (left right : CharSet) : CharSet :=
  if right.isEmpty ∨ left.ranges = right.ranges then left
  else ⟨normalize (left.ranges ++ right.ranges), left.caseClosed && right.caseClosed⟩

/-- The characters that are in both sets. -/
def intersection (left right : CharSet) : CharSet :=
  if left.isEmpty then left
  else if right.isEmpty then empty
  else
    let common := left.ranges.flatMap fun one => right.ranges.filterMap fun other =>
      let low := max one.1 other.1
      let high := min one.2 other.2
      if low ≤ high then some (low, high) else none
    ⟨common, left.caseClosed && right.caseClosed⟩

/-- What is left of a range outside another one. -/
def rangeWithout (removed range : Nat × Nat) : List (Nat × Nat) :=
  if removed.2 < range.1 ∨ range.2 < removed.1 then [range]
  else
    (if range.1 < removed.1 then [(range.1, before removed.1)] else []) ++
      if removed.2 < range.2 then [(after removed.2, range.2)] else []

/-- The characters of the first set that are not in the second. -/
def difference (left right : CharSet) : CharSet :=
  if left.isEmpty ∨ right.isEmpty then left
  else
    let kept :=
      right.ranges.foldl (fun kept removed => kept.flatMap (rangeWithout removed))
        left.ranges
    ⟨kept, left.caseClosed && right.caseClosed⟩

/-- The characters that are in one of the sets but not in both. -/
def symmetricDifference (left right : CharSet) : CharSet :=
  (left.union right).difference (left.intersection right)

/-- The ranges up to the greatest code point that begin at `code` and lie between those
of a list.  Two ranges of the list that meet across the surrogates leave their ends. -/
def gapsFrom (greatest code : Nat) : List (Nat × Nat) → List (Nat × Nat)
  | [] => if code ≤ greatest then [(code, greatest)] else []
  | range :: rest =>
      (min code (before range.1), max code (before range.1)) ::
        gapsFrom greatest (after range.2) rest

/-- The characters that are not in the set, up to the greatest code point. -/
def complement (greatest : Nat) (set : CharSet) : CharSet :=
  match set.ranges with
  | [] => ⟨[(0, greatest)], true⟩
  | first :: rest =>
      let front := if 0 < first.1 then [(0, before first.1)] else []
      ⟨front ++ gapsFrom greatest (after first.2) rest, set.caseClosed⟩

/-- The letters of ASCII in a range, in the other case. -/
def otherCase (range : Nat × Nat) : List (Nat × Nat) :=
  let moved (low high offset target : Nat) : List (Nat × Nat) :=
    let first := max range.1 low
    let last := min range.2 high
    if first ≤ last then [(first - offset + target, last - offset + target)] else []
  moved 0x41 0x5A 0x41 0x61 ++ moved 0x61 0x7A 0x61 0x41

/-- The set with the letters of ASCII in the other case. -/
def closeAsciiCase (set : CharSet) : CharSet :=
  ⟨normalize (set.ranges ++ set.ranges.flatMap otherCase), true⟩

end CharSet

end Metainfo.Pattern
