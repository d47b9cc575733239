import Metainfo.Pattern.CharSet

/-!
# Ranges of octets

A set of characters is matched octet by octet.  A range of code points falls apart into
sequences of ranges of octets, such that a character is in the range if each of its
octets is in the range at its place of one sequence.
-/

namespace Metainfo.Pattern

/-- Ranges for the octets of a character. -/
abbrev OctetSequence := List (Nat × Nat)

namespace OctetSequence

/-- The octets of a code point. -/
def octets (code : Nat) : List Nat :=
  if code < 0x80 then [code]
  else if code < 0x800 then [0xC0 + code / 0x40, 0x80 + code % 0x40]
  else if code < 0x10000 then
    [0xE0 + code / 0x1000, 0x80 + code / 0x40 % 0x40, 0x80 + code % 0x40]
  else
    [0xF0 + code / 0x40000, 0x80 + code / 0x1000 % 0x40, 0x80 + code / 0x40 % 0x40,
      0x80 + code % 0x40]

/-- Where a range has to be cut so that both parts have octets of one number and no
surrogates: the last code point of the first part and the first one of the second. -/
def cut? (low high : Nat) : Option (Nat × Nat) :=
  let bounds := [(0x7F, 0x80), (0x7FF, 0x800), (0xD7FF, 0xE000), (0xFFFF, 0x10000)]
  bounds.find? fun bound => low ≤ bound.1 && bound.2 ≤ high

/-- Where a range of code points with octets of one number has to be cut so that all
octets after the first that differs run through all their values. -/
def align? (low high : Nat) : Option (Nat × Nat) :=
  [0x40, 0x1000, 0x40000].findSome? fun block =>
    if low / block = high / block then none
    else if low % block ≠ 0 then
      some ((low / block + 1) * block - 1, (low / block + 1) * block)
    else if high % block ≠ block - 1 then
      some (high / block * block - 1, high / block * block)
    else none

/-- The sequences of a range of code points, which is cut at most `count` times in a
row. -/
def ofRange : (count : Nat) → (low high : Nat) → List OctetSequence
  | 0, _, _ => []
  | count + 1, low, high =>
      if high < low then []
      else
        match (cut? low high).or (if high < 0x80 then none else align? low high) with
        | some (last, first) => ofRange count low last ++ ofRange count first high
        | none => [(octets low).zip (octets high)]

/-- The sequences of ranges of code points. -/
def ofRanges (ranges : List (Nat × Nat)) : List OctetSequence :=
  ranges.flatMap fun range => ofRange 32 range.1 range.2

/-- The first ranges of neighbouring sequences, each once, with what follows them. -/
def byFirst : List OctetSequence → List ((Nat × Nat) × List OctetSequence)
  | [] => []
  | [] :: sequences => byFirst sequences
  | (range :: rest) :: sequences =>
      match byFirst sequences with
      | (next, rests) :: others =>
          if next = range then (range, rest :: rests) :: others
          else (range, [rest]) :: (next, rests) :: others
      | [] => [(range, [rest])]

end OctetSequence

end Metainfo.Pattern
