import Metainfo.Bytes

/-!
# UTF-8

One pass over a byte string finds the encoded scalar values and the stretches that
encode none.  An ill-formed stretch ends as soon as the octets read so far can no longer
begin a scalar value, so each of them is a maximal prefix of a well-formed sequence, or
a single octet that begins none.  Reading strictly means that there is no such stretch;
reading leniently replaces each by U+FFFD.
-/

namespace Metainfo.Utf8

/-- Where the pass stands: between two scalar values, or inside one of which `scalar`
holds the bits read so far, the next octet must lie in `low … high`, and `more` octets
follow that one. -/
inductive State where
  | between
  | within (scalar : Nat) (low high : UInt8) (more : Nat)
  deriving DecidableEq, Repr

/-- Reads an octet that stands at the beginning of a sequence.  The ranges for the
second octet leave out overlong forms, surrogates and numbers above U+10FFFF. -/
def first (byte : UInt8) : List (Option Char) × State :=
  if byte < 0x80 then ([some (Char.ofNat byte.toNat)], .between)
  else if byte < 0xC2 then ([none], .between)
  else if byte < 0xE0 then ([], .within (byte.toNat - 0xC0) 0x80 0xBF 0)
  else if byte < 0xF0 then
    ([], .within (byte.toNat - 0xE0)
      (if byte = 0xE0 then 0xA0 else 0x80) (if byte = 0xED then 0x9F else 0xBF) 1)
  else if byte < 0xF5 then
    ([], .within (byte.toNat - 0xF0)
      (if byte = 0xF0 then 0x90 else 0x80) (if byte = 0xF4 then 0x8F else 0xBF) 2)
  else ([none], .between)

/-- Reads one octet: what it completes, a scalar value or an ill-formed stretch, and
where the pass then stands.  An octet that cannot continue a sequence ends it and is
read afresh. -/
def step : State → UInt8 → List (Option Char) × State
  | .between, byte => first byte
  | .within scalar low high more, byte =>
      if low ≤ byte ∧ byte ≤ high then
        match more with
        | 0 => ([some (Char.ofNat (scalar * 64 + (byte.toNat - 0x80)))], .between)
        | more + 1 => ([], .within (scalar * 64 + (byte.toNat - 0x80)) 0x80 0xBF more)
      else (none :: (first byte).1, (first byte).2)

/-- Runs the pass from a state, `found` holding what was found before it in reverse
order. -/
def scanFrom : State → List (Option Char) → Bytes → List (Option Char)
  | .between, found, [] => found.reverse
  | .within _ _ _ _, found, [] => (none :: found).reverse
  | state, found, byte :: rest =>
      scanFrom (step state byte).2 ((step state byte).1.reverse ++ found) rest

/-- The scalar values of a byte string in order, with `none` for each ill-formed
stretch. -/
def scan (bytes : Bytes) : List (Option Char) :=
  scanFrom .between [] bytes

/-- The text of which the byte string is the UTF-8 form, if there is one. -/
def decode? (bytes : Bytes) : Option String :=
  ((scan bytes).mapM id).map String.ofList

/-- The text of a byte string with U+FFFD for each ill-formed stretch. -/
def decodeLossy (bytes : Bytes) : String :=
  String.ofList ((scan bytes).map (·.getD '\uFFFD'))

end Metainfo.Utf8
