import Metainfo.Bencode.Decode

/-!
# Sequences of values

An input may hold several values one after the other.  They are read one by one, each
from where the one before it ended, until the input is used up or one of them cannot be
read.
-/

namespace Metainfo.Bencode

/-- A value in a sequence, the offset at which it begins, and the number of octets it
takes. -/
structure Located where
  start : Nat
  consumed : Nat
  value : Value
  deriving DecidableEq

/-- The values read from an input and, if reading did not come to the end of it, where
it failed.  The offset inside the error counts from there. -/
structure Sequence where
  values : List Located
  failure : Option (Nat × DecodeError)
  deriving DecidableEq

namespace Sequence

/-- Reads on from an offset, `done` holding the values before it in reverse order. -/
def decodeFrom (limit start : Nat) (input : Bytes) (done : List Located) : Sequence :=
  if input = [] then ⟨done.reverse, none⟩
  else
    match readValue limit 0 0 input with
    | .error error => ⟨done.reverse, some (start, error)⟩
    | .ok reading =>
        decodeFrom limit (start + reading.next) reading.rest
          (⟨start, reading.next, reading.result⟩ :: done)
termination_by input.length
decreasing_by exact reading.rest_lt

/-- Reads values until the input is used up or an error occurs. -/
def decode (limit : Nat) (input : Bytes) : Sequence :=
  decodeFrom limit 0 input []

end Sequence

end Metainfo.Bencode
