import Metainfo.Bencode.Decode

/-!
# Decoding in place

A decoder keeps the whole input and reads from a position in it, where the readers of
`Decode` are given the octets that are left.  Positions, lengths and depths are words of
64 bits.  Whatever can go wrong with them is asked for: an octet or a stretch of octets
outside the input, a sum that does not fit a word, a difference below zero, and values
that lie deeper inside each other than there is room for.  Nothing is said beforehand
about reading coming to an end: every call among the readers of values, and every turn
of their loops, takes one of a number of turns, and without a turn left a reader is
stopped.
-/

namespace Metainfo.Bencode

/-- An input to be decoded in place, the limit of depth, and the depth for which there
is room. -/
structure Decoder where
  input : Bytes
  limit : Nat
  room : Nat

namespace Decoder

/-- What stops a reader in the middle of its work. -/
inductive Fault where
  | outside
  | overflow
  | underflow
  | noRoom
  | noTurn
  deriving DecidableEq, Repr

/-- What a reader does: it comes to an end with a result or with a decode error, or is
stopped by a fault. -/
abbrev Run (Result : Type) : Type :=
  ExceptT DecodeError (Except Fault) Result

namespace Run

variable {Result Other : Type}

/-- The reader is stopped. -/
def stop (fault : Fault) : Run Result :=
  Except.error fault

theorem pure_inj {result other : Result}
    (same : (pure result : Run Result) = pure other) : result = other := by
  injection same with same
  injection same

theorem throw_ne_pure {error : DecodeError} {result : Result} :
    (throw error : Run Result) ≠ pure result := nofun

theorem stop_ne_pure {fault : Fault} {result : Result} :
    (stop fault : Run Result) ≠ pure result :=
  nofun

/-- A run in two parts has a result only if both parts have one. -/
theorem bind_eq_pure {run : Run Result} {next : Result → Run Other} {result : Other}
    (ended : run >>= next = pure result) :
    ∃ between, run = pure between ∧ next between = pure result :=
  match run, ended with
  | .ok (.ok between), ended => ⟨between, rfl, ended⟩

end Run

open Run

/-- The octet at a position. -/
def octet (bytes : Bytes) (position : Nat) : Run UInt8 :=
  match bytes[position]? with
  | none => stop .outside
  | some byte => pure byte

/-- The octets from the first position up to the last one. -/
def slice (bytes : Bytes) (first last : Nat) : Run Bytes :=
  if first ≤ last ∧ last ≤ bytes.length then
    pure ((bytes.drop first).take (last - first))
  else stop .outside

/-- The sum of two words. -/
def add (left right : Nat) : Run Nat :=
  if left + right ≤ Decimal.maxWord then pure (left + right) else stop .overflow

/-- The difference of two words. -/
def subtract (left right : Nat) : Run Nat :=
  if right ≤ left then pure (left - right) else stop .underflow

/-! ## Readers -/

/-- Reads the integer whose mark stands at a position. -/
def integer (decoder : Decoder) (position : Nat) : Run (Nat × Value) := do
  let body ← add position 1
  let behind ← slice decoder.input body decoder.input.length
  match behind.findIdx? (· == Mark.finish) with
  | none => throw (.malformedInteger position IntegerFault.unterminated.reason)
  | some count =>
      let finish ← add body count
      let text ← slice decoder.input body finish
      match Integer.ofText? text with
      | none =>
          throw (.malformedInteger position (IntegerFault.notCanonical text).reason)
      | some number =>
          let next ← add finish 1
          return (next, .integer number)

/-- Counts the digits from a position on. -/
def countDigits (decoder : Decoder) (position : Nat) : Run Nat := do
  let behind ← slice decoder.input position decoder.input.length
  let all ← subtract decoder.input.length position
  return (behind.findIdx? fun byte => !Decimal.isDigit byte).getD all

/-- The octet in front of others. -/
def leading (digits : Bytes) : Run (Option UInt8) :=
  if digits.length > 1 then some <$> octet digits 0 else pure none

/-- Reads the length of the byte string that begins at a position, and the colon after
it. -/
def length (decoder : Decoder) (position : Nat) : Run (Nat × Nat) := do
  let count ← decoder.countDigits position
  let colon ← add position count
  match decoder.input[colon]? with
  | none => throw (.malformedStringLength position LengthFault.unterminated.reason)
  | some byte =>
      if byte ≠ Mark.colon then
        throw (.malformedStringLength colon (LengthFault.notAColon byte).reason)
      else
        let digits ← slice decoder.input position colon
        let first ← leading digits
        if first = some 0x30 then
          throw (.malformedStringLength position LengthFault.leadingZero.reason)
        else
          match Decimal.readWithin Decimal.maxWord digits with
          | none =>
              throw (.malformedStringLength position
                (LengthFault.tooLarge digits).reason)
          | some length =>
              let next ← add colon 1
              return (next, length)

/-- Reads the byte string that begins at a position. -/
def string (decoder : Decoder) (position : Nat) : Run (Nat × Bytes) := do
  let (first, length) ← decoder.length position
  let available ← subtract decoder.input.length first
  if length > available then throw (.truncatedString position length available)
  else
    let last ← add first length
    let bytes ← slice decoder.input first last
    return (last, bytes)

mutual

/-- Reads the value that begins at a position inside `depth` lists and dictionaries. -/
def value (decoder : Decoder) (turns position depth : Nat) : Run (Nat × Value) := do
  match turns with
  | 0 => stop .noTurn
  | turns + 1 =>
      if depth > decoder.room then stop .noRoom
      else
        match decoder.input[position]? with
        | none => throw (.unexpectedEnd position)
        | some byte =>
            if byte = Mark.integer then decoder.integer position
            else if byte = Mark.list then decoder.list turns position depth
            else if byte = Mark.dictionary then decoder.dictionary turns position depth
            else if Decimal.isDigit byte then
              let (next, bytes) ← decoder.string position
              return (next, .byteString bytes)
            else throw (.unknownTypePrefix position byte)

/-- Reads the list whose mark stands at a position. -/
def list (decoder : Decoder) (turns position depth : Nat) : Run (Nat × Value) := do
  match turns with
  | 0 => stop .noTurn
  | turns + 1 =>
      if depth ≥ decoder.limit then throw (.depthLimitExceeded position decoder.limit)
      else
        let first ← add position 1
        decoder.items turns position depth first []

/-- Reads on among the items of the list that begins at `start`. -/
def items (decoder : Decoder) (turns start depth position : Nat) (done : List Value) :
    Run (Nat × Value) := do
  match turns with
  | 0 => stop .noTurn
  | turns + 1 =>
      if position < decoder.input.length then
        let byte ← octet decoder.input position
        if byte ≠ Mark.finish then
          let inside ← add depth 1
          let (next, item) ← decoder.value turns position inside
          decoder.items turns start depth next (item :: done)
        else
          let next ← add position 1
          return (next, .list done.reverse)
      else throw (.unterminatedList start)

/-- Reads the dictionary whose mark stands at a position. -/
def dictionary (decoder : Decoder) (turns position depth : Nat) :
    Run (Nat × Value) := do
  match turns with
  | 0 => stop .noTurn
  | turns + 1 =>
      if depth ≥ decoder.limit then throw (.depthLimitExceeded position decoder.limit)
      else
        let first ← add position 1
        decoder.entries turns position depth first []

/-- Reads on among the entries of the dictionary that begins at `start`. -/
def entries (decoder : Decoder) (turns start depth position : Nat)
    (done : List (Bytes × Value)) : Run (Nat × Value) := do
  match turns with
  | 0 => stop .noTurn
  | turns + 1 =>
      if position < decoder.input.length then
        let byte ← octet decoder.input position
        if byte ≠ Mark.finish then
          if Decimal.isDigit byte = false then throw (.nonStringKey position)
          else
            let (behind, key) ← decoder.string position
            if behind ≥ decoder.input.length then throw (.unterminatedDictionary start)
            else
              let inside ← add depth 1
              let (next, value) ← decoder.value turns behind inside
              if (Entries.get? key done).isSome then
                throw (.duplicateKey position (Utf8.decodeLossy key))
              else
                decoder.entries turns start depth next (Entries.insert key value done)
        else
          let next ← add position 1
          return (next, .dictionary done)
      else throw (.unterminatedDictionary start)

end

/-- Decodes an input that holds one value and nothing else. -/
def whole (decoder : Decoder) (turns : Nat) : Run Value := do
  let (consumed, value) ← decoder.value turns 0 0
  if consumed ≠ decoder.input.length then
    let remaining ← subtract decoder.input.length consumed
    throw (.trailingData consumed remaining)
  else return value

end Decoder

end Metainfo.Bencode
