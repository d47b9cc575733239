import Metainfo.Bencode.Error
import Metainfo.Bencode.Mark
import Metainfo.Bencode.Value

/-!
# Decoding

A reader is given the octets not yet read and the offset of the first of them in the
whole input.  It returns what it read with the octets it left, or the error it met; what
is left is shorter than what was given, so that reading ends.  Lists and dictionaries
may lie inside each other up to a limit of depth.  The keys of a dictionary may come in
any order but not twice.
-/

namespace Metainfo.Bencode

/-- The limit of depth where none is given. -/
def defaultDepth : Nat := 512

/-- What a reader found at the front of an input: the result, the offset of the octet
after it, and the octets from there on. -/
structure Reading (Result : Type) (input : Bytes) where
  result : Result
  next : Nat
  rest : Bytes
  rest_lt : rest.length < input.length

namespace Reading

/-- The same reading with a result computed from the result. -/
def map {Result Other : Type} {input : Bytes} (convert : Result → Other)
    (reading : Reading Result input) : Reading Other input :=
  ⟨convert reading.result, reading.next, reading.rest, reading.rest_lt⟩

/-- The same reading seen from an input that is no shorter. -/
def widen {Result : Type} {input longer : Bytes} (le : input.length ≤ longer.length)
    (reading : Reading Result input) : Reading Result longer :=
  ⟨reading.result, reading.next, reading.rest, Nat.lt_of_lt_of_le reading.rest_lt le⟩

end Reading

/-- Why an integer is malformed. -/
inductive IntegerFault where
  | unterminated
  | notCanonical (text : Bytes)

/-- The reason in words; octets that are not UTF-8 are replaced. -/
def IntegerFault.reason : IntegerFault → String
  | .unterminated => "missing 'e' terminator"
  | .notCanonical text => "'" ++ Utf8.decodeLossy text ++ "' is not a canonical integer"

/-- Why the length of a byte string is malformed. -/
inductive LengthFault where
  | unterminated
  | notAColon (byte : UInt8)
  | leadingZero
  | tooLarge (digits : Bytes)

/-- The reason in words. -/
def LengthFault.reason : LengthFault → String
  | .unterminated => "missing ':' after length"
  | .notAColon byte => "expected ':' but found " ++ DecodeError.byteText byte
  | .leadingZero => "leading zeros are not allowed"
  | .tooLarge digits => "invalid length '" ++ Utf8.decodeLossy digits ++ "'"

theorem length_lt_of_dropWhile {input rest : Bytes} {byte : UInt8} {test : UInt8 → Bool}
    (remaining : input.dropWhile test = byte :: rest) : rest.length < input.length := by
  have suffix := (List.dropWhile_suffix test (l := input)).length_le
  rw [remaining, List.length_cons] at suffix
  omega

/-- Reads an integer after its mark, which stands at `start`, up to the mark of its
end. -/
def readInteger (start : Nat) (input : Bytes) :
    Except DecodeError (Reading Integer input) :=
  match remaining : input.dropWhile (· != Mark.finish) with
  | [] => .error (.malformedInteger start IntegerFault.unterminated.reason)
  | _ :: rest =>
      let text := input.takeWhile (· != Mark.finish)
      match Integer.ofText? text with
      | none => .error (.malformedInteger start (IntegerFault.notCanonical text).reason)
      | some integer =>
          .ok ⟨integer, start + text.length + 2, rest, length_lt_of_dropWhile remaining⟩

/-- Reads the length of a byte string, which begins at `start`, and the colon after
it. -/
def readLength (start : Nat) (input : Bytes) : Except DecodeError (Reading Nat input) :=
  let digits := input.takeWhile Decimal.isDigit
  match remaining : input.dropWhile Decimal.isDigit with
  | [] => .error (.malformedStringLength start LengthFault.unterminated.reason)
  | byte :: rest =>
      if byte ≠ Mark.colon then
        .error (.malformedStringLength (start + digits.length)
          (LengthFault.notAColon byte).reason)
      else if digits.length > 1 ∧ digits.head? = some 0x30 then
        .error (.malformedStringLength start LengthFault.leadingZero.reason)
      else
        match Decimal.readWithin Decimal.maxWord digits with
        | none =>
            .error (.malformedStringLength start (LengthFault.tooLarge digits).reason)
        | some length =>
            .ok ⟨length, start + digits.length + 1, rest,
              length_lt_of_dropWhile remaining⟩

/-- Reads a byte string, which begins at `start` with its length. -/
def readString (start : Nat) (input : Bytes) :
    Except DecodeError (Reading Bytes input) :=
  match readLength start input with
  | .error error => .error error
  | .ok length =>
      let bytes := length.rest.take length.result
      if bytes.length = length.result then
        .ok ⟨bytes, length.next + length.result, length.rest.drop length.result, by
          have := length.rest_lt
          simp
          omega⟩
      else .error (.truncatedString start length.result bytes.length)

mutual

/-- Reads one value, which begins at `start` inside `depth` lists and dictionaries. -/
def readValue (limit depth start : Nat) (input : Bytes) :
    Except DecodeError (Reading Value input) :=
  match input with
  | [] => .error (.unexpectedEnd start)
  | byte :: rest =>
      if byte = Mark.integer then
        (readInteger start rest).map fun reading =>
          (reading.map .integer).widen (by simp)
      else if byte = Mark.list then
        if depth ≥ limit then .error (.depthLimitExceeded start limit)
        else readItems limit depth start (start + 1) rest [] (byte :: rest) (by simp)
      else if byte = Mark.dictionary then
        if depth ≥ limit then .error (.depthLimitExceeded start limit)
        else readEntries limit depth start (start + 1) rest [] (byte :: rest) (by simp)
      else if Decimal.isDigit byte then
        (readString start (byte :: rest)).map (·.map .byteString)
      else .error (.unknownTypePrefix start byte)
termination_by (input.length, 0)

/-- Reads the items of the list that begins at `start` from `position` on, `done`
holding those already read in reverse order. -/
def readItems (limit depth start position : Nat) (input : Bytes) (done : List Value)
    (whole : Bytes) (lt : input.length < whole.length) :
    Except DecodeError (Reading Value whole) :=
  match input with
  | [] => .error (.unterminatedList start)
  | byte :: rest =>
      if byte = Mark.finish then
        .ok ⟨.list done.reverse, position + 1, rest, by simp at lt; omega⟩
      else
        match readValue limit (depth + 1) position (byte :: rest) with
        | .error error => .error error
        | .ok item =>
            readItems limit depth start item.next item.rest (item.result :: done) whole
              (Nat.lt_trans item.rest_lt lt)
termination_by (input.length, 1)
decreasing_by
  · exact Prod.Lex.right _ (by decide)
  · exact Prod.Lex.left _ _ item.rest_lt

/-- Reads the entries of the dictionary that begins at `start` from `position` on,
`done` holding those already read in the order of their keys. -/
def readEntries (limit depth start position : Nat) (input : Bytes)
    (done : List (Bytes × Value)) (whole : Bytes) (lt : input.length < whole.length) :
    Except DecodeError (Reading Value whole) :=
  match input with
  | [] => .error (.unterminatedDictionary start)
  | byte :: rest =>
      if byte = Mark.finish then
        .ok ⟨.dictionary done, position + 1, rest, by simp at lt; omega⟩
      else if Decimal.isDigit byte = false then .error (.nonStringKey position)
      else
        match readString position (byte :: rest) with
        | .error error => .error error
        | .ok key =>
            if key.rest = [] then .error (.unterminatedDictionary start)
            else
              match readValue limit (depth + 1) key.next key.rest with
              | .error error => .error error
              | .ok value =>
                  if (Entries.get? key.result done).isSome then
                    .error (.duplicateKey position (Utf8.decodeLossy key.result))
                  else
                    readEntries limit depth start value.next value.rest
                      (Entries.insert key.result value.result done) whole
                      (Nat.lt_trans value.rest_lt (Nat.lt_trans key.rest_lt lt))
termination_by (input.length, 1)
decreasing_by
  · exact Prod.Lex.left _ _ key.rest_lt
  · exact Prod.Lex.left _ _ (Nat.lt_trans value.rest_lt key.rest_lt)

end

/-- The value at the front of an input and the number of octets it takes; what follows
is not looked at. -/
def decodePrefix (limit : Nat) (input : Bytes) : Except DecodeError (Nat × Value) :=
  (readValue limit 0 0 input).map fun reading => (reading.next, reading.result)

/-- The value that an input holds, if it holds one value and nothing else. -/
def decode (limit : Nat) (input : Bytes) : Except DecodeError Value :=
  match readValue limit 0 0 input with
  | .error error => .error error
  | .ok reading =>
      if reading.rest = [] then .ok reading.result
      else .error (.trailingData reading.next reading.rest.length)

end Metainfo.Bencode
