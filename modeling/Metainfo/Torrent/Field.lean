import Metainfo.InfoHash

/-!
# Fields of a torrent

A field is a dictionary entry that is expected to hold a value of a certain kind.
Either the dictionary has no such entry, or the entry is there and something is wrong
with it; the two are told apart.
-/

namespace Metainfo.Torrent

open Bencode

/-- What is wrong with a field that is present. -/
inductive Fault where
  | notAByteString
  | notText
  | notAnInteger
  | outOfRange (number : Integer)
  | notPositive
  | notWholePieces (length : Nat)
  | notAList
  | entryNotADictionary
  | componentNotText
  | totalOverflows
  deriving DecidableEq

/-- The number of octets of the hash of a piece. -/
def pieceHashSize : Nat := 20

/-- What is wrong, in words. -/
def Fault.reason : Fault → String
  | .notAByteString => "must be a byte string"
  | .notText => "value not valid UTF-8"
  | .notAnInteger => "must be an integer"
  | .outOfRange number => number.toText ++ " is out of range"
  | .notPositive => "must be positive"
  | .notWholePieces length => s!"length {length} is not a multiple of {pieceHashSize}"
  | .notAList => "must be a list"
  | .entryNotADictionary => "entries must be dictionaries"
  | .componentNotText => "components must be UTF-8 strings"
  | .totalOverflows => "total length overflows"

/-- Why a torrent has no summary. -/
inductive Error where
  /-- A dictionary has no entry under the key. -/
  | missing (key : String)
  /-- The entry under the key is not what it should be. -/
  | invalid (key : String) (fault : Fault)
  /-- There is no info dictionary. -/
  | infoHash (error : InfoHash.Error)
  deriving DecidableEq

/-- The message of an error. -/
def Error.message : Error → String
  | .missing key => s!"Missing '{key}'"
  | .invalid key fault => s!"Invalid '{key}': " ++ fault.reason
  | .infoHash error => error.message

/-- What a field was found to hold; if it was found to hold nothing of the kind, it is
faulty. -/
def orInvalid {Result : Type} (key : String) (fault : Fault) :
    Option Result → Except Error Result
  | none => .error (.invalid key fault)
  | some result => .ok result

/-- The value of a field that has to be present. -/
def field (entries : List (Bytes × Value)) (key : String) : Except Error Value :=
  match Entries.get? (Bytes.ofString key) entries with
  | none => .error (.missing key)
  | some value => .ok value

/-- The byte string in a field. -/
def bytesField (entries : List (Bytes × Value)) (key : String) :
    Except Error Bytes := do
  let value ← field entries key
  orInvalid key .notAByteString value.bytes?

/-- The text in a field. -/
def textField (entries : List (Bytes × Value)) (key : String) :
    Except Error String := do
  let bytes ← bytesField entries key
  orInvalid key .notText (Utf8.decode? bytes)

/-- The integer in a field. -/
def integerField (entries : List (Bytes × Value)) (key : String) :
    Except Error Integer := do
  let value ← field entries key
  orInvalid key .notAnInteger value.integer?

/-- The unsigned number of 64 bits in a field. -/
def wordField (entries : List (Bytes × Value)) (key : String) : Except Error Nat := do
  let number ← integerField entries key
  orInvalid key (.outOfRange number) number.toWord?

/-- The signed number of 64 bits in a field. -/
def signedField (entries : List (Bytes × Value)) (key : String) : Except Error Int := do
  let number ← integerField entries key
  orInvalid key (.outOfRange number) number.toSigned?

/-- A field that may be absent, read as `read` reads it when it is present. -/
def optional {Result : Type}
    (read : List (Bytes × Value) → String → Except Error Result)
    (entries : List (Bytes × Value)) (key : String) : Except Error (Option Result) :=
  match Entries.get? (Bytes.ofString key) entries with
  | none => .ok none
  | some _ => (read entries key).map some

end Metainfo.Torrent
