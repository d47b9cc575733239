import Metainfo.Bencode.Value
import Metainfo.Json

/-!
# A JSON view of values

Integers of 64 bits become numbers and longer ones strings.  Byte strings become strings
if they are UTF-8 and otherwise an object that shows their octets in hexadecimal.
Dictionaries become objects whose names are the keys read leniently as UTF-8; of several
keys that give one name, the greatest counts.
-/

namespace Metainfo.Bencode.Value

/-- The name under which an object shows the octets of a byte string that is no text. -/
def hexMember : String := "_bytes_hex"

/-- A byte string as JSON. -/
def stringToJson (bytes : Bytes) : Json :=
  match Utf8.decode? bytes with
  | some text => .string text
  | none => .object [(hexMember, .string (Hex.encode bytes))]

/-- An integer as JSON. -/
def integerToJson (number : Integer) : Json :=
  match number.toSigned? with
  | some value => .number value
  | none => .string number.toText

mutual

/-- A value as JSON. -/
def toJson : Value → Json
  | .byteString bytes => stringToJson bytes
  | .integer number => integerToJson number
  | .list items => .array (itemsToJson items)
  | .dictionary entries => .object (entriesToMembers entries [])

/-- The items of a list as JSON. -/
def itemsToJson : List Value → List Json
  | [] => []
  | item :: items => item.toJson :: itemsToJson items

/-- The entries of a dictionary as members of an object, put among those in `done`. -/
def entriesToMembers :
    List (Bytes × Value) → List (String × Json) → List (String × Json)
  | [], done => done
  | (key, value) :: entries, done =>
      entriesToMembers entries (Entries.insert (Utf8.decodeLossy key) value.toJson done)

end

end Metainfo.Bencode.Value
