/-!
# Byte strings

Torrent files and the strings inside them are finite sequences of octets in no
particular character encoding.  A byte string is therefore a list of octets, ordered
lexicographically by octet; texts enter it only through their UTF-8 form.
-/

namespace Metainfo

/-- A finite sequence of octets. -/
abbrev Bytes := List UInt8

namespace Bytes

/-- The UTF-8 form of a text. -/
def ofString (text : String) : Bytes :=
  text.toList.flatMap String.utf8EncodeChar

/-- Reads every octet as the character with that code.  For octets below 128 this is the
text whose UTF-8 form they are. -/
def toAsciiText (bytes : Bytes) : String :=
  String.ofList (bytes.map fun byte => Char.ofNat byte.toNat)

/-- Cuts pieces of `size` octets off the front, `done` holding those already cut in
reverse order; fewer than `size` octets left at the end are dropped. -/
def chunksFrom (size : Nat) (bytes : Bytes) (done : List Bytes) : List Bytes :=
  match _remaining : bytes.drop (size - 1) with
  | [] => done.reverse
  | _ :: rest => chunksFrom size rest (bytes.take size :: done)
termination_by bytes.length
decreasing_by
  have lengths := congrArg List.length _remaining
  simp at lengths
  omega

/-- The consecutive pieces of `size` octets of a byte string. -/
def chunks (size : Nat) (bytes : Bytes) : List Bytes :=
  chunksFrom size bytes []

end Bytes

end Metainfo
