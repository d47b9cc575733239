import Metainfo.Bencode.Encode
import Metainfo.Digest.Sha1
import Metainfo.Text.Hex

/-!
# The info-hash

A torrent is known by the SHA-1 digest of the canonical form of its `info` dictionary,
whatever else the top-level dictionary holds.
-/

namespace Metainfo

open Bencode

/-- The info-hash of a torrent. -/
structure InfoHash where
  digest : Sha1.Digest
  deriving DecidableEq, Repr

namespace InfoHash

/-- Why a value has no info-hash. -/
inductive Error where
  /-- The value is no dictionary, or one without an entry `info`. -/
  | missingInfo
  /-- The entry `info` is of another kind than a dictionary. -/
  | notADictionary (found : Kind)
  deriving DecidableEq, Repr

/-- The message of an error. -/
def Error.message : Error → String
  | .missingInfo => "Missing 'info' key in top-level dictionary"
  | .notADictionary found =>
      "Invalid 'info' value: expected a dictionary, found a " ++ found.name

/-- The key of the info dictionary. -/
def infoKey : Bytes := Bytes.ofString "info"

/-- The entries of the info dictionary of a torrent. -/
def infoEntries (top : Value) : Except Error (List (Bytes × Value)) :=
  match top.get? infoKey with
  | none => .error .missingInfo
  | some (.dictionary entries) => .ok entries
  | some other => .error (.notADictionary other.kind)

/-- The info dictionary of a torrent in its canonical form. -/
def infoBytes (top : Value) : Except Error Bytes :=
  (infoEntries top).map fun entries => (Value.dictionary entries).encode

/-- The info-hash of a torrent. -/
def ofValue (top : Value) : Except Error InfoHash :=
  (infoBytes top).map fun bytes => ⟨Sha1.digest bytes⟩

/-- The twenty octets of an info-hash. -/
def toBytes (hash : InfoHash) : Bytes :=
  hash.digest.toBytes

/-- The info-hash as forty hexadecimal digits. -/
def toHex (hash : InfoHash) : String :=
  Hex.encode hash.toBytes

/-- Each octet is shown by its two digits. -/
theorem shows_toHex (hash : InfoHash) : Hex.Shows hash.toHex hash.toBytes :=
  Hex.shows_encode hash.toBytes

/-- There are forty digits. -/
theorem length_toHex (hash : InfoHash) : hash.toHex.toList.length = 40 := by
  rw [hash.shows_toHex.length, toBytes, Sha1.Digest.length_toBytes]

end InfoHash

end Metainfo
