import Metainfo.Torrent.Field

/-!
# Torrent summaries

What a torrent says about its content: the name, the size of the whole and of the
pieces, the hashes of the pieces, and the files if there are several; and about itself:
tracker, comment and date.  Fields are read in a fixed order and the first faulty one
decides the error.
-/

namespace Metainfo

open Bencode

namespace Torrent

/-- One file of a torrent with several. -/
structure FileEntry where
  length : Nat
  path : List String
  deriving DecidableEq, Repr

/-- The content that an info dictionary describes. -/
structure Info where
  name : String
  /-- The size of the file, or of all files together. -/
  length : Nat
  pieceLength : Nat
  pieces : List Bytes
  /-- The files, none if the torrent describes a single one. -/
  files : List FileEntry
  deriving DecidableEq, Repr

/-- A component of the path of a file. -/
def componentOf (value : Value) : Except Error String :=
  orInvalid "path" .componentNotText value.text?

/-- The path of a file.  A path that is no list counts as missing. -/
def pathOf (entries : List (Bytes × Value)) : Except Error (List String) :=
  match (Entries.get? (Bytes.ofString "path") entries).bind Value.items? with
  | none => .error (.missing "path")
  | some components => components.mapM componentOf

/-- One of the entries of `files`. -/
def fileOf (value : Value) : Except Error FileEntry := do
  let entries ← orInvalid "files" .entryNotADictionary value.entries?
  let length ← wordField entries "length"
  let path ← pathOf entries
  return ⟨length, path⟩

/-- The entries of `files`. -/
def filesOf (value : Value) : Except Error (List FileEntry) := do
  let items ← orInvalid "files" .notAList value.items?
  items.mapM fileOf

/-- The sum of two sizes, if it fits 64 bits. -/
def addLength (total length : Nat) : Option Nat :=
  if total + length ≤ Decimal.maxWord then some (total + length) else none

/-- The size of all files together, added up file by file, if no sum on the way exceeds
64 bits. -/
def totalLength (files : List FileEntry) : Option Nat :=
  files.foldlM (fun total file => addLength total file.length) 0

/-- The size of the content and its files. -/
def contentOf (entries : List (Bytes × Value)) : Except Error (Nat × List FileEntry) :=
  match Entries.get? (Bytes.ofString "files") entries with
  | none => do
      let length ← wordField entries "length"
      return (length, [])
  | some value => do
      let files ← filesOf value
      let total ← orInvalid "files" .totalOverflows (totalLength files)
      return (total, files)

/-- The size of a piece, which is not zero. -/
def pieceLengthOf (entries : List (Bytes × Value)) : Except Error Nat := do
  let length ← wordField entries "piece length"
  if length = 0 then .error (.invalid "piece length" .notPositive) else return length

/-- The hashes of the pieces. -/
def piecesOf (entries : List (Bytes × Value)) : Except Error (List Bytes) := do
  let hashes ← bytesField entries "pieces"
  if hashes.length % pieceHashSize ≠ 0 then
    .error (.invalid "pieces" (.notWholePieces hashes.length))
  else return Bytes.chunks pieceHashSize hashes

namespace Info

/-- The content that a dictionary describes. -/
def ofEntries (entries : List (Bytes × Value)) : Except Error Info := do
  let name ← textField entries "name"
  let pieceLength ← pieceLengthOf entries
  let pieces ← piecesOf entries
  let (length, files) ← contentOf entries
  return ⟨name, length, pieceLength, pieces, files⟩

/-- Whether several files are described. -/
def isMultiFile (info : Info) : Bool :=
  !info.files.isEmpty

end Info

end Torrent

/-- The summary of a torrent. -/
structure Torrent where
  announce : Option String
  comment : Option String
  /-- Seconds since 1970. -/
  creationDate : Option Int
  info : Torrent.Info
  deriving DecidableEq, Repr

namespace Torrent

/-- The summary of a decoded torrent. -/
def ofValue (top : Value) : Except Error Torrent := do
  let infoEntries ← (InfoHash.infoEntries top).mapError .infoHash
  let info ← Info.ofEntries infoEntries
  let entries := top.entries?.getD []
  let announce ← optional textField entries "announce"
  let comment ← optional textField entries "comment"
  let creationDate ← optional signedField entries "creation date"
  return ⟨announce, comment, creationDate, info⟩

end Torrent

end Metainfo
