import Metainfo.Bencode.JsonView
import Metainfo.Files.File
import Metainfo.Limits
import Metainfo.Log.Record
import Metainfo.Torrent.Summary

/-!
# Hashing torrents

The info-hash of a torrent given as octets or as a file, under limits of size and depth.
On the way records are written: what is read, how much is decoded, and the summary of
the torrent.  The summary serves only the reader of the records; that it cannot be made
does not keep a torrent from being hashed.
-/

namespace Metainfo.Hashing

open Bencode Files Log

/-- Why a torrent has not been hashed. -/
inductive Error where
  /-- The path cannot be opened or read. -/
  | unreadable (path : NativeText) (fault : Fault)
  /-- The file is larger than the limit. -/
  | fileTooLarge (size limit : Nat)
  /-- The octets are not one bencoded value. -/
  | undecodable (error : DecodeError)
  /-- The value has no info-hash. -/
  | noInfoHash (error : InfoHash.Error)
  deriving DecidableEq, Repr

namespace Error

/-- The message of an error. -/
def message : Error → String
  | .unreadable path fault => "I/O error on " ++ path.display ++ ": " ++ fault.message
  | .fileTooLarge size limit =>
      s!"File too large: {size} bytes exceeds the {limit} byte limit"
  | .undecodable error => "Bencode error: " ++ error.message
  | .noInfoHash error => error.message

/-- The messages of the causes of an error, the nearest first. -/
def causes : Error → List String
  | .unreadable _ fault => [fault.message]
  | .fileTooLarge _ _ => []
  | .undecodable error => [error.message]
  | .noInfoHash _ => []

end Error

/-- The target of the records written here. -/
def target : String := "rusbit_infohash::engine"

/-! ## Loading a file -/

/-- What has been taken from a stream, and what came of it. -/
structure Reading where
  taken : Bytes
  result : Except Error Bytes

/-- Reads a whole file of at most `limit` octets, where `take` tells which octets are
taken from a stream.  The size that the file reports is checked before. -/
def readBy (take : Stream → Bytes) (fileSystem : FileSystem) (path : NativeText)
    (limit : Nat) : Reading :=
  match fileSystem.find path with
  | .error fault => ⟨[], .error (.unreadable path fault)⟩
  | .ok (.locked fault) => ⟨[], .error (.unreadable path fault)⟩
  | .ok (.directory size) =>
      ⟨[], .error
        (if size > limit then .fileTooLarge size limit
          else .unreadable path .isADirectory)⟩
  | .ok (.file file) =>
      if file.size > limit then ⟨[], .error (.fileTooLarge file.size limit)⟩
      else
        let taken := take file.stream
        ⟨taken, if taken.length > limit then .error (.fileTooLarge taken.length limit)
          else .ok taken⟩

/-- The number of octets that may be taken under a limit: one more, as words of 64 bits
are added. -/
def readBound (limit : Nat) : Nat :=
  (limit + 1) % (Decimal.maxWord + 1)

/-- A way to read a file under a limit. -/
abbrev Reader : Type :=
  FileSystem → NativeText → Nat → Except Error Bytes

/-- Reads a whole file of at most `limit` octets, all at once. -/
def load : Reader := fun fileSystem path limit =>
  (readBy (Stream.take (readBound limit)) fileSystem path limit).result

/-- Reads a whole file of at most `limit` octets in pieces. -/
def loadInPieces (sizes : Nat → Nat) (fileSystem : FileSystem) (path : NativeText)
    (limit : Nat) : Reading :=
  readBy (fun stream => stream.drain sizes (readBound limit) []) fileSystem path limit

/-! ## Records of a torrent -/

/-- The lines that describe a torrent. -/
def summaryLines (hash : InfoHash) (torrent : Torrent) : List String :=
  ["Torrent metadata:",
    "  Info Hash: " ++ hash.toHex,
    "  Announce URL: " ++ torrent.announce.getD "-",
    "  Comment: " ++ torrent.comment.getD "-"] ++
  (match torrent.creationDate with
    | none => []
    | some date => [s!"  Creation Date: {date}"]) ++
  ["  Name: " ++ torrent.info.name,
    s!"  Length: {torrent.info.length}",
    s!"  Piece Length: {torrent.info.pieceLength}",
    s!"  Number of Pieces: {torrent.info.pieces.length}"] ++
  if torrent.info.isMultiFile then [s!"  Number of Files: {torrent.info.files.length}"]
  else []

/-- The record of the info dictionary as a whole. -/
def traceRecords (threshold : Threshold) (top : Value) : List Record :=
  if threshold.allows .trace then
    match InfoHash.infoEntries top with
    | .error _ => []
    | .ok entries =>
        emit threshold .trace target
          ("info dictionary: " ++ (Value.dictionary entries).toJson.text)
  else []

/-- The records of the summary, or of why there is none.  Neither is looked for unless
records of level `debug` are let through. -/
def summaryRecords (threshold : Threshold) (top : Value) (hash : InfoHash) :
    List Record :=
  if threshold.allows .debug then
    match Torrent.ofValue top with
    | .ok torrent => (summaryLines hash torrent).flatMap (emit threshold .debug target)
    | .error error =>
        emit threshold .warn target
          ("Could not summarize torrent metadata: " ++ error.message)
  else []

/-! ## The info-hash -/

/-- The info-hash of a torrent given as octets. -/
def hashBytes (threshold : Threshold) (limits : Limits) (bytes : Bytes) :
    Logged (Except Error InfoHash) :=
  let records := emit threshold .debug target s!"Decoding {bytes.length} bytes"
  match decode limits.maxDepth bytes with
  | .error error => ⟨records, .error (.undecodable error)⟩
  | .ok top =>
      match InfoHash.ofValue top with
      | .error error => ⟨records, .error (.noInfoHash error)⟩
      | .ok hash =>
          ⟨records ++ traceRecords threshold top ++ summaryRecords threshold top hash,
            .ok hash⟩

/-- The info-hash of a torrent file that a reader reads. -/
def hashFileWith (reader : Reader) (threshold : Threshold) (limits : Limits)
    (fileSystem : FileSystem) (path : NativeText) : Logged (Except Error InfoHash) :=
  let loading :=
    emit threshold .info target ("Loading torrent file from " ++ path.display)
  match reader fileSystem path limits.maxFileSize with
  | .error error => ⟨loading, .error error⟩
  | .ok bytes =>
      let hashed := hashBytes threshold limits bytes
      match hashed.result with
      | .error error => ⟨loading ++ hashed.records, .error error⟩
      | .ok hash =>
          let hashing := emit threshold .info target
            ("Info hash of " ++ path.display ++ ": " ++ hash.toHex)
          ⟨loading ++ hashed.records ++ hashing, .ok hash⟩

/-- The info-hash of a torrent file. -/
def hashFile : Threshold → Limits → FileSystem → NativeText →
    Logged (Except Error InfoHash) :=
  hashFileWith load

end Metainfo.Hashing
