import Metainfo.Command.Run

/-!
# The program

Looks at the two files that the command may read, runs the command on them, and writes
what it leaves.  The words of the command line arrive as texts, and a path that is no
UTF-8 is out of reach here.
-/

namespace Metainfo.Main

open Files

/-- What a failed access to a path means. -/
def faultOf (error : IO.Error) : Fault :=
  match error with
  | .alreadyExists _ number words | .otherError number words
  | .resourceBusy number words | .resourceVanished number words
  | .unsupportedOperation number words | .hardwareFault number words
  | .unsatisfiedConstraints number words | .illegalOperation number words
  | .protocolError number words | .timeExpired number words
  | .interrupted _ number words | .noFileOrDirectory _ number words
  | .invalidArgument _ number words | .permissionDenied _ number words
  | .resourceExhausted _ number words | .inappropriateType _ number words
  | .noSuchThing _ number words => .ofNumber number.toNat words
  | .unexpectedEof | .userError _ => .other 0 error.toString

/-- Reads octets until the stream ends or none is missing any more. -/
def readSome (handle : IO.FS.Handle) (missing : Nat) (done : ByteArray) :
    IO ByteArray := do
  if missing = 0 then return done
  let chunk ← handle.read (min missing 65536).toUSize
  if _empty : chunk.size = 0 then return done
  else readSome handle (missing - chunk.size) (done ++ chunk)
termination_by missing
decreasing_by omega

/-- Opens what there is at a path.  Without a limit a file is read to its end.  Under
one, nothing is read of a file that reports more octets, and of any other at most one
octet more is read. -/
def openAt (limit : Option Nat) (path : String) : IO Node := do
  let handle ← IO.FS.Handle.mk path .read
  let metadata ← (System.mkFilePath [path]).metadata
  let size := metadata.byteSize.toNat
  match metadata.type, limit with
  | .dir, _ => return .directory size
  | _, none => return .file ⟨size, .finite (← handle.readBinToEnd).data.toList⟩
  | _, some limit =>
      let missing := if size > limit then 0 else limit + 1
      return .file ⟨size, .finite (← readSome handle missing .empty).data.toList⟩

/-- What there is at a path. -/
def look (limit : Option Nat) (path : String) : IO (Except Fault Node) := do
  match ← (openAt limit path).toBaseIO with
  | .ok node => return .ok node
  | .error error =>
      -- What exists and cannot be opened is not the same as what does not exist.
      if ← (System.mkFilePath [path]).pathExists then
        return .ok (.locked (faultOf error))
      else return .error (faultOf error)

/-- What the command may open: the configuration file and, if that sets limits, the
torrent that the arguments name. -/
def fileSystem (words : List NativeText) : IO FileSystem := do
  let configuration ← look none Config.fileName
  let torrent ←
    match Config.load ⟨fun _ => configuration⟩, Command.Request.ofArguments words with
    | .ok limits, .hash path => look (some limits.maxFileSize) path.display
    | _, _ => pure (.error .notFound)
  return ⟨fun path => if path = Config.fileName then configuration else torrent⟩

end Metainfo.Main

/-- Runs the command with the arguments of the process. -/
def main (words : List String) : IO UInt32 := do
  let filter ← IO.getEnv "RUST_LOG"
  let words := words.map Metainfo.NativeText.ofString
  match Metainfo.Command.run filter words (← Metainfo.Main.fileSystem words) with
  | none =>
      IO.eprint Metainfo.Command.usageText
      return 2
  | some outcome =>
      for line in outcome.errorLines do
        IO.eprintln line
      IO.print outcome.output
      return UInt32.ofNat outcome.status
