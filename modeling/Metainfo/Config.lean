import Metainfo.Files.File
import Metainfo.Limits
import Metainfo.Toml.Reader

/-!
# Configuration files

A configuration file is a TOML document whose keys `max_file_size` and `max_depth` set
the limits.  A limit that is not given keeps its default, and other keys mean nothing.
Writing gives a document with one line for each limit, provided that both are numbers
that TOML can hold.
-/

namespace Metainfo.Config

open Files

/-- The file that is looked for in the working directory. -/
def fileName : String := "rusbit.toml"

/-- The key of the limit of size. -/
def sizeKey : String := "max_file_size"

/-- The key of the limit of depth. -/
def depthKey : String := "max_depth"

/-- Why a configuration cannot be loaded. -/
inductive Error where
  /-- The path cannot be opened or read. -/
  | unreadable (path : NativeText) (fault : Fault)
  /-- The octets of the file are not UTF-8. -/
  | notText (path : NativeText)
  /-- The device at the path never comes to an end. -/
  | endless (path : NativeText)
  /-- The text is no TOML document, or a limit in it is no natural number. -/
  | malformed (path : NativeText)
  deriving DecidableEq, Repr

namespace Error

/-- What kept the file from being read, in words. -/
def cause? : Error → Option String
  | .unreadable _ fault => some fault.message
  | .notText _ => some "stream did not contain valid UTF-8"
  | .endless _ => some "out of memory"
  | .malformed _ => none

/-- The path at which the configuration was looked for. -/
def path : Error → NativeText
  | .unreadable path _ | .notText path | .endless path | .malformed path => path

/-- The message of an error.  What is wrong with a malformed document is not told. -/
def message (error : Error) : String :=
  match error.cause? with
  | none => "Invalid config " ++ error.path.display ++ ": "
  | some cause => "I/O error reading " ++ error.path.display ++ ": " ++ cause

end Error

/-- The limit under a key: its default if the key is absent, and none if the value is no
natural number. -/
def limit? (table : Toml.Table) (key : String) (absent : Nat) : Option Nat :=
  match Entries.get? key table with
  | none => some absent
  | some (.integer value) => if 0 ≤ value.toInt then some value.toInt.toNat else none
  | some _ => none

/-- The limits that a document sets. -/
def ofText? (text : String) : Option Limits := do
  let table ← Toml.parse? text
  let maxFileSize ← limit? table sizeKey Limits.default.maxFileSize
  let maxDepth ← limit? table depthKey Limits.default.maxDepth
  return ⟨maxFileSize, maxDepth⟩

/-- The line that sets a limit. -/
def line (key : String) (value : Nat) : String :=
  s!"{key} = {value}\n"

/-- The document that sets the limits, if TOML can hold both numbers. -/
def toText? (limits : Limits) : Option String :=
  if limits.maxFileSize ≤ Decimal.maxSigned ∧ limits.maxDepth ≤ Decimal.maxSigned then
    some (line sizeKey limits.maxFileSize ++ line depthKey limits.maxDepth)
  else none

/-- Loads the limits from the file at a path. -/
def ofFile (fileSystem : FileSystem) (path : NativeText) : Except Error Limits :=
  match fileSystem.find path with
  | .error fault => .error (.unreadable path fault)
  | .ok (.locked fault) => .error (.unreadable path fault)
  | .ok (.directory _) => .error (.unreadable path .isADirectory)
  | .ok (.file ⟨_, .endless _⟩) => .error (.endless path)
  | .ok (.file ⟨_, .finite bytes⟩) =>
      match Utf8.decode? bytes with
      | none => .error (.notText path)
      | some text =>
          match ofText? text with
          | none => .error (.malformed path)
          | some limits => .ok limits

/-- Loads the limits from the file in the working directory, or takes the defaults if
none is found there.  A file that is found has to be one that can be loaded. -/
def load (fileSystem : FileSystem) : Except Error Limits :=
  match fileSystem.find fileName with
  | .error _ => .ok Limits.default
  | .ok _ => ofFile fileSystem fileName

end Metainfo.Config
