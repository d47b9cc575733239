import Metainfo.Files.Stream
import Metainfo.NativeText

/-!
# Files

A file reports a size and yields a stream of octets; the two need not agree, and for a
device the stream need not end.  Looking at a path tells what there is, or why nothing
is found there.  What is found need not be open to everyone: then looking at it
succeeds, but opening it fails.
-/

namespace Metainfo.Files

/-- A file that can be read. -/
structure File where
  size : Nat
  stream : Stream

/-- A file that reports the number of octets it holds. -/
def File.ofBytes (bytes : Bytes) : File :=
  ⟨bytes.length, .finite bytes⟩

/-- Why nothing is found at a path, or why it cannot be opened or read. -/
inductive Fault where
  | notFound
  | permissionDenied
  | notADirectory
  | isADirectory
  | nameTooLong
  | nameHoldsNul
  /-- Any other fault, with its number and what the system says of it. -/
  | other (number : Nat) (words : String)
  deriving DecidableEq, Repr

namespace Fault

/-- The name of the kind of fault. -/
def kind : Fault → String
  | .notFound => "NotFound"
  | .permissionDenied => "PermissionDenied"
  | .notADirectory => "NotADirectory"
  | .isADirectory => "IsADirectory"
  | .nameTooLong => "InvalidFilename"
  | .nameHoldsNul => "InvalidInput"
  | .other _ _ => "Uncategorized"

/-- The fault that the system reports by a number and in words. -/
def ofNumber (number : Nat) (words : String) : Fault :=
  match number with
  | 2 => .notFound
  | 13 => .permissionDenied
  | 20 => .notADirectory
  | 21 => .isADirectory
  | 36 => .nameTooLong
  | _ => .other number words

/-- What a numbered fault is in words. -/
def numbered (number : Nat) (words : String) : String :=
  s!"{words} (os error {number})"

/-- The fault in words, with its number where it has one. -/
def message : Fault → String
  | .notFound => numbered 2 "No such file or directory"
  | .permissionDenied => numbered 13 "Permission denied"
  | .notADirectory => numbered 20 "Not a directory"
  | .isADirectory => numbered 21 "Is a directory"
  | .nameTooLong => numbered 36 "File name too long"
  | .nameHoldsNul => "file name contained an unexpected NUL byte"
  | .other number words => numbered number words

end Fault

/-- What there is at a path: a file or a directory that can be opened, or something
that cannot. -/
inductive Node where
  | file (file : File)
  | directory (size : Nat)
  | locked (fault : Fault)

/-- What there is to find: for every path a node, or why there is none. -/
structure FileSystem where
  find : NativeText → Except Fault Node

end Metainfo.Files
