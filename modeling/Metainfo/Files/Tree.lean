import Metainfo.Entries
import Metainfo.Files.File

/-!
# Directory trees

A file system in which one directory is the working one.  Paths are followed from the
root or from the working directory, component by component; on the way every node has to
be a directory, and after a final slash the last one too.
-/

namespace Metainfo.Files

/-- A file, or a directory with what lies in it.  Names are octets. -/
inductive Tree where
  | file (file : File)
  | directory (children : List (Bytes × Tree))

/-- The size that is reported for every directory. -/
def directorySize : Nat := 4096

/-- The greatest number of octets in the name of a component. -/
def maxNameSize : Nat := 255

/-- The greatest number of octets in a path. -/
def maxPathSize : Nat := 4095

namespace Tree

/-- An empty directory. -/
def empty : Tree := .directory []

/-- The node that a tree shows when it is opened. -/
def toNode : Tree → Node
  | .file content => .file content
  | .directory _ => .directory directorySize

/-- Puts a tree at a place below a directory, with the directories on the way to it. -/
def place (entry : Tree) : (path : List Bytes) → Tree → Tree
  | [], _ => entry
  | name :: path, tree =>
      let children := match tree with
        | .file _ => []
        | .directory children => children
      let child := (Entries.get? name children).getD empty
      .directory (Entries.insert name (place entry path child) children)

end Tree

/-- A place in a tree: the directory or file there, and the directories above it, the
innermost first. -/
structure Place where
  here : Tree
  above : List Tree

namespace Place

/-- Goes on by one component. -/
def step (place : Place) (name : Bytes) : Except Fault Place :=
  match place.here with
  | .file _ => .error .notADirectory
  | .directory children =>
      if name = Bytes.ofString "." then .ok place
      else if name = Bytes.ofString ".." then
        match place.above with
        | [] => .ok place
        | outer :: above => .ok ⟨outer, above⟩
      else if name.length > maxNameSize then .error .nameTooLong
      else
        match Entries.get? name children with
        | none => .error .notFound
        | some child => .ok ⟨child, place.here :: place.above⟩

/-- Follows components one after the other. -/
def follow (place : Place) (names : List Bytes) : Except Fault Place :=
  names.foldlM step place

end Place

/-- The octet that divides the components of a path. -/
def slash : UInt8 := 0x2F

/-- The components of a path, split at the slashes; repeated slashes count as one. -/
def components (path : NativeText) : List Bytes :=
  (path.octets.splitOnP (· == slash)).filter (· ≠ [])

/-- Where a path leads to in a system with the given root and working directory. -/
def resolve (root working : Place) (path : NativeText) : Except Fault Node :=
  if path.octets.any (· == 0) then .error .nameHoldsNul
  else if path.octets.length > maxPathSize then .error .nameTooLong
  else if path.octets = [] then .error .notFound
  else do
    let start := if path.octets.head? = some slash then root else working
    let place ← start.follow (components path)
    match place.here with
    | .directory _ => return place.here.toNode
    | .file _ =>
        if path.octets.getLast? = some slash then .error .notADirectory
        else return place.here.toNode

/-- The devices that are always there: one that yields nothing and one that yields
zeros without end. -/
def devices : Tree :=
  .directory
    [(Bytes.ofString "null", .file ⟨0, .finite []⟩),
      (Bytes.ofString "zero", .file ⟨0, .endless fun _ => 0⟩)]

/-- A system whose working directory holds the given files and empty directories and
lies in an otherwise empty one below the root. -/
def FileSystem.ofWorkingDirectory (files : List (String × Bytes))
    (directories : List String) : FileSystem :=
  let root : Tree :=
    .directory [(Bytes.ofString "dev", devices), (Bytes.ofString "tmp", .empty)]
  let withDirectories := directories.foldl
    (fun tree (path : String) => Tree.empty.place (components path) tree) .empty
  let working := files.foldl
    (fun tree (path, bytes) =>
      (Tree.file (.ofBytes bytes)).place (components path) tree)
    withDirectories
  ⟨resolve ⟨root, []⟩ ⟨working, [.empty, root]⟩⟩

end Metainfo.Files
