import Metainfo.Bencode.Decode

/-!
# Editing a dictionary

An edit puts a value, given in bencoded form, under a key or takes a key away.  It tells
whether the key was there before.  An edit whose value cannot be decoded changes
nothing.
-/

namespace Metainfo.Bencode

/-- A change of a dictionary. -/
inductive Edit where
  | set (key encoded : Bytes)
  | delete (key : Bytes)

namespace Edit

/-- The key that an edit is about. -/
def key : Edit → Bytes
  | .set key _ => key
  | .delete key => key

/-- The entries after an edit whose value may lie as deep as a limit allows, and whether
the key was among them before. -/
def applyWithin (limit : Nat) (edit : Edit) (entries : List (Bytes × Value)) :
    Except DecodeError (Bool × List (Bytes × Value)) :=
  match edit with
  | .set key encoded =>
      match decode limit encoded with
      | .error error => .error error
      | .ok value =>
          .ok ((Entries.get? key entries).isSome, Entries.insert key value entries)
  | .delete key => .ok ((Entries.get? key entries).isSome, Entries.erase key entries)

/-- The entries after an edit, and whether the key was among them before. -/
def apply (edit : Edit) (entries : List (Bytes × Value)) :
    Except DecodeError (Bool × List (Bytes × Value)) :=
  edit.applyWithin defaultDepth entries

end Edit

end Metainfo.Bencode
