import Metainfo.Bencode.Integer
import Metainfo.Entries
import Metainfo.Text.Utf8

/-!
# Bencoded values

A value is a byte string, an integer, a list of values, or a dictionary from byte
strings to values.  A dictionary holds its entries in ascending order of the keys;
`Value.Ordered` states this at every level.  The depth of a value counts the lists and
dictionaries around its innermost part.
-/

namespace Metainfo.Bencode

/-- The four kinds of values. -/
inductive Kind where
  | byteString
  | integer
  | list
  | dictionary
  deriving DecidableEq, Repr

/-- The name of a kind in messages. -/
def Kind.name : Kind → String
  | .byteString => "byte string"
  | .integer => "integer"
  | .list => "list"
  | .dictionary => "dictionary"

/-- A bencoded value. -/
inductive Value where
  | byteString (bytes : Bytes)
  | integer (number : Integer)
  | list (items : List Value)
  | dictionary (entries : List (Bytes × Value))

namespace Value

/-- The kind of a value. -/
def kind : Value → Kind
  | .byteString _ => .byteString
  | .integer _ => .integer
  | .list _ => .list
  | .dictionary _ => .dictionary

/-- The octets of a byte string. -/
def bytes? : Value → Option Bytes
  | .byteString bytes => some bytes
  | _ => none

/-- The text of a byte string that is UTF-8. -/
def text? (value : Value) : Option String :=
  value.bytes?.bind Utf8.decode?

/-- The integer of an integer value. -/
def integer? : Value → Option Integer
  | .integer number => some number
  | _ => none

/-- The items of a list. -/
def items? : Value → Option (List Value)
  | .list items => some items
  | _ => none

/-- The entries of a dictionary. -/
def entries? : Value → Option (List (Bytes × Value))
  | .dictionary entries => some entries
  | _ => none

/-- The value that a dictionary holds under a key. -/
def get? (value : Value) (key : Bytes) : Option Value :=
  value.entries?.bind (Entries.get? key)

mutual

/-- Every dictionary inside the value has its keys in ascending order. -/
def Ordered : Value → Prop
  | .byteString _ => True
  | .integer _ => True
  | .list items => OrderedItems items
  | .dictionary entries => Entries.Ascending entries ∧ OrderedEntries entries

/-- `Ordered` for every item of a list. -/
def OrderedItems : List Value → Prop
  | [] => True
  | item :: items => item.Ordered ∧ OrderedItems items

/-- `Ordered` for every value of a dictionary. -/
def OrderedEntries : List (Bytes × Value) → Prop
  | [] => True
  | (_, value) :: entries => value.Ordered ∧ OrderedEntries entries

end

mutual

/-- How many lists and dictionaries lie around each other: none for a byte string or an
integer, one for an empty list. -/
def depth : Value → Nat
  | .byteString _ => 0
  | .integer _ => 0
  | .list items => depthItems items + 1
  | .dictionary entries => depthEntries entries + 1

/-- The greatest depth among the items of a list. -/
def depthItems : List Value → Nat
  | [] => 0
  | item :: items => max item.depth (depthItems items)

/-- The greatest depth among the values of a dictionary. -/
def depthEntries : List (Bytes × Value) → Nat
  | [] => 0
  | (_, value) :: entries => max value.depth (depthEntries entries)

end

mutual

/-- Decides whether two values are equal. -/
def decEq : (left right : Value) → Decidable (left = right)
  | .byteString left, .byteString right =>
      if same : left = right then isTrue (by rw [same])
      else isFalse (by simpa using same)
  | .integer left, .integer right =>
      if same : left = right then isTrue (by rw [same])
      else isFalse (by simpa using same)
  | .list left, .list right =>
      match decEqItems left right with
      | isTrue same => isTrue (by rw [same])
      | isFalse different => isFalse (by simpa using different)
  | .dictionary left, .dictionary right =>
      match decEqEntries left right with
      | isTrue same => isTrue (by rw [same])
      | isFalse different => isFalse (by simpa using different)
  | .byteString _, .integer _ | .byteString _, .list _ | .byteString _, .dictionary _
  | .integer _, .byteString _ | .integer _, .list _ | .integer _, .dictionary _
  | .list _, .byteString _ | .list _, .integer _ | .list _, .dictionary _
  | .dictionary _, .byteString _ | .dictionary _, .integer _ | .dictionary _, .list _ =>
      isFalse (by simp)

/-- Decides whether two lists of values are equal. -/
def decEqItems : (left right : List Value) → Decidable (left = right)
  | [], [] => isTrue rfl
  | [], _ :: _ | _ :: _, [] => isFalse (by simp)
  | left :: lefts, right :: rights =>
      match decEq left right with
      | isFalse different => isFalse (by simp [different])
      | isTrue same =>
          match decEqItems lefts rights with
          | isFalse different => isFalse (by simp [different])
          | isTrue sameRest => isTrue (by rw [same, sameRest])

/-- Decides whether two lists of entries are equal. -/
def decEqEntries : (left right : List (Bytes × Value)) → Decidable (left = right)
  | [], [] => isTrue rfl
  | [], _ :: _ | _ :: _, [] => isFalse (by simp)
  | (leftKey, left) :: lefts, (rightKey, right) :: rights =>
      if sameKey : leftKey = rightKey then
        match decEq left right with
        | isFalse different => isFalse (by simp [different])
        | isTrue same =>
            match decEqEntries lefts rights with
            | isFalse different => isFalse (by simp [different])
            | isTrue sameRest => isTrue (by rw [sameKey, same, sameRest])
      else isFalse (by simp [sameKey])

end

instance : DecidableEq Value := decEq

end Value

end Metainfo.Bencode
