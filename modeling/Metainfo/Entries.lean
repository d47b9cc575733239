/-!
# Entries in key order

A dictionary is a list of entries whose keys stand in strictly ascending order.
Inserting keeps that order, replaces the value of a key that is present, and so makes
the list depend on the mapping alone, not on the order in which the entries arrived.
-/

namespace Metainfo.Entries

variable {Key Value : Type}

/-- The keys of a list of entries, in its order. -/
def keys (entries : List (Key × Value)) : List Key :=
  entries.map Prod.fst

/-- The keys stand in strictly ascending order; in particular none occurs twice. -/
def Ascending [LT Key] (entries : List (Key × Value)) : Prop :=
  (keys entries).Pairwise (· < ·)

/-- The value of a key. -/
def get? [DecidableEq Key] (key : Key) : List (Key × Value) → Option Value
  | [] => none
  | (present, value) :: entries =>
      if present = key then some value else get? key entries

/-- Puts an entry in its place, where it replaces one with the same key. -/
def insert [DecidableEq Key] [LT Key] [DecidableLT Key] (key : Key) (value : Value) :
    List (Key × Value) → List (Key × Value)
  | [] => [(key, value)]
  | (present, old) :: entries =>
      if key < present then (key, value) :: (present, old) :: entries
      else if key = present then (key, value) :: entries
      else (present, old) :: insert key value entries

/-- Removes the entry of a key. -/
def erase [DecidableEq Key] (key : Key) : List (Key × Value) → List (Key × Value)
  | [] => []
  | (present, value) :: entries =>
      if present = key then entries else (present, value) :: erase key entries

/-- Inserts the entries of a list one after the other, so that the last of several with
one key counts. -/
def ofList [DecidableEq Key] [LT Key] [DecidableLT Key] (entries : List (Key × Value)) :
    List (Key × Value) :=
  entries.foldl (fun done entry => insert entry.1 entry.2 done) []

end Metainfo.Entries
