import Metainfo.Bencode.Value

/-!
# Walking through a value

A cursor stands at a value inside another one and remembers the values it came through.
-/

namespace Metainfo.Bencode

/-- The value a cursor stands at and the values around it, the innermost first. -/
structure Cursor where
  here : Value
  above : List Value

namespace Cursor

/-- A cursor at the value as a whole. -/
def top (value : Value) : Cursor := ⟨value, []⟩

/-- Goes to the value under a key, if the cursor stands at a dictionary that has it. -/
def enter? (key : Bytes) (cursor : Cursor) : Option Cursor :=
  (cursor.here.get? key).map fun value => ⟨value, cursor.here :: cursor.above⟩

/-- Goes to the item at a position, if the cursor stands at a list that has it. -/
def select? (index : Nat) (cursor : Cursor) : Option Cursor :=
  (cursor.here.items?.bind (·[index]?)).map fun value =>
    ⟨value, cursor.here :: cursor.above⟩

/-- Goes back to where the cursor came from; at the top it stays. -/
def leave (cursor : Cursor) : Cursor :=
  match cursor.above with
  | [] => cursor
  | outer :: above => ⟨outer, above⟩

end Cursor

end Metainfo.Bencode
