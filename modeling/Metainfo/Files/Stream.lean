import Metainfo.Bytes

/-!
# Streams of octets

A file yields octets one after the other, and a device may never come to an end.
The system hands them out in pieces of whatever length it likes.
-/

namespace Metainfo.Files

/-- The octets that a file yields: finitely many, or one for every position. -/
inductive Stream where
  | finite (bytes : Bytes)
  | endless (octetAt : Nat → UInt8)

namespace Stream

/-- The first octets of a stream, `count` of them or all if there are fewer. -/
def take (count : Nat) : Stream → Bytes
  | .finite bytes => bytes.take count
  | .endless octetAt => (List.range count).map octetAt

theorem length_take_le (count : Nat) (stream : Stream) :
    (stream.take count).length ≤ count := by
  cases stream with
  | finite bytes => exact List.length_take_le ..
  | endless octetAt => simp [take]

/-- The octets from a position on, `count` of them or all if there are fewer. -/
def window (start count : Nat) : Stream → Bytes
  | .finite bytes => (bytes.drop start).take count
  | .endless octetAt =>
      (List.range count).map fun index => octetAt (start + index)

theorem length_window_le (start count : Nat) (stream : Stream) :
    (stream.window start count).length ≤ count := by
  cases stream with
  | finite bytes => exact List.length_take_le ..
  | endless octetAt => simp [window]

/-- Takes octets piece by piece until the stream ends or `room` of them have been
taken after those in `taken`.  At every position the system hands out at least one
octet while there are any, and no more than `sizes` tells beyond that one. -/
def drain (stream : Stream) (sizes : Nat → Nat) (room : Nat) (taken : Bytes) : Bytes :=
  match _piece : stream.window taken.length (min room (sizes taken.length + 1)) with
  | [] => taken
  | byte :: bytes =>
      stream.drain sizes (room - (bytes.length + 1)) (taken ++ byte :: bytes)
termination_by room
decreasing_by
  have few := length_window_le taken.length
    (min room (sizes taken.length + 1)) stream
  rw [_piece, List.length_cons] at few
  omega

end Stream

end Metainfo.Files
