import Metainfo.Bencode.Mark
import Metainfo.Bencode.Value

/-!
# Encoding

Every value has one canonical form: integers by their text, byte strings with the length
in front, lists item by item, and dictionaries entry by entry in the order in which the
value holds them, which is the ascending order of the keys.
-/

namespace Metainfo.Bencode

/-- The canonical form of a byte string: its length, a colon and its octets. -/
def encodeString (bytes : Bytes) : Bytes :=
  Decimal.ofNat bytes.length ++ Mark.colon :: bytes

namespace Value

mutual

/-- The canonical form of a value, put in front of other octets. -/
def encodeOnto : Value → Bytes → Bytes
  | .byteString bytes, rest => encodeString bytes ++ rest
  | .integer number, rest => Mark.integer :: (number.text ++ Mark.finish :: rest)
  | .list items, rest => Mark.list :: encodeItemsOnto items (Mark.finish :: rest)
  | .dictionary entries, rest =>
      Mark.dictionary :: encodeEntriesOnto entries (Mark.finish :: rest)

/-- The canonical forms of the items of a list, one after the other, put in front of
other octets. -/
def encodeItemsOnto : List Value → Bytes → Bytes
  | [], rest => rest
  | item :: items, rest => item.encodeOnto (encodeItemsOnto items rest)

/-- The canonical forms of keys and values, entry after entry, put in front of other
octets. -/
def encodeEntriesOnto : List (Bytes × Value) → Bytes → Bytes
  | [], rest => rest
  | (key, value) :: entries, rest =>
      encodeString key ++ value.encodeOnto (encodeEntriesOnto entries rest)

end

/-- The canonical form of a value. -/
def encode (value : Value) : Bytes :=
  value.encodeOnto []

mutual

theorem encodeOnto_append : (value : Value) → (front rest : Bytes) →
    value.encodeOnto (front ++ rest) = value.encodeOnto front ++ rest
  | .byteString bytes, front, rest => by simp [encodeOnto]
  | .integer number, front, rest => by simp [encodeOnto]
  | .list items, front, rest => by
      simp only [encodeOnto]
      rw [← List.cons_append, encodeItemsOnto_append items (Mark.finish :: front) rest,
        List.cons_append]
  | .dictionary entries, front, rest => by
      simp only [encodeOnto]
      rw [← List.cons_append,
        encodeEntriesOnto_append entries (Mark.finish :: front) rest, List.cons_append]

theorem encodeItemsOnto_append : (items : List Value) → (front rest : Bytes) →
    encodeItemsOnto items (front ++ rest) = encodeItemsOnto items front ++ rest
  | [], front, rest => by simp [encodeItemsOnto]
  | item :: items, front, rest => by
      simp only [encodeItemsOnto]
      rw [encodeItemsOnto_append items front rest, encodeOnto_append item]

theorem encodeEntriesOnto_append :
    (entries : List (Bytes × Value)) → (front rest : Bytes) →
    encodeEntriesOnto entries (front ++ rest) = encodeEntriesOnto entries front ++ rest
  | [], front, rest => by simp [encodeEntriesOnto]
  | (key, value) :: entries, front, rest => by
      simp only [encodeEntriesOnto]
      rw [encodeEntriesOnto_append entries front rest, encodeOnto_append value,
        List.append_assoc]

end

/-- What is put in front of other octets is the canonical form. -/
theorem encodeOnto_eq (value : Value) (rest : Bytes) :
    value.encodeOnto rest = value.encode ++ rest := by
  rw [encode, ← encodeOnto_append, List.nil_append]

theorem encodeItemsOnto_eq (items : List Value) (rest : Bytes) :
    encodeItemsOnto items rest = items.flatMap encode ++ rest := by
  induction items with
  | nil => simp [encodeItemsOnto]
  | cons item items ih => simp [encodeItemsOnto, encodeOnto_eq, ih]

theorem encodeEntriesOnto_eq (entries : List (Bytes × Value)) (rest : Bytes) :
    encodeEntriesOnto entries rest =
      entries.flatMap (fun entry => encodeString entry.1 ++ entry.2.encode) ++
        rest := by
  induction entries with
  | nil => simp [encodeEntriesOnto]
  | cons entry entries ih => simp [encodeEntriesOnto, encodeOnto_eq, ih]

@[simp] theorem encode_byteString (bytes : Bytes) :
    (byteString bytes).encode = encodeString bytes := by
  simp [encode, encodeOnto]

@[simp] theorem encode_integer (number : Integer) :
    (integer number).encode = Mark.integer :: number.text ++ [Mark.finish] := by
  simp [encode, encodeOnto]

/-- The canonical form of a list is that of its items between two marks. -/
@[simp] theorem encode_list (items : List Value) :
    (list items).encode = Mark.list :: items.flatMap encode ++ [Mark.finish] := by
  simp [encode, encodeOnto, encodeItemsOnto_eq]

/-- The canonical form of a dictionary is that of its entries between two marks. -/
@[simp] theorem encode_dictionary (entries : List (Bytes × Value)) :
    (dictionary entries).encode =
      Mark.dictionary ::
        entries.flatMap (fun entry => encodeString entry.1 ++ entry.2.encode) ++
        [Mark.finish] := by
  simp [encode, encodeOnto, encodeEntriesOnto_eq]

end Value

end Metainfo.Bencode
