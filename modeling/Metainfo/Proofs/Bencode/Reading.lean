import Metainfo.Proofs.Bencode.Scalars

/-!
# What readers find

The readers of values, of items and of entries are described by equations between
findings, one for each way in which an input may begin.
-/

namespace Metainfo.Bencode

/-- An octet that is to be seen at an offset lies inside the input. -/
theorem lt_length_of_drop_eq_cons {input rest : Bytes} {offset : Nat} {byte : UInt8}
    (here : input.drop offset = byte :: rest) : offset < input.length := by
  have length := congrArg List.length here
  rw [List.length_drop, List.length_cons] at length
  omega

/-- Finds a value inside `depth` lists and dictionaries. -/
def valueAt (limit depth start : Nat) (input : Bytes) :
    Except DecodeError (Found Value) :=
  (readValue limit depth start input).map Reading.found

/-- Finds the items from `position` on of the list that begins at `start`. -/
def itemsAt (limit depth start position : Nat) (input : Bytes) (done : List Value) :
    Except DecodeError (Found Value) :=
  (readItems limit depth start position input done (0 :: input) (by simp)).map
    Reading.found

/-- Finds the entries from `position` on of the dictionary that begins at `start`. -/
def entriesAt (limit depth start position : Nat) (input : Bytes)
    (done : List (Bytes × Value)) : Except DecodeError (Found Value) :=
  (readEntries limit depth start position input done (0 :: input) (by simp)).map
    Reading.found

section Equations

variable {limit depth start position : Nat} {byte : UInt8} {rest : Bytes}

theorem valueAt_nil : valueAt limit depth start [] = .error (.unexpectedEnd start) := by
  rw [valueAt, readValue]
  rfl

theorem valueAt_integer :
    valueAt limit depth start (Mark.integer :: rest) =
      (integerAt start rest).map (Found.map .integer) := by
  rw [valueAt, readValue, if_pos rfl, integerAt]
  cases readInteger start rest <;> rfl

theorem valueAt_string (digit : Decimal.isDigit byte = true) :
    valueAt limit depth start (byte :: rest) =
      (stringAt start (byte :: rest)).map (Found.map .byteString) := by
  have other (mark : UInt8) (noDigit : Decimal.isDigit mark = false) : byte ≠ mark := by
    rintro rfl
    simp [noDigit] at digit
  rw [valueAt, readValue, if_neg (other Mark.integer (by decide)),
    if_neg (other Mark.list (by decide)), if_neg (other Mark.dictionary (by decide)),
    if_pos digit, stringAt]
  cases readString start (byte :: rest) <;> rfl

theorem valueAt_unknown (noInteger : byte ≠ Mark.integer) (noList : byte ≠ Mark.list)
    (noDictionary : byte ≠ Mark.dictionary) (noDigit : Decimal.isDigit byte = false) :
    valueAt limit depth start (byte :: rest) =
      .error (.unknownTypePrefix start byte) := by
  rw [valueAt, readValue, if_neg noInteger, if_neg noList, if_neg noDictionary,
    if_neg (by simp [noDigit])]
  rfl

/-- What is found among items does not depend on the input of which the proof speaks. -/
theorem found_readItems (limit depth start : Nat) :
    (position : Nat) → (input : Bytes) → (done : List Value) → (whole : Bytes) →
    (lt : input.length < whole.length) →
    (readItems limit depth start position input done whole lt).map Reading.found =
      itemsAt limit depth start position input done
  | _, [], _, _, _ => by
      rw [itemsAt, readItems, readItems]
      rfl
  | position, byte :: rest, _, _, _ => by
      rw [itemsAt, readItems, readItems]
      by_cases finish : byte = Mark.finish
      · rw [if_pos finish, if_pos finish]
        rfl
      · rw [if_neg finish, if_neg finish]
        cases readValue limit (depth + 1) position (byte :: rest) with
        | error error => rfl
        | ok item => exact (found_readItems ..).trans (found_readItems ..).symm
termination_by _ input => input.length
decreasing_by all_goals exact item.rest_lt

/-- What is found among entries does not depend on the input of which the proof
speaks. -/
theorem found_readEntries (limit depth start : Nat) :
    (position : Nat) → (input : Bytes) → (done : List (Bytes × Value)) →
    (whole : Bytes) →
    (lt : input.length < whole.length) →
    (readEntries limit depth start position input done whole lt).map Reading.found =
      entriesAt limit depth start position input done
  | _, [], _, _, _ => by
      rw [entriesAt, readEntries, readEntries]
      rfl
  | position, byte :: rest, done, _, _ => by
      rw [entriesAt, readEntries, readEntries]
      by_cases finish : byte = Mark.finish
      · rw [if_pos finish, if_pos finish]
        rfl
      · rw [if_neg finish, if_neg finish]
        by_cases noDigit : Decimal.isDigit byte = false
        · rw [if_pos noDigit, if_pos noDigit]
          rfl
        · rw [if_neg noDigit, if_neg noDigit]
          cases readString position (byte :: rest) with
          | error error => rfl
          | ok key =>
            by_cases empty : key.rest = []
            · simp only [empty, if_true]
              rfl
            · simp only [empty, if_false]
              cases readValue limit (depth + 1) key.next key.rest with
              | error error => rfl
              | ok value =>
                by_cases present : (Entries.get? key.result done).isSome
                · simp only [present, if_true]
                  rfl
                · simp only [present]
                  exact (found_readEntries ..).trans (found_readEntries ..).symm
termination_by _ input => input.length
decreasing_by all_goals exact Nat.lt_trans value.rest_lt key.rest_lt

theorem valueAt_list :
    valueAt limit depth start (Mark.list :: rest) =
      if depth ≥ limit then .error (.depthLimitExceeded start limit)
      else itemsAt limit depth start (start + 1) rest [] := by
  rw [valueAt, readValue, if_neg (by decide), if_pos rfl]
  by_cases deep : depth ≥ limit
  · rw [if_pos deep, if_pos deep]
    rfl
  · rw [if_neg deep, if_neg deep, found_readItems]

theorem valueAt_dictionary :
    valueAt limit depth start (Mark.dictionary :: rest) =
      if depth ≥ limit then .error (.depthLimitExceeded start limit)
      else entriesAt limit depth start (start + 1) rest [] := by
  rw [valueAt, readValue, if_neg (by decide), if_neg (by decide), if_pos rfl]
  by_cases deep : depth ≥ limit
  · rw [if_pos deep, if_pos deep]
    rfl
  · rw [if_neg deep, if_neg deep, found_readEntries]

variable {items : List Value}

theorem itemsAt_nil :
    itemsAt limit depth start position [] items = .error (.unterminatedList start) := by
  rw [itemsAt, readItems]
  rfl

theorem itemsAt_finish :
    itemsAt limit depth start position (Mark.finish :: rest) items =
      .ok ⟨.list items.reverse, position + 1, rest⟩ := by
  rw [itemsAt, readItems, if_pos rfl]
  rfl

theorem itemsAt_cons (noFinish : byte ≠ Mark.finish) :
    itemsAt limit depth start position (byte :: rest) items =
      match valueAt limit (depth + 1) position (byte :: rest) with
      | .error error => .error error
      | .ok item =>
          itemsAt limit depth start item.next item.rest (item.result :: items) := by
  rw [itemsAt, readItems, if_neg noFinish, valueAt]
  cases readValue limit (depth + 1) position (byte :: rest) with
  | error error => rfl
  | ok item => exact found_readItems ..

variable {entries : List (Bytes × Value)}

theorem entriesAt_nil :
    entriesAt limit depth start position [] entries =
      .error (.unterminatedDictionary start) := by
  rw [entriesAt, readEntries]
  rfl

theorem entriesAt_finish :
    entriesAt limit depth start position (Mark.finish :: rest) entries =
      .ok ⟨.dictionary entries, position + 1, rest⟩ := by
  rw [entriesAt, readEntries, if_pos rfl]
  rfl

theorem entriesAt_nonString (noFinish : byte ≠ Mark.finish)
    (noDigit : Decimal.isDigit byte = false) :
    entriesAt limit depth start position (byte :: rest) entries =
      .error (.nonStringKey position) := by
  rw [entriesAt, readEntries, if_neg noFinish, if_pos noDigit]
  rfl

theorem entriesAt_cons (digit : Decimal.isDigit byte = true) :
    entriesAt limit depth start position (byte :: rest) entries =
      match stringAt position (byte :: rest) with
      | .error error => .error error
      | .ok key =>
          if key.rest = [] then .error (.unterminatedDictionary start)
          else
            match valueAt limit (depth + 1) key.next key.rest with
            | .error error => .error error
            | .ok value =>
                if (Entries.get? key.result entries).isSome then
                  .error (.duplicateKey position (Utf8.decodeLossy key.result))
                else
                  entriesAt limit depth start value.next value.rest
                    (Entries.insert key.result value.result entries) := by
  have noFinish : byte ≠ Mark.finish := by
    rintro rfl
    exact absurd digit (by decide)
  rw [entriesAt, readEntries, if_neg noFinish, if_neg (by simp [digit]), stringAt]
  cases readString position (byte :: rest) with
  | error error => rfl
  | ok key =>
    by_cases empty : key.rest = []
    · simp only [Except.map, Reading.found, empty, if_true]
    · simp only [Except.map, Reading.found, empty, if_false, valueAt]
      cases readValue limit (depth + 1) key.next key.rest with
      | error error => rfl
      | ok value =>
        by_cases present : (Entries.get? key.result entries).isSome
        · simp only [present, if_true]
        · simp only [present]
          exact found_readEntries ..

end Equations

theorem decodePrefix_eq (limit : Nat) (input : Bytes) :
    decodePrefix limit input =
      (valueAt limit 0 0 input).map fun found => (found.next, found.result) := by
  rw [decodePrefix, valueAt]
  cases readValue limit 0 0 input <;> rfl

theorem decode_eq (limit : Nat) (input : Bytes) :
    decode limit input =
      match valueAt limit 0 0 input with
      | .error error => .error error
      | .ok found =>
          if found.rest = [] then .ok found.result
          else .error (.trailingData found.next found.rest.length) := by
  rw [decode, valueAt]
  cases readValue limit 0 0 input <;> rfl

end Metainfo.Bencode
