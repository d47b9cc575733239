import Mathlib.Data.List.Forall2
import Metainfo.Proofs.Bencode.Numbers
import Metainfo.Proofs.Utf8
import Metainfo.Torrent.Field

/-!
# What fields hold

A reader of a field succeeds exactly if the entry holds a value of the kind that it
expects, and returns what that value stands for.
-/

namespace Metainfo

open Bencode

namespace Bencode.Value

variable {value : Value}

/-- The value that stands for a text. -/
def ofString (text : String) : Value :=
  .byteString (Bytes.ofString text)

/-- The value that stands for a number. -/
def ofNumber (number : Int) : Value :=
  .integer (.ofInt number)

theorem bytes?_eq_some_iff {bytes : Bytes} :
    value.bytes? = some bytes ↔ value = .byteString bytes := by
  cases value <;> simp [bytes?]

theorem integer?_eq_some_iff {number : Integer} :
    value.integer? = some number ↔ value = .integer number := by
  cases value <;> simp [integer?]

theorem items?_eq_some_iff {items : List Value} :
    value.items? = some items ↔ value = .list items := by
  cases value <;> simp [items?]

theorem entries?_eq_some_iff {entries : List (Bytes × Value)} :
    value.entries? = some entries ↔ value = .dictionary entries := by
  cases value <;> simp [entries?]

theorem text?_eq_some_iff {text : String} :
    value.text? = some text ↔ value = ofString text := by
  rw [text?, Option.bind_eq_some_iff]
  simp only [bytes?_eq_some_iff, Utf8.decode?_eq_some_iff]
  constructor
  · rintro ⟨bytes, rfl, rfl⟩
    rfl
  · intro same
    exact ⟨Bytes.ofString text, same, rfl⟩

end Bencode.Value

namespace Torrent

section Results

variable {Result Other : Type}

/-- What is read in two steps is read if both steps succeed. -/
theorem bind_eq_ok_iff {first : Except Error Result}
    {next : Result → Except Error Other} {result : Other} :
    first >>= next = .ok result ↔
      ∃ between, first = .ok between ∧ next between = .ok result := by
  cases first with
  | error error => exact ⟨nofun, nofun⟩
  | ok between =>
    constructor
    · intro read
      exact ⟨between, rfl, read⟩
    · rintro ⟨_, same, read⟩
      cases same
      exact read

theorem orInvalid_eq_ok_iff {key : String} {fault : Fault} {held : Option Result}
    {result : Result} : orInvalid key fault held = .ok result ↔ held = some result := by
  cases held <;> simp [orInvalid]

/-- What is read item by item is read if every item is. -/
theorem mapM_eq_ok_iff {read : Result → Except Error Other} {items : List Result}
    {results : List Other} :
    items.mapM read = .ok results ↔
      List.Forall₂ (fun item result => read item = .ok result) items results := by
  induction items generalizing results with
  | nil =>
    rw [List.mapM_nil, List.forall₂_nil_left_iff]
    exact ⟨fun same => by cases same; rfl, fun same => by rw [same]; rfl⟩
  | cons item items ih =>
    rw [List.mapM_cons, bind_eq_ok_iff]
    simp only [bind_eq_ok_iff, ih, List.forall₂_cons_left_iff]
    constructor
    · rintro ⟨result, first, results, others, same⟩
      cases same
      exact ⟨result, results, first, others, rfl⟩
    · rintro ⟨result, results, first, others, rfl⟩
      exact ⟨result, first, results, others, rfl⟩

end Results

variable {entries : List (Bytes × Value)} {key : String}

theorem field_eq_ok_iff {value : Value} :
    field entries key = .ok value ↔
      Entries.get? (Bytes.ofString key) entries = some value := by
  rw [field]
  cases Entries.get? (Bytes.ofString key) entries <;> simp

theorem bytesField_eq_ok_iff {bytes : Bytes} :
    bytesField entries key = .ok bytes ↔
      Entries.get? (Bytes.ofString key) entries = some (.byteString bytes) := by
  rw [bytesField, bind_eq_ok_iff]
  simp only [field_eq_ok_iff, orInvalid_eq_ok_iff, Value.bytes?_eq_some_iff,
    exists_eq_right]

/-- A text is read where the entry holds its UTF-8 form. -/
theorem textField_eq_ok_iff {text : String} :
    textField entries key = .ok text ↔
      Entries.get? (Bytes.ofString key) entries = some (.ofString text) := by
  rw [textField, bind_eq_ok_iff]
  simp only [bytesField_eq_ok_iff, orInvalid_eq_ok_iff, Utf8.decode?_eq_some_iff,
    exists_eq_right', Value.ofString]

theorem integerField_eq_ok_iff {number : Integer} :
    integerField entries key = .ok number ↔
      Entries.get? (Bytes.ofString key) entries = some (.integer number) := by
  rw [integerField, bind_eq_ok_iff]
  simp only [field_eq_ok_iff, orInvalid_eq_ok_iff, Value.integer?_eq_some_iff,
    exists_eq_right]

/-- An unsigned word is read where the entry holds a number that is one. -/
theorem wordField_eq_ok_iff {word : Nat} :
    wordField entries key = .ok word ↔
      Entries.get? (Bytes.ofString key) entries = some (.ofNumber word) ∧
        word ≤ Decimal.maxWord := by
  rw [wordField, bind_eq_ok_iff]
  simp only [integerField_eq_ok_iff, orInvalid_eq_ok_iff, Integer.toWord?_eq_some_iff]
  constructor
  · rintro ⟨_, held, rfl, within⟩
    exact ⟨held, within⟩
  · rintro ⟨held, within⟩
    exact ⟨_, held, rfl, within⟩

/-- A signed word is read where the entry holds a number that is one. -/
theorem signedField_eq_ok_iff {signed : Int} :
    signedField entries key = .ok signed ↔
      Entries.get? (Bytes.ofString key) entries = some (.ofNumber signed) ∧
        -(Decimal.maxSigned + 1 : Int) ≤ signed ∧ signed ≤ Decimal.maxSigned := by
  rw [signedField, bind_eq_ok_iff]
  simp only [integerField_eq_ok_iff, orInvalid_eq_ok_iff, Integer.toSigned?_eq_some_iff]
  constructor
  · rintro ⟨_, held, rfl, within⟩
    exact ⟨held, within⟩
  · rintro ⟨held, within⟩
    exact ⟨_, held, rfl, within⟩

/-- An optional field is read where the entry is absent or is read itself. -/
theorem optional_eq_ok_iff {Result : Type}
    {read : List (Bytes × Value) → String → Except Error Result}
    {stands : Result → Value} {within : Result → Prop}
    (read_eq_ok_iff : ∀ result, read entries key = .ok result ↔
      Entries.get? (Bytes.ofString key) entries = some (stands result) ∧ within result)
    {result : Option Result} :
    optional read entries key = .ok result ↔
      Entries.get? (Bytes.ofString key) entries = result.map stands ∧
        ∀ found, result = some found → within found := by
  rw [optional]
  cases held : Entries.get? (Bytes.ofString key) entries with
  | none => cases result <;> simp
  | some value =>
    rw [held] at read_eq_ok_iff
    have present : (read entries key).map some = .ok result ↔
        ∃ found, read entries key = .ok found ∧ some found = result := by
      cases read entries key <;> simp [Except.map]
    simp only [present, read_eq_ok_iff]
    cases result <;> simp

theorem optional_textField_eq_ok_iff {text : Option String} :
    optional textField entries key = .ok text ↔
      Entries.get? (Bytes.ofString key) entries = text.map .ofString := by
  have read (found : String) : textField entries key = .ok found ↔
      Entries.get? (Bytes.ofString key) entries = some (.ofString found) ∧ True := by
    rw [textField_eq_ok_iff, and_true]
  rw [optional_eq_ok_iff read]
  simp

theorem optional_signedField_eq_ok_iff {signed : Option Int} :
    optional signedField entries key = .ok signed ↔
      Entries.get? (Bytes.ofString key) entries = signed.map .ofNumber ∧
        ∀ found, signed = some found →
          -(Decimal.maxSigned + 1 : Int) ≤ found ∧ found ≤ Decimal.maxSigned :=
  optional_eq_ok_iff fun _ => signedField_eq_ok_iff

end Torrent

end Metainfo
