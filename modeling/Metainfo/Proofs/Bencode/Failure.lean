import Mathlib.Logic.Relation
import Metainfo.Proofs.Bencode.Acceptance

/-!
# How reading fails

A reader that fails has come to a place where a value was to be read, going into one
list or dictionary after another past values that are complete, and at this place
something is wrong.  The way to the place and what is wrong there are described apart
from each other and from the readers.  Main statement: reading fails with an error
exactly if a place can be reached at which this error is raised.
-/

namespace Metainfo.Bencode

open Value

/-- A place in an input where a value is to be read: how many lists and dictionaries are
open there, its offset, and the octets from there on. -/
structure Place where
  depth : Nat
  offset : Nat
  rest : Bytes

/-- The texts of keys and values, entry after entry. -/
abbrev encodeEntries (entries : List (Bytes × Value)) : Bytes :=
  entries.flatMap fun entry => encodeString entry.1 ++ entry.2.encode

/-- Reading goes from a list into one of its items, or from a dictionary into the value
of one of its entries.  What stands before would be readable if the list or dictionary
ended there. -/
inductive Enters (limit : Nat) : Place → Place → Prop where
  | item {depth offset : Nat} {items : List Value} {byte : UInt8} {rest : Bytes} :
      (list items).Readable limit depth → byte ≠ Mark.finish →
      Enters limit
        ⟨depth, offset, Mark.list :: (items.flatMap encode ++ byte :: rest)⟩
        ⟨depth + 1, offset + 1 + (items.flatMap encode).length, byte :: rest⟩
  | entry {depth offset : Nat} {entries : List (Bytes × Value)} {key : Bytes}
      {byte : UInt8}
      {rest : Bytes} :
      (dictionary entries).Readable limit depth → key.length ≤ Decimal.maxWord →
      Enters limit
        ⟨depth, offset,
          Mark.dictionary ::
            (encodeEntries entries ++ (encodeString key ++ byte :: rest))⟩
        ⟨depth + 1,
          offset + 1 + (encodeEntries entries).length + (encodeString key).length,
          byte :: rest⟩

/-- Reading comes from one place to another. -/
abbrev Reaches (limit : Nat) : Place → Place → Prop :=
  Relation.ReflTransGen (Enters limit)

/-- What is wrong with an entry of the dictionary that begins at `start`, apart from its
value.  The entry should begin at `position`; the keys before it are given. -/
inductive EntryFault (limit depth start position : Nat) (keys : List Bytes) :
    Bytes → DecodeError → Prop where
  | noEntry :
      EntryFault limit depth start position keys [] (.unterminatedDictionary start)
  | noValue {key : Bytes} : key.length ≤ Decimal.maxWord →
      EntryFault limit depth start position keys (encodeString key)
        (.unterminatedDictionary start)
  | nonStringKey {byte : UInt8} {rest : Bytes} :
      byte ≠ Mark.finish → Decimal.isDigit byte = false →
      EntryFault limit depth start position keys (byte :: rest) (.nonStringKey position)
  | key {byte : UInt8} {rest : Bytes} {error : DecodeError} :
      Decimal.isDigit byte = true → stringAt position (byte :: rest) = .error error →
      EntryFault limit depth start position keys (byte :: rest) error
  | duplicateKey {key rest : Bytes} {value : Value} :
      key ∈ keys → key.length ≤ Decimal.maxWord → value.Readable limit (depth + 1) →
      EntryFault limit depth start position keys
        (encodeString key ++ (value.encode ++ rest))
        (.duplicateKey position (Utf8.decodeLossy key))

/-- Whether a list or a dictionary begins with an octet. -/
def opensContainer (byte : UInt8) : Prop :=
  byte = Mark.list ∨ byte = Mark.dictionary

/-- What is wrong with the value at a place, apart from the values inside it. -/
inductive Raises (limit : Nat) : Place → DecodeError → Prop where
  | unexpectedEnd {depth offset : Nat} :
      Raises limit ⟨depth, offset, []⟩ (.unexpectedEnd offset)
  | integer {depth offset : Nat} {rest : Bytes} {error : DecodeError} :
      integerAt offset rest = .error error →
      Raises limit ⟨depth, offset, Mark.integer :: rest⟩ error
  | byteString {depth offset : Nat} {byte : UInt8} {rest : Bytes}
      {error : DecodeError} :
      Decimal.isDigit byte = true → stringAt offset (byte :: rest) = .error error →
      Raises limit ⟨depth, offset, byte :: rest⟩ error
  | unknown {depth offset : Nat} {byte : UInt8} {rest : Bytes} :
      byte ≠ Mark.integer → ¬opensContainer byte → Decimal.isDigit byte = false →
      Raises limit ⟨depth, offset, byte :: rest⟩ (.unknownTypePrefix offset byte)
  | tooDeep {depth offset : Nat} {byte : UInt8} {rest : Bytes} :
      opensContainer byte → limit ≤ depth →
      Raises limit ⟨depth, offset, byte :: rest⟩ (.depthLimitExceeded offset limit)
  | noItem {depth offset : Nat} {items : List Value} :
      (list items).Readable limit depth →
      Raises limit ⟨depth, offset, Mark.list :: items.flatMap encode⟩
        (.unterminatedList offset)
  | entry {depth offset : Nat} {entries : List (Bytes × Value)} {rest : Bytes}
      {error : DecodeError} :
      (dictionary entries).Readable limit depth →
      EntryFault limit depth offset (offset + 1 + (encodeEntries entries).length)
        (Entries.keys entries) rest error →
      Raises limit ⟨depth, offset, Mark.dictionary :: (encodeEntries entries ++ rest)⟩
        error

/-! ## Readable lists and dictionaries -/

namespace Value

variable {limit depth : Nat}

theorem readable_list_iff {items : List Value} :
    (list items).Readable limit depth ↔
      depth < limit ∧ ∀ item ∈ items, item.Readable limit (depth + 1) := by
  constructor
  · rintro ⟨distinct, fits, within⟩
    rw [Distinct, distinctItems_iff] at distinct
    rw [Value.depth] at within
    have inside := depthItems_le_iff.1 (Nat.le_refl (depthItems items))
    cases fits with
    | list fits =>
      refine ⟨by omega, fun item member => ⟨distinct item member, fits item member, ?_⟩⟩
      have := inside item member
      omega
  · rintro ⟨shallow, each⟩
    refine ⟨?_, .list fun item member => (each item member).fits, ?_⟩
    · rw [Distinct, distinctItems_iff]
      exact fun item member => (each item member).distinct
    · have inside : depthItems items ≤ limit - (depth + 1) := by
        rw [depthItems_le_iff]
        intro item member
        have := (each item member).within
        omega
      rw [Value.depth]
      omega

theorem readable_dictionary_iff {entries : List (Bytes × Value)} :
    (dictionary entries).Readable limit depth ↔
      depth < limit ∧ (Entries.keys entries).Nodup ∧
        ∀ entry ∈ entries,
          entry.1.length ≤ Decimal.maxWord ∧ entry.2.Readable limit (depth + 1) := by
  constructor
  · rintro ⟨distinct, fits, within⟩
    rw [Distinct, distinctEntries_iff] at distinct
    rw [Value.depth] at within
    have inside := depthEntries_le_iff.1 (Nat.le_refl (depthEntries entries))
    cases fits with
    | dictionary short fits =>
      refine ⟨by omega, distinct.1, fun entry member =>
        ⟨short entry member, distinct.2 entry member, fits entry member, ?_⟩⟩
      have := inside entry member
      omega
  · rintro ⟨shallow, keys, each⟩
    refine ⟨?_, .dictionary (fun entry member => (each entry member).1)
      fun entry member => (each entry member).2.fits, ?_⟩
    · rw [Distinct, distinctEntries_iff]
      exact ⟨keys, fun entry member => (each entry member).2.distinct⟩
    · have inside : depthEntries entries ≤ limit - (depth + 1) := by
        rw [depthEntries_le_iff]
        intro entry member
        have := (each entry member).2.within
        omega
      rw [Value.depth]
      omega

end Value

/-- Openings that are all shallower do not matter. -/
theorem unlessTooDeep_of_ne {limit : Nat} {openings : List Opening}
    (shallow : ∀ opening ∈ openings, opening.around ≠ limit)
    (outcome : Except DecodeError (Found Value)) :
    unlessTooDeep limit openings outcome = outcome := by
  have none : openings.find? (fun opening => opening.around = limit) = none := by
    simpa using shallow
  rw [unlessTooDeep, none]

section Passing

variable {limit depth start : Nat}

/-- Reading goes on behind the items of a readable list. -/
theorem itemsAt_readable {items : List Value}
    (readable : (list items).Readable limit depth) (position : Nat) (rest : Bytes) :
    itemsAt limit depth start position (items.flatMap encode ++ rest) [] =
      itemsAt limit depth start (position + (items.flatMap encode).length) rest
        (sortedItems items).reverse := by
  have each := readable_list_iff.1 readable
  have shallow : ∀ opening ∈ openingsOfItems position (depth + 1) items,
      opening.around ≠ limit := by
    rw [openingsOfItems_ne_iff each.1 fun item _ start =>
      openings_ne_iff item start each.1]
    have within := readable.within
    rw [Value.depth] at within
    omega
  rw [itemsAt_flatMap (fun item member => (each.2 item member).readsBack) each.1,
    unlessTooDeep_of_ne shallow, List.append_nil]

/-- Reading goes on behind the entries of a readable dictionary. -/
theorem entriesAt_readable {entries : List (Bytes × Value)}
    (readable : (dictionary entries).Readable limit depth) (position : Nat)
    (rest : Bytes) :
    entriesAt limit depth start position (encodeEntries entries ++ rest) [] =
      entriesAt limit depth start (position + (encodeEntries entries).length) rest
        (Entries.ofList (sortedEntries entries)) := by
  have each := readable_dictionary_iff.1 readable
  have shallow : ∀ opening ∈ openingsOfEntries position (depth + 1) entries,
      opening.around ≠ limit := by
    rw [openingsOfEntries_ne_iff each.1 fun entry _ start =>
      openings_ne_iff entry.2 start each.1]
    have within := readable.within
    rw [Value.depth] at within
    omega
  rw [entriesAt_flatMap (fun entry member => (each.2.2 entry member).2.readsBack)
      (fun entry member => (each.2.2 entry member).1) each.1 _ _ _
      (by simpa using each.2.1),
    unlessTooDeep_of_ne shallow]
  rfl

end Passing

/-! ## From the error to the place -/

section Descent

variable {limit depth start position : Nat} {input : Bytes} {error : DecodeError}

/-- Inversion of a failed reading of a value: it fails by itself, or among its parts. -/
theorem valueAt_eq_error_cases
    (failed : valueAt limit depth start input = .error error) :
    Raises limit ⟨depth, start, input⟩ error ∨
    depth < limit ∧
      ((∃ rest, input = Mark.list :: rest ∧
        itemsAt limit depth start (start + 1) rest [] = .error error) ∨
      ∃ rest, input = Mark.dictionary :: rest ∧
        entriesAt limit depth start (start + 1) rest [] = .error error) := by
  cases input with
  | nil =>
    rw [valueAt_nil] at failed
    cases failed
    exact .inl .unexpectedEnd
  | cons byte rest =>
    by_cases isInteger : byte = Mark.integer
    · subst isInteger
      rw [valueAt_integer] at failed
      cases integer : integerAt start rest with
      | error fault =>
        rw [integer] at failed
        cases failed
        exact .inl (.integer integer)
      | ok number =>
        rw [integer] at failed
        cases failed
    by_cases isList : byte = Mark.list
    · subst isList
      rw [valueAt_list] at failed
      split at failed
      · rename_i deep
        cases failed
        exact .inl (.tooDeep (.inl rfl) deep)
      · exact .inr ⟨by omega, .inl ⟨rest, rfl, failed⟩⟩
    by_cases isDictionary : byte = Mark.dictionary
    · subst isDictionary
      rw [valueAt_dictionary] at failed
      split at failed
      · rename_i deep
        cases failed
        exact .inl (.tooDeep (.inr rfl) deep)
      · exact .inr ⟨by omega, .inr ⟨rest, rfl, failed⟩⟩
    by_cases isDigit : Decimal.isDigit byte = true
    · rw [valueAt_string isDigit] at failed
      cases string : stringAt start (byte :: rest) with
      | error fault =>
        rw [string] at failed
        cases failed
        exact .inl (.byteString isDigit string)
      | ok bytes =>
        rw [string] at failed
        cases failed
    have noDigit : Decimal.isDigit byte = false := by simpa using isDigit
    rw [valueAt_unknown isInteger isList isDictionary noDigit] at failed
    cases failed
    exact .inl (.unknown isInteger (not_or.2 ⟨isList, isDictionary⟩) noDigit)

/-- A failed reading of items has read some of them, and then the input ends or the next
one cannot be read. -/
theorem exists_items_of_itemsAt_error (shallow : depth < limit) : (position : Nat) →
    (input : Bytes) → (done : List Value) →
    itemsAt limit depth start position input done = .error error →
    ∃ items rest, (list items).Readable limit depth ∧
      input = items.flatMap encode ++ rest ∧
      (rest = [] ∧ error = .unterminatedList start ∨
        ∃ byte tail, rest = byte :: tail ∧ byte ≠ Mark.finish ∧
          valueAt limit (depth + 1) (position + (items.flatMap encode).length) rest =
            .error error)
  | position, [], done, failed => by
      rw [itemsAt_nil] at failed
      cases failed
      exact ⟨[], [], readable_list_iff.2 ⟨shallow, by simp⟩, rfl, .inl ⟨rfl, rfl⟩⟩
  | position, byte :: tail, done, failed => by
      by_cases finish : byte = Mark.finish
      · rw [finish, itemsAt_finish] at failed
        cases failed
      rw [itemsAt_cons finish] at failed
      cases first : valueAt limit (depth + 1) position (byte :: tail) with
      | error fault =>
        rw [first] at failed
        cases failed
        exact ⟨[], _, readable_list_iff.2 ⟨shallow, by simp⟩, rfl,
          .inr ⟨byte, tail, rfl, finish, first⟩⟩
      | ok item =>
        simp only [first] at failed
        obtain ⟨written, read⟩ :=
          exists_readFrom limit (depth + 1) position _ item shallow first
        have smaller := read.rest_lt
        obtain ⟨items, rest, readable, text, fault⟩ :=
          exists_items_of_itemsAt_error shallow item.next item.rest _ failed
        refine ⟨written :: items, rest, readable_list_iff.2 ⟨shallow, ?_⟩, ?_, ?_⟩
        · exact List.forall_mem_cons.2 ⟨read.readable, (readable_list_iff.1 readable).2⟩
        · rw [read.text, text, List.flatMap_cons, List.append_assoc]
        · rwa [read.next, Nat.add_assoc, ← List.length_append, ← List.flatMap_cons]
            at fault
termination_by _ input => input.length
decreasing_by exact smaller

theorem EntryFault.mono {keys others : List Bytes} (subset : ∀ key ∈ keys, key ∈ others)
    (fault : EntryFault limit depth start position keys input error) :
    EntryFault limit depth start position others input error := by
  cases fault with
  | noEntry => exact .noEntry
  | noValue short => exact .noValue short
  | nonStringKey noFinish noDigit => exact .nonStringKey noFinish noDigit
  | key digit failed => exact .key digit failed
  | duplicateKey member short readable =>
    exact .duplicateKey (subset _ member) short readable

/-- Inversion of a failed reading of entries: something is wrong with the next one, or
with its value, or it is read. -/
theorem entriesAt_eq_error_cases {done : List (Bytes × Value)} (shallow : depth < limit)
    (failed : entriesAt limit depth start position input done = .error error) :
    EntryFault limit depth start position (Entries.keys done) input error ∨
    (∃ key byte tail, input = encodeString key ++ byte :: tail ∧
      key.length ≤ Decimal.maxWord ∧
      valueAt limit (depth + 1) (position + (encodeString key).length) (byte :: tail) =
        .error error) ∨
    ∃ key, ∃ value : Value, ∃ rest, input = encodeString key ++ (value.encode ++ rest) ∧
      key.length ≤ Decimal.maxWord ∧ value.Readable limit (depth + 1) ∧
      key ∉ Entries.keys done ∧
      entriesAt limit depth start
        (position + (encodeString key ++ value.encode).length) rest
        (Entries.insert key value.sorted done) = .error error := by
  cases input with
  | nil =>
    rw [entriesAt_nil] at failed
    cases failed
    exact .inl .noEntry
  | cons byte tail =>
    by_cases finish : byte = Mark.finish
    · rw [finish, entriesAt_finish] at failed
      cases failed
    by_cases digit : Decimal.isDigit byte = true
    · cases name : stringAt position (byte :: tail) with
      | error fault =>
        rw [entriesAt_cons digit, name] at failed
        cases failed
        exact .inl (.key digit name)
      | ok key =>
        obtain ⟨text, -, short⟩ := stringAt_eq_ok_iff.1 name
        rw [text, entriesAt_encodeString _ _ _ short] at failed
        rw [text]
        cases after : key.rest with
        | nil =>
          rw [after, if_pos rfl] at failed
          cases failed
          rw [List.append_nil]
          exact .inl (.noValue short)
        | cons next rest =>
          rw [after, if_neg (by simp)] at failed
          cases first :
            valueAt limit (depth + 1) (position + (encodeString key.result).length)
              (next :: rest) with
          | error fault =>
            rw [first] at failed
            cases failed
            exact .inr (.inl ⟨key.result, next, rest, rfl, short, first⟩)
          | ok value =>
            obtain ⟨written, readable, valueText, result, valueNext⟩ :=
              (valueAt_eq_ok_iff shallow).1 first
            simp only [first] at failed
            rw [valueText]
            split at failed
            · rename_i present
              cases failed
              have member : key.result ∈ Entries.keys done := by
                by_contra absent
                rw [Entries.get?_eq_none_iff.2 absent] at present
                cases present
              exact .inl (.duplicateKey member short readable)
            · rename_i absent
              have fresh : key.result ∉ Entries.keys done :=
                Entries.get?_eq_none_iff.1 (by simpa using absent)
              rw [valueNext, result, Nat.add_assoc, ← List.length_append] at failed
              exact .inr (.inr ⟨_, written, _, rfl, short, readable, fresh, failed⟩)
    · have noDigit : Decimal.isDigit byte = false := by simpa using digit
      rw [entriesAt_nonString finish noDigit] at failed
      cases failed
      exact .inl (.nonStringKey finish noDigit)

/-- A failed reading of entries has read some of them, and then something is wrong with
the next one or with its value. -/
theorem exists_entries_of_entriesAt_error (shallow : depth < limit) : (position : Nat) →
    (input : Bytes) → (done : List (Bytes × Value)) →
    entriesAt limit depth start position input done = .error error →
    ∃ entries rest, (dictionary entries).Readable limit depth ∧
      (∀ key ∈ Entries.keys entries, key ∉ Entries.keys done) ∧
      input = encodeEntries entries ++ rest ∧
      (EntryFault limit depth start (position + (encodeEntries entries).length)
          (Entries.keys entries ++ Entries.keys done) rest error ∨
        ∃ key byte tail, rest = encodeString key ++ byte :: tail ∧
          key.length ≤ Decimal.maxWord ∧
          valueAt limit (depth + 1)
            (position + (encodeEntries entries).length + (encodeString key).length)
            (byte :: tail) = .error error)
  | position, input, done, failed => by
      have empty : (dictionary []).Readable limit depth :=
        readable_dictionary_iff.2 ⟨shallow, .nil, by simp⟩
      rcases entriesAt_eq_error_cases shallow failed with
        fault | value | ⟨key, value, rest, rfl, short, readableValue, fresh, failed⟩
      · exact ⟨[], input, empty, by simp, rfl, .inl fault⟩
      · exact ⟨[], input, empty, by simp, rfl, .inr value⟩
      · have smaller :
            rest.length < (encodeString key ++ (value.encode ++ rest)).length := by
          obtain ⟨digit, text, cons, -⟩ := exists_encodeString_eq_cons key
          simp only [cons, List.cons_append, List.length_cons, List.length_append]
          omega
        obtain ⟨entries, rest, readable, apart, rfl, fault⟩ :=
          exists_entries_of_entriesAt_error shallow _ rest _ failed
        have each := readable_dictionary_iff.1 readable
        have others : ∀ other ∈ Entries.keys entries,
            other ≠ key ∧ other ∉ Entries.keys done := fun other member => by
          have notInserted := apart other member
          rwa [Entries.mem_keys_insert, not_or] at notInserted
        have text : encodeEntries ((key, value) :: entries) =
            encodeString key ++ value.encode ++ encodeEntries entries :=
          List.flatMap_cons ..
        rw [Nat.add_assoc, ← List.length_append, ← text] at fault
        refine ⟨(key, value) :: entries, rest,
          readable_dictionary_iff.2 ⟨shallow, ?_, ?_⟩, ?_, ?_, ?_⟩
        · exact List.nodup_cons.2 ⟨fun member => (others key member).1 rfl, each.2.1⟩
        · exact List.forall_mem_cons.2 ⟨⟨short, readableValue⟩, each.2.2⟩
        · exact List.forall_mem_cons.2
            ⟨fresh, fun other member => (others other member).2⟩
        · rw [text, List.append_assoc, List.append_assoc]
        · refine fault.imp_left (.mono ?_)
          intro other member
          rw [List.mem_append, Entries.mem_keys_insert] at member
          rw [Entries.keys_cons, List.cons_append, List.mem_cons, List.mem_append]
          exact or_left_comm.1 member
termination_by _ input => input.length

/-- Where reading fails, a place is reached at which the error is raised. -/
theorem exists_raises (limit : Nat) : (depth start : Nat) → (input : Bytes) →
    valueAt limit depth start input = .error error →
    ∃ place, Reaches limit ⟨depth, start, input⟩ place ∧ Raises limit place error
  | depth, start, input, failed => by
      rcases valueAt_eq_error_cases failed with
        raises | ⟨shallow, ⟨rest, text, inside⟩ | ⟨rest, text, inside⟩⟩
      · exact ⟨_, .refl, raises⟩
      · obtain ⟨items, rest, readable, rfl,
            ⟨rfl, rfl⟩ | ⟨byte, tail, rfl, noFinish, below⟩⟩ :=
          exists_items_of_itemsAt_error shallow _ rest [] inside
        · rw [text, List.append_nil]
          exact ⟨_, .refl, .noItem readable⟩
        · have smaller : (byte :: tail).length < input.length := by
            simp only [text, List.length_cons, List.length_append]
            omega
          obtain ⟨place, reaches, raises⟩ := exists_raises limit _ _ _ below
          rw [text]
          exact ⟨place, reaches.head (.item readable noFinish), raises⟩
      · obtain ⟨entries, rest, readable, -, rfl,
            fault | ⟨key, byte, tail, rfl, short, below⟩⟩ :=
          exists_entries_of_entriesAt_error shallow _ rest [] inside
        · rw [Entries.keys_nil, List.append_nil] at fault
          rw [text]
          exact ⟨_, .refl, .entry readable fault⟩
        · have smaller : (byte :: tail).length < input.length := by
            simp only [text, List.length_cons, List.length_append]
            omega
          obtain ⟨place, reaches, raises⟩ := exists_raises limit _ _ _ below
          rw [text]
          exact ⟨place, reaches.head (.entry readable short), raises⟩
termination_by _ _ input => input.length

end Descent

/-! ## From the place to the error -/

section Ascent

variable {limit depth start position : Nat} {input : Bytes} {error : DecodeError}
  {place inner : Place}

theorem EntryFault.entriesAt_eq {done : List (Bytes × Value)}
    (fault : EntryFault limit depth start position (Entries.keys done) input error) :
    entriesAt limit depth start position input done = .error error := by
  cases fault with
  | noEntry => exact entriesAt_nil
  | @noValue key short =>
    rw [← List.append_nil (encodeString key), entriesAt_encodeString _ _ _ short,
      if_pos rfl]
  | nonStringKey noFinish noDigit => exact entriesAt_nonString noFinish noDigit
  | key digit failed => rw [entriesAt_cons digit, failed]
  | @duplicateKey key rest value member short readable =>
    obtain ⟨first, text, cons, -, -⟩ := exists_encode_eq_cons value
    have nonempty : value.encode ++ rest ≠ [] := by simp [cons]
    have present : (Entries.get? key done).isSome = true := by
      rw [Option.isSome_iff_ne_none, ne_eq, Entries.get?_eq_none_iff]
      exact not_not.2 member
    rw [entriesAt_encodeString _ _ _ short, if_neg nonempty, readable.valueAt_encode]
    exact if_pos present

/-- Where an error is raised, reading fails with it. -/
theorem Raises.valueAt_eq (raises : Raises limit place error) :
    valueAt limit place.depth place.offset place.rest = .error error := by
  cases raises with
  | unexpectedEnd => exact valueAt_nil
  | integer failed =>
    rw [valueAt_integer, failed]
    rfl
  | byteString digit failed =>
    rw [valueAt_string digit, failed]
    rfl
  | unknown noInteger noContainer noDigit =>
    obtain ⟨noList, noDictionary⟩ := not_or.1 noContainer
    exact valueAt_unknown noInteger noList noDictionary noDigit
  | tooDeep opens deep =>
    rcases opens with rfl | rfl
    · rw [valueAt_list, if_pos deep]
    · rw [valueAt_dictionary, if_pos deep]
  | @noItem depth offset items readable =>
    have shallow := (readable_list_iff.1 readable).1
    rw [valueAt_list, if_neg (Nat.not_le.2 shallow),
      ← List.append_nil (items.flatMap encode), itemsAt_readable readable, itemsAt_nil]
  | @entry depth offset entries rest error readable fault =>
    have shallow := (readable_dictionary_iff.1 readable).1
    have sameKeys : ∀ key ∈ Entries.keys entries,
        key ∈ Entries.keys (Entries.ofList (sortedEntries entries)) := by
      intro key member
      have distinct := (readable_dictionary_iff.1 readable).2.1
      rw [← keys_sortedEntries] at distinct member
      rwa [Entries.keys, ((Entries.ofList_perm distinct).map Prod.fst).mem_iff]
    rw [valueAt_dictionary, if_neg (Nat.not_le.2 shallow), entriesAt_readable readable]
    exact (fault.mono sameKeys).entriesAt_eq

/-- What fails inside fails outside. -/
theorem Enters.valueAt_eq (enters : Enters limit place inner)
    (failed : valueAt limit inner.depth inner.offset inner.rest = .error error) :
    valueAt limit place.depth place.offset place.rest = .error error := by
  cases enters with
  | item readable noFinish =>
    have shallow := (readable_list_iff.1 readable).1
    rw [valueAt_list, if_neg (Nat.not_le.2 shallow), itemsAt_readable readable,
      itemsAt_cons noFinish, failed]
  | entry readable short =>
    have shallow := (readable_dictionary_iff.1 readable).1
    rw [valueAt_dictionary, if_neg (Nat.not_le.2 shallow), entriesAt_readable readable,
      entriesAt_encodeString _ _ _ short, if_neg (by simp), failed]

theorem Reaches.valueAt_eq (reaches : Reaches limit place inner)
    (failed : valueAt limit inner.depth inner.offset inner.rest = .error error) :
    valueAt limit place.depth place.offset place.rest = .error error := by
  induction reaches using Relation.ReflTransGen.head_induction_on with
  | refl => exact failed
  | head enters _ ih => exact enters.valueAt_eq ih

/-- Reading fails with an error exactly if a place can be reached at which the error is
raised. -/
theorem valueAt_eq_error_iff :
    valueAt limit depth start input = .error error ↔
      ∃ place, Reaches limit ⟨depth, start, input⟩ place ∧
        Raises limit place error := by
  constructor
  · exact exists_raises limit depth start input
  · rintro ⟨place, reaches, raises⟩
    exact Reaches.valueAt_eq reaches raises.valueAt_eq

theorem decodePrefix_eq_error_iff :
    decodePrefix limit input = .error error ↔
      ∃ place, Reaches limit ⟨0, 0, input⟩ place ∧ Raises limit place error := by
  rw [decodePrefix_eq, ← valueAt_eq_error_iff]
  cases valueAt limit 0 0 input <;> simp [Except.map]

end Ascent

/-! ## Places inside an input -/

section Places

variable {limit : Nat} {place inner : Place}

theorem Enters.depth_eq (enters : Enters limit place inner) :
    place.depth < limit ∧ inner.depth = place.depth + 1 := by
  cases enters with
  | item readable _ => exact ⟨(readable_list_iff.1 readable).1, rfl⟩
  | entry readable _ => exact ⟨(readable_dictionary_iff.1 readable).1, rfl⟩

/-- One place lies inside another at the offset that the octets between them make. -/
theorem Enters.exists_before (enters : Enters limit place inner) :
    ∃ before, place.rest = before ++ inner.rest ∧
      inner.offset = place.offset + before.length ∧
      before ≠ [] := by
  cases enters with
  | @item depth offset items byte rest =>
    refine ⟨Mark.list :: items.flatMap encode, by simp, ?_, by simp⟩
    simp only [List.length_cons]
    omega
  | @entry depth offset entries key byte rest =>
    refine ⟨Mark.dictionary :: (encodeEntries entries ++ encodeString key), by simp, ?_,
      by simp⟩
    simp only [List.length_cons, List.length_append]
    omega

theorem Reaches.exists_before (reaches : Reaches limit place inner) :
    ∃ before, place.rest = before ++ inner.rest ∧
      inner.offset = place.offset + before.length := by
  induction reaches with
  | refl => exact ⟨[], rfl, rfl⟩
  | tail _ enters ih =>
    obtain ⟨before, text, offset⟩ := ih
    obtain ⟨between, innerText, innerOffset, -⟩ := enters.exists_before
    refine ⟨before ++ between, ?_, ?_⟩
    · rw [text, innerText, List.append_assoc]
    · rw [innerOffset, offset, List.length_append, Nat.add_assoc]

end Places

end Metainfo.Bencode
