import Metainfo.Proofs.Bencode.RoundTrip

/-!
# What decoding accepts

Whatever a reader accepts is the canonical form of a value as it is written, and the
reader returns that value in order.  With what is known of decoding canonical forms,
decoding accepts exactly the texts of the grammar, up to the limit of depth.
-/

namespace Metainfo.Bencode

open Value

variable {limit depth start position : Nat} {input rest : Bytes} {found : Found Value}

/-- Inversion of a successful reading of a value, by the octet with which it begins. -/
theorem valueAt_eq_ok_cases {byte : UInt8}
    (read : valueAt limit depth start (byte :: rest) = .ok found) :
    (byte = Mark.integer ∧
      ∃ number, integerAt start rest = .ok number ∧ found = number.map .integer) ∨
    (byte = Mark.list ∧ depth < limit ∧
      itemsAt limit depth start (start + 1) rest [] = .ok found) ∨
    (byte = Mark.dictionary ∧ depth < limit ∧
      entriesAt limit depth start (start + 1) rest [] = .ok found) ∨
    ∃ bytes, stringAt start (byte :: rest) = .ok bytes ∧
      found = bytes.map .byteString := by
  by_cases isInteger : byte = Mark.integer
  · subst isInteger
    rw [valueAt_integer] at read
    cases integer : integerAt start rest with
    | error error =>
      rw [integer] at read
      cases read
    | ok number =>
      rw [integer] at read
      cases read
      exact .inl ⟨rfl, number, rfl, rfl⟩
  by_cases isList : byte = Mark.list
  · subst isList
    rw [valueAt_list] at read
    split at read
    · cases read
    · exact .inr (.inl ⟨rfl, by omega, read⟩)
  by_cases isDictionary : byte = Mark.dictionary
  · subst isDictionary
    rw [valueAt_dictionary] at read
    split at read
    · cases read
    · exact .inr (.inr (.inl ⟨rfl, by omega, read⟩))
  by_cases isDigit : Decimal.isDigit byte = true
  · rw [valueAt_string isDigit] at read
    cases string : stringAt start (byte :: rest) with
    | error error =>
      rw [string] at read
      cases read
    | ok bytes =>
      rw [string] at read
      cases read
      exact .inr (.inr (.inr ⟨bytes, rfl, rfl⟩))
  rw [valueAt_unknown isInteger isList isDictionary (by simpa using isDigit)] at read
  cases read

/-- Inversion of a successful reading of items: the list ends, or an item was found
first. -/
theorem itemsAt_eq_ok_cases {done : List Value}
    (read : itemsAt limit depth start position input done = .ok found) :
    (∃ rest, input = Mark.finish :: rest ∧
      found = ⟨.list done.reverse, position + 1, rest⟩) ∨
    ∃ item, valueAt limit (depth + 1) position input = .ok item ∧
      itemsAt limit depth start item.next item.rest (item.result :: done) =
        .ok found := by
  cases input with
  | nil =>
    rw [itemsAt_nil] at read
    cases read
  | cons byte rest =>
    by_cases finish : byte = Mark.finish
    · subst finish
      rw [itemsAt_finish] at read
      cases read
      exact .inl ⟨rest, rfl, rfl⟩
    · rw [itemsAt_cons finish] at read
      cases first : valueAt limit (depth + 1) position (byte :: rest) with
      | error error => simp [first] at read
      | ok item =>
        rw [first] at read
        exact .inr ⟨item, rfl, read⟩

/-- Inversion of a successful reading of entries: the dictionary ends, or a new key and
its value were found first. -/
theorem entriesAt_eq_ok_cases {done : List (Bytes × Value)}
    (read : entriesAt limit depth start position input done = .ok found) :
    (∃ rest, input = Mark.finish :: rest ∧
      found = ⟨.dictionary done, position + 1, rest⟩) ∨
    ∃ key value, stringAt position input = .ok key ∧
      valueAt limit (depth + 1) key.next key.rest = .ok value ∧
      Entries.get? key.result done = none ∧
      entriesAt limit depth start value.next value.rest
        (Entries.insert key.result value.result done) = .ok found := by
  cases input with
  | nil =>
    rw [entriesAt_nil] at read
    cases read
  | cons byte rest =>
    by_cases finish : byte = Mark.finish
    · subst finish
      rw [entriesAt_finish] at read
      cases read
      exact .inl ⟨rest, rfl, rfl⟩
    by_cases digit : Decimal.isDigit byte = true
    · rw [entriesAt_cons digit] at read
      cases name : stringAt position (byte :: rest) with
      | error error => simp [name] at read
      | ok key =>
        simp only [name] at read
        split at read
        · cases read
        cases first : valueAt limit (depth + 1) key.next key.rest with
        | error error => simp [first] at read
        | ok value =>
          simp only [first] at read
          split at read
          · cases read
          · rename_i fresh
            exact .inr ⟨key, value, rfl, first, by simpa using fresh, read⟩
    · rw [entriesAt_nonString finish (by simpa using digit)] at read
      cases read

/-- The octets that were read are the canonical form of a value as it is written, which
lies no deeper than the limit allows; it was found in order, and the offset after it is
that of its end. -/
structure ReadFrom (limit depth start : Nat) (input : Bytes) (found : Found Value)
    (written : Value) : Prop where
  distinct : written.Distinct
  fits : written.Fits
  text : input = written.encode ++ found.rest
  result : found.result = written.sorted
  next : found.next = start + written.encode.length
  within : depth + written.depth ≤ limit

/-- What was read as items are the canonical forms of values, up to the mark of the
end. -/
structure ItemsReadFrom (limit depth position : Nat) (input : Bytes) (done : List Value)
    (found : Found Value) (items : List Value) : Prop where
  distinct : ∀ item ∈ items, item.Distinct
  fits : ∀ item ∈ items, item.Fits
  text : input = items.flatMap encode ++ Mark.finish :: found.rest
  result : found.result = .list (done.reverse ++ items.map sorted)
  next : found.next = position + (items.flatMap encode).length + 1
  within : depth + 1 + depthItems items ≤ limit

/-- What was read as entries are keys and the canonical forms of values, up to the mark
of the end.  No key occurs twice, also with those that were read before. -/
structure EntriesReadFrom (limit depth position : Nat) (input : Bytes)
    (done : List (Bytes × Value)) (found : Found Value)
    (entries : List (Bytes × Value)) : Prop where
  distinct : ∀ entry ∈ entries, entry.2.Distinct
  short : ∀ entry ∈ entries, entry.1.length ≤ Decimal.maxWord
  fits : ∀ entry ∈ entries, entry.2.Fits
  keys : (Entries.keys entries).Nodup
  fresh : ∀ key ∈ Entries.keys entries, key ∉ Entries.keys done
  text : input =
    entries.flatMap (fun entry => encodeString entry.1 ++ entry.2.encode) ++
      Mark.finish :: found.rest
  result : found.result =
    .dictionary ((sortedEntries entries).foldl
      (fun done entry => Entries.insert entry.1 entry.2 done) done)
  next : found.next =
    position +
      (entries.flatMap fun entry => encodeString entry.1 ++ entry.2.encode).length + 1
  within : depth + 1 + depthEntries entries ≤ limit

theorem stringAt_rest_lt {bytes : Found Bytes}
    (read : stringAt start input = .ok bytes) :
    bytes.rest.length < input.length := by
  obtain ⟨digit, text, cons, -⟩ := exists_encodeString_eq_cons bytes.result
  rw [(stringAt_eq_ok_iff.1 read).1, cons, List.length_append, List.length_cons]
  omega

namespace ReadFrom

theorem rest_lt {written : Value}
    (read : ReadFrom limit depth start input found written) :
    found.rest.length < input.length := by
  obtain ⟨first, text, cons, -, -⟩ := exists_encode_eq_cons written
  rw [read.text, cons, List.length_append, List.length_cons]
  omega

theorem integer {number : Found Integer} (within : depth ≤ limit)
    (read : integerAt start rest = .ok number) :
    ReadFrom limit depth start (Mark.integer :: rest) (number.map .integer)
      (.integer number.result) := by
  obtain ⟨text, next⟩ := integerAt_eq_ok_iff.1 read
  constructor
  · trivial
  · exact .integer _
  · simp [text, Found.map]
  · rfl
  · simp [next, Found.map, Nat.add_assoc]
  · simpa [Value.depth] using within

theorem byteString {bytes : Found Bytes} (within : depth ≤ limit)
    (read : stringAt start input = .ok bytes) :
    ReadFrom limit depth start input (bytes.map .byteString)
      (.byteString bytes.result) := by
  obtain ⟨text, next, short⟩ := stringAt_eq_ok_iff.1 read
  constructor
  · trivial
  · exact .byteString short
  · simpa [Found.map] using text
  · rfl
  · simpa [Found.map] using next
  · simpa [Value.depth] using within

theorem list {items : List Value}
    (read : ItemsReadFrom limit depth (start + 1) rest [] found items) :
    ReadFrom limit depth start (Mark.list :: rest) found (.list items) := by
  constructor
  · rw [Distinct, distinctItems_iff]
    exact read.distinct
  · exact .list read.fits
  · simp [read.text]
  · rw [read.result, sorted, sortedItems_eq_map]
    rfl
  · rw [read.next, encode_list]
    simp only [List.length_append, List.length_cons, List.length_nil]
    omega
  · have := read.within
    rw [Value.depth]
    omega

theorem dictionary {entries : List (Bytes × Value)}
    (read : EntriesReadFrom limit depth (start + 1) rest [] found entries) :
    ReadFrom limit depth start (Mark.dictionary :: rest) found
      (.dictionary entries) := by
  constructor
  · rw [Distinct, distinctEntries_iff]
    exact ⟨read.keys, read.distinct⟩
  · exact .dictionary read.short read.fits
  · simp [read.text]
  · exact read.result
  · rw [read.next, encode_dictionary]
    simp only [List.length_append, List.length_cons, List.length_nil]
    omega
  · have := read.within
    rw [Value.depth]
    omega

end ReadFrom

namespace ItemsReadFrom

variable {done items : List Value} {item : Found Value} {written : Value}

theorem nil (within : depth < limit) :
    ItemsReadFrom limit depth position (Mark.finish :: rest) done
      ⟨.list done.reverse, position + 1, rest⟩ [] := by
  constructor
  · simp
  · simp
  · rfl
  · simp
  · rfl
  · rw [depthItems]
    omega

theorem cons (first : ReadFrom limit (depth + 1) position input item written)
    (others :
      ItemsReadFrom limit depth item.next item.rest (item.result :: done) found items) :
    ItemsReadFrom limit depth position input done found (written :: items) := by
  constructor
  · exact List.forall_mem_cons.2 ⟨first.distinct, others.distinct⟩
  · exact List.forall_mem_cons.2 ⟨first.fits, others.fits⟩
  · rw [first.text, others.text, List.flatMap_cons, List.append_assoc]
  · simp [others.result, first.result]
  · rw [others.next, first.next, List.flatMap_cons, List.length_append]
    omega
  · have := first.within
    have := others.within
    rw [depthItems]
    omega

end ItemsReadFrom

namespace EntriesReadFrom

variable {done entries : List (Bytes × Value)} {key : Found Bytes} {value : Found Value}
  {written : Value}

theorem nil (within : depth < limit) :
    EntriesReadFrom limit depth position (Mark.finish :: rest) done
      ⟨.dictionary done, position + 1, rest⟩ [] := by
  constructor
  · simp
  · simp
  · simp
  · exact .nil
  · simp
  · rfl
  · rfl
  · rfl
  · rw [depthEntries]
    omega

theorem cons (name : stringAt position input = .ok key)
    (first : ReadFrom limit (depth + 1) key.next key.rest value written)
    (fresh : Entries.get? key.result done = none)
    (others : EntriesReadFrom limit depth value.next value.rest
      (Entries.insert key.result value.result done) found entries) :
    EntriesReadFrom limit depth position input done found
      ((key.result, written) :: entries) := by
  obtain ⟨text, next, short⟩ := stringAt_eq_ok_iff.1 name
  have absent := Entries.get?_eq_none_iff.1 fresh
  have apart : ∀ other ∈ Entries.keys entries, other ≠ key.result ∧
      other ∉ Entries.keys done :=
    fun other member => by
      have notInserted := others.fresh other member
      rwa [Entries.mem_keys_insert, not_or] at notInserted
  constructor
  · exact List.forall_mem_cons.2 ⟨first.distinct, others.distinct⟩
  · exact List.forall_mem_cons.2 ⟨short, others.short⟩
  · exact List.forall_mem_cons.2 ⟨first.fits, others.fits⟩
  · exact List.nodup_cons.2 ⟨fun member => (apart _ member).1 rfl, others.keys⟩
  · exact List.forall_mem_cons.2 ⟨absent, fun other member => (apart other member).2⟩
  · rw [text, first.text, others.text, List.flatMap_cons, List.append_assoc,
      List.append_assoc]
  · rw [others.result, first.result, sortedEntries, List.foldl_cons]
  · rw [others.next, first.next, next]
    simp only [List.flatMap_cons, List.length_append]
    omega
  · have := first.within
    have := others.within
    rw [depthEntries]
    omega

end EntriesReadFrom

mutual

/-- Whatever is found as a value was written as one. -/
theorem exists_readFrom (limit : Nat) : (depth start : Nat) → (input : Bytes) →
    (found : Found Value) → depth ≤ limit →
    valueAt limit depth start input = .ok found →
    ∃ written, ReadFrom limit depth start input found written
  | depth, start, [], found, within, read => by
      rw [valueAt_nil] at read
      cases read
  | depth, start, byte :: rest, found, within, read => by
      rcases valueAt_eq_ok_cases read with
        ⟨rfl, number, integer, rfl⟩ | ⟨rfl, shallow, items⟩ | ⟨rfl, shallow, entries⟩ |
        ⟨bytes, string, rfl⟩
      · exact ⟨_, .integer within integer⟩
      · obtain ⟨_, itemsRead⟩ :=
          exists_itemsReadFrom limit depth start _ rest [] found shallow items
        exact ⟨_, .list itemsRead⟩
      · obtain ⟨_, entriesRead⟩ :=
          exists_entriesReadFrom limit depth start _ rest [] found shallow entries
        exact ⟨_, .dictionary entriesRead⟩
      · exact ⟨_, .byteString within string⟩
termination_by _ _ input => (input.length, 0)

/-- Whatever is found as items was written as items. -/
theorem exists_itemsReadFrom (limit depth start : Nat) :
    (position : Nat) → (input : Bytes) →
    (done : List Value) → (found : Found Value) → depth < limit →
    itemsAt limit depth start position input done = .ok found →
    ∃ items, ItemsReadFrom limit depth position input done found items
  | position, input, done, found, within, read => by
      rcases itemsAt_eq_ok_cases read with ⟨rest, rfl, rfl⟩ | ⟨item, first, read⟩
      · exact ⟨[], .nil within⟩
      · obtain ⟨_, itemRead⟩ :=
          exists_readFrom limit (depth + 1) position input item within first
        have smaller := itemRead.rest_lt
        obtain ⟨_, others⟩ :=
          exists_itemsReadFrom limit depth start item.next item.rest _ found within read
        exact ⟨_, .cons itemRead others⟩
termination_by _ input => (input.length, 1)

/-- Whatever is found as entries was written as entries. -/
theorem exists_entriesReadFrom (limit depth start : Nat) :
    (position : Nat) → (input : Bytes) →
    (done : List (Bytes × Value)) → (found : Found Value) → depth < limit →
    entriesAt limit depth start position input done = .ok found →
    ∃ entries, EntriesReadFrom limit depth position input done found entries
  | position, input, done, found, within, read => by
      rcases entriesAt_eq_ok_cases read with
        ⟨rest, rfl, rfl⟩ | ⟨key, value, name, first, fresh, read⟩
      · exact ⟨[], .nil within⟩
      · have keySmaller := stringAt_rest_lt name
        obtain ⟨_, valueRead⟩ :=
          exists_readFrom limit (depth + 1) key.next key.rest value within first
        have smaller := valueRead.rest_lt
        obtain ⟨_, others⟩ :=
          exists_entriesReadFrom limit depth start value.next value.rest _ found within
            read
        exact ⟨_, .cons name valueRead fresh others⟩
termination_by _ input => (input.length, 1)

end

theorem ReadFrom.readable {written : Value}
    (read : ReadFrom limit depth start input found written) :
    written.Readable limit depth :=
  ⟨read.distinct, read.fits, read.within⟩

/-- A value is found exactly where the canonical form of a readable one stands. -/
theorem valueAt_eq_ok_iff (within : depth ≤ limit) :
    valueAt limit depth start input = .ok found ↔
      ∃ written : Value, written.Readable limit depth ∧
        input = written.encode ++ found.rest ∧
        found.result = written.sorted ∧ found.next = start + written.encode.length := by
  constructor
  · intro read
    obtain ⟨written, readFrom⟩ :=
      exists_readFrom limit depth start input found within read
    exact ⟨written, readFrom.readable, readFrom.text, readFrom.result, readFrom.next⟩
  · rintro ⟨written, readable, rfl, result, next⟩
    rw [readable.valueAt_encode, ← result, ← next]

/-- An input is accepted exactly if it is the canonical form of a readable value. -/
theorem decode_eq_ok_iff {value : Value} :
    decode limit input = .ok value ↔
      ∃ written : Value, written.Readable limit 0 ∧ input = written.encode ∧
        value = written.sorted := by
  rw [decode_eq]
  constructor
  · intro decoded
    cases read : valueAt limit 0 0 input with
    | error error => simp [read] at decoded
    | ok found =>
      simp only [read] at decoded
      split at decoded
      · rename_i empty
        cases decoded
        obtain ⟨written, readable, text, result, -⟩ :=
          (valueAt_eq_ok_iff (Nat.zero_le _)).1 read
        rw [empty, List.append_nil] at text
        exact ⟨written, readable, text, result⟩
      · cases decoded
  · rintro ⟨written, readable, rfl, rfl⟩
    rw [← List.append_nil written.encode, readable.valueAt_encode]
    rfl

/-- A value comes out of an input exactly if the input begins with the canonical form of
a readable one. -/
theorem decodePrefix_eq_ok_iff {consumed : Nat} {value : Value} :
    decodePrefix limit input = .ok (consumed, value) ↔
      ∃ written : Value, written.Readable limit 0 ∧ written.encode <+: input ∧
        value = written.sorted ∧ consumed = written.encode.length := by
  rw [decodePrefix_eq]
  constructor
  · intro decoded
    cases read : valueAt limit 0 0 input with
    | error error => simp [read, Except.map] at decoded
    | ok found =>
      rw [read] at decoded
      cases decoded
      obtain ⟨written, readable, text, result, next⟩ :=
        (valueAt_eq_ok_iff (Nat.zero_le _)).1 read
      exact ⟨written, readable, ⟨found.rest, text.symm⟩, result,
        by rw [next, Nat.zero_add]⟩
  · rintro ⟨written, readable, ⟨rest, rfl⟩, rfl, rfl⟩
    rw [readable.valueAt_encode, Nat.zero_add]
    rfl

/-- An accepted input is the canonical form of a value as it is written, and decodes to
it in order. -/
theorem exists_written_of_decode {value : Value}
    (decoded : decode limit input = .ok value) :
    ∃ written : Value, written.Distinct ∧ input = written.encode ∧
      value = written.sorted ∧
      written.depth ≤ limit := by
  obtain ⟨written, readable, text, result⟩ := decode_eq_ok_iff.1 decoded
  have within := readable.within
  exact ⟨written, readable.distinct, text, result, by omega⟩

theorem ordered_of_decode {value : Value} (decoded : decode limit input = .ok value) :
    value.Ordered := by
  obtain ⟨written, distinct, -, rfl, -⟩ := exists_written_of_decode decoded
  exact ordered_sorted distinct

/-- The canonical form of a value as it is written decodes to the value in order. -/
theorem decode_encode {written : Value} (distinct : written.Distinct)
    (within : written.depth ≤ limit) (short : written.encode.length ≤ Decimal.maxWord) :
    decode limit written.encode = .ok written.sorted :=
  decode_eq_ok_iff.2 ⟨written, ⟨distinct, fits_of_length short, by omega⟩, rfl, rfl⟩

theorem decode_encode_of_ordered {value : Value} (ordered : value.Ordered)
    (within : value.depth ≤ limit) (short : value.encode.length ≤ Decimal.maxWord) :
    decode limit value.encode = .ok value := by
  rw [decode_encode ordered.distinct within short, ordered.sorted_eq]

/-- Decoding accepts exactly the texts of the grammar whose values lie no deeper than
the limit, and a text denotes one value at most. -/
theorem decode_eq_ok_iff_derives (short : input.length ≤ Decimal.maxSigned)
    (limit : Nat) :
    (∀ value, decode limit input = .ok value ↔
      Derives input value ∧ value.depth ≤ limit) ∧
    (∀ value other, Derives input value → Derives input other → value = other) ∧
    ((∃ error, decode limit input = .error error) ↔
      ∀ value, Derives input value → limit < value.depth) := by
  have accepts (value : Value) :
      decode limit input = .ok value ↔ Derives input value ∧ value.depth ≤ limit := by
    rw [derives_iff]
    constructor
    · intro decoded
      obtain ⟨written, distinct, text, rfl, within⟩ := exists_written_of_decode decoded
      exact ⟨⟨written, distinct, text, rfl⟩, by rwa [depth_sorted distinct]⟩
    · rintro ⟨⟨written, distinct, rfl, rfl⟩, within⟩
      rw [depth_sorted distinct] at within
      exact decode_encode distinct within (Nat.le_trans short (by decide))
  refine ⟨accepts, fun value other => Derives.unique, ?_⟩
  constructor
  · rintro ⟨error, refused⟩ value derives
    by_contra within
    have decoded := (accepts value).2 ⟨derives, by omega⟩
    rw [refused] at decoded
    cases decoded
  · intro deep
    cases outcome : decode limit input with
    | error error => exact ⟨error, rfl⟩
    | ok value =>
      obtain ⟨derives, within⟩ := (accepts value).1 outcome
      exact absurd (deep value derives) (by omega)

/-- A dictionary written with its keys in descending order. -/
def descending : Value :=
  .dictionary [(Bytes.ofString "b", .list [.integer (.ofInt (-1)), .list []]),
    (Bytes.ofString "a", .byteString (Bytes.ofString "e"))]

theorem descending_distinct : descending.Distinct := by
  simp [descending, Distinct, DistinctEntries, DistinctItems]
  decide

/-- Three levels are needed for it. -/
theorem decode_descending :
    (Bytes.ofString "d1:bli-1elee1:a1:ee").length ≤ Decimal.maxSigned ∧
    decode 3 (Bytes.ofString "d1:bli-1elee1:a1:ee") = .ok descending.sorted ∧
    ∃ error, decode 2 (Bytes.ofString "d1:bli-1elee1:a1:ee") = .error error := by
  have short : (Bytes.ofString "d1:bli-1elee1:a1:ee").length ≤ Decimal.maxSigned := by
    decide
  have derives : Derives (Bytes.ofString "d1:bli-1elee1:a1:ee") descending.sorted :=
    derives_iff.2 ⟨descending, descending_distinct, by decide, rfl⟩
  refine ⟨short, ?_, ?_⟩
  · exact ((decode_eq_ok_iff_derives short 3).1 _).2 ⟨derives, by decide⟩
  · apply (decode_eq_ok_iff_derives short 2).2.2.2
    intro value other
    rw [other.unique derives]
    decide

/-- Writing a decoded value again only moves entries of dictionaries: the text keeps its
length, and it stays as it was exactly if all entries stood in order already. -/
theorem encode_eq_iff_ordered {value : Value}
    (decoded : decode limit input = .ok value) :
    value.encode.length = input.length ∧
    ∃ written, Spells input written ∧ (∀ other, Spells input other → other = written) ∧
      written.Rearranged value ∧ (value.encode = input ↔ written.Ordered) := by
  obtain ⟨written, distinct, rfl, rfl, within⟩ := exists_written_of_decode decoded
  have spelled : Spells written.encode written := spells_iff.2 ⟨rfl, distinct⟩
  refine ⟨length_encode_sorted distinct, written, spelled,
    fun other otherSpelled => otherSpelled.unique spelled, rearranged_sorted distinct,
    ?_⟩
  constructor
  · intro same
    rw [← encode_injective same]
    exact ordered_sorted distinct
  · intro ordered
    rw [ordered.sorted_eq]

/-- Written again it is in order, and as long as before. -/
theorem encode_descending :
    decode 3 descending.encode = .ok descending.sorted ∧
    descending.sorted.encode.length = descending.encode.length ∧
    descending.sorted.encode ≠ descending.encode := by
  have decoded : decode 3 descending.encode = .ok descending.sorted :=
    decode_encode descending_distinct (by decide) (by decide)
  obtain ⟨length, written, spelled, only, -, same⟩ := encode_eq_iff_ordered decoded
  refine ⟨decoded, length, ?_⟩
  rw [ne_eq, same, ← only descending (spells_iff.2 ⟨rfl, descending_distinct⟩)]
  rintro ⟨ascending, -⟩
  have less : Bytes.ofString "b" < Bytes.ofString "a" := by
    simpa [Entries.Ascending, Entries.keys] using ascending
  exact absurd less (by decide)

end Metainfo.Bencode
