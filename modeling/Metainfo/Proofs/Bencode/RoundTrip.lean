import Metainfo.Proofs.Bencode.Openings
import Metainfo.Proofs.Bencode.Reading

/-!
# Decoding canonical forms

Decoding the canonical form of a value gives the value back, whatever follows the form.
This holds also for a value whose entries are listed in another order, which come out in
order.  If the value lies deeper than the limit allows, decoding fails where the first
list or dictionary begins around which as many others lie as the limit says.
-/

namespace Metainfo.Bencode

/-- What comes of reading, unless one of the openings lies inside as many others as the
limit says. -/
def unlessTooDeep (limit : Nat) (openings : List Opening)
    (outcome : Except DecodeError (Found Value)) : Except DecodeError (Found Value) :=
  match openings.find? fun opening => opening.around = limit with
  | some opening => .error (.depthLimitExceeded opening.offset limit)
  | none => outcome

@[simp] theorem unlessTooDeep_nil (limit : Nat)
    (outcome : Except DecodeError (Found Value)) :
    unlessTooDeep limit [] outcome = outcome := rfl

/-- An opening that lies less deep does not matter. -/
theorem unlessTooDeep_cons {limit start around : Nat} (less : around < limit)
    (openings : List Opening) (outcome : Except DecodeError (Found Value)) :
    unlessTooDeep limit (⟨start, around⟩ :: openings) outcome =
      unlessTooDeep limit openings outcome := by
  have shallow : decide (around = limit) = false := by simp; omega
  rw [unlessTooDeep, List.find?_cons, shallow, unlessTooDeep]

/-- The openings that come first decide first. -/
theorem unlessTooDeep_append (limit : Nat) (openings others : List Opening)
    (outcome : Except DecodeError (Found Value)) :
    unlessTooDeep limit (openings ++ others) outcome =
      unlessTooDeep limit openings (unlessTooDeep limit others outcome) := by
  simp only [unlessTooDeep, List.find?_append]
  cases openings.find? fun opening => opening.around = limit <;> rfl

namespace Value

/-- No byte string inside the value, be it a key or not, has more octets than a length
of 64 bits can say. -/
inductive Fits : Value → Prop where
  | byteString {bytes : Bytes} : bytes.length ≤ Decimal.maxWord →
      Fits (.byteString bytes)
  | integer (number : Integer) : Fits (.integer number)
  | list {items : List Value} : (∀ item ∈ items, Fits item) → Fits (.list items)
  | dictionary {entries : List (Bytes × Value)} :
      (∀ entry ∈ entries, entry.1.length ≤ Decimal.maxWord) →
      (∀ entry ∈ entries, Fits entry.2) → Fits (.dictionary entries)

/-- In a text that is no longer than that, no byte string is. -/
theorem fits_of_length {value : Value} (short : value.encode.length ≤ Decimal.maxWord) :
    value.Fits := by
  induction value using parts_induction with
  | byteString bytes =>
    simp only [encode_byteString, encodeString, List.length_append, List.length_cons]
      at short
    exact .byteString (by omega)
  | integer number => exact .integer number
  | list items ih =>
    refine .list fun item member => ih item member ?_
    obtain ⟨before, after, rfl⟩ := List.append_of_mem member
    simp only [encode_list, List.flatMap_append, List.flatMap_cons, List.length_append,
      List.length_cons] at short
    omega
  | dictionary entries ih =>
    have parts : ∀ entry ∈ entries,
        entry.1.length ≤ Decimal.maxWord ∧ entry.2.encode.length ≤ Decimal.maxWord := by
      intro entry member
      obtain ⟨before, after, rfl⟩ := List.append_of_mem member
      simp only [encode_dictionary, encodeString, List.flatMap_append,
        List.flatMap_cons, List.length_append, List.length_cons] at short
      omega
    exact .dictionary (fun entry member => (parts entry member).1)
      fun entry member => ih entry member (parts entry member).2

end Value

section Canonical

open Value

/-- Where the canonical form of the value as it is written stands, the value in order is
found, or the first of its openings that lies too deep. -/
def Value.ReadsBack (limit : Nat) (written : Value) : Prop :=
  ∀ (depth start : Nat) (rest : Bytes), depth ≤ limit →
    valueAt limit depth start (written.encode ++ rest) =
      unlessTooDeep limit (written.openings start depth)
        (.ok ⟨written.sorted, start + written.encode.length, rest⟩)

variable {limit depth start : Nat}

/-- A reader of items gives the value at their front to the reader of values. -/
theorem itemsAt_encode (position : Nat) (item : Value) (rest : Bytes)
    (done : List Value) :
    itemsAt limit depth start position (item.encode ++ rest) done =
      match valueAt limit (depth + 1) position (item.encode ++ rest) with
      | .error error => .error error
      | .ok found =>
          itemsAt limit depth start found.next found.rest (found.result :: done) := by
  obtain ⟨first, text, cons, -, notFinish⟩ := exists_encode_eq_cons item
  rw [cons, List.cons_append]
  exact itemsAt_cons notFinish

theorem stringAt_encodeString {bytes : Bytes} (position : Nat) (rest : Bytes)
    (short : bytes.length ≤ Decimal.maxWord) :
    stringAt position (encodeString bytes ++ rest) =
      .ok ⟨bytes, position + (encodeString bytes).length, rest⟩ :=
  stringAt_eq_ok_iff.2 ⟨rfl, rfl, short⟩

/-- A byte string begins with a digit. -/
theorem exists_encodeString_eq_cons (bytes : Bytes) :
    ∃ digit text, encodeString bytes = digit :: text ∧
      Decimal.isDigit digit = true := by
  obtain ⟨digit, digits, number⟩ :=
    List.exists_cons_of_ne_nil (Decimal.ofNat_ne_nil bytes.length)
  refine ⟨digit, digits ++ Mark.colon :: bytes,
    by rw [encodeString, number, List.cons_append], ?_⟩
  apply List.all_eq_true.1 (Decimal.all_isDigit_ofNat bytes.length)
  simp [number]

/-- A reader of entries reads a key, and gives what follows to the reader of values. -/
theorem entriesAt_encodeString (position : Nat) {key : Bytes} (rest : Bytes)
    (done : List (Bytes × Value)) (short : key.length ≤ Decimal.maxWord) :
    entriesAt limit depth start position (encodeString key ++ rest) done =
      if rest = [] then .error (.unterminatedDictionary start)
      else
        match valueAt limit (depth + 1) (position + (encodeString key).length) rest with
        | .error error => .error error
        | .ok found =>
            if (Entries.get? key done).isSome then
              .error (.duplicateKey position (Utf8.decodeLossy key))
            else
              entriesAt limit depth start found.next found.rest
                (Entries.insert key found.result done) := by
  obtain ⟨digit, text, cons, isDigit⟩ := exists_encodeString_eq_cons key
  have name := stringAt_encodeString position rest short
  have read :=
    @entriesAt_cons limit depth start position digit (text ++ rest) done isDigit
  rw [← List.cons_append, ← cons, name] at read
  exact read

/-- Under a new key, the value that follows goes into the dictionary. -/
theorem entriesAt_encode (position : Nat) {key : Bytes} (value : Value) (rest : Bytes)
    {done : List (Bytes × Value)} (short : key.length ≤ Decimal.maxWord)
    (fresh : Entries.get? key done = none) :
    entriesAt limit depth start position
      (encodeString key ++ (value.encode ++ rest)) done =
      match valueAt limit (depth + 1) (position + (encodeString key).length)
        (value.encode ++ rest) with
      | .error error => .error error
      | .ok found =>
          entriesAt limit depth start found.next found.rest
            (Entries.insert key found.result done) := by
  obtain ⟨first, text, cons, -, -⟩ := exists_encode_eq_cons value
  have nonempty : value.encode ++ rest ≠ [] := by simp [cons]
  rw [entriesAt_encodeString _ _ _ short, if_neg nonempty, fresh]
  rfl

/-- Where items are written, reading goes on behind them. -/
theorem itemsAt_flatMap {items : List Value}
    (each : ∀ item ∈ items, item.ReadsBack limit) (within : depth < limit)
    (position : Nat) (rest : Bytes) (done : List Value) :
    itemsAt limit depth start position (items.flatMap encode ++ rest) done =
      unlessTooDeep limit (openingsOfItems position (depth + 1) items)
        (itemsAt limit depth start (position + (items.flatMap encode).length) rest
          ((sortedItems items).reverse ++ done)) := by
  induction items generalizing position done with
  | nil => simp [openingsOfItems, sortedItems]
  | cons item items ih =>
    rw [List.forall_mem_cons] at each
    rw [List.flatMap_cons, List.append_assoc, itemsAt_encode,
      each.1 (depth + 1) position _ within, openingsOfItems, unlessTooDeep_append,
      unlessTooDeep, unlessTooDeep]
    cases (item.openings position (depth + 1)).find? fun opening =>
      opening.around = limit with
    | some opening => rfl
    | none =>
      simp only
      rw [ih each.2]
      simp [sortedItems, Nat.add_assoc]

/-- Where entries with new keys are written, reading goes on behind them. -/
theorem entriesAt_flatMap {entries : List (Bytes × Value)}
    (each : ∀ entry ∈ entries, entry.2.ReadsBack limit)
    (short : ∀ entry ∈ entries, entry.1.length ≤ Decimal.maxWord)
    (within : depth < limit) (position : Nat) (rest : Bytes)
    (done : List (Bytes × Value)) (distinct : (Entries.keys (entries ++ done)).Nodup) :
    entriesAt limit depth start position
        (entries.flatMap (fun entry => encodeString entry.1 ++ entry.2.encode) ++ rest)
          done =
      unlessTooDeep limit (openingsOfEntries position (depth + 1) entries)
        (entriesAt limit depth start
          (position +
            (entries.flatMap fun entry =>
              encodeString entry.1 ++ entry.2.encode).length)
          rest
          ((sortedEntries entries).foldl
            (fun done entry => Entries.insert entry.1 entry.2 done) done)) := by
  induction entries generalizing position done with
  | nil => simp [openingsOfEntries, sortedEntries]
  | cons entry entries ih =>
    obtain ⟨key, value⟩ := entry
    rw [List.forall_mem_cons] at each short
    have fresh := Entries.get?_eq_none_iff.2 (Entries.not_mem_keys_of_nodup distinct)
    rw [List.flatMap_cons, List.append_assoc, List.append_assoc,
      entriesAt_encode position value _ short.1 fresh, each.1 (depth + 1) _ _ within,
      openingsOfEntries, unlessTooDeep_append, unlessTooDeep, unlessTooDeep]
    cases (value.openings (position + (encodeString key).length) (depth + 1)).find?
        fun opening => opening.around = limit with
    | some opening => rfl
    | none =>
      simp only
      rw [ih each.2 short.2 _ _ (Entries.nodup_insert_middle value.sorted distinct)]
      simp [sortedEntries, Nat.add_assoc]

theorem readsBack_byteString {bytes : Bytes} (short : bytes.length ≤ Decimal.maxWord) :
    (byteString bytes).ReadsBack limit := by
  intro depth start rest within
  obtain ⟨digit, text, cons, isDigit⟩ := exists_encodeString_eq_cons bytes
  have read := stringAt_encodeString start rest short
  rw [encode_byteString]
  rw [cons, List.cons_append] at read ⊢
  rw [valueAt_string isDigit, read, ← cons]
  rfl

theorem readsBack_integer (number : Integer) : (integer number).ReadsBack limit := by
  intro depth start rest within
  have read : integerAt start (number.text ++ Mark.finish :: rest) =
      .ok ⟨number, start + number.text.length + 2, rest⟩ :=
    integerAt_eq_ok_iff.2 ⟨rfl, rfl⟩
  have next : start + number.text.length + 2 =
      start + (integer number).encode.length := by
    simp [Nat.add_assoc]
  simp only [encode_integer, List.cons_append, List.append_assoc, List.nil_append]
  rw [valueAt_integer, read, next]
  rfl

/-- The offset after the text between two marks. -/
theorem length_between (start : Nat) (mark : UInt8) (text : Bytes) :
    start + 1 + text.length + 1 = start + (mark :: (text ++ [Mark.finish])).length := by
  simp only [List.length_cons, List.length_append, List.length_nil]
  omega

/-- A list is read back if its items are. -/
theorem readsBack_list {items : List Value}
    (each : ∀ item ∈ items, item.ReadsBack limit) : (list items).ReadsBack limit := by
  intro depth start rest within
  simp only [encode_list, List.cons_append, List.append_assoc, List.nil_append,
    valueAt_list, openings, sorted]
  by_cases deep : depth ≥ limit
  · obtain rfl : depth = limit := by omega
    simp [unlessTooDeep]
  · have shallow : depth < limit := by omega
    rw [if_neg deep, itemsAt_flatMap each shallow, unlessTooDeep_cons shallow,
      itemsAt_finish, List.append_nil, List.reverse_reverse,
      length_between start Mark.list]

/-- A dictionary with distinct keys is read back if its values are. -/
theorem readsBack_dictionary {entries : List (Bytes × Value)}
    (distinct : (Entries.keys entries).Nodup)
    (short : ∀ entry ∈ entries, entry.1.length ≤ Decimal.maxWord)
    (each : ∀ entry ∈ entries, entry.2.ReadsBack limit) :
    (dictionary entries).ReadsBack limit := by
  intro depth start rest within
  simp only [encode_dictionary, List.cons_append, List.append_assoc, List.nil_append,
    valueAt_dictionary, openings, sorted]
  by_cases deep : depth ≥ limit
  · obtain rfl : depth = limit := by omega
    simp [unlessTooDeep]
  · have shallow : depth < limit := by omega
    have keys : (Entries.keys (entries ++ [])).Nodup := by
      rw [List.append_nil]
      exact distinct
    rw [if_neg deep, entriesAt_flatMap each short shallow _ _ _ keys,
      unlessTooDeep_cons shallow, entriesAt_finish,
      length_between start Mark.dictionary]
    rfl

/-- Every value whose keys are distinct and whose byte strings have lengths of 64 bits
is read back. -/
theorem Value.Distinct.readsBack_of_fits {written : Value} (distinct : written.Distinct)
    (fits : written.Fits) : written.ReadsBack limit := by
  induction written using parts_induction with
  | byteString bytes =>
    cases fits with
    | byteString short => exact readsBack_byteString short
  | integer number => exact readsBack_integer number
  | list items ih =>
    rw [Distinct, distinctItems_iff] at distinct
    cases fits with
    | list fits =>
      apply readsBack_list
      intro item member
      exact ih item member (distinct item member) (fits item member)
  | dictionary entries ih =>
    rw [Distinct, distinctEntries_iff] at distinct
    cases fits with
    | dictionary short fits =>
      apply readsBack_dictionary distinct.1 short
      intro entry member
      exact ih entry member (distinct.2 entry member) (fits entry member)

/-- Every value whose keys are distinct is read back from an input whose length has 64
bits. -/
theorem Value.Distinct.readsBack {written : Value} (distinct : written.Distinct)
    (depth start : Nat) (rest : Bytes) (within : depth ≤ limit)
    (short : (written.encode ++ rest).length ≤ Decimal.maxWord) :
    valueAt limit depth start (written.encode ++ rest) =
      unlessTooDeep limit (written.openings start depth)
        (.ok ⟨written.sorted, start + written.encode.length, rest⟩) := by
  have shortValue : written.encode.length ≤ Decimal.maxWord :=
    Nat.le_trans (List.prefix_append ..).length_le short
  exact distinct.readsBack_of_fits (fits_of_length shortValue) depth start rest within

/-- Inside `depth` lists and dictionaries the value is read without an error: its keys
are distinct, its byte strings have lengths of 64 bits, and it lies no deeper than the
limit. -/
structure Value.Readable (limit depth : Nat) (written : Value) : Prop where
  distinct : written.Distinct
  fits : written.Fits
  within : depth + written.depth ≤ limit

/-- Under any limit, what is readable under one is read back, or it lies too deep. -/
theorem Value.Readable.readsBack {other : Nat} {written : Value}
    (readable : written.Readable other depth) : written.ReadsBack limit :=
  readable.distinct.readsBack_of_fits readable.fits

/-- A readable value is read back. -/
theorem Value.Readable.valueAt_encode {written : Value}
    (readable : written.Readable limit depth) (start : Nat) (rest : Bytes) :
    valueAt limit depth start (written.encode ++ rest) =
      .ok ⟨written.sorted, start + written.encode.length, rest⟩ := by
  have within : depth ≤ limit := Nat.le_trans (Nat.le_add_right ..) readable.within
  have shallow := (openings_ne_iff written start within).2 readable.within
  have none :
      (written.openings start depth).find? (fun opening => opening.around = limit) =
      none := by
    simpa using shallow
  rw [readable.readsBack depth start rest within, unlessTooDeep, none]

/-- A value that lies no deeper than the limit is read back from an input whose length
has 64 bits. -/
theorem valueAt_encode {written : Value} (distinct : written.Distinct) (start : Nat)
    {rest : Bytes} (within : depth + written.depth ≤ limit)
    (short : (written.encode ++ rest).length ≤ Decimal.maxWord) :
    valueAt limit depth start (written.encode ++ rest) =
      .ok ⟨written.sorted, start + written.encode.length, rest⟩ := by
  have shortValue : written.encode.length ≤ Decimal.maxWord :=
    Nat.le_trans (List.prefix_append ..).length_le short
  exact Readable.valueAt_encode ⟨distinct, fits_of_length shortValue, within⟩ start rest

end Canonical

/-- Decoding undoes encoding, whatever follows.  A value that lies too deep is refused
where the first list or dictionary begins around which as many others lie as the limit
says, and the canonical form of a list or dictionary does begin there. -/
theorem decodePrefix_encode {value : Value} (ordered : value.Ordered) {suffix : Bytes}
    (short : (value.encode ++ suffix).length ≤ Decimal.maxSigned) (limit : Nat) :
    (value.depth ≤ limit →
      decodePrefix limit (value.encode ++ suffix) = .ok (value.encode.length, value)) ∧
    (limit < value.depth →
      ∃ opening ∈ value.openings 0 0, opening.around = limit ∧
        Value.BeginsAt opening.offset 0 value.encode ∧
        (∀ other ∈ value.openings 0 0,
          other.around = limit → opening.offset ≤ other.offset) ∧
        decodePrefix limit (value.encode ++ suffix) =
          .error (.depthLimitExceeded opening.offset limit)) := by
  have shortWord : (value.encode ++ suffix).length ≤ Decimal.maxWord :=
    Nat.le_trans short (by decide)
  constructor
  · intro within
    rw [decodePrefix_eq, valueAt_encode ordered.distinct 0 (by omega) shortWord,
      ordered.sorted_eq, Nat.zero_add]
    rfl
  · intro deep
    have read := ordered.distinct.readsBack 0 0 suffix (Nat.zero_le limit) shortWord
    rw [decodePrefix_eq, read, unlessTooDeep]
    cases first : (value.openings 0 0).find? fun opening => opening.around = limit with
    | none =>
      have shallow : ∀ opening ∈ value.openings 0 0, opening.around ≠ limit := by
        simpa using first
      have within := (Value.openings_ne_iff value 0 (Nat.zero_le limit)).1 shallow
      omega
    | some opening =>
      have around : opening.around = limit := by simpa using List.find?_some first
      have least := (Value.openBetween_openings value 0 0).least_of_find? first
      have member := List.mem_of_find?_eq_some first
      refine ⟨opening, member, around, Value.beginsAt_of_mem_openings member, ?_, rfl⟩
      intro other member same
      exact least other member (by simpa using same)

/-- A dictionary with a list inside a list. -/
def nested : Value :=
  .dictionary [(Bytes.ofString "a", .list [.byteString (Bytes.ofString "e"), .list []])]

theorem nested_ordered : nested.Ordered := by
  simp [nested, Value.Ordered, Value.OrderedEntries, Value.OrderedItems,
    Entries.Ascending, Entries.keys]

theorem nested_readable : nested.Readable 3 0 :=
  ⟨nested_ordered.distinct, Value.fits_of_length (by decide), by decide⟩

/-- Behind the text `d1:al1:eleee` another octet is not looked at; with one level less
the inner list is refused where it begins. -/
theorem decodePrefix_nested :
    nested.Ordered ∧ (nested.encode ++ [Mark.finish]).length ≤ Decimal.maxSigned ∧
    decodePrefix 3 (nested.encode ++ [Mark.finish]) = .ok (12, nested) ∧
    decodePrefix 2 (nested.encode ++ [Mark.finish]) =
      .error (.depthLimitExceeded 8 2) := by
  have ordered : nested.Ordered := by
    simp [nested, Value.Ordered, Value.OrderedEntries, Value.OrderedItems,
      Entries.Ascending, Entries.keys]
  have short : (nested.encode ++ [Mark.finish]).length ≤ Decimal.maxSigned := by decide
  refine ⟨ordered, short, (decodePrefix_encode ordered short 3).1 (by decide), ?_⟩
  obtain ⟨opening, member, around, -, -, refused⟩ :=
    (decodePrefix_encode ordered short 2).2 (by decide)
  have openings : nested.openings 0 0 = [⟨0, 0⟩, ⟨4, 1⟩, ⟨8, 2⟩] := by decide
  simp only [openings, List.mem_cons, List.not_mem_nil, or_false] at member
  rcases member with rfl | rfl | rfl
  · cases around
  · cases around
  · exact refused

end Metainfo.Bencode
