import Metainfo.Proofs.Bencode.Failure

/-!
# Repeated keys

The entries of a dictionary may be written in any order, and each of their values may be
any text that decodes.  Main statement: if no key is repeated, the dictionary holds
exactly what is written; otherwise the first entry whose key stands before it already is
refused, at the offset where its key begins.  Keys are compared octet by octet, so that
keys which look alike when they are read leniently as text are still told apart.
-/

namespace Metainfo.Bencode

open Value

/-- An entry of a dictionary as it is written: its key, the text of its value, and the
value that comes of this text. -/
structure EntryText where
  key : Bytes
  text : Bytes
  value : Value

namespace EntryText

/-- The octets of an entry: the key with its length in front, and the text of the
value. -/
def octets (entry : EntryText) : Bytes :=
  encodeString entry.key ++ entry.text

/-- What the dictionary is to hold. -/
def held (entry : EntryText) : Bytes × Value :=
  (entry.key, entry.value)

/-- The text of every value is accepted by itself under a limit. -/
def Accepted (limit : Nat) (entries : List EntryText) : Prop :=
  ∀ entry ∈ entries, decode limit entry.text = .ok entry.value

/-- No key has more octets than a length of 64 bits can say. -/
def ShortKeys (entries : List EntryText) : Prop :=
  ∀ entry ∈ entries, entry.key.length ≤ Decimal.maxWord

end EntryText

/-- The text of a dictionary whose entries are written one after the other. -/
def dictionaryText (entries : List EntryText) : Bytes :=
  Mark.dictionary :: (entries.flatMap EntryText.octets ++ [Mark.finish])

/-- Where two members agree in a property, there is a first one that agrees with a
member before it. -/
theorem exists_first_repeated {Member Property : Type} (property : Member → Property)
    {members : List Member} (repeated : ¬(members.map property).Nodup) :
    ∃ before member after, members = before ++ member :: after ∧
      (before.map property).Nodup ∧
      property member ∈ before.map property := by
  induction members using List.reverseRecOn with
  | nil => exact absurd .nil repeated
  | append_singleton front last ih =>
    by_cases distinct : (front.map property).Nodup
    · refine ⟨front, last, [], rfl, distinct, ?_⟩
      by_contra fresh
      apply repeated
      rw [List.map_append, List.map_singleton,
        (List.perm_append_singleton _ _).nodup_iff]
      exact List.nodup_cons.2 ⟨fresh, distinct⟩
    · obtain ⟨before, member, after, rfl, distinct, present⟩ := ih distinct
      refine ⟨before, member, after ++ [last], ?_, distinct, present⟩
      rw [List.append_assoc, List.cons_append]

section Written

variable {limit : Nat} {entries : List EntryText}

/-- What is accepted by itself is readable inside a dictionary under a limit that is
greater by one. -/
theorem exists_readable_of_decode {text : Bytes} {value : Value}
    (decoded : decode limit text = .ok value) :
    ∃ written : Value, written.Readable (limit + 1) 1 ∧ text = written.encode ∧
      value = written.sorted := by
  obtain ⟨written, readable, text, result⟩ := decode_eq_ok_iff.1 decoded
  have within := readable.within
  exact ⟨written, ⟨readable.distinct, readable.fits, by omega⟩, text, result⟩

/-- The accepted texts are the canonical forms of values as they are written. -/
theorem EntryText.Accepted.exists_written (accepted : EntryText.Accepted limit entries)
    (short : EntryText.ShortKeys entries) :
    ∃ written : List (Bytes × Value), Entries.keys written = entries.map EntryText.key ∧
      encodeEntries written = entries.flatMap EntryText.octets ∧
      (written.map fun entry => (entry.1, entry.2.sorted)) =
        entries.map EntryText.held ∧
      ∀ entry ∈ written,
        entry.1.length ≤ Decimal.maxWord ∧ entry.2.Readable (limit + 1) 1 := by
  induction entries with
  | nil => exact ⟨[], rfl, rfl, rfl, by simp⟩
  | cons entry entries ih =>
    rw [EntryText.Accepted, List.forall_mem_cons] at accepted
    rw [EntryText.ShortKeys, List.forall_mem_cons] at short
    obtain ⟨value, readable, text, result⟩ := exists_readable_of_decode accepted.1
    obtain ⟨written, keys, texts, held, each⟩ := ih accepted.2 short.2
    refine ⟨(entry.key, value) :: written, ?_, ?_, ?_, ?_⟩
    · rw [Entries.keys_cons, keys, List.map_cons]
    · rw [encodeEntries, List.flatMap_cons, List.flatMap_cons, EntryText.octets, text,
        ← texts]
    · rw [List.map_cons, List.map_cons, held, EntryText.held, result]
    · exact List.forall_mem_cons.2 ⟨⟨short.1, readable⟩, each⟩

/-- Entries with distinct keys make a dictionary that holds exactly these. -/
theorem decode_dictionaryText_of_nodup (accepted : EntryText.Accepted limit entries)
    (short : EntryText.ShortKeys entries)
    (distinct : (entries.map EntryText.key).Nodup) :
    ∃ held, decode (limit + 1) (dictionaryText entries) = .ok (.dictionary held) ∧
      Entries.Ascending held ∧ held.Perm (entries.map EntryText.held) := by
  obtain ⟨written, keys, texts, held, each⟩ := accepted.exists_written short
  have distinctWritten : (Entries.keys written).Nodup := by
    rw [keys]
    exact distinct
  have readable : (Value.dictionary written).Readable (limit + 1) 0 :=
    readable_dictionary_iff.2 ⟨Nat.succ_pos limit, distinctWritten, each⟩
  refine ⟨Entries.ofList (sortedEntries written), ?_, Entries.ascending_ofList _, ?_⟩
  · apply decode_eq_ok_iff.2
    refine ⟨.dictionary written, readable, ?_, by rw [sorted]⟩
    rw [encode_dictionary, dictionaryText, ← texts, List.cons_append]
  · rw [← held]
    exact ofList_sortedEntries_perm distinctWritten

/-- The first entry whose key stands before it already is refused where the key
begins. -/
theorem decode_dictionaryText_of_mem {before after : List EntryText} {entry : EntryText}
    (accepted : EntryText.Accepted limit (before ++ entry :: after))
    (short : EntryText.ShortKeys (before ++ entry :: after))
    (distinct : (before.map EntryText.key).Nodup)
    (present : entry.key ∈ before.map EntryText.key) :
    decode (limit + 1) (dictionaryText (before ++ entry :: after)) =
      .error (.duplicateKey (1 + (before.flatMap EntryText.octets).length)
        (Utf8.decodeLossy entry.key)) := by
  rw [EntryText.Accepted, List.forall_mem_append, List.forall_mem_cons] at accepted
  rw [EntryText.ShortKeys, List.forall_mem_append, List.forall_mem_cons] at short
  obtain ⟨written, keys, texts, -, each⟩ :=
    EntryText.Accepted.exists_written accepted.1 short.1
  obtain ⟨value, readable, text, -⟩ := exists_readable_of_decode accepted.2.1
  have readableBefore : (Value.dictionary written).Readable (limit + 1) 0 := by
    apply readable_dictionary_iff.2
    exact ⟨Nat.succ_pos limit, by rwa [keys], each⟩
  have member : entry.key ∈ Entries.keys written := by
    rw [keys]
    exact present
  have whole : dictionaryText (before ++ entry :: after) =
      Mark.dictionary :: (encodeEntries written ++
        (encodeString entry.key ++
          (value.encode ++ (after.flatMap EntryText.octets ++ [Mark.finish])))) := by
    rw [dictionaryText, List.flatMap_append, List.flatMap_cons, EntryText.octets, text,
      texts]
    simp only [List.append_assoc]
  -- The entries before make a readable dictionary, behind which the repeated key is at
  -- fault.
  have raises : Raises (limit + 1) ⟨0, 0, dictionaryText (before ++ entry :: after)⟩
      (.duplicateKey (0 + 1 + (encodeEntries written).length)
        (Utf8.decodeLossy entry.key)) := by
    rw [whole]
    exact .entry readableBefore (.duplicateKey member short.2.1 readable)
  rw [decode_eq, raises.valueAt_eq, texts, Nat.zero_add]

/-- A dictionary is accepted exactly if no key is repeated, whatever the order of the
entries and whatever the keys look like as text, and then it holds what is written and
nothing else.  Otherwise the first entry whose key stands before it already is refused,
at the offset where its key begins. -/
theorem decode_dictionaryText (positive : 0 < limit)
    (accepted : EntryText.Accepted (limit - 1) entries)
    (short : EntryText.ShortKeys entries) :
    ((entries.map EntryText.key).Nodup →
      ∃ held, decode limit (dictionaryText entries) = .ok (.dictionary held) ∧
        Entries.Ascending held ∧ held.Perm (entries.map EntryText.held) ∧
        ∀ key value, Entries.get? key held = some value ↔
          ∃ entry ∈ entries, entry.key = key ∧ entry.value = value) ∧
    (¬(entries.map EntryText.key).Nodup →
      ∃ before entry after, entries = before ++ entry :: after ∧
        (before.map EntryText.key).Nodup ∧ entry.key ∈ before.map EntryText.key ∧
        decode limit (dictionaryText entries) =
          .error (.duplicateKey (1 + (before.flatMap EntryText.octets).length)
            (Utf8.decodeLossy entry.key))) := by
  obtain ⟨limit, rfl⟩ := Nat.exists_eq_add_of_le' positive
  rw [Nat.add_sub_cancel] at accepted
  constructor
  · intro distinct
    obtain ⟨held, decoded, ascending, perm⟩ :=
      decode_dictionaryText_of_nodup accepted short distinct
    refine ⟨held, decoded, ascending, perm, ?_⟩
    intro key value
    rw [Entries.get?_eq_some_iff ascending.nodup, perm.mem_iff, List.mem_map]
    simp only [EntryText.held, Prod.mk.injEq]
  · intro repeated
    obtain ⟨before, entry, after, rfl, distinct, present⟩ :=
      exists_first_repeated EntryText.key repeated
    exact ⟨before, entry, after, rfl, distinct, present,
      decode_dictionaryText_of_mem accepted short distinct present⟩

end Written

/-- Two entries whose keys are no text; read leniently they look alike. -/
def lookalikes : List EntryText :=
  [⟨[0xFF], Bytes.ofString "i1e", .integer (.ofInt 1)⟩,
    ⟨[0xFE], Bytes.ofString "de", .dictionary []⟩]

/-- An entry with the key of the first of them. -/
def repeatedLookalike : EntryText :=
  ⟨[0xFF], Bytes.ofString "le", .list []⟩

theorem accepted_lookalikes :
    EntryText.Accepted 1 (lookalikes ++ [repeatedLookalike]) := by
  have accepted (value : Value) (ordered : value.Ordered) (within : value.depth ≤ 1)
      (short : value.encode.length ≤ Decimal.maxWord) : decode 1 value.encode =
        .ok value := by
    have decoded := decode_encode ordered.distinct within short
    rwa [ordered.sorted_eq] at decoded
  intro entry member
  simp only [lookalikes, repeatedLookalike, List.cons_append, List.nil_append,
    List.mem_cons, List.not_mem_nil, or_false] at member
  rcases member with rfl | rfl | rfl
  · exact accepted (.integer (.ofInt 1)) trivial (by decide) (by decide)
  · exact accepted (.dictionary []) ⟨.nil, trivial⟩ (by decide) (by decide)
  · exact accepted (.list []) trivial (by decide) (by decide)

/-- Keys that look alike are told apart; a key that is repeated is refused. -/
theorem decode_lookalikes :
    0 < 2 ∧ EntryText.Accepted (2 - 1) (lookalikes ++ [repeatedLookalike]) ∧
    EntryText.ShortKeys (lookalikes ++ [repeatedLookalike]) ∧
    (∃ held, decode 2 (dictionaryText lookalikes) = .ok (.dictionary held) ∧
      Entries.get? [0xFE] held = some (.dictionary [])) ∧
    ∃ offset, decode 2 (dictionaryText (lookalikes ++ [repeatedLookalike])) =
      .error (.duplicateKey offset "\uFFFD") := by
  have positive : 0 < 2 := by decide
  have acceptedTwo : EntryText.Accepted (2 - 1) lookalikes :=
    fun entry member => accepted_lookalikes entry (List.mem_append_left _ member)
  have short : EntryText.ShortKeys (lookalikes ++ [repeatedLookalike]) := by
    unfold EntryText.ShortKeys
    decide
  have shortTwo : EntryText.ShortKeys lookalikes :=
    fun entry member => short entry (List.mem_append_left _ member)
  refine ⟨positive, accepted_lookalikes, short, ?_, ?_⟩
  · obtain ⟨held, decoded, -, -, holds⟩ :=
      (decode_dictionaryText positive acceptedTwo shortTwo).1 (by decide)
    refine ⟨held, decoded, (holds _ _).2 ?_⟩
    exact ⟨_, List.mem_cons_of_mem _ List.mem_cons_self, rfl, rfl⟩
  · obtain ⟨before, entry, after, parts, -, -, refused⟩ :=
      (decode_dictionaryText positive accepted_lookalikes short).2 (by decide)
    have alike : ∀ entry ∈ lookalikes ++ [repeatedLookalike],
        Utf8.decodeLossy entry.key = "\uFFFD" := by
      decide
    rw [alike entry (by rw [parts]; simp)] at refused
    exact ⟨_, refused⟩

end Metainfo.Bencode
