import Metainfo.Hashing
import Metainfo.Proofs.Bencode.Acceptance

/-!
# The info-hash as a digest of the input

The value of an entry of a dictionary is written in one slice of its text.  The
info-hash of an input is the digest of the slice that belongs to the entry `info`, once
the dictionaries inside it are in order; what stands around the slice has no part in it.
-/

namespace Metainfo

namespace Bencode

/-- In the text of a dictionary, the octets from one offset up to another are those of
the value of an entry under the key. -/
inductive EntrySlice (key : Bytes) : Bytes → Nat → Nat → Prop where
  | intro {front name slice back : Bytes} {before after : List (Bytes × Value)}
      {written : Value} :
      SpellsEntries front before → Spells name (.byteString key) →
      Spells slice written →
      SpellsEntries back after →
      EntrySlice key
        (Mark.dictionary :: (front ++ (name ++ (slice ++ back)) ++ [Mark.finish]))
        (1 + front.length + name.length) (1 + front.length + name.length + slice.length)

/-- The second text is the first one with the entries of every dictionary put in
ascending order of the keys. -/
def Arranged (text arranged : Bytes) : Prop :=
  ∃ value, Derives text value ∧ Spells arranged value

/-- A text can be put in order in one way only, which is to write the value in order. -/
theorem arranged_iff {text arranged : Bytes} {written : Value}
    (spelled : Spells text written) :
    Arranged text arranged ↔ arranged = written.sorted.encode := by
  obtain ⟨rfl, distinct⟩ := spells_iff.1 spelled
  have derives : Derives written.encode written.sorted :=
    ⟨written, spelled, Value.rearranged_sorted distinct, Value.ordered_sorted distinct⟩
  constructor
  · rintro ⟨value, derived, text⟩
    rw [(spells_iff.1 text).1, derived.unique derives]
  · rintro rfl
    exact ⟨written.sorted, derives,
      spells_iff.2 ⟨rfl, (Value.ordered_sorted distinct).distinct⟩⟩

theorem extract_slice (mark : UInt8) (front name slice back : Bytes) :
    (mark :: (front ++ (name ++ (slice ++ back)) ++ [Mark.finish])).extract
      (1 + front.length + name.length) (1 + front.length + name.length + slice.length) =
        slice := by
  have parts : mark :: (front ++ (name ++ (slice ++ back)) ++ [Mark.finish]) =
      (mark :: (front ++ name)) ++ (slice ++ (back ++ [Mark.finish])) := by simp
  have start : 1 + front.length + name.length = (mark :: (front ++ name)).length := by
    simp only [List.length_cons, List.length_append]
    omega
  rw [parts, start]
  simp

/-- A slice of an entry lies where the entry is written. -/
theorem EntrySlice.exists_entries {key text : Bytes} {start stop : Nat}
    (slice : EntrySlice key text start stop) :
    ∃ before written after,
      text = (Value.dictionary (before ++ (key, written) :: after)).encode ∧
      text.extract start stop = written.encode ∧
      start = 1 +
        (before.flatMap fun entry => encodeString entry.1 ++ entry.2.encode).length +
        (encodeString key).length ∧
      stop = start + written.encode.length := by
  cases slice with
  | intro front name slice back =>
    rename_i before after written
    obtain ⟨rfl, -⟩ := spellsEntries_iff.1 front
    obtain rfl := spells_byteString_iff.1 name
    obtain ⟨rfl, -⟩ := spells_iff.1 slice
    obtain ⟨rfl, -⟩ := spellsEntries_iff.1 back
    exact ⟨before, written, after, by simp, extract_slice .., rfl, rfl⟩

theorem EntrySlice.exists_spells {key text : Bytes} {start stop : Nat}
    (slice : EntrySlice key text start stop) :
    ∃ written, Spells (text.extract start stop) written := by
  cases slice with
  | intro front name slice back =>
    rw [extract_slice]
    exact ⟨_, slice⟩

/-- Every entry of a dictionary has a slice. -/
theorem exists_entrySlice {key : Bytes} {written : Value}
    {entries : List (Bytes × Value)} (distinct : (Value.dictionary entries).Distinct)
    (member : (key, written) ∈ entries) :
    ∃ start stop, EntrySlice key (Value.dictionary entries).encode start stop := by
  obtain ⟨before, after, rfl⟩ := List.append_of_mem member
  rw [Value.Distinct, Value.distinctEntries_iff, List.forall_mem_append,
    List.forall_mem_cons]
    at distinct
  obtain ⟨-, front, here, back⟩ := distinct
  have name : Spells (encodeString key) (.byteString key) := spells_byteString_iff.2 rfl
  have slice := EntrySlice.intro (spellsEntries_iff.2 ⟨rfl, front⟩) name
    (spells_iff.2 ⟨rfl, here⟩) (spellsEntries_iff.2 ⟨rfl, back⟩)
  have text : (Value.dictionary (before ++ (key, written) :: after)).encode =
      Mark.dictionary ::
        (before.flatMap (fun entry => encodeString entry.1 ++ entry.2.encode) ++
        (encodeString key ++ (written.encode ++
          after.flatMap fun entry => encodeString entry.1 ++ entry.2.encode)) ++
        [Mark.finish]) := by
    simp
  rw [text]
  exact ⟨_, _, slice⟩

/-- An entry has one slice only. -/
theorem EntrySlice.unique {key text : Bytes} {written : Value}
    {start stop otherStart otherStop : Nat} (spelled : Spells text written)
    (slice : EntrySlice key text start stop)
    (other : EntrySlice key text otherStart otherStop) :
    otherStart = start ∧ otherStop = stop := by
  obtain ⟨before, value, after, text, -, rfl, rfl⟩ := slice.exists_entries
  obtain ⟨others, otherValue, rest, otherText, -, rfl, rfl⟩ := other.exists_entries
  obtain ⟨spelling, distinct⟩ := spells_iff.1 spelled
  obtain rfl := Value.encode_injective (spelling.symm.trans text)
  have same := Value.encode_injective (text.symm.trans otherText)
  rw [Value.dictionary.injEq] at same
  obtain ⟨rfl, rfl, rfl⟩ := Entries.split_unique distinct.1 same
  exact ⟨rfl, rfl⟩

end Bencode

namespace Hashing

open Bencode Log

variable {limits : Limits} {buffer : Bytes} {top : Value}
  {info : List (Bytes × Value)} {start stop : Nat}

theorem ofValue_eq (held : top.get? InfoHash.infoKey = some (.dictionary info)) :
    InfoHash.ofValue top = .ok ⟨Sha1.digest (Value.dictionary info).encode⟩ := by
  rw [InfoHash.ofValue, InfoHash.infoBytes, InfoHash.infoEntries, held]
  rfl

/-- What is hashed is the info dictionary in its canonical form. -/
theorem result_hashBytes (threshold : Threshold)
    (decoded : decode limits.maxDepth buffer = .ok top)
    (held : top.get? InfoHash.infoKey = some (.dictionary info)) :
    (hashBytes threshold limits buffer).result =
      .ok ⟨Sha1.digest (Value.dictionary info).encode⟩ := by
  rw [hashBytes, decoded]
  simp only [ofValue_eq held]

/-- The info dictionary of an accepted input is what is written in the slice of `info`,
in order. -/
theorem sorted_eq_of_slice {written : Value}
    (decoded : decode limits.maxDepth buffer = .ok top)
    (held : top.get? InfoHash.infoKey = some (.dictionary info))
    (slice : EntrySlice InfoHash.infoKey buffer start stop)
    (spelled : Spells (buffer.extract start stop) written) :
    written.sorted = .dictionary info := by
  obtain ⟨whole, distinct, text, rfl, -⟩ := exists_written_of_decode decoded
  obtain ⟨before, value, after, sliceText, extract, -, -⟩ := slice.exists_entries
  obtain rfl := Value.encode_injective (text.symm.trans sliceText)
  obtain rfl := Value.encode_injective ((spells_iff.1 spelled).1.symm.trans extract)
  have ascending := (Value.ordered_sorted distinct).1
  have present : (InfoHash.infoKey, written.sorted) ∈
      Entries.ofList
        (Value.sortedEntries (before ++ (InfoHash.infoKey, written) :: after)) := by
    rw [(Value.ofList_sortedEntries_perm distinct.1).mem_iff]
    simp
  have looked := (Entries.get?_eq_some_iff ascending.nodup).2 present
  have found := looked.symm.trans held
  exact Option.some.inj found

/-- The info-hash of an accepted input is the digest of what is written in the slice of
`info`, in order. -/
theorem result_eq_of_slice {written : Value} (threshold : Threshold)
    (decoded : decode limits.maxDepth buffer = .ok top)
    (held : top.get? InfoHash.infoKey = some (.dictionary info))
    (slice : EntrySlice InfoHash.infoKey buffer start stop)
    (spelled : Spells (buffer.extract start stop) written) :
    (hashBytes threshold limits buffer).result =
      .ok ⟨Sha1.digest written.sorted.encode⟩ := by
  rw [result_hashBytes threshold decoded held,
    sorted_eq_of_slice decoded held slice spelled]

/-- An accepted input has a slice of `info`, and no other. -/
theorem exists_infoSlice (decoded : decode limits.maxDepth buffer = .ok top)
    (held : top.get? InfoHash.infoKey = some (.dictionary info)) :
    ∃ start stop, EntrySlice InfoHash.infoKey buffer start stop ∧
      ∀ otherStart otherStop, EntrySlice InfoHash.infoKey buffer otherStart otherStop →
        otherStart = start ∧ otherStop = stop := by
  obtain ⟨written, distinct, rfl, rfl, -⟩ := exists_written_of_decode decoded
  cases written with
  | byteString bytes => cases held
  | integer number => cases held
  | list items => cases held
  | dictionary entries =>
    have ascending := (Value.ordered_sorted distinct).1
    have present := (Entries.get?_eq_some_iff ascending.nodup).1 held
    rw [(Value.ofList_sortedEntries_perm distinct.1).mem_iff, List.mem_map] at present
    obtain ⟨⟨key, written⟩, member, same⟩ := present
    obtain rfl : key = InfoHash.infoKey := congrArg Prod.fst same
    obtain ⟨start, stop, slice⟩ := exists_entrySlice distinct member
    have spelled : Spells (Value.dictionary entries).encode (.dictionary entries) :=
      spells_iff.2 ⟨rfl, distinct⟩
    exact ⟨start, stop, slice, fun _ _ other => slice.unique spelled other⟩

/-- An accepted input has one slice of `info`, and its info-hash is the digest of that
slice put in order.  If the slice stands in order already, it is the digest of the slice
itself.  An input with the same slice, whatever else it holds, has the same
info-hash. -/
theorem hashBytes_eq_digest_slice (threshold : Threshold) (limits : Limits)
    (decoded : decode limits.maxDepth buffer = .ok top)
    (held : top.get? InfoHash.infoKey = some (.dictionary info)) :
    ∃ start stop, EntrySlice InfoHash.infoKey buffer start stop ∧
      (∀ otherStart otherStop, EntrySlice InfoHash.infoKey buffer otherStart otherStop →
        otherStart = start ∧ otherStop = stop) ∧
      (∃ arranged,
        (∀ text, Arranged (buffer.extract start stop) text ↔ text = arranged) ∧
        (hashBytes threshold limits buffer).result = .ok ⟨Sha1.digest arranged⟩) ∧
      (∀ written, Spells (buffer.extract start stop) written → written.Ordered →
        (hashBytes threshold limits buffer).result =
          .ok ⟨Sha1.digest (buffer.extract start stop)⟩) ∧
      ∀ otherThreshold (otherLimits : Limits) other otherTop otherInfo otherStart
        otherStop,
        decode otherLimits.maxDepth other = .ok otherTop →
        otherTop.get? InfoHash.infoKey = some (.dictionary otherInfo) →
        EntrySlice InfoHash.infoKey other otherStart otherStop →
        other.extract otherStart otherStop = buffer.extract start stop →
        (hashBytes otherThreshold otherLimits other).result =
          (hashBytes threshold limits buffer).result := by
  obtain ⟨start, stop, slice, only⟩ := exists_infoSlice decoded held
  obtain ⟨written, spelled⟩ := slice.exists_spells
  have hashed := result_eq_of_slice threshold decoded held slice spelled
  refine ⟨start, stop, slice, only, ?_, ?_, ?_⟩
  · exact ⟨written.sorted.encode, fun text => arranged_iff spelled, hashed⟩
  · intro value valueSpelled ordered
    obtain rfl := valueSpelled.unique spelled
    rw [hashed, ordered.sorted_eq, (spells_iff.1 spelled).1]
  · intro otherThreshold otherLimits other otherTop otherInfo otherStart otherStop
      otherDecoded
      otherHeld otherSlice same
    rw [← same] at spelled
    rw [hashed,
      result_eq_of_slice otherThreshold otherDecoded otherHeld otherSlice spelled]

/-- An info dictionary written with its keys in descending order. -/
def descendingInfo : Value :=
  .dictionary [(Bytes.ofString "name", .byteString (Bytes.ofString "b")),
    (Bytes.ofString "length", .integer (.ofInt 1))]

/-- A torrent written with its keys in descending order. -/
def descendingTorrent : Value :=
  .dictionary [(InfoHash.infoKey, descendingInfo),
    (Bytes.ofString "announce", .byteString (Bytes.ofString "x"))]

/-- Its info-hash is the digest of the info dictionary in order, wherever that
stands. -/
theorem hashBytes_descendingTorrent :
    decode 2 descendingTorrent.encode = .ok descendingTorrent.sorted ∧
    descendingTorrent.sorted.get? InfoHash.infoKey = some descendingInfo.sorted ∧
    descendingTorrent.encode.extract 7 29 = Bytes.ofString "d4:name1:b6:lengthi1ee" ∧
    (hashBytes .off ⟨43, 2⟩ descendingTorrent.encode).result =
      .ok ⟨Sha1.digest (Bytes.ofString "d6:lengthi1e4:name1:be")⟩ := by
  have distinct : descendingTorrent.Distinct := by
    simp [descendingTorrent, descendingInfo, Value.Distinct, Value.DistinctEntries]
    decide
  have decoded : decode 2 descendingTorrent.encode = .ok descendingTorrent.sorted :=
    decode_encode distinct (by decide) (by decide)
  have held : descendingTorrent.sorted.get? InfoHash.infoKey =
      some descendingInfo.sorted := by
    decide
  have text : descendingTorrent.encode =
      Mark.dictionary :: ([] ++ (encodeString InfoHash.infoKey ++
        (descendingInfo.encode ++ Bytes.ofString "8:announce1:x")) ++
          [Mark.finish]) := by
    decide
  have spelled : Spells descendingInfo.encode descendingInfo :=
    spells_iff.2 ⟨rfl, distinct.2.1⟩
  have others : SpellsEntries (Bytes.ofString "8:announce1:x")
      [(Bytes.ofString "announce", .byteString (Bytes.ofString "x"))] :=
    spellsEntries_iff.2 ⟨by decide, by simp [Value.Distinct]⟩
  have slice : EntrySlice InfoHash.infoKey descendingTorrent.encode 7 29 := by
    rw [text]
    exact .intro .nil (spells_byteString_iff.2 rfl) spelled others
  obtain ⟨start, stop, -, only, ⟨arranged, arrangement, hashed⟩, -, -⟩ :=
    hashBytes_eq_digest_slice .off ⟨43, 2⟩ decoded held
  obtain ⟨rfl, rfl⟩ := only 7 29 slice
  have extract : descendingTorrent.encode.extract 7 29 = descendingInfo.encode := by
    decide
  have inOrder : Bytes.ofString "d6:lengthi1e4:name1:be" = arranged := by
    rw [← arrangement, extract, arranged_iff spelled]
    decide
  rw [inOrder]
  exact ⟨decoded, held, by decide, hashed⟩

end Hashing

end Metainfo
