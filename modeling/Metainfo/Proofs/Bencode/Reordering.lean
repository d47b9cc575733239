import Metainfo.Proofs.Bencode.Failure
import Metainfo.Proofs.InfoSlice

/-!
# Texts of one value

The entries of a dictionary may stand in any order, at every level.  Main statement: two
accepted inputs denote the same value exactly if one of them becomes the other by moving
entries inside dictionaries, step by step and with nothing else changed.
-/

namespace Metainfo.Bencode

open Value

/-- The second text is the first one with the entries of one dictionary, which may lie
inside others, written in another order. -/
inductive Reorders : Bytes → Bytes → Prop where
  | here {text other : Bytes} {entries moved : List (Bytes × Value)} :
      SpellsEntries text entries → SpellsEntries other moved → entries.Perm moved →
      Reorders (Mark.dictionary :: (text ++ [Mark.finish]))
        (Mark.dictionary :: (other ++ [Mark.finish]))
  | item {front text other back : Bytes} {before after : List Value} :
      SpellsItems front before → Reorders text other → SpellsItems back after →
      Reorders (Mark.list :: (front ++ (text ++ back) ++ [Mark.finish]))
        (Mark.list :: (front ++ (other ++ back) ++ [Mark.finish]))
  | entry {front name text other back key : Bytes}
      {before after : List (Bytes × Value)} :
      SpellsEntries front before → Spells name (.byteString key) → Reorders text other →
      SpellsEntries back after →
      Reorders (Mark.dictionary :: (front ++ (name ++ (text ++ back)) ++ [Mark.finish]))
        (Mark.dictionary :: (front ++ (name ++ (other ++ back)) ++ [Mark.finish]))

/-! ## Moving entries of values -/

/-- The second value lists the entries of one dictionary inside the first one in another
order. -/
inductive Value.Moves : Value → Value → Prop where
  | here {entries others : List (Bytes × Value)} :
      entries.Perm others → Moves (.dictionary entries) (.dictionary others)
  | item {before after : List Value} {value other : Value} :
      Moves value other →
      Moves (.list (before ++ value :: after)) (.list (before ++ other :: after))
  | entry {before after : List (Bytes × Value)} {key : Bytes} {value other : Value} :
      Moves value other →
      Moves (.dictionary (before ++ (key, value) :: after))
        (.dictionary (before ++ (key, other) :: after))

namespace Value

variable {limit depth : Nat} {value other : Value}

theorem Moves.symm (moves : value.Moves other) : other.Moves value := by
  induction moves with
  | here perm => exact .here perm.symm
  | item _ ih => exact .item ih
  | entry _ ih => exact .entry ih

/-- What entries become in order does not depend on the order in which they are
listed. -/
theorem sorted_eq_of_perm {entries others : List (Bytes × Value)}
    (distinct : (Entries.keys entries).Nodup) (perm : entries.Perm others) :
    (dictionary others).sorted = (dictionary entries).sorted := by
  have same : (sortedEntries others).Perm (Entries.ofList (sortedEntries entries)) := by
    rw [sortedEntries_eq_map others]
    exact (perm.symm.map _).trans (ofList_sortedEntries_perm distinct).symm
  rw [sorted, sorted, Entries.ofList_eq_of_perm same (Entries.ascending_ofList _)]

/-- Moving entries keeps a value readable, and it stays the same in order. -/
theorem Moves.readable (moves : value.Moves other)
    (readable : value.Readable limit depth) :
    other.Readable limit depth ∧ other.sorted = value.sorted := by
  induction moves generalizing depth with
  | here perm =>
    obtain ⟨shallow, keys, each⟩ := readable_dictionary_iff.1 readable
    refine ⟨readable_dictionary_iff.2 ⟨shallow, ?_, ?_⟩, sorted_eq_of_perm keys perm⟩
    · exact (perm.map Prod.fst).nodup_iff.1 keys
    · exact fun entry member => each entry (perm.mem_iff.2 member)
  | item _ ih =>
    obtain ⟨shallow, each⟩ := readable_list_iff.1 readable
    rw [List.forall_mem_append, List.forall_mem_cons] at each
    obtain ⟨before, here, after⟩ := each
    obtain ⟨readableOther, same⟩ := ih here
    refine ⟨readable_list_iff.2 ⟨shallow, ?_⟩, ?_⟩
    · rw [List.forall_mem_append, List.forall_mem_cons]
      exact ⟨before, readableOther, after⟩
    · simp only [sorted, sortedItems_eq_map, List.map_append, List.map_cons, same]
  | entry _ ih =>
    obtain ⟨shallow, keys, each⟩ := readable_dictionary_iff.1 readable
    rw [List.forall_mem_append, List.forall_mem_cons] at each
    obtain ⟨before, ⟨short, here⟩, after⟩ := each
    obtain ⟨readableOther, same⟩ := ih here
    refine ⟨readable_dictionary_iff.2 ⟨shallow, ?_, ?_⟩, ?_⟩
    · simpa [Entries.keys] using keys
    · rw [List.forall_mem_append, List.forall_mem_cons]
      exact ⟨before, ⟨short, readableOther⟩, after⟩
    · simp only [sorted, sortedEntries_eq_map, List.map_append, List.map_cons, same]

theorem movesItems_of_rearranged {items others : List Value}
    (each : ∀ item ∈ items, ∀ other, Rearranged item other →
      Relation.ReflTransGen Moves item other)
    (rearranged : RearrangedItems items others) (before : List Value) :
    Relation.ReflTransGen Moves (list (before ++ items)) (list (before ++ others)) := by
  induction items generalizing others before with
  | nil =>
    cases rearranged
    exact .refl
  | cons item items ih =>
    cases rearranged with
    | @cons _ other _ others first rest =>
      rw [List.forall_mem_cons] at each
      have here := (each.1 _ first).lift (fun item => list (before ++ item :: items))
        fun _ _ => Moves.item
      have others := ih each.2 rest (before ++ [other])
      rw [List.append_assoc, List.append_assoc] at others
      exact here.trans others

theorem movesEntries_of_rearranged {entries others : List (Bytes × Value)}
    (each : ∀ entry ∈ entries, ∀ other, Rearranged entry.2 other →
      Relation.ReflTransGen Moves entry.2 other)
    (rearranged : RearrangedEntries entries others) (before : List (Bytes × Value)) :
    Relation.ReflTransGen Moves (dictionary (before ++ entries))
      (dictionary (before ++ others)) := by
  induction entries generalizing others before with
  | nil =>
    cases rearranged
    exact .refl
  | cons entry entries ih =>
    cases rearranged with
    | @cons key value other _ others first rest =>
      rw [List.forall_mem_cons] at each
      have here :=
        (each.1 _ first).lift (fun value =>
          dictionary (before ++ (key, value) :: entries))
        fun _ _ => Moves.entry
      have others := ih each.2 rest (before ++ [(key, other)])
      rw [List.append_assoc, List.append_assoc] at others
      exact here.trans others

/-- A value is rearranged by moving entries, one dictionary after the other. -/
theorem Rearranged.moves (rearranged : Rearranged value other) :
    Relation.ReflTransGen Moves value other := by
  induction value using parts_induction generalizing other with
  | byteString bytes =>
    cases rearranged
    exact .refl
  | integer number =>
    cases rearranged
    exact .refl
  | list items ih =>
    cases rearranged with
    | list same =>
      exact movesItems_of_rearranged (fun item member _ => ih item member) same []
  | dictionary entries ih =>
    cases rearranged with
    | dictionary same perm =>
      exact (movesEntries_of_rearranged
        (fun entry member _ => ih entry member) same []).tail
        (.here perm)

/-- Values that are the same in order become each other by moving entries. -/
theorem moves_of_sorted_eq (distinct : value.Distinct) (otherDistinct : other.Distinct)
    (same : value.sorted = other.sorted) : Relation.ReflTransGen Moves value other := by
  have toSorted := (rearranged_sorted distinct).moves
  have fromSorted := Relation.ReflTransGen.mono (fun _ _ => Moves.symm) _ _
    (rearranged_sorted otherDistinct).moves.swap
  rw [same] at toSorted
  exact toSorted.trans fromSorted

/-- Where entries of a value are moved, entries of its text are. -/
theorem Moves.reorders (moves : value.Moves other) (distinct : value.Distinct)
    (otherDistinct : other.Distinct) : Reorders value.encode other.encode := by
  induction moves with
  | here perm =>
    rw [Distinct, distinctEntries_iff] at distinct otherDistinct
    rw [encode_dictionary, encode_dictionary]
    exact .here (spellsEntries_iff.2 ⟨rfl, distinct.2⟩)
      (spellsEntries_iff.2 ⟨rfl, otherDistinct.2⟩)
      perm
  | @item before after value other _ ih =>
    rw [Distinct, distinctItems_iff, List.forall_mem_append, List.forall_mem_cons]
      at distinct otherDistinct
    have text (item : Value) : (list (before ++ item :: after)).encode =
        Mark.list :: (before.flatMap encode ++ (item.encode ++ after.flatMap encode) ++
          [Mark.finish]) := by simp
    rw [text, text]
    exact .item (spellsItems_iff.2 ⟨rfl, distinct.1⟩)
      (ih distinct.2.1 otherDistinct.2.1)
      (spellsItems_iff.2 ⟨rfl, distinct.2.2⟩)
  | @entry before after key value other _ ih =>
    rw [Distinct, distinctEntries_iff, List.forall_mem_append, List.forall_mem_cons]
      at distinct otherDistinct
    have text (item : Value) : (dictionary (before ++ (key, item) :: after)).encode =
        Mark.dictionary :: (encodeEntries before ++
          (encodeString key ++ (item.encode ++ encodeEntries after)) ++
            [Mark.finish]) := by simp
    rw [text, text]
    exact .entry (spellsEntries_iff.2 ⟨rfl, distinct.2.1⟩) (spells_byteString_iff.2 rfl)
      (ih distinct.2.2.1 otherDistinct.2.2.1)
      (spellsEntries_iff.2 ⟨rfl, distinct.2.2.2⟩)

end Value

/-- Where entries of a text are moved, entries of a value written there are. -/
theorem Reorders.exists_moves {text other : Bytes} (reorders : Reorders text other) :
    ∃ left right : Value, text = left.encode ∧ other = right.encode ∧
      left.Moves right := by
  induction reorders with
  | @here _ _ entries moved spelled otherSpelled perm =>
    obtain ⟨rfl, -⟩ := spellsEntries_iff.1 spelled
    obtain ⟨rfl, -⟩ := spellsEntries_iff.1 otherSpelled
    exact ⟨dictionary entries, dictionary moved, by simp, by simp, .here perm⟩
  | @item _ _ _ _ before after front _ back ih =>
    obtain ⟨left, right, rfl, rfl, moves⟩ := ih
    obtain ⟨rfl, -⟩ := spellsItems_iff.1 front
    obtain ⟨rfl, -⟩ := spellsItems_iff.1 back
    exact ⟨list (before ++ left :: after), list (before ++ right :: after), by simp,
      by simp, .item moves⟩
  | @entry _ _ _ _ _ key before after front name _ back ih =>
    obtain ⟨left, right, rfl, rfl, moves⟩ := ih
    obtain ⟨rfl, -⟩ := spellsEntries_iff.1 front
    obtain rfl := spells_byteString_iff.1 name
    obtain ⟨rfl, -⟩ := spellsEntries_iff.1 back
    exact ⟨dictionary (before ++ (key, left) :: after),
      dictionary (before ++ (key, right) :: after), by simp, by simp, .entry moves⟩

section Inputs

variable {limit : Nat} {input other : Bytes} {value : Value}

/-- Readable values that become each other by moving entries have texts that do. -/
theorem reorders_of_moves {written moved : Value} (readable : written.Readable limit 0)
    (moves : Relation.ReflTransGen Moves written moved) :
    Relation.ReflTransGen Reorders written.encode moved.encode := by
  induction moves using Relation.ReflTransGen.head_induction_on with
  | refl => exact .refl
  | head step _ ih =>
    have readableNext := (step.readable readable).1
    exact (ih readableNext).head (step.reorders readable.distinct readableNext.distinct)

/-- Decoding does not see the order of entries. -/
theorem Reorders.decode_eq (reorders : Reorders input other)
    (decoded : decode limit input = .ok value) : decode limit other = .ok value := by
  obtain ⟨written, readable, text, rfl⟩ := decode_eq_ok_iff.1 decoded
  obtain ⟨left, right, leftText, rfl, moves⟩ := reorders.exists_moves
  obtain rfl := encode_injective (text.symm.trans leftText)
  obtain ⟨readableRight, same⟩ := moves.readable readable
  exact decode_eq_ok_iff.2 ⟨right, readableRight, rfl, same.symm⟩

/-- The inputs of a value are those that come from one of them by moving entries. -/
theorem decode_eq_iff_reorders (decoded : decode limit input = .ok value) :
    decode limit other = .ok value ↔ Relation.ReflTransGen Reorders input other := by
  constructor
  · intro otherDecoded
    obtain ⟨written, readable, rfl, rfl⟩ := decode_eq_ok_iff.1 decoded
    obtain ⟨moved, otherReadable, rfl, same⟩ := decode_eq_ok_iff.1 otherDecoded
    exact reorders_of_moves readable
      (moves_of_sorted_eq readable.distinct otherReadable.distinct same)
  · intro reorders
    induction reorders with
    | refl => exact decoded
    | tail _ step ih => exact step.decode_eq ih

end Inputs

end Metainfo.Bencode

namespace Metainfo.Hashing

open Bencode

/-- Two accepted inputs denote the same value exactly if one becomes the other by moving
entries inside dictionaries.  Then they are the same when they are written again, and
have the same info-hash. -/
theorem decoded_eq_iff_reorders {limit : Nat} {input other : Bytes}
    {value otherValue : Value} (decoded : decode limit input = .ok value)
    (otherDecoded : decode limit other = .ok otherValue) :
    (value = otherValue ↔ Relation.ReflTransGen Reorders input other) ∧
    (value.encode = otherValue.encode ↔ Relation.ReflTransGen Reorders input other) ∧
    (Relation.ReflTransGen Reorders input other →
      ∀ info, value.get? InfoHash.infoKey = some (.dictionary info) →
        ∃ hash, InfoHash.ofValue value = .ok hash ∧
          InfoHash.ofValue otherValue = .ok hash ∧
          ∀ threshold (limits : Limits), limits.maxDepth = limit →
            (hashBytes threshold limits input).result = .ok hash ∧
            (hashBytes threshold limits other).result = .ok hash) := by
  have same : value = otherValue ↔ Relation.ReflTransGen Reorders input other := by
    rw [← decode_eq_iff_reorders decoded, otherDecoded, Except.ok.injEq, eq_comm]
  refine ⟨same, ?_, ?_⟩
  · rw [← same]
    exact ⟨Value.encode_injective, congrArg Value.encode⟩
  · intro reorders info held
    obtain rfl := same.2 reorders
    refine ⟨_, ofValue_eq held, ofValue_eq held, fun threshold limits depth => ?_⟩
    subst depth
    exact ⟨result_hashBytes threshold decoded held,
      result_hashBytes threshold otherDecoded held⟩

/-- A torrent and the same torrent in order have the same info-hash. -/
theorem decoded_descendingTorrent :
    decode 2 descendingTorrent.encode = .ok descendingTorrent.sorted ∧
    decode 2 descendingTorrent.sorted.encode = .ok descendingTorrent.sorted ∧
    Relation.ReflTransGen Reorders descendingTorrent.encode
      descendingTorrent.sorted.encode ∧
    ∃ hash, (hashBytes .off ⟨43, 2⟩ descendingTorrent.encode).result = .ok hash ∧
      (hashBytes .off ⟨43, 2⟩ descendingTorrent.sorted.encode).result = .ok hash := by
  have distinct : descendingTorrent.Distinct := by
    simp [descendingTorrent, descendingInfo, Value.Distinct, Value.DistinctEntries]
    decide
  have decoded : decode 2 descendingTorrent.encode = .ok descendingTorrent.sorted :=
    decode_encode distinct (by decide) (by decide)
  have ordered := Value.ordered_sorted distinct
  have sortedDecoded : decode 2 descendingTorrent.sorted.encode =
      .ok descendingTorrent.sorted := by
    rw [decode_encode ordered.distinct (by decide) (by decide), ordered.sorted_eq]
  have held : descendingTorrent.sorted.get? InfoHash.infoKey =
      some descendingInfo.sorted := by
    decide
  obtain ⟨same, -, hashes⟩ := decoded_eq_iff_reorders decoded sortedDecoded
  have reorders := same.1 rfl
  obtain ⟨hash, -, -, result⟩ := hashes reorders _ held
  exact ⟨decoded, sortedDecoded, reorders, hash, result .off ⟨43, 2⟩ rfl⟩

end Metainfo.Hashing
