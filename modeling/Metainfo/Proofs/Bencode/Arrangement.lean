import Mathlib.Data.Nat.Basic
import Mathlib.Order.Basic
import Metainfo.Bencode.Encode
import Metainfo.Proofs.Entries

/-!
# The order of entries

The entries of a dictionary may be listed in any order as long as no key occurs twice.
A value whose entries are listed as they stand in some input is related here to the one
value that holds the same in ascending order: sorting keeps the depth and the length of
the canonical form, and changes nothing that is in order already.
-/

namespace Metainfo.Bencode.Value

/-- Induction over values, where lists and dictionaries give the hypothesis for all they
hold. -/
theorem parts_induction {motive : Value → Prop}
    (byteString : ∀ bytes, motive (.byteString bytes))
    (integer : ∀ number, motive (.integer number))
    (list : ∀ items, (∀ item ∈ items, motive item) → motive (.list items))
    (dictionary : ∀ entries, (∀ entry ∈ entries, motive entry.2) →
      motive (.dictionary entries))
    (value : Value) : motive value :=
  @Value.rec motive (fun items => ∀ item ∈ items, motive item)
    (fun entries => ∀ entry ∈ entries, motive entry.2) (fun entry => motive entry.2)
    byteString integer list dictionary
    (by simp) (fun _ _ first rest => List.forall_mem_cons.2 ⟨first, rest⟩)
    (by simp) (fun _ _ first rest => List.forall_mem_cons.2 ⟨first, rest⟩)
    (fun _ _ hypothesis => hypothesis) value

theorem orderedItems_iff {items : List Value} :
    OrderedItems items ↔ ∀ item ∈ items, item.Ordered := by
  induction items with
  | nil => simp [OrderedItems]
  | cons item items ih => simp [OrderedItems, ih]

theorem orderedEntries_iff {entries : List (Bytes × Value)} :
    OrderedEntries entries ↔ ∀ entry ∈ entries, entry.2.Ordered := by
  induction entries with
  | nil => simp [OrderedEntries]
  | cons entry entries ih => simp [OrderedEntries, ih]

theorem depthItems_le_iff {items : List Value} {bound : Nat} :
    depthItems items ≤ bound ↔ ∀ item ∈ items, item.depth ≤ bound := by
  induction items with
  | nil => simp [depthItems]
  | cons item items ih => rw [depthItems, Nat.max_le, List.forall_mem_cons, ih]

theorem depthEntries_le_iff {entries : List (Bytes × Value)} {bound : Nat} :
    depthEntries entries ≤ bound ↔ ∀ entry ∈ entries, entry.2.depth ≤ bound := by
  induction entries with
  | nil => simp [depthEntries]
  | cons entry entries ih => rw [depthEntries, Nat.max_le, List.forall_mem_cons, ih]

mutual

/-- No dictionary inside the value lists a key twice. -/
def Distinct : Value → Prop
  | .byteString _ => True
  | .integer _ => True
  | .list items => DistinctItems items
  | .dictionary entries => (Entries.keys entries).Nodup ∧ DistinctEntries entries

/-- `Distinct` for every item of a list. -/
def DistinctItems : List Value → Prop
  | [] => True
  | item :: items => item.Distinct ∧ DistinctItems items

/-- `Distinct` for every value of a dictionary. -/
def DistinctEntries : List (Bytes × Value) → Prop
  | [] => True
  | (_, value) :: entries => value.Distinct ∧ DistinctEntries entries

end

theorem distinctItems_iff {items : List Value} :
    DistinctItems items ↔ ∀ item ∈ items, item.Distinct := by
  induction items with
  | nil => simp [DistinctItems]
  | cons item items ih => simp [DistinctItems, ih]

theorem distinctEntries_iff {entries : List (Bytes × Value)} :
    DistinctEntries entries ↔ ∀ entry ∈ entries, entry.2.Distinct := by
  induction entries with
  | nil => simp [DistinctEntries]
  | cons entry entries ih => simp [DistinctEntries, ih]

/-- Keys in strictly ascending order are distinct. -/
theorem Ordered.distinct {value : Value} (ordered : value.Ordered) :
    value.Distinct := by
  induction value using parts_induction with
  | byteString bytes => trivial
  | integer number => trivial
  | list items ih =>
    simp only [Ordered, orderedItems_iff] at ordered
    simp only [Distinct, distinctItems_iff]
    exact fun item member => ih item member (ordered item member)
  | dictionary entries ih =>
    simp only [Ordered, orderedEntries_iff] at ordered
    simp only [Distinct, distinctEntries_iff]
    exact ⟨ordered.1.nodup, fun entry member =>
      ih entry member (ordered.2 entry member)⟩

mutual

/-- The value with the entries of every dictionary put in ascending order. -/
def sorted : Value → Value
  | .byteString bytes => .byteString bytes
  | .integer number => .integer number
  | .list items => .list (sortedItems items)
  | .dictionary entries => .dictionary (Entries.ofList (sortedEntries entries))

/-- `sorted` for every item of a list. -/
def sortedItems : List Value → List Value
  | [] => []
  | item :: items => item.sorted :: sortedItems items

/-- `sorted` for every value of a dictionary, whose own entries stay where they are. -/
def sortedEntries : List (Bytes × Value) → List (Bytes × Value)
  | [] => []
  | (key, value) :: entries => (key, value.sorted) :: sortedEntries entries

end

theorem sortedItems_eq_map (items : List Value) :
    sortedItems items = items.map sorted := by
  induction items with
  | nil => rfl
  | cons item items ih => rw [sortedItems, ih, List.map_cons]

theorem sortedEntries_eq_map (entries : List (Bytes × Value)) :
    sortedEntries entries = entries.map fun entry => (entry.1, entry.2.sorted) := by
  induction entries with
  | nil => rfl
  | cons entry entries ih => rw [sortedEntries, ih, List.map_cons]

@[simp] theorem keys_sortedEntries (entries : List (Bytes × Value)) :
    Entries.keys (sortedEntries entries) = Entries.keys entries := by
  rw [sortedEntries_eq_map, Entries.keys, List.map_map]
  rfl

/-- Putting the entries of a dictionary in order loses none of them. -/
theorem ofList_sortedEntries_perm {entries : List (Bytes × Value)}
    (distinct : (Entries.keys entries).Nodup) :
    (Entries.ofList (sortedEntries entries)).Perm
      (entries.map fun entry => (entry.1, entry.2.sorted)) := by
  rw [← sortedEntries_eq_map]
  exact Entries.ofList_perm (by rwa [keys_sortedEntries])

/-- Sorting puts every dictionary in order. -/
theorem ordered_sorted {value : Value} (distinct : value.Distinct) :
    value.sorted.Ordered := by
  induction value using parts_induction with
  | byteString bytes => trivial
  | integer number => trivial
  | list items ih =>
    simp only [Distinct, distinctItems_iff] at distinct
    simp only [sorted, sortedItems_eq_map, Ordered, orderedItems_iff,
      List.forall_mem_map]
    exact fun item member => ih item member (distinct item member)
  | dictionary entries ih =>
    simp only [Distinct, distinctEntries_iff] at distinct
    simp only [sorted, Ordered, orderedEntries_iff]
    refine ⟨Entries.ascending_ofList _, ?_⟩
    intro entry member
    rw [(ofList_sortedEntries_perm distinct.1).mem_iff, List.mem_map] at member
    obtain ⟨written, inside, rfl⟩ := member
    exact ih written inside (distinct.2 written inside)

/-- Sorting changes nothing that is in order. -/
theorem Ordered.sorted_eq {value : Value} (ordered : value.Ordered) :
    value.sorted = value := by
  induction value using parts_induction with
  | byteString bytes => rfl
  | integer number => rfl
  | list items ih =>
    simp only [Ordered, orderedItems_iff] at ordered
    have same : items.map sorted = items.map id :=
      List.map_congr_left fun item member => ih item member (ordered item member)
    rw [sorted, sortedItems_eq_map, same, List.map_id]
  | dictionary entries ih =>
    simp only [Ordered, orderedEntries_iff] at ordered
    have same : (entries.map fun entry => (entry.1, entry.2.sorted)) = entries.map id :=
      List.map_congr_left fun entry member => by
        rw [ih entry member (ordered.2 entry member)]
        rfl
    rw [sorted, sortedEntries_eq_map, same, List.map_id,
      Entries.ofList_eq_of_perm (.refl _) ordered.1]

/-- Sorting keeps the depth. -/
theorem depth_sorted {value : Value} (distinct : value.Distinct) :
    value.sorted.depth = value.depth := by
  induction value using parts_induction with
  | byteString bytes => rfl
  | integer number => rfl
  | list items ih =>
    simp only [Distinct, distinctItems_iff] at distinct
    have same : depthItems (sortedItems items) = depthItems items := by
      apply eq_of_forall_ge_iff
      intro bound
      rw [sortedItems_eq_map, depthItems_le_iff, depthItems_le_iff, List.forall_mem_map]
      exact forall₂_congr fun item member => by
        rw [ih item member (distinct item member)]
    simp only [sorted, depth, same]
  | dictionary entries ih =>
    simp only [Distinct, distinctEntries_iff] at distinct
    have same : depthEntries (Entries.ofList (sortedEntries entries)) =
        depthEntries entries := by
      apply eq_of_forall_ge_iff
      intro bound
      simp only [depthEntries_le_iff, (ofList_sortedEntries_perm distinct.1).mem_iff,
        List.forall_mem_map]
      exact forall₂_congr fun entry member => by
        rw [ih entry member (distinct.2 entry member)]
    simp only [sorted, depth, same]

/-- Sorting keeps the length of the canonical form. -/
theorem length_encode_sorted {value : Value} (distinct : value.Distinct) :
    value.sorted.encode.length = value.encode.length := by
  induction value using parts_induction with
  | byteString bytes => rfl
  | integer number => rfl
  | list items ih =>
    simp only [Distinct, distinctItems_iff] at distinct
    have same : (items.map fun item => item.sorted.encode.length) =
        items.map fun item => item.encode.length :=
      List.map_congr_left fun item member => ih item member (distinct item member)
    simp [sorted, sortedItems_eq_map, List.length_flatMap, Function.comp_def, same]
  | dictionary entries ih =>
    simp only [Distinct, distinctEntries_iff] at distinct
    have lengths := ((ofList_sortedEntries_perm distinct.1).flatMap_right
      fun entry => encodeString entry.1 ++ entry.2.encode).length_eq
    have same : (entries.map fun entry =>
          (encodeString entry.1).length + entry.2.sorted.encode.length) =
        entries.map fun entry =>
          (encodeString entry.1).length + entry.2.encode.length :=
      List.map_congr_left fun entry member => by
        rw [ih entry member (distinct.2 entry member)]
    simp only [sorted, encode_dictionary, List.length_append, List.length_cons, lengths]
    simp [List.length_flatMap, Function.comp_def, same]

mutual

/-- The second value holds what the first one does, the entries of dictionaries being
listed in another order perhaps. -/
inductive Rearranged : Value → Value → Prop where
  | byteString (bytes : Bytes) : Rearranged (.byteString bytes) (.byteString bytes)
  | integer (number : Integer) : Rearranged (.integer number) (.integer number)
  | list {items others : List Value} :
      RearrangedItems items others → Rearranged (.list items) (.list others)
  | dictionary {entries moved others : List (Bytes × Value)} :
      RearrangedEntries entries moved → moved.Perm others →
      Rearranged (.dictionary entries) (.dictionary others)

/-- `Rearranged` item by item. -/
inductive RearrangedItems : List Value → List Value → Prop where
  | nil : RearrangedItems [] []
  | cons {item other : Value} {items others : List Value} :
      Rearranged item other → RearrangedItems items others →
      RearrangedItems (item :: items) (other :: others)

/-- `Rearranged` value by value, under the same keys. -/
inductive RearrangedEntries : List (Bytes × Value) → List (Bytes × Value) → Prop where
  | nil : RearrangedEntries [] []
  | cons {key : Bytes} {value other : Value} {entries others : List (Bytes × Value)} :
      Rearranged value other → RearrangedEntries entries others →
      RearrangedEntries ((key, value) :: entries) ((key, other) :: others)

end

/-- Sorting rearranges. -/
theorem rearranged_sorted {value : Value} (distinct : value.Distinct) :
    Rearranged value value.sorted := by
  induction value using parts_induction with
  | byteString bytes => exact .byteString bytes
  | integer number => exact .integer number
  | list items ih =>
    simp only [Distinct, distinctItems_iff] at distinct
    refine .list ?_
    induction items with
    | nil => exact .nil
    | cons item items itemsIH =>
      rw [List.forall_mem_cons] at ih distinct
      exact .cons (ih.1 distinct.1) (itemsIH ih.2 distinct.2)
  | dictionary entries ih =>
    simp only [Distinct, distinctEntries_iff] at distinct
    have perm := (ofList_sortedEntries_perm distinct.1).symm
    rw [← sortedEntries_eq_map] at perm
    refine .dictionary ?_ perm
    replace distinct := distinct.2
    clear perm
    induction entries with
    | nil => exact .nil
    | cons entry entries entriesIH =>
      rw [List.forall_mem_cons] at ih distinct
      exact .cons (ih.1 distinct.1) (entriesIH ih.2 distinct.2)

/-- There is one way only to rearrange a value so that it is in order. -/
theorem Rearranged.eq_sorted {written value : Value}
    (rearranged : Rearranged written value) (ordered : value.Ordered) :
    value = written.sorted := by
  induction written using parts_induction generalizing value with
  | byteString bytes =>
    cases rearranged
    rfl
  | integer number =>
    cases rearranged
    rfl
  | list items ih =>
    cases rearranged with
    | list same =>
      rename_i others
      simp only [Ordered, orderedItems_iff] at ordered
      rw [sorted]
      congr 1
      induction items generalizing others with
      | nil =>
        cases same
        rfl
      | cons item items itemsIH =>
        cases same with
        | cons first rest =>
          rw [List.forall_mem_cons] at ih ordered
          rw [sortedItems, ih.1 first ordered.1, itemsIH ih.2 rest ordered.2]
  | dictionary entries ih =>
    cases rearranged with
    | dictionary same perm =>
      rename_i moved others
      simp only [Ordered, orderedEntries_iff] at ordered
      have movedOrdered : ∀ entry ∈ moved, entry.2.Ordered :=
        fun entry member => ordered.2 entry (perm.mem_iff.1 member)
      have equal : moved = sortedEntries entries := by
        clear perm ordered
        induction entries generalizing moved with
        | nil =>
          cases same
          rfl
        | cons entry entries entriesIH =>
          cases same with
          | cons first rest =>
            rw [List.forall_mem_cons] at ih movedOrdered
            rw [sortedEntries, ih.1 first movedOrdered.1,
              entriesIH ih.2 rest movedOrdered.2]
      rw [sorted, ← equal, Entries.ofList_eq_of_perm perm ordered.1]

end Metainfo.Bencode.Value
