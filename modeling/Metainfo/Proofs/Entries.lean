import Metainfo.Entries

/-!
# Entries as a mapping

Entries in strictly ascending order of their keys are determined by what they hold, so
that putting entries in order forgets the order in which they came and nothing else.
-/

namespace Metainfo.Entries

variable {Key Value : Type}

@[simp] theorem keys_nil : keys ([] : List (Key × Value)) = [] := rfl

@[simp] theorem keys_cons (entry : Key × Value) (entries : List (Key × Value)) :
    keys (entry :: entries) = entry.1 :: keys entries := rfl

theorem not_mem_keys_of_nodup {key : Key} {entries done : List (Key × Value)}
    (distinct : (key :: keys (entries ++ done)).Nodup) : key ∉ keys done := by
  intro member
  apply (List.nodup_cons.1 distinct).1
  rw [keys, List.map_append, List.mem_append]
  exact .inr member

/-- Entries with distinct keys are distinct. -/
theorem nodup_of_keys {entries : List (Key × Value)} (distinct : (keys entries).Nodup) :
    entries.Nodup := by
  apply (List.pairwise_map.1 distinct).imp
  intro entry other different equal
  exact different (congrArg Prod.fst equal)

/-- Where no key occurs twice, a key tells where its entry stands. -/
theorem split_unique {key : Key} {value other : Value}
    {before after others rest : List (Key × Value)}
    (distinct : (keys (before ++ (key, value) :: after)).Nodup)
    (same : before ++ (key, value) :: after = others ++ (key, other) :: rest) :
    before = others ∧ value = other ∧ after = rest := by
  induction before generalizing others with
  | nil =>
    cases others with
    | nil => simpa using same
    | cons first others =>
      rw [List.nil_append, List.cons_append, List.cons.injEq] at same
      obtain ⟨rfl, rfl⟩ := same
      refine absurd ?_ (List.nodup_cons.1 distinct).1
      simp
  | cons first before ih =>
    cases others with
    | nil =>
      rw [List.nil_append, List.cons_append, List.cons.injEq] at same
      obtain ⟨rfl, rfl⟩ := same
      refine absurd ?_ (List.nodup_cons.1 distinct).1
      simp
    | cons second others =>
      rw [List.cons_append, List.cons_append, List.cons.injEq] at same
      obtain ⟨rfl, same⟩ := same
      obtain ⟨rfl, sameRest⟩ := ih (List.nodup_cons.1 distinct).2 same
      exact ⟨rfl, sameRest⟩

section Lookup

variable [DecidableEq Key]

theorem get?_eq_none_iff {key : Key} {entries : List (Key × Value)} :
    get? key entries = none ↔ key ∉ keys entries := by
  induction entries with
  | nil => simp [get?]
  | cons entry entries ih =>
    by_cases same : entry.1 = key
    · simp [get?, same]
    · have different : key ≠ entry.1 := fun equal => same equal.symm
      simp [get?, same, different, ih]

/-- Where no key occurs twice, a key holds the value that stands beside it. -/
theorem get?_eq_some_iff {key : Key} {value : Value} {entries : List (Key × Value)}
    (distinct : (keys entries).Nodup) :
    get? key entries = some value ↔ (key, value) ∈ entries := by
  induction entries with
  | nil => simp [get?]
  | cons entry entries ih =>
    rw [keys_cons, List.nodup_cons] at distinct
    by_cases same : entry.1 = key
    · have absent : (key, value) ∉ entries := by
        intro member
        apply distinct.1
        rw [same]
        exact List.mem_map_of_mem member
      have here : (key, value) = entry ↔ entry.2 = value := by
        rw [Prod.ext_iff, same]
        simp [eq_comm]
      simp [get?, same, absent, here]
    · have different : (key, value) ≠ entry := fun equal => same (by rw [← equal])
      simp [get?, same, different, ih distinct.2]

theorem get?_append (key : Key) (entries others : List (Key × Value)) :
    get? key (entries ++ others) = (get? key entries).or (get? key others) := by
  induction entries with
  | nil => rfl
  | cons entry entries ih =>
    rw [List.cons_append, get?, get?, ih]
    split <;> rfl

theorem erase_sublist (key : Key) (entries : List (Key × Value)) :
    (erase key entries).Sublist entries := by
  induction entries with
  | nil => exact .slnil
  | cons entry entries ih =>
    simp only [erase]
    split
    · exact List.sublist_cons_self entry entries
    · exact ih.cons_cons entry

/-- Erasing keeps the order. -/
theorem ascending_erase [LT Key] (key : Key) {entries : List (Key × Value)}
    (ascending : Ascending entries) : Ascending (erase key entries) :=
  List.Pairwise.sublist ((erase_sublist key entries).map Prod.fst) ascending

/-- Where no key occurs twice, erasing takes away the entry of one key and no other. -/
theorem get?_erase {key other : Key} {entries : List (Key × Value)}
    (distinct : (keys entries).Nodup) :
    get? other (erase key entries) =
      if other = key then none else get? other entries := by
  induction entries with
  | nil => simp [get?, erase]
  | cons entry entries ih =>
    rw [keys_cons, List.nodup_cons] at distinct
    simp only [erase]
    split
    · rename_i same
      subst same
      split
      · rename_i equal
        subst equal
        exact get?_eq_none_iff.2 distinct.1
      · rename_i different
        rw [get?, if_neg (Ne.symm different)]
    · rename_i differs
      by_cases found : entry.1 = other
      · subst found
        rw [get?, if_pos rfl, if_neg differs, get?, if_pos rfl]
      · rw [get?, if_neg found, ih distinct.2, get?, if_neg found]

end Lookup

section Insertion

variable [DecidableEq Key] [LT Key] [DecidableLT Key]

/-- Inserting under a new key adds an entry and changes no other. -/
theorem insert_perm {key : Key} {value : Value} {entries : List (Key × Value)}
    (fresh : key ∉ keys entries) :
    (insert key value entries).Perm ((key, value) :: entries) := by
  induction entries with
  | nil => exact .refl _
  | cons entry entries ih =>
    rw [keys_cons, List.mem_cons, not_or] at fresh
    simp only [insert]
    split
    · exact .refl _
    · rw [if_neg fresh.1]
      exact ((ih fresh.2).cons entry).trans (.swap ..)

theorem mem_keys_insert {key other : Key} {value : Value}
    {entries : List (Key × Value)} :
    other ∈ keys (insert key value entries) ↔ other = key ∨ other ∈ keys entries := by
  induction entries with
  | nil => simp [insert]
  | cons entry entries ih =>
    simp only [insert]
    split
    · simp
    · split
      · rename_i same
        simp [same]
      · rw [keys_cons, keys_cons, List.mem_cons, List.mem_cons, ih]
        exact or_left_comm

/-- Inserting gives one key a new value and changes no other. -/
theorem get?_insert (key other : Key) (value : Value) (entries : List (Key × Value)) :
    get? other (insert key value entries) =
      if other = key then some value else get? other entries := by
  induction entries with
  | nil => simp [get?, insert, eq_comm]
  | cons entry entries ih =>
    simp only [insert]
    split
    · simp [get?, eq_comm]
    · split
      · rename_i same
        subst same
        by_cases equal : entry.1 = other
        · rw [get?, if_pos equal, if_pos equal.symm]
        · rw [get?, if_neg equal, if_neg (Ne.symm equal), get?, if_neg equal]
      · rename_i different
        by_cases found : entry.1 = other
        · subst found
          rw [get?, if_pos rfl, if_neg (Ne.symm different), get?, if_pos rfl]
        · rw [get?, if_neg found, ih, get?, if_neg found]

theorem mem_of_mem_insert {key : Key} {value : Value} {entry : Key × Value}
    {entries : List (Key × Value)} (member : entry ∈ insert key value entries) :
    entry = (key, value) ∨ entry ∈ entries := by
  induction entries with
  | nil => exact .inl (List.mem_singleton.1 member)
  | cons first entries ih =>
    simp only [insert] at member
    split at member
    · exact List.mem_cons.1 member
    · split at member
      · exact (List.mem_cons.1 member).imp_right (List.mem_cons_of_mem first)
      · rcases List.mem_cons.1 member with rfl | member
        · exact .inr List.mem_cons_self
        · exact (ih member).imp_right (List.mem_cons_of_mem first)

/-- Of entries with distinct keys the first may be inserted among the last. -/
theorem insert_middle_perm {key : Key} (value : Value)
    {entries done : List (Key × Value)}
    (distinct : (key :: keys (entries ++ done)).Nodup) :
    (entries ++ insert key value done).Perm ((key, value) :: (entries ++ done)) :=
  ((insert_perm (not_mem_keys_of_nodup distinct)).append_left entries).trans
    List.perm_middle

theorem nodup_insert_middle {key : Key} (value : Value)
    {entries done : List (Key × Value)}
    (distinct : (key :: keys (entries ++ done)).Nodup) :
    (keys (entries ++ insert key value done)).Nodup :=
  ((insert_middle_perm value distinct).map Prod.fst).nodup_iff.2 distinct

theorem foldl_insert_perm {entries done : List (Key × Value)}
    (distinct : (keys (entries ++ done)).Nodup) :
    (entries.foldl (fun done entry => insert entry.1 entry.2 done) done).Perm
      (entries ++ done) := by
  induction entries generalizing done with
  | nil => exact .refl _
  | cons entry entries ih =>
    exact (ih (nodup_insert_middle entry.2 distinct)).trans
      (insert_middle_perm entry.2 distinct)

/-- Putting entries with distinct keys in order loses none of them. -/
theorem ofList_perm {entries : List (Key × Value)} (distinct : (keys entries).Nodup) :
    (ofList entries).Perm entries := by
  rw [← List.append_nil entries] at distinct
  have perm := foldl_insert_perm distinct
  rwa [List.append_nil] at perm

theorem get?_foldl_insert (key : Key) (entries done : List (Key × Value)) :
    get? key (entries.foldl (fun done entry => insert entry.1 entry.2 done) done) =
      get? key (entries.reverse ++ done) := by
  induction entries generalizing done with
  | nil => rfl
  | cons entry entries ih =>
    rw [List.foldl_cons, ih, List.reverse_cons, List.append_assoc, get?_append,
      get?_append, get?_insert, List.singleton_append, get?]
    simp only [eq_comm]

/-- Of several entries with one key the last counts. -/
theorem get?_ofList (key : Key) (entries : List (Key × Value)) :
    get? key (ofList entries) = get? key entries.reverse := by
  rw [ofList, get?_foldl_insert, List.append_nil]

theorem mem_keys_ofList {key : Key} {entries : List (Key × Value)} :
    key ∈ keys (ofList entries) ↔ key ∈ keys entries := by
  have absent : key ∉ keys (ofList entries) ↔ key ∉ keys entries := by
    rw [← get?_eq_none_iff, get?_ofList, get?_eq_none_iff, keys, List.map_reverse,
      List.mem_reverse]
    rfl
  exact Decidable.not_iff_not.1 absent

theorem mem_of_mem_foldl_insert {entry : Key × Value}
    {entries done : List (Key × Value)}
    (member : entry ∈
      entries.foldl (fun done entry => insert entry.1 entry.2 done) done) :
    entry ∈ entries ∨ entry ∈ done := by
  induction entries generalizing done with
  | nil => exact .inr member
  | cons first entries ih =>
    rcases ih member with later | earlier
    · exact .inl (List.mem_cons_of_mem first later)
    · rcases mem_of_mem_insert earlier with rfl | earlier
      · exact .inl List.mem_cons_self
      · exact .inr earlier

/-- What is put in order was there before. -/
theorem mem_of_mem_ofList {entry : Key × Value} {entries : List (Key × Value)}
    (member : entry ∈ ofList entries) : entry ∈ entries := by
  simpa using mem_of_mem_foldl_insert member

end Insertion

section Order

variable [LE Key] [LT Key] [Std.LawfulOrderLT Key]

theorem Ascending.nodup {entries : List (Key × Value)} (ascending : Ascending entries) :
    (keys entries).Nodup := by
  refine List.Pairwise.imp ?_ ascending
  intro key other less equal
  subst other
  exact Std.lt_irrefl less

variable [Std.IsLinearOrder Key]

/-- Two lists of entries in order that hold the same are equal. -/
theorem Ascending.eq_of_perm {left right : List (Key × Value)}
    (leftAscending : Ascending left) (rightAscending : Ascending right)
    (same : left.Perm right) : left = right := by
  have antisymm : ∀ entry other, entry ∈ left → other ∈ right → entry.1 < other.1 →
      other.1 < entry.1 → entry = other := by
    intro entry other _ _ less greater
    exact absurd (Std.lt_trans less greater) Std.lt_irrefl
  exact List.Perm.eq_of_pairwise antisymm (List.pairwise_map.1 leftAscending)
    (List.pairwise_map.1 rightAscending) same

variable [DecidableEq Key]

/-- Entries in order are determined by what the keys hold. -/
theorem Ascending.eq_of_get? {left right : List (Key × Value)}
    (leftAscending : Ascending left) (rightAscending : Ascending right)
    (same : ∀ key, get? key left = get? key right) : left = right := by
  apply leftAscending.eq_of_perm rightAscending
  rw [List.perm_ext_iff_of_nodup (nodup_of_keys leftAscending.nodup)
    (nodup_of_keys rightAscending.nodup)]
  intro entry
  rw [← get?_eq_some_iff leftAscending.nodup, same,
    get?_eq_some_iff rightAscending.nodup]

variable [DecidableLT Key]

/-- Inserting keeps the order. -/
theorem ascending_insert {key : Key} {value : Value} {entries : List (Key × Value)}
    (ascending : Ascending entries) : Ascending (insert key value entries) := by
  induction entries with
  | nil => exact List.pairwise_singleton ..
  | cons entry entries ih =>
    obtain ⟨first, rest⟩ := List.pairwise_cons.1 ascending
    simp only [insert]
    split
    · rename_i less
      refine List.pairwise_cons.2 ⟨?_, ascending⟩
      intro other member
      rcases List.mem_cons.1 member with rfl | member
      · exact less
      · exact Std.lt_trans less (first other member)
    · rename_i notLess
      split
      · rename_i same
        rw [same]
        exact ascending
      · rename_i different
        refine List.pairwise_cons.2 ⟨?_, ih rest⟩
        intro other member
        rcases mem_keys_insert.1 member with rfl | member
        · exact Std.lt_of_le_of_ne (Std.not_lt.1 notLess)
            (fun equal => different equal.symm)
        · exact first other member

/-- Inserting entries one after the other keeps the order. -/
theorem ascending_foldl_insert (entries : List (Key × Value))
    {done : List (Key × Value)} (ascending : Ascending done) :
    Ascending (entries.foldl (fun done entry => insert entry.1 entry.2 done) done) := by
  induction entries generalizing done with
  | nil => exact ascending
  | cons entry entries ih => exact ih (ascending_insert ascending)

theorem ascending_ofList (entries : List (Key × Value)) : Ascending (ofList entries) :=
  ascending_foldl_insert entries .nil

/-- Entries in order are what becomes of them however they are put in order. -/
theorem ofList_eq_of_perm {entries sorted : List (Key × Value)}
    (same : entries.Perm sorted) (ascending : Ascending sorted) :
    ofList entries = sorted := by
  have distinct : (keys entries).Nodup :=
    (same.map Prod.fst).nodup_iff.2 ascending.nodup
  exact (ascending_ofList entries).eq_of_perm ascending
    ((ofList_perm distinct).trans same)

end Order

end Metainfo.Entries
