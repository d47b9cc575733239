import Metainfo.Proofs.Bencode.Arrangement

/-!
# Where lists and dictionaries begin

The lists and dictionaries of a value are listed with the offsets at which its canonical
form begins them and with the number of others around them.  They come in ascending
order of the offsets, and some of them lies inside as many others as a limit says
exactly if the value lies deeper than the limit.  Each stands where the canonical form
of a list or dictionary begins in the text.
-/

namespace Metainfo.Bencode

/-- Where a list or dictionary begins, and how many others lie around it. -/
structure Opening where
  offset : Nat
  around : Nat
  deriving DecidableEq, Repr

namespace Value

mutual

/-- The lists and dictionaries that a value consists of, in the order in which its
canonical form begins them.  The form begins at `start` inside `around` others. -/
def openings (start around : Nat) : Value → List Opening
  | .byteString _ => []
  | .integer _ => []
  | .list items => ⟨start, around⟩ :: openingsOfItems (start + 1) (around + 1) items
  | .dictionary entries =>
      ⟨start, around⟩ :: openingsOfEntries (start + 1) (around + 1) entries

/-- The openings of the items of a list. -/
def openingsOfItems (start around : Nat) : List Value → List Opening
  | [] => []
  | item :: items =>
      item.openings start around ++
        openingsOfItems (start + item.encode.length) around items

/-- The openings of the values of a dictionary, each of which stands behind its key. -/
def openingsOfEntries (start around : Nat) : List (Bytes × Value) → List Opening
  | [] => []
  | (key, value) :: entries =>
      value.openings (start + (encodeString key).length) around ++
        openingsOfEntries (start + (encodeString key).length + value.encode.length)
          around entries

end

variable {limit around : Nat}

theorem openingsOfItems_ne_iff {items : List Value} (within : around ≤ limit)
    (each : ∀ item ∈ items, ∀ start,
      (∀ opening ∈ item.openings start around, opening.around ≠ limit) ↔
        around + item.depth ≤ limit)
    (start : Nat) :
    (∀ opening ∈ openingsOfItems start around items, opening.around ≠ limit) ↔
      around + depthItems items ≤ limit := by
  induction items generalizing start with
  | nil => simp [openingsOfItems, depthItems, within]
  | cons item items ih =>
    rw [List.forall_mem_cons] at each
    rw [openingsOfItems, List.forall_mem_append, each.1, ih each.2, depthItems]
    omega

theorem openingsOfEntries_ne_iff {entries : List (Bytes × Value)}
    (within : around ≤ limit) (each : ∀ entry ∈ entries, ∀ start,
      (∀ opening ∈ entry.2.openings start around, opening.around ≠ limit) ↔
        around + entry.2.depth ≤ limit)
    (start : Nat) :
    (∀ opening ∈ openingsOfEntries start around entries, opening.around ≠ limit) ↔
      around + depthEntries entries ≤ limit := by
  induction entries generalizing start with
  | nil => simp [openingsOfEntries, depthEntries, within]
  | cons entry entries ih =>
    rw [List.forall_mem_cons] at each
    rw [openingsOfEntries, List.forall_mem_append, each.1, ih each.2, depthEntries]
    omega

/-- Some list or dictionary lies inside as many others as the limit says exactly if the
depth exceeds the limit. -/
theorem openings_ne_iff (value : Value) (start : Nat) (within : around ≤ limit) :
    (∀ opening ∈ value.openings start around, opening.around ≠ limit) ↔
      around + value.depth ≤ limit := by
  induction value using parts_induction generalizing start around with
  | byteString bytes => simpa [openings, depth] using within
  | integer number => simpa [openings, depth] using within
  | list items ih =>
    rw [openings, List.forall_mem_cons, depth]
    by_cases deep : around = limit
    · simp [deep]
    · have each : ∀ item ∈ items, ∀ start,
          (∀ opening ∈ item.openings start (around + 1), opening.around ≠ limit) ↔
            around + 1 + item.depth ≤ limit :=
        fun item member start => ih item member start (by omega)
      rw [openingsOfItems_ne_iff (by omega) each]
      simp only [ne_eq, deep, not_false_eq_true, true_and]
      omega
  | dictionary entries ih =>
    rw [openings, List.forall_mem_cons, depth]
    by_cases deep : around = limit
    · simp [deep]
    · have each : ∀ entry ∈ entries, ∀ start,
          (∀ opening ∈ entry.2.openings start (around + 1), opening.around ≠ limit) ↔
            around + 1 + entry.2.depth ≤ limit :=
        fun entry member start => ih entry member start (by omega)
      rw [openingsOfEntries_ne_iff (by omega) each]
      simp only [ne_eq, deep, not_false_eq_true, true_and]
      omega

/-- Openings between two offsets, each before the next. -/
structure OpenBetween (start stop : Nat) (openings : List Opening) : Prop where
  within : ∀ opening ∈ openings, start ≤ opening.offset ∧ opening.offset < stop
  ascending : openings.Pairwise fun opening other => opening.offset < other.offset

namespace OpenBetween

variable {start middle stop : Nat} {openings others : List Opening}

theorem nil : OpenBetween start stop [] :=
  ⟨by simp, .nil⟩

theorem append (between : OpenBetween start middle openings)
    (after : OpenBetween middle stop others) (le : start ≤ middle)
    (leStop : middle ≤ stop) : OpenBetween start stop (openings ++ others) := by
  constructor
  · intro opening member
    rcases List.mem_append.1 member with first | second
    · have := between.within opening first
      omega
    · have := after.within opening second
      omega
  · refine List.pairwise_append.2 ⟨between.ascending, after.ascending, ?_⟩
    intro opening member other otherMember
    have := between.within opening member
    have := after.within other otherMember
    omega

theorem mono {first last : Nat} (between : OpenBetween start stop openings)
    (le : first ≤ start) (leLast : stop ≤ last) : OpenBetween first last openings :=
  ⟨fun opening member => by
    have := between.within opening member
    omega, between.ascending⟩

/-- A list or dictionary begins before those inside it, and ends after them. -/
theorem cons (between : OpenBetween (start + 1) middle openings) (lt : start < stop)
    (le : middle ≤ stop) (around : Nat) :
    OpenBetween start stop (⟨start, around⟩ :: openings) := by
  constructor
  · rw [List.forall_mem_cons]
    refine ⟨⟨Nat.le_refl _, lt⟩, ?_⟩
    intro opening member
    have := between.within opening member
    omega
  · refine List.pairwise_cons.2 ⟨?_, between.ascending⟩
    exact fun opening member => (between.within opening member).1

/-- The first opening of a kind has the least offset. -/
theorem least_of_find? {accept : Opening → Bool} {opening : Opening}
    (between : OpenBetween start stop openings)
    (first : openings.find? accept = some opening) :
    ∀ other ∈ openings, accept other = true → opening.offset ≤ other.offset := by
  obtain ⟨_, before, after, rfl, refused⟩ := List.find?_eq_some_iff_append.1 first
  intro other member accepted
  rcases List.mem_append.1 member with earlier | later
  · have := refused other earlier
    simp [accepted] at this
  · rcases List.mem_cons.1 later with rfl | later
    · exact Nat.le_refl _
    · have ascending := (List.pairwise_append.1 between.ascending).2.1
      exact Nat.le_of_lt ((List.pairwise_cons.1 ascending).1 other later)

end OpenBetween

/-- The lists and dictionaries of a value are listed as its canonical form begins
them. -/
theorem openBetween_openings (value : Value) (start around : Nat) :
    OpenBetween start (start + value.encode.length) (value.openings start around) := by
  induction value using parts_induction generalizing start around with
  | byteString bytes => exact .nil
  | integer number => exact .nil
  | list items ih =>
    have inside (position : Nat) :
        OpenBetween position (position + (items.flatMap encode).length)
        (openingsOfItems position (around + 1) items) := by
      induction items generalizing position with
      | nil => exact .nil
      | cons item items itemsIH =>
        rw [List.forall_mem_cons] at ih
        rw [openingsOfItems, List.flatMap_cons, List.length_append, ← Nat.add_assoc]
        exact (ih.1 position _).append (itemsIH ih.2 _) (Nat.le_add_right ..)
          (Nat.le_add_right ..)
    rw [openings, encode_list]
    refine (inside (start + 1)).cons ?_ ?_ around <;>
      simp only [List.length_append, List.length_cons, List.length_nil] <;> omega
  | dictionary entries ih =>
    have inside (position : Nat) : OpenBetween position
        (position +
          (entries.flatMap fun entry => encodeString entry.1 ++ entry.2.encode).length)
        (openingsOfEntries position (around + 1) entries) := by
      induction entries generalizing position with
      | nil => exact .nil
      | cons entry entries entriesIH =>
        rw [List.forall_mem_cons] at ih
        rw [openingsOfEntries, List.flatMap_cons, List.length_append,
          List.length_append, ← Nat.add_assoc, ← Nat.add_assoc]
        exact ((ih.1 _ _).append (entriesIH ih.2 _) (Nat.le_add_right ..)
          (Nat.le_add_right ..)).mono (Nat.le_add_right ..) (Nat.le_refl _)
    rw [openings, encode_dictionary]
    refine (inside (start + 1)).cons ?_ ?_ around <;>
      simp only [List.length_append, List.length_cons, List.length_nil] <;> omega

/-- In a text that begins at `start`, the canonical form of a list or dictionary begins
at an offset. -/
def BeginsAt (offset start : Nat) (text : Bytes) : Prop :=
  ∃ before inside after, text = before ++ (encode inside ++ after) ∧
    offset = start + before.length ∧ 0 < inside.depth

namespace BeginsAt

variable {offset start : Nat} {text : Bytes}

theorem append (begins : BeginsAt offset start text) (rest : Bytes) :
    BeginsAt offset start (text ++ rest) := by
  obtain ⟨before, inside, after, rfl, place, deep⟩ := begins
  exact ⟨before, inside, after ++ rest, by simp, place, deep⟩

theorem prepend (front : Bytes) (begins : BeginsAt offset (start + front.length) text) :
    BeginsAt offset start (front ++ text) := by
  obtain ⟨before, inside, after, rfl, place, deep⟩ := begins
  refine ⟨front ++ before, inside, after, by simp, ?_, deep⟩
  rw [place, List.length_append, Nat.add_assoc]

/-- A list or dictionary begins where its own text begins. -/
theorem encode {value : Value} (deep : 0 < value.depth) :
    BeginsAt start start value.encode :=
  ⟨[], value, [], by simp, rfl, deep⟩

end BeginsAt

theorem beginsAt_of_mem_openingsOfItems {items : List Value} {opening : Opening}
    (each : ∀ item ∈ items, ∀ start, opening ∈ item.openings start around →
      BeginsAt opening.offset start item.encode)
    {start : Nat} (member : opening ∈ openingsOfItems start around items) :
    BeginsAt opening.offset start (items.flatMap encode) := by
  induction items generalizing start with
  | nil => cases member
  | cons item items ih =>
    rw [List.forall_mem_cons] at each
    rw [openingsOfItems] at member
    rw [List.flatMap_cons]
    rcases List.mem_append.1 member with first | later
    · exact (each.1 start first).append _
    · exact (ih each.2 later).prepend _

theorem beginsAt_of_mem_openingsOfEntries {entries : List (Bytes × Value)}
    {opening : Opening}
    (each : ∀ entry ∈ entries, ∀ start, opening ∈ entry.2.openings start around →
      BeginsAt opening.offset start entry.2.encode)
    {start : Nat} (member : opening ∈ openingsOfEntries start around entries) :
    BeginsAt opening.offset start
      (entries.flatMap fun entry => encodeString entry.1 ++ entry.2.encode) := by
  induction entries generalizing start with
  | nil => cases member
  | cons entry entries ih =>
    rw [List.forall_mem_cons] at each
    rw [openingsOfEntries] at member
    rw [List.flatMap_cons, List.append_assoc]
    apply BeginsAt.prepend (encodeString entry.1)
    rcases List.mem_append.1 member with first | later
    · exact (each.1 _ first).append _
    · exact (ih each.2 later).prepend _

/-- Where an opening is listed, the canonical form of a list or dictionary begins. -/
theorem beginsAt_of_mem_openings {value : Value} {start : Nat} {opening : Opening}
    (member : opening ∈ value.openings start around) :
    BeginsAt opening.offset start value.encode := by
  induction value using parts_induction generalizing start around with
  | byteString bytes => cases member
  | integer number => cases member
  | list items ih =>
    rw [openings] at member
    rcases List.mem_cons.1 member with rfl | inside
    · exact .encode (by simp [depth])
    · have each : ∀ item ∈ items, ∀ start, opening ∈ item.openings start (around + 1) →
          BeginsAt opening.offset start item.encode :=
        fun item itemMember start opened => ih item itemMember opened
      rw [encode_list]
      exact ((beginsAt_of_mem_openingsOfItems each inside).append _).prepend [Mark.list]
  | dictionary entries ih =>
    rw [openings] at member
    rcases List.mem_cons.1 member with rfl | inside
    · exact .encode (by simp [depth])
    · have each : ∀ entry ∈ entries, ∀ start,
          opening ∈ entry.2.openings start (around + 1) →
          BeginsAt opening.offset start entry.2.encode :=
        fun entry entryMember start opened => ih entry entryMember opened
      rw [encode_dictionary]
      exact ((beginsAt_of_mem_openingsOfEntries each inside).append _).prepend
        [Mark.dictionary]

end Value

end Metainfo.Bencode
