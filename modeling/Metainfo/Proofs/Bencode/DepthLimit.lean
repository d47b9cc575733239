import Metainfo.Proofs.Bencode.Failure

/-!
# The limit of depth

A smaller limit stops a decoding earlier or changes nothing.  Reading under a limit goes
the same way as reading under a greater one, up to the first list or dictionary that
lies inside as many others as the limit says; if there is none, what comes of it is the
same.
-/

namespace Metainfo.Bencode

open Value

variable {limit other depth start : Nat} {input : Bytes} {place inner : Place}
  {error : DecodeError}

/-! ## Greater limits -/

theorem Value.Readable.mono {written : Value} (le : limit ≤ other)
    (readable : written.Readable limit depth) : written.Readable other depth :=
  ⟨readable.distinct, readable.fits, Nat.le_trans readable.within le⟩

theorem Enters.mono (le : limit ≤ other) (enters : Enters limit place inner) :
    Enters other place inner := by
  cases enters with
  | item readable noFinish => exact .item (readable.mono le) noFinish
  | entry readable short => exact .entry (readable.mono le) short

theorem Reaches.mono (le : limit ≤ other) (reaches : Reaches limit place inner) :
    Reaches other place inner := by
  induction reaches with
  | refl => exact .refl
  | tail _ enters ih => exact ih.tail (enters.mono le)

theorem EntryFault.mono_limit {position : Nat} {keys : List Bytes} (le : limit ≤ other)
    (fault : EntryFault limit depth start position keys input error) :
    EntryFault other depth start position keys input error := by
  cases fault with
  | noEntry => exact .noEntry
  | noValue short => exact .noValue short
  | nonStringKey noFinish noDigit => exact .nonStringKey noFinish noDigit
  | key digit failed => exact .key digit failed
  | duplicateKey member short readable =>
    exact .duplicateKey member short (readable.mono le)

/-- Every error but that of the limit is raised under a greater limit, too. -/
theorem Raises.mono (le : limit ≤ other) (raises : Raises limit place error)
    (within : ∀ offset bound, error ≠ .depthLimitExceeded offset bound) :
    Raises other place error := by
  cases raises with
  | unexpectedEnd => exact .unexpectedEnd
  | integer failed => exact .integer failed
  | byteString digit failed => exact .byteString digit failed
  | unknown noInteger noContainer noDigit =>
    exact .unknown noInteger noContainer noDigit
  | tooDeep opens deep => exact absurd rfl (within _ _)
  | noItem readable => exact .noItem (readable.mono le)
  | entry readable fault => exact .entry (readable.mono le) (fault.mono_limit le)

/-- What does not fail at the limit comes out under a greater limit as well. -/
theorem valueAt_eq_of_within (le : limit ≤ other) (shallow : depth ≤ limit)
    (within : ∀ offset bound,
      valueAt limit depth start input ≠ .error (.depthLimitExceeded offset bound)) :
    valueAt other depth start input = valueAt limit depth start input := by
  cases outcome : valueAt limit depth start input with
  | ok found =>
    obtain ⟨written, readable, parts⟩ := (valueAt_eq_ok_iff shallow).1 outcome
    exact (valueAt_eq_ok_iff (Nat.le_trans shallow le)).2
      ⟨written, readable.mono le, parts⟩
  | error error =>
    rw [outcome] at within
    obtain ⟨place, reaches, raises⟩ := valueAt_eq_error_iff.1 outcome
    exact valueAt_eq_error_iff.2
      ⟨place, reaches.mono le, raises.mono le fun offset bound same =>
      within offset bound (by rw [same])⟩

/-! ## Where the limit is met -/

/-- A list or dictionary begins at a place. -/
def Place.Opens (place : Place) : Prop :=
  ∃ byte rest, place.rest = byte :: rest ∧ opensContainer byte

theorem Enters.opens (enters : Enters limit place inner) : place.Opens := by
  cases enters with
  | item => exact ⟨_, _, rfl, .inl rfl⟩
  | entry => exact ⟨_, _, rfl, .inr rfl⟩

/-- The error of the limit is raised where a list or dictionary begins, and only
there. -/
theorem Raises.tooDeep_iff {offset bound : Nat} :
    Raises limit place (.depthLimitExceeded offset bound) ↔
      bound = limit ∧ place.offset = offset ∧ limit ≤ place.depth ∧ place.Opens := by
  constructor
  · intro raises
    cases raises with
    | integer failed =>
      obtain ⟨reason, impossible⟩ := exists_reason_of_integerAt failed
      cases impossible
    | byteString digit failed =>
      rcases stringAt_error_cases failed with ⟨_, _, impossible⟩ | ⟨_, _, impossible⟩
      · cases impossible
      · cases impossible
    | tooDeep opens deep => exact ⟨rfl, rfl, deep, _, _, rfl, opens⟩
    | entry readable fault =>
      cases fault with
      | key digit failed =>
        rcases stringAt_error_cases failed with ⟨_, _, impossible⟩ | ⟨_, _, impossible⟩
        · cases impossible
        · cases impossible
  · rintro ⟨rfl, rfl, deep, byte, rest, text, opens⟩
    obtain ⟨depth, offset, _⟩ := place
    cases text
    exact .tooDeep opens deep

theorem Reaches.depth_le (reaches : Reaches limit place inner) :
    place.depth ≤ inner.depth := by
  induction reaches with
  | refl => exact Nat.le_refl _
  | tail _ enters ih =>
    have := enters.depth_eq.2
    omega

/-- On the way to a place, reading comes to a list or dictionary at every depth in
between. -/
theorem Reaches.exists_opens {level : Nat} (reaches : Reaches limit place inner)
    (le : place.depth ≤ level) (lt : level < inner.depth) :
    ∃ middle, Reaches limit place middle ∧ middle.depth = level ∧ middle.Opens ∧
      middle.offset < inner.offset := by
  induction reaches with
  | refl => omega
  | @tail last inner before enters ih =>
    have deeper := enters.depth_eq.2
    obtain ⟨between, -, offset, nonempty⟩ := enters.exists_before
    have longer := List.length_pos_iff.2 nonempty
    by_cases here : last.depth = level
    · exact ⟨last, before, here, enters.opens, by omega⟩
    · obtain ⟨middle, reached, atLevel, opens, earlier⟩ := ih (by omega)
      exact ⟨middle, reached, atLevel, opens, by omega⟩

/-! ## What a smaller limit stops -/

/-- A failure inside a list or dictionary, or one before it among the parts already
complete, comes out of the list or dictionary. -/
theorem Enters.exists_tooDeep {offset : Nat} (enters : Enters other place inner)
    (shallow : place.depth < limit) (later : inner.offset ≤ offset)
    (failed : valueAt limit inner.depth inner.offset inner.rest =
      .error (.depthLimitExceeded offset limit)) :
    ∃ earlier, place.offset ≤ earlier ∧ earlier ≤ offset ∧
      valueAt limit place.depth place.offset place.rest =
        .error (.depthLimitExceeded earlier limit) := by
  -- The parts before the inner place are read first, and one of them may lie too deep
  -- itself.
  cases enters with
  | @item depth start items byte rest readable noFinish =>
    have each := (readable_list_iff.1 readable).2
    simp only [valueAt_list, if_neg (Nat.not_le.2 shallow)]
    rw [itemsAt_flatMap (fun item member => (each item member).readsBack) shallow,
      unlessTooDeep]
    cases first : (openingsOfItems (start + 1) (depth + 1) items).find?
        fun opening => opening.around = limit with
    | none =>
      simp only at failed later ⊢
      rw [itemsAt_cons noFinish, failed]
      exact ⟨offset, by omega, Nat.le_refl _, rfl⟩
    | some opening =>
      have member := List.mem_of_find?_eq_some first
      have between := (openBetween_openings (list items) start depth).within opening
        (List.mem_cons_of_mem _ member)
      simp only [encode_list, List.length_append, List.length_cons, List.length_nil]
        at between
      simp only at later
      exact ⟨opening.offset, between.1, by omega, rfl⟩
  | @entry depth start entries key byte rest readable short =>
    obtain ⟨-, keys, each⟩ := readable_dictionary_iff.1 readable
    simp only [valueAt_dictionary, if_neg (Nat.not_le.2 shallow)]
    rw [entriesAt_flatMap (fun entry member => (each entry member).2.readsBack)
        (fun entry member => (each entry member).1) shallow _ _ _ (by simpa using keys),
      unlessTooDeep]
    cases first : (openingsOfEntries (start + 1) (depth + 1) entries).find?
        fun opening => opening.around = limit with
    | none =>
      simp only at failed later ⊢
      rw [entriesAt_encodeString _ _ _ short, if_neg (by simp), failed]
      exact ⟨offset, by omega, Nat.le_refl _, rfl⟩
    | some opening =>
      have member := List.mem_of_find?_eq_some first
      have between :=
        (openBetween_openings (dictionary entries) start depth).within opening
        (List.mem_cons_of_mem _ member)
      simp only [encode_dictionary, List.length_append, List.length_cons,
        List.length_nil]
        at between
      simp only [encodeEntries] at later
      exact ⟨opening.offset, between.1, by omega, rfl⟩

/-- Where reading under some limit comes to a list or dictionary inside as many others
as a limit says, reading under this limit fails there or earlier. -/
theorem Reaches.exists_tooDeep (reaches : Reaches other place inner)
    (level : inner.depth = limit) (opens : inner.Opens) :
    ∃ offset, place.offset ≤ offset ∧ offset ≤ inner.offset ∧
      valueAt limit place.depth place.offset place.rest =
        .error (.depthLimitExceeded offset limit) := by
  induction reaches using Relation.ReflTransGen.head_induction_on with
  | refl =>
    have raises : Raises limit inner (.depthLimitExceeded inner.offset limit) :=
      Raises.tooDeep_iff.2 ⟨rfl, rfl, Nat.le_of_eq level.symm, opens⟩
    exact ⟨inner.offset, Nat.le_refl _, Nat.le_refl _, raises.valueAt_eq⟩
  | @head place middle enters reaches ih =>
    obtain ⟨offset, later, le, failed⟩ := ih
    have deeper := enters.depth_eq.2
    have below := Reaches.depth_le reaches
    obtain ⟨earlier, start, leOffset, failedOutside⟩ :=
      enters.exists_tooDeep (by omega) later failed
    exact ⟨earlier, start, Nat.le_trans leOffset le, failedOutside⟩

/-- Reading an input under some limit comes to a list or dictionary that begins at the
offset inside `around` others. -/
def Meets (input : Bytes) (around offset : Nat) : Prop :=
  ∃ limit place, Reaches limit ⟨0, 0, input⟩ place ∧ place.depth = around ∧
    place.offset = offset ∧ place.Opens

theorem decodePrefix_eq_tooDeep_of_meets {offset : Nat}
    (meets : Meets input limit offset) :
    ∃ earlier, earlier ≤ offset ∧
      decodePrefix limit input = .error (.depthLimitExceeded earlier limit) := by
  obtain ⟨other, place, reaches, level, rfl, opens⟩ := meets
  obtain ⟨earlier, -, le, failed⟩ := Reaches.exists_tooDeep reaches level opens
  exact ⟨earlier, le, by rw [decodePrefix_eq, failed]; rfl⟩

/-- Decoding fails at the limit exactly where it first comes to a list or dictionary
inside as many others as the limit says. -/
theorem decodePrefix_eq_tooDeep_iff {offset bound : Nat} :
    decodePrefix limit input = .error (.depthLimitExceeded offset bound) ↔
      bound = limit ∧ Meets input limit offset ∧
        ∀ later, Meets input limit later → offset ≤ later := by
  have first {offset bound : Nat}
      (failed : decodePrefix limit input = .error (.depthLimitExceeded offset bound)) :
      bound = limit ∧ Meets input limit offset := by
    obtain ⟨place, reaches, raises⟩ := decodePrefix_eq_error_iff.1 failed
    obtain ⟨rfl, rfl, deep, opens⟩ := Raises.tooDeep_iff.1 raises
    have shallow : place.depth ≤ bound := by
      induction reaches with
      | refl => exact Nat.zero_le _
      | tail _ enters _ =>
        have := enters.depth_eq
        omega
    exact ⟨rfl, bound, place, reaches, Nat.le_antisymm shallow deep, rfl, opens⟩
  constructor
  · intro failed
    obtain ⟨rfl, meets⟩ := first failed
    refine ⟨rfl, meets, fun later metLater => ?_⟩
    obtain ⟨earlier, le, failedEarlier⟩ := decodePrefix_eq_tooDeep_of_meets metLater
    rw [failed] at failedEarlier
    cases failedEarlier
    exact le
  · rintro ⟨rfl, meets, least⟩
    obtain ⟨earlier, le, failed⟩ := decodePrefix_eq_tooDeep_of_meets meets
    have same : earlier = offset := Nat.le_antisymm le (least earlier (first failed).2)
    rw [failed, same]

/-- Where a greater limit gives a value, a smaller one gives it, too, or the value lies
too deep. -/
theorem decodePrefix_of_ok {consumed : Nat} {value : Value}
    (decoded : decodePrefix other input = .ok (consumed, value)) (limit : Nat) :
    (value.depth ≤ limit → decodePrefix limit input = .ok (consumed, value)) ∧
    (limit < value.depth →
      ∃ offset,
        decodePrefix limit input = .error (.depthLimitExceeded offset limit)) := by
  obtain ⟨written, ⟨distinct, fits, -⟩, ⟨rest, rfl⟩, rfl, rfl⟩ :=
    decodePrefix_eq_ok_iff.1 decoded
  rw [depth_sorted distinct]
  constructor
  · intro within
    have readable : written.Readable limit 0 := ⟨distinct, fits, by omega⟩
    exact decodePrefix_eq_ok_iff.2 ⟨written, readable, List.prefix_append .., rfl, rfl⟩
  · intro deep
    rw [decodePrefix_eq, distinct.readsBack_of_fits fits 0 0 _ (Nat.zero_le limit),
      unlessTooDeep]
    cases first : (written.openings 0 0).find? fun opening =>
      opening.around = limit with
    | some opening => exact ⟨opening.offset, rfl⟩
    | none =>
      have shallow : ∀ opening ∈ written.openings 0 0, opening.around ≠ limit := by
        simpa using first
      have within := (openings_ne_iff written 0 (Nat.zero_le limit)).1 shallow
      omega

/-- Where a greater limit stops a decoding, a smaller one stops it earlier. -/
theorem exists_earlier_of_tooDeep {offset bound : Nat} (less : limit < other)
    (failed : decodePrefix other input = .error (.depthLimitExceeded offset bound)) :
    ∃ earlier, earlier < offset ∧
      decodePrefix limit input = .error (.depthLimitExceeded earlier limit) := by
  obtain ⟨-, ⟨bound, place, reaches, level, rfl, -⟩, -⟩ :=
    decodePrefix_eq_tooDeep_iff.1 failed
  obtain ⟨middle, reached, atLimit, opens, before⟩ :=
    Reaches.exists_opens reaches (Nat.zero_le limit) (by omega)
  obtain ⟨earlier, le, failedEarlier⟩ :=
    decodePrefix_eq_tooDeep_of_meets ⟨bound, middle, reached, atLimit, rfl, opens⟩
  exact ⟨earlier, Nat.lt_of_le_of_lt le before, failedEarlier⟩

/-- A smaller limit only cuts a decoding short.  If it is not what stops the decoding,
the outcome is that of the greater limit.  A value is found under it exactly if it lies
no deeper.  Where the greater limit stops the decoding, the smaller one does so earlier.
The limit stops a decoding at the first list or dictionary that lies inside as many
others as it says. -/
theorem decodePrefix_of_lt (less : limit < other) (input : Bytes) :
    ((∀ offset bound,
      decodePrefix limit input ≠ .error (.depthLimitExceeded offset bound)) →
      decodePrefix other input = decodePrefix limit input) ∧
    (∀ consumed value, decodePrefix other input = .ok (consumed, value) →
      (decodePrefix limit input = .ok (consumed, value) ↔ value.depth ≤ limit) ∧
      (limit < value.depth →
        ∃ offset,
          decodePrefix limit input = .error (.depthLimitExceeded offset limit))) ∧
    (∀ offset bound,
      decodePrefix other input = .error (.depthLimitExceeded offset bound) →
      ∃ earlier, earlier < offset ∧
        decodePrefix limit input = .error (.depthLimitExceeded earlier limit)) ∧
    ∀ offset bound,
      decodePrefix limit input = .error (.depthLimitExceeded offset bound) ↔
      bound = limit ∧ Meets input limit offset ∧
        ∀ later, Meets input limit later → offset ≤ later := by
  refine ⟨?_, ?_, fun offset bound => exists_earlier_of_tooDeep less,
    fun offset bound => decodePrefix_eq_tooDeep_iff⟩
  · intro within
    rw [decodePrefix_eq limit] at within ⊢
    rw [decodePrefix_eq, valueAt_eq_of_within (Nat.le_of_lt less) (Nat.zero_le _)]
    intro offset bound failed
    exact within offset bound (by rw [failed]; rfl)
  · intro consumed value decoded
    obtain ⟨found, refused⟩ := decodePrefix_of_ok decoded limit
    refine ⟨⟨fun same => ?_, found⟩, refused⟩
    by_contra deep
    obtain ⟨offset, failed⟩ := refused (Nat.not_le.1 deep)
    rw [same] at failed
    cases failed

/-- Three levels are needed for the text `d1:al1:eleee`; with fewer it is cut the
earlier the fewer there are. -/
theorem decodePrefix_nested_of_lt :
    2 < 3 ∧ 1 < 2 ∧ decodePrefix 3 nested.encode = .ok (12, nested) ∧
    ∃ offset, decodePrefix 2 nested.encode = .error (.depthLimitExceeded offset 2) ∧
      ∃ earlier, earlier < offset ∧
        decodePrefix 1 nested.encode = .error (.depthLimitExceeded earlier 1) := by
  have decoded : decodePrefix 3 nested.encode = .ok (12, nested) :=
    decodePrefix_eq_ok_iff.2
      ⟨nested, nested_readable, List.prefix_refl _, nested_ordered.sorted_eq.symm,
        by decide⟩
  have less : 2 < 3 := by decide
  have lessAgain : 1 < 2 := by decide
  obtain ⟨offset, failed⟩ := ((decodePrefix_of_lt less _).2.1 _ _ decoded).2 (by decide)
  exact ⟨less, lessAgain, decoded, offset, failed,
    (decodePrefix_of_lt lessAgain _).2.2.1 _ _ failed⟩

end Metainfo.Bencode
