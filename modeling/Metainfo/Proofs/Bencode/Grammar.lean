import Metainfo.Proofs.Bencode.Arrangement
import Metainfo.Proofs.Decimal

/-!
# The grammar of bencoded text

The grammar is given as a relation between texts and values, independent of reading and
writing.  It relates a text to the value with the entries of dictionaries in the order
in which they are written; the value that a text denotes has them in ascending order.
Main statement: a text of the grammar is the canonical form of the value as it is
written.
-/

namespace Metainfo.Bencode

/-- The decimal text of a number above zero: a digit other than zero, and any digits
after it. -/
inductive PositiveText : Bytes → Prop where
  | intro {digit : UInt8} {digits : Bytes} :
      Decimal.isDigit digit = true → digit ≠ 0x30 →
      (∀ next ∈ digits, Decimal.isDigit next = true) →
      PositiveText (digit :: digits)

/-- The decimal text of the length of a byte string. -/
inductive LengthText : Bytes → Prop where
  | zero : LengthText [0x30]
  | positive {digits : Bytes} : PositiveText digits → LengthText digits

/-- The decimal text of an integer. -/
inductive IntegerText : Bytes → Prop where
  | zero : IntegerText [0x30]
  | positive {digits : Bytes} : PositiveText digits → IntegerText digits
  | negative {digits : Bytes} : PositiveText digits →
      IntegerText (Integer.minus :: digits)

mutual

/-- The text is that of the value, which lists the entries of each dictionary as they
are written. -/
inductive Spells : Bytes → Value → Prop where
  | integer {number : Integer} :
      IntegerText number.text →
      Spells (Mark.integer :: (number.text ++ [Mark.finish])) (.integer number)
  | byteString {length bytes : Bytes} :
      LengthText length → Decimal.value length = bytes.length →
      Spells (length ++ Mark.colon :: bytes) (.byteString bytes)
  | list {text : Bytes} {items : List Value} :
      SpellsItems text items →
      Spells (Mark.list :: (text ++ [Mark.finish])) (.list items)
  | dictionary {text : Bytes} {entries : List (Bytes × Value)} :
      SpellsEntries text entries → (Entries.keys entries).Nodup →
      Spells (Mark.dictionary :: (text ++ [Mark.finish])) (.dictionary entries)

/-- The text is that of the items of a list, one after the other. -/
inductive SpellsItems : Bytes → List Value → Prop where
  | nil : SpellsItems [] []
  | cons {text rest : Bytes} {item : Value} {items : List Value} :
      Spells text item → SpellsItems rest items →
      SpellsItems (text ++ rest) (item :: items)

/-- The text is that of keys and values, entry after entry. -/
inductive SpellsEntries : Bytes → List (Bytes × Value) → Prop where
  | nil : SpellsEntries [] []
  | cons {name text rest key : Bytes} {value : Value} {entries : List (Bytes × Value)} :
      Spells name (.byteString key) → Spells text value → SpellsEntries rest entries →
      SpellsEntries (name ++ (text ++ rest)) ((key, value) :: entries)

end

/-- The value that a text denotes: it holds what is written, with every dictionary in
order. -/
def Derives (text : Bytes) (value : Value) : Prop :=
  ∃ written, Spells text written ∧ written.Rearranged value ∧ value.Ordered

/-! ## Numerals -/

theorem isNatural_iff_zero_or_positiveText {digits : Bytes} :
    Integer.isNatural digits = true ↔ digits = [0x30] ∨ PositiveText digits := by
  constructor
  · intro natural
    match digits with
    | [] => simp [Integer.isNatural] at natural
    | [digit] =>
        by_cases zero : digit = 0x30
        · exact .inl (by rw [zero])
        · exact .inr (.intro natural zero (by simp))
    | digit :: next :: digits =>
        simp only [Integer.isNatural, Bool.and_eq_true, bne_iff_ne, List.all_eq_true]
          at natural
        exact .inr (.intro natural.1.2 natural.1.1 natural.2)
  · rintro (rfl | ⟨digit, nonzero, all⟩)
    · decide
    · apply Integer.isNatural_of_all (by simp)
      · simpa [digit] using all
      · simpa using nonzero

theorem PositiveText.head? {digits : Bytes} (positive : PositiveText digits) :
    digits.head? ≠ some 0x30 := by
  cases positive with
  | intro digit nonzero all => simpa using nonzero

theorem lengthText_iff {digits : Bytes} :
    LengthText digits ↔ Integer.isNatural digits = true := by
  rw [isNatural_iff_zero_or_positiveText]
  constructor
  · intro length
    cases length with
    | zero => exact .inl rfl
    | positive positive => exact .inr positive
  · rintro (rfl | positive)
    · exact .zero
    · exact .positive positive

/-- The texts of integers are those that count as canonical. -/
theorem integerText_iff {text : Bytes} :
    IntegerText text ↔ Integer.isCanonical text = true := by
  constructor
  · intro integer
    cases integer with
    | zero => decide
    | positive positive =>
      exact Integer.isCanonical_of_isNatural
        (isNatural_iff_zero_or_positiveText.2 (.inr positive))
    | negative positive =>
      simp [Integer.isCanonical, isNatural_iff_zero_or_positiveText.2 (.inr positive),
        positive.head?]
  · intro canonical
    cases text with
    | nil => simp [Integer.isCanonical] at canonical
    | cons sign digits =>
      by_cases negative : sign = Integer.minus
      · subst negative
        simp only [Integer.isCanonical, if_true, Bool.and_eq_true, bne_iff_ne,
          isNatural_iff_zero_or_positiveText]
          at canonical
        rcases canonical.2 with rfl | positive
        · exact absurd rfl canonical.1
        · exact .negative positive
      · simp only [Integer.isCanonical, negative, if_false,
          isNatural_iff_zero_or_positiveText] at canonical
        rcases canonical with zero | positive
        · rw [zero]
          exact .zero
        · exact .positive positive

/-- The text of a length is the one in which the number is written. -/
theorem LengthText.ofNat_value {digits : Bytes} (length : LengthText digits) :
    Decimal.ofNat (Decimal.value digits) = digits := by
  cases length with
  | zero => decide
  | positive positive =>
    cases positive with
    | intro digit nonzero all =>
      apply Decimal.ofNat_value (by simp)
      · simpa [digit] using all
      · simp [nonzero]

theorem spells_byteString_iff {text bytes : Bytes} :
    Spells text (.byteString bytes) ↔ text = encodeString bytes := by
  constructor
  · intro spelled
    cases spelled with
    | byteString length counts => rw [encodeString, ← counts, length.ofNat_value]
  · rintro rfl
    exact .byteString (lengthText_iff.2 (Integer.isNatural_ofNat _))
      (Decimal.value_ofNat _)

/-! ## Texts and canonical forms -/

/-- A text is that of a list of items if the text of each item is its canonical form. -/
theorem spellsItems_iff_of {items : List Value}
    (each : ∀ item ∈ items, ∀ text, Spells text item ↔
      text = item.encode ∧ item.Distinct)
    {text : Bytes} :
    SpellsItems text items ↔
      text = items.flatMap Value.encode ∧ ∀ item ∈ items, item.Distinct := by
  induction items generalizing text with
  | nil =>
    constructor
    · intro spelled
      cases spelled
      simp
    · rintro ⟨rfl, -⟩
      exact .nil
  | cons item items ih =>
    rw [List.forall_mem_cons] at each
    rw [List.forall_mem_cons, List.flatMap_cons]
    constructor
    · intro spelled
      cases spelled with
      | cons first rest =>
        obtain ⟨rfl, distinct⟩ := (each.1 _).1 first
        obtain ⟨rfl, others⟩ := (ih each.2).1 rest
        exact ⟨rfl, distinct, others⟩
    · rintro ⟨rfl, distinct, others⟩
      exact .cons ((each.1 _).2 ⟨rfl, distinct⟩) ((ih each.2).2 ⟨rfl, others⟩)

/-- A text is that of a list of entries if the text of each value is its canonical
form. -/
theorem spellsEntries_iff_of {entries : List (Bytes × Value)}
    (each : ∀ entry ∈ entries, ∀ text,
      Spells text entry.2 ↔ text = entry.2.encode ∧ entry.2.Distinct)
    {text : Bytes} :
    SpellsEntries text entries ↔
      text = entries.flatMap (fun entry => encodeString entry.1 ++ entry.2.encode) ∧
        ∀ entry ∈ entries, entry.2.Distinct := by
  induction entries generalizing text with
  | nil =>
    constructor
    · intro spelled
      cases spelled
      simp
    · rintro ⟨rfl, -⟩
      exact .nil
  | cons entry entries ih =>
    obtain ⟨key, value⟩ := entry
    rw [List.forall_mem_cons] at each
    rw [List.forall_mem_cons, List.flatMap_cons, List.append_assoc]
    constructor
    · intro spelled
      cases spelled with
      | cons name first rest =>
        obtain rfl := spells_byteString_iff.1 name
        obtain ⟨rfl, distinct⟩ := (each.1 _).1 first
        obtain ⟨rfl, others⟩ := (ih each.2).1 rest
        exact ⟨rfl, distinct, others⟩
    · rintro ⟨rfl, distinct, others⟩
      exact .cons (spells_byteString_iff.2 rfl) ((each.1 _).2 ⟨rfl, distinct⟩)
        ((ih each.2).2 ⟨rfl, others⟩)

/-- The text of a value is its canonical form, the entries of dictionaries being written
as they are listed, and each key once. -/
theorem spells_iff {text : Bytes} {written : Value} :
    Spells text written ↔ text = written.encode ∧ written.Distinct := by
  induction written using Value.parts_induction generalizing text with
  | byteString bytes => simp [spells_byteString_iff, Value.Distinct]
  | integer number =>
    constructor
    · intro spelled
      cases spelled with
      | integer text => exact ⟨by simp, trivial⟩
    · rintro ⟨rfl, -⟩
      rw [Value.encode_integer]
      exact .integer (integerText_iff.2 number.canonical)
  | list items ih =>
    have each := @spellsItems_iff_of items fun item member text => ih item member
    simp only [Value.Distinct, Value.distinctItems_iff, Value.encode_list]
    constructor
    · intro spelled
      cases spelled with
      | list spelled =>
        obtain ⟨rfl, distinct⟩ := each.1 spelled
        exact ⟨rfl, distinct⟩
    · rintro ⟨rfl, distinct⟩
      exact .list (each.2 ⟨rfl, distinct⟩)
  | dictionary entries ih =>
    have each := @spellsEntries_iff_of entries fun entry member text => ih entry member
    simp only [Value.Distinct, Value.distinctEntries_iff, Value.encode_dictionary]
    constructor
    · intro spelled
      cases spelled with
      | dictionary spelled keys =>
        obtain ⟨rfl, distinct⟩ := each.1 spelled
        exact ⟨rfl, keys, distinct⟩
    · rintro ⟨rfl, keys, distinct⟩
      exact .dictionary (each.2 ⟨rfl, distinct⟩) keys

theorem spellsItems_iff {text : Bytes} {items : List Value} :
    SpellsItems text items ↔
      text = items.flatMap Value.encode ∧ ∀ item ∈ items, item.Distinct :=
  spellsItems_iff_of fun _ _ _ => spells_iff

theorem spellsEntries_iff {text : Bytes} {entries : List (Bytes × Value)} :
    SpellsEntries text entries ↔
      text = entries.flatMap (fun entry => encodeString entry.1 ++ entry.2.encode) ∧
        ∀ entry ∈ entries, entry.2.Distinct :=
  spellsEntries_iff_of fun _ _ _ => spells_iff

/-- What a text denotes is what is written, put in order. -/
theorem derives_iff {text : Bytes} {value : Value} :
    Derives text value ↔
      ∃ written : Value, written.Distinct ∧ text = written.encode ∧
        value = written.sorted := by
  constructor
  · rintro ⟨written, spelled, rearranged, ordered⟩
    obtain ⟨rfl, distinct⟩ := spells_iff.1 spelled
    exact ⟨written, distinct, rfl, rearranged.eq_sorted ordered⟩
  · rintro ⟨written, distinct, rfl, rfl⟩
    exact ⟨written, spells_iff.2 ⟨rfl, distinct⟩, Value.rearranged_sorted distinct,
      Value.ordered_sorted distinct⟩

end Metainfo.Bencode
