import Metainfo.Bencode.Integer
import Metainfo.Proofs.Decimal

/-!
# The numbers of integers

An integer is kept as its text.  The canonical texts are the decimal texts of the
numbers, one for each, so that an integer has a number; the accessors give it exactly
where it lies in their range.
-/

namespace Metainfo.Bencode.Integer

theorem isNatural_iff_plain_digits {digits : Bytes} :
    isNatural digits = true ↔
      digits ≠ [] ∧ digits.all Decimal.isDigit = true ∧
        ¬(digits.length > 1 ∧ digits.head? = some 0x30) := by
  match digits with
  | [] => simp [isNatural]
  | [digit] => simp [isNatural]
  | digit :: next :: digits => simp [isNatural, and_assoc, and_comm]

/-- A string of digits is a natural number if it is the text of the number that it
denotes. -/
theorem ofNat_value_of_isNatural {digits : Bytes} (natural : isNatural digits = true) :
    Decimal.ofNat (Decimal.value digits) = digits := by
  obtain ⟨nonempty, all, plain⟩ := isNatural_iff_plain_digits.1 natural
  exact Decimal.ofNat_value nonempty all plain

theorem textOf_natCast (number : Nat) : textOf number = Decimal.ofNat number := by
  rw [textOf, if_neg (by omega), Int.natAbs_natCast]

theorem textOf_neg {number : Nat} (positive : 0 < number) :
    textOf (-number) = minus :: Decimal.ofNat number := by
  rw [textOf, if_pos (by omega), Int.natAbs_neg, Int.natAbs_natCast]

/-- Canonical text is the text of a number. -/
theorem exists_textOf_of_isCanonical {text : Bytes}
    (canonical : isCanonical text = true) : ∃ number, text = textOf number := by
  cases text with
  | nil => cases canonical
  | cons sign digits =>
    rw [isCanonical] at canonical
    by_cases negative : sign = minus
    · rw [if_pos negative, Bool.and_eq_true, bne_iff_ne] at canonical
      have text := ofNat_value_of_isNatural canonical.2
      have positive : 0 < Decimal.value digits := by
        apply Nat.pos_of_ne_zero
        intro zero
        apply canonical.1
        rw [← text, zero]
        rfl
      exact ⟨-Decimal.value digits, by rw [textOf_neg positive, text, negative]⟩
    · rw [if_neg negative] at canonical
      exact ⟨Decimal.value (sign :: digits),
        by rw [textOf_natCast, ofNat_value_of_isNatural canonical]⟩

/-- Every integer is that of a number. -/
theorem exists_ofInt (number : Integer) : ∃ value, number = ofInt value := by
  obtain ⟨value, text⟩ := exists_textOf_of_isCanonical number.canonical
  refine ⟨value, ?_⟩
  cases number
  simp only [ofInt, Integer.mk.injEq]
  exact text

/-- No number begins with a minus sign. -/
theorem ne_minus_of_ofNat {number : Nat} {first : UInt8} {digits : Bytes}
    (text : Decimal.ofNat number = first :: digits) : first ≠ minus := by
  rintro rfl
  have all := Decimal.all_isDigit_ofNat number
  rw [text, List.all_cons, Bool.and_eq_true] at all
  exact absurd all.1 (by decide)

/-! ## Machine words -/

theorem readWithin_ofNat_eq (bound number : Nat) :
    Decimal.readWithin bound (Decimal.ofNat number) =
      if number ≤ bound then some number else none := by
  rw [Decimal.readWithin_eq (Decimal.ofNat_ne_nil number)
    (Decimal.all_isDigit_ofNat number),
    Decimal.value_ofNat]

/-- A number below zero, with what its text is. -/
theorem exists_of_neg {value : Int} (negative : value < 0) :
    ∃ number : Nat, value = -number ∧ textOf value = minus :: Decimal.ofNat number := by
  refine ⟨value.natAbs, by omega, ?_⟩
  rw [textOf, if_pos negative]

/-- A number that is not below zero, with what its text is. -/
theorem exists_of_nonneg {value : Int} (nonnegative : ¬value < 0) :
    ∃ number : Nat, value = number ∧ textOf value = Decimal.ofNat number := by
  refine ⟨value.natAbs, by omega, ?_⟩
  rw [textOf, if_neg nonnegative]

/-- An unsigned word is given exactly where the number is one. -/
theorem toWord?_ofInt (value : Int) :
    (ofInt value).toWord? =
      if 0 ≤ value ∧ value ≤ Decimal.maxWord then some value.toNat else none := by
  rw [toWord?, ofInt]
  by_cases negative : value < 0
  · obtain ⟨number, rfl, text⟩ := exists_of_neg negative
    have below : ¬(0 ≤ -(number : Int) ∧ -(number : Int) ≤ Decimal.maxWord) := by omega
    simp only [text]
    rw [if_neg below, Decimal.readWithin, if_neg (List.cons_ne_nil _ _),
      List.foldlM_cons]
    rfl
  · obtain ⟨number, rfl, text⟩ := exists_of_nonneg negative
    simp only [text]
    rw [readWithin_ofNat_eq, Int.toNat_natCast]
    simp only [Int.natCast_nonneg, true_and, Int.ofNat_le]

/-- A signed word is given exactly where the number is one. -/
theorem toSigned?_ofInt (value : Int) :
    (ofInt value).toSigned? =
      if -(Decimal.maxSigned + 1 : Int) ≤ value ∧ value ≤ Decimal.maxSigned then
        some value
      else none := by
  rw [toSigned?, ofInt]
  by_cases negative : value < 0
  · obtain ⟨number, rfl, text⟩ := exists_of_neg negative
    simp only [text, if_true]
    rw [readWithin_ofNat_eq]
    by_cases within : number ≤ Decimal.maxSigned + 1
    · rw [if_pos within, if_pos (by omega)]
      rfl
    · rw [if_neg within, if_neg (by omega)]
      rfl
  · obtain ⟨number, rfl, text⟩ := exists_of_nonneg negative
    obtain ⟨digit, digits, cons⟩ :=
      List.exists_cons_of_ne_nil (Decimal.ofNat_ne_nil number)
    simp only [text, cons]
    rw [if_neg (ne_minus_of_ofNat cons), ← cons, readWithin_ofNat_eq]
    by_cases within : number ≤ Decimal.maxSigned
    · rw [if_pos within, if_pos (by omega)]
      rfl
    · rw [if_neg within, if_neg (by omega)]
      rfl

theorem toWord?_eq_some_iff {number : Integer} {word : Nat} :
    number.toWord? = some word ↔ number = ofInt word ∧ word ≤ Decimal.maxWord := by
  obtain ⟨value, rfl⟩ := exists_ofInt number
  constructor
  · intro found
    rw [toWord?_ofInt] at found
    split at found
    · next within =>
      obtain rfl : value.toNat = word := Option.some.inj found
      rw [Int.toNat_of_nonneg within.1]
      exact ⟨rfl, by omega⟩
    · cases found
  · rintro ⟨same, within⟩
    rw [same, toWord?_ofInt, if_pos (by omega), Int.toNat_natCast]

theorem toSigned?_eq_some_iff {number : Integer} {signed : Int} :
    number.toSigned? = some signed ↔
      number = ofInt signed ∧ -(Decimal.maxSigned + 1 : Int) ≤ signed ∧
        signed ≤ Decimal.maxSigned := by
  obtain ⟨value, rfl⟩ := exists_ofInt number
  constructor
  · intro found
    rw [toSigned?_ofInt] at found
    split at found
    · next within =>
      obtain rfl := Option.some.inj found
      exact ⟨rfl, within⟩
    · cases found
  · rintro ⟨same, within⟩
    rw [same, toSigned?_ofInt, if_pos within]

end Metainfo.Bencode.Integer
