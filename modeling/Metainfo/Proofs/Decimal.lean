import Mathlib.Data.List.Induction
import Metainfo.Decimal

/-!
# Decimal text and the numbers it denotes

A string of digits denotes a number by position.  Reading under a bound gives exactly
that number, or nothing where it exceeds the bound, however long the string is.  A
number has one text without a superfluous zero in front, which is the one that is
written.
-/

namespace Metainfo.Decimal

/-- The number that a string of digits denotes after the digits of another number. -/
def valueFrom (start : Nat) (digits : Bytes) : Nat :=
  digits.foldl (fun number digit => number * 10 + digitValue digit) start

@[simp] theorem valueFrom_nil (start : Nat) : valueFrom start [] = start := rfl

@[simp] theorem valueFrom_cons (start : Nat) (digit : UInt8) (digits : Bytes) :
    valueFrom start (digit :: digits) =
      valueFrom (start * 10 + digitValue digit) digits :=
  List.foldl_cons ..

theorem le_valueFrom (start : Nat) (digits : Bytes) :
    start ≤ valueFrom start digits := by
  induction digits generalizing start with
  | nil => exact Nat.le_refl _
  | cons digit digits ih =>
    exact Nat.le_trans (by omega) (ih (start * 10 + digitValue digit))

/-- The number that a string of digits denotes. -/
def value (digits : Bytes) : Nat :=
  valueFrom 0 digits

@[simp] theorem value_singleton (digit : UInt8) : value [digit] = digitValue digit := by
  simp [value]

theorem value_concat (digits : Bytes) (last : UInt8) :
    value (digits ++ [last]) = value digits * 10 + digitValue last := by
  simp [value, valueFrom]

theorem digitValue_lt {digit : UInt8} (decimal : isDigit digit = true) :
    digitValue digit < 10 := by
  simp only [isDigit, Bool.and_eq_true, decide_eq_true_eq, UInt8.le_iff_toNat_le]
    at decimal
  simp only [digitValue]
  have upper : (0x39 : UInt8).toNat = 57 := rfl
  omega

/-- A digit is the text of the number it stands for. -/
theorem ofNat_digitValue {digit : UInt8} (decimal : isDigit digit = true) :
    ofNat (digitValue digit) = [digit] := by
  rw [ofNat_of_lt (digitValue_lt decimal)]
  simp only [isDigit, Bool.and_eq_true, decide_eq_true_eq, UInt8.le_iff_toNat_le]
    at decimal
  have lower : (0x30 : UInt8).toNat = 48 := rfl
  have equal : digitValue digit + 0x30 = digit.toNat := by
    simp only [digitValue]
    omega
  rw [equal, UInt8.ofNat_toNat]

/-- The text of a number denotes it. -/
@[simp] theorem value_ofNat (number : Nat) : value (ofNat number) = number := by
  induction number using Nat.strongRecOn with
  | _ number ih =>
    by_cases small : number < 10
    · rw [ofNat_of_lt small, value_singleton, digitValue, UInt8.toNat_ofNat']
      omega
    · have last : ofNat (number % 10) = [UInt8.ofNat (number % 10 + 0x30)] :=
        ofNat_of_lt (by omega)
      have front := ih (number / 10) (by omega)
      rw [ofNat_of_le (by omega), last, value_concat, front, digitValue,
        UInt8.toNat_ofNat']
      omega

/-- The text of the number that a string of digits denotes is that string, unless a
superfluous zero stands in front of it. -/
theorem ofNat_value {digits : Bytes} (nonempty : digits ≠ [])
    (all : digits.all isDigit = true)
    (plain : ¬(digits.length > 1 ∧ digits.head? = some 0x30)) :
    ofNat (value digits) = digits := by
  induction digits using List.reverseRecOn with
  | nil => exact absurd rfl nonempty
  | append_singleton front last ih =>
    have lastDigit : isDigit last = true := by
      simp only [List.all_append, Bool.and_eq_true] at all
      simpa using all.2
    by_cases single : front = []
    · subst single
      rw [List.nil_append, value_singleton, ofNat_digitValue lastDigit]
    · have head : front.head? ≠ some 0x30 := by
        intro zero
        apply plain
        constructor
        · have := List.length_pos_iff.2 single
          simp only [List.length_append, List.length_singleton]
          omega
        · rw [List.head?_append, zero]
          rfl
      have frontAll : front.all isDigit = true := by
        simp only [List.all_append, Bool.and_eq_true] at all
        exact all.1
      have frontText := ih single frontAll (fun both => head both.2)
      have positive : 0 < value front := by
        apply Nat.pos_of_ne_zero
        intro zero
        rw [zero] at frontText
        apply head
        rw [← frontText]
        decide
      have small := digitValue_lt lastDigit
      have quotient : (value front * 10 + digitValue last) / 10 = value front := by
        omega
      have remainder : (value front * 10 + digitValue last) % 10 = digitValue last := by
        omega
      rw [value_concat, ofNat_of_le (by omega), quotient, remainder, frontText,
        ofNat_digitValue lastDigit]

/-- No superfluous zero stands in front of the text of a number. -/
theorem ofNat_plain (number : Nat) :
    ¬((ofNat number).length > 1 ∧ (ofNat number).head? = some 0x30) := by
  rintro ⟨long, zero⟩
  by_cases positive : 0 < number
  · exact head?_ofNat_ne_zero positive zero
  · obtain rfl : number = 0 := by omega
    exact absurd long (by decide)

/-- Reading on from a number gives nothing as soon as the bound is exceeded. -/
theorem foldlM_extend {bound start : Nat} {digits : Bytes}
    (all : digits.all isDigit = true) (within : start ≤ bound) :
    digits.foldlM (extend bound) start =
      if valueFrom start digits ≤ bound then some (valueFrom start digits)
      else none := by
  induction digits generalizing start with
  | nil => simp [within]
  | cons digit digits ih =>
    simp only [List.all_cons, Bool.and_eq_true] at all
    simp only [List.foldlM_cons, valueFrom_cons]
    by_cases fits : start * 10 + digitValue digit ≤ bound
    · have step : extend bound start digit = some (start * 10 + digitValue digit) :=
        if_pos ⟨all.1, fits⟩
      rw [step]
      exact ih all.2 fits
    · have step : extend bound start digit = none := if_neg fun both => fits both.2
      have exceeds := le_valueFrom (start * 10 + digitValue digit) digits
      rw [step, if_neg (by omega)]
      rfl

/-- Reading under a bound gives the number that the digits denote. -/
theorem readWithin_eq {bound : Nat} {digits : Bytes} (nonempty : digits ≠ [])
    (all : digits.all isDigit = true) :
    readWithin bound digits =
      if value digits ≤ bound then some (value digits) else none := by
  rw [readWithin, if_neg nonempty, foldlM_extend all (Nat.zero_le _)]
  rfl

/-- The text of a number is read back under every bound that admits it. -/
theorem readWithin_ofNat {bound number : Nat} (within : number ≤ bound) :
    readWithin bound (ofNat number) = some number := by
  rw [readWithin_eq (ofNat_ne_nil number) (all_isDigit_ofNat number), value_ofNat,
    if_pos within]

end Metainfo.Decimal
