import Mathlib.Algebra.Group.Int.Defs
import Metainfo.Proofs.Bencode.Numbers
import Metainfo.Proofs.Bencode.Scalars

/-!
# Integers and the numbers they denote

The text of an integer denotes a number by position, with a minus sign in front for
numbers below zero.  Main statements: the canonical texts are the decimal texts of the
numbers, one text for each number; and an integer is given as a word of 64 bits exactly
if its number is one.
-/

namespace Metainfo.Bencode.Integer

/-- The number that digits denote, with an optional minus sign in front. -/
def valueOf : Bytes → Int
  | [] => 0
  | sign :: digits =>
      if sign = minus then -(Decimal.value digits : Int)
      else Decimal.value (sign :: digits)

/-- The number that an integer denotes. -/
def toInt (number : Integer) : Int :=
  valueOf number.text

/-- The text of a number denotes it. -/
@[simp] theorem valueOf_textOf (value : Int) : valueOf (textOf value) = value := by
  by_cases negative : value < 0
  · obtain ⟨number, rfl, text⟩ := exists_of_neg negative
    rw [text, valueOf, if_pos rfl, Decimal.value_ofNat]
  · obtain ⟨number, rfl, text⟩ := exists_of_nonneg negative
    obtain ⟨first, digits, cons⟩ :=
      List.exists_cons_of_ne_nil (Decimal.ofNat_ne_nil number)
    rw [text, cons, valueOf, if_neg (ne_minus_of_ofNat cons), ← cons,
      Decimal.value_ofNat]

@[simp] theorem toInt_ofInt (value : Int) : (ofInt value).toInt = value :=
  valueOf_textOf value

/-- Numbers with the same text are the same. -/
theorem textOf_injective {value other : Int} (same : textOf value = textOf other) :
    value = other := by
  rw [← valueOf_textOf value, same, valueOf_textOf]

/-- An integer is the one of the number that it denotes. -/
theorem ofInt_toInt (number : Integer) : ofInt number.toInt = number := by
  obtain ⟨value, rfl⟩ := exists_ofInt number
  rw [toInt_ofInt]

theorem textOf_toInt (number : Integer) : textOf number.toInt = number.text :=
  congrArg text (ofInt_toInt number)

theorem toInt_injective {left right : Integer} (same : left.toInt = right.toInt) :
    left = right := by
  rw [← ofInt_toInt left, same, ofInt_toInt]

/-- Text is canonical exactly if it is the decimal text of a number, which is then the
only one.  The text of an integer is that of the number it denotes.  So integers,
whether they are read, decoded or made of a word, have the same text exactly if they
denote the same number. -/
theorem isCanonical_iff_existsUnique_textOf :
    (∀ text, isCanonical text = true ↔ ∃! value : Int, textOf value = text) ∧
    (∀ number : Integer, textOf number.toInt = number.text) ∧
    ∀ left right : Integer, left.text = right.text ↔ left.toInt = right.toInt := by
  refine ⟨?_, textOf_toInt, ?_⟩
  · intro text
    constructor
    · intro canonical
      obtain ⟨value, rfl⟩ := exists_textOf_of_isCanonical canonical
      exact ⟨value, rfl, fun other same => textOf_injective same⟩
    · rintro ⟨value, rfl, -⟩
      exact isCanonical_textOf value
  · intro left right
    constructor
    · exact congrArg valueOf
    · intro same
      rw [toInt_injective same]

/-! ## Words -/

theorem toSigned?_eq (number : Integer) :
    number.toSigned? =
      if -2 ^ 63 ≤ number.toInt ∧ number.toInt ≤ 2 ^ 63 - 1 then some number.toInt
      else none := by
  rw [← ofInt_toInt number, toSigned?_ofInt, toInt_ofInt]
  rfl

theorem toWord?_eq (number : Integer) :
    number.toWord? =
      if 0 ≤ number.toInt ∧ number.toInt ≤ 2 ^ 64 - 1 then some number.toInt.toNat
      else none := by
  rw [← ofInt_toInt number, toWord?_ofInt, toInt_ofInt]
  rfl

/-- The integer of a signed word denotes it and is given as this word. -/
theorem toSigned?_ofInt_toInt (word : Int64) :
    (ofInt word.toInt).toSigned? = some word.toInt := by
  have least := word.le_toInt
  have greatest := word.toInt_lt
  rw [toSigned?_eq, toInt_ofInt, if_pos (by omega)]

/-- However long the text of an integer is, the integer is given as a signed word, or as
an unsigned one, exactly if the number it denotes is such a word.  The integer of a
signed word has canonical text that denotes the word; it is the integer that is read
from the decimal text of the word, and from no other text, and it is given as the word
again. -/
theorem words_exact :
    (∀ number : Integer,
      number.toSigned? =
        (if -2 ^ 63 ≤ number.toInt ∧ number.toInt ≤ 2 ^ 63 - 1 then some number.toInt
          else none) ∧
      number.toWord? =
        if 0 ≤ number.toInt ∧ number.toInt ≤ 2 ^ 64 - 1 then some number.toInt.toNat
        else none) ∧
    ∀ word : Int64,
      isCanonical (ofInt word.toInt).text = true ∧
      (ofInt word.toInt).toInt = word.toInt ∧
      (∀ text, ofText? text = some (ofInt word.toInt) ↔ text = textOf word.toInt) ∧
      (∀ text, text = textOf word.toInt ↔
        isCanonical text = true ∧ valueOf text = word.toInt) ∧
      (ofInt word.toInt).toSigned? = some word.toInt := by
  refine ⟨fun number => ⟨toSigned?_eq number, toWord?_eq number⟩, fun word =>
    ⟨(ofInt word.toInt).canonical, toInt_ofInt word.toInt,
      fun text => ofText?_eq_some_iff, ?_, toSigned?_ofInt_toInt word⟩⟩
  intro text
  constructor
  · rintro rfl
    exact ⟨isCanonical_textOf word.toInt, valueOf_textOf word.toInt⟩
  · rintro ⟨canonical, denotes⟩
    have written := textOf_toInt ⟨text, canonical⟩
    rw [toInt, denotes] at written
    exact written.symm

end Metainfo.Bencode.Integer
