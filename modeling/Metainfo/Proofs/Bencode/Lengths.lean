import Mathlib.Algebra.Group.Nat.Defs
import Metainfo.Proofs.Bencode.Safety

/-!
# The length of a byte string

A byte string begins with as many digits as there are, and they tell its length.  The
digits are read as a word of 64 bits, one by one, yet what comes of them depends on the
number that they denote by position, however many they are.  Main statement: a length is
read exactly if a colon follows, no superfluous zero stands in front and the number is
below 2^64; otherwise the first of these that fails, in this order, is the cause of the
error.  A length that is read, but exceeds what is left, is told as it was declared.
-/

namespace Metainfo.Bencode

variable {start : Nat} {digits rest : Bytes}

/-- A zero stands in front of other digits. -/
def ZeroInFront (digits : Bytes) : Prop :=
  ∃ others, others ≠ [] ∧ digits = 0x30 :: others

theorem zeroInFront_iff :
    ZeroInFront digits ↔ digits.length > 1 ∧ digits.head? = some 0x30 := by
  constructor
  · rintro ⟨others, nonempty, rfl⟩
    exact ⟨Nat.succ_lt_succ (List.length_pos_iff.2 nonempty), rfl⟩
  · rintro ⟨long, zero⟩
    obtain ⟨others, rfl⟩ := List.head?_eq_some_iff.1 zero
    exact ⟨others, List.length_pos_iff.1 (Nat.lt_of_succ_lt_succ long), rfl⟩

/-- What comes of a length that begins at `start`, by its digits and what follows the
last of them.  A cause is given where those before it do not apply. -/
inductive LengthOutcome (start : Nat) (digits : Bytes) :
    Bytes → Except DecodeError (Found Nat) → Prop where
  | unterminated :
      LengthOutcome start digits []
        (.error (.malformedStringLength start LengthFault.unterminated.reason))
  | notAColon {byte : UInt8} {rest : Bytes} :
      byte ≠ Mark.colon →
      LengthOutcome start digits (byte :: rest)
        (.error (.malformedStringLength (start + digits.length)
          (LengthFault.notAColon byte).reason))
  | leadingZero {rest : Bytes} :
      ZeroInFront digits →
      LengthOutcome start digits (Mark.colon :: rest)
        (.error (.malformedStringLength start LengthFault.leadingZero.reason))
  | tooLarge {rest : Bytes} :
      ¬ZeroInFront digits → 2 ^ 64 ≤ Decimal.value digits →
      LengthOutcome start digits (Mark.colon :: rest)
        (.error (.malformedStringLength start (LengthFault.tooLarge digits).reason))
  | read {rest : Bytes} :
      ¬ZeroInFront digits → Decimal.value digits < 2 ^ 64 →
      LengthOutcome start digits (Mark.colon :: rest)
        (.ok ⟨Decimal.value digits, start + digits.length + 1, rest⟩)

/-- Digits, as many as there are. -/
structure DigitRun (digits rest : Bytes) : Prop where
  nonempty : digits ≠ []
  all : ∀ digit ∈ digits, Decimal.isDigit digit = true
  stops : ∀ byte ∈ rest.head?, Decimal.isDigit byte = false

/-- Whatever the digits are, the bound on the numbers met while they are read is a bound
on the number that they denote. -/
theorem DigitRun.readWithin_eq (run : DigitRun digits rest) :
    Decimal.readWithin Decimal.maxWord digits =
      if Decimal.value digits < 2 ^ 64 then some (Decimal.value digits) else none := by
  rw [Decimal.readWithin_eq run.nonempty (List.all_eq_true.2 run.all)]
  exact if_congr Nat.lt_succ_iff.symm rfl rfl

theorem DigitRun.lengthAt_cons {byte : UInt8} (run : DigitRun digits (byte :: rest)) :
    lengthAt start (digits ++ byte :: rest) =
      if byte ≠ Mark.colon then
        .error (.malformedStringLength (start + digits.length)
          (LengthFault.notAColon byte).reason)
      else if digits.length > 1 ∧ digits.head? = some 0x30 then
        .error (.malformedStringLength start LengthFault.leadingZero.reason)
      else if Decimal.value digits < 2 ^ 64 then
        .ok ⟨Decimal.value digits, start + digits.length + 1, rest⟩
      else
        .error (.malformedStringLength start (LengthFault.tooLarge digits).reason) := by
  rw [lengthAt_stopped run.all (run.stops byte rfl), run.readWithin_eq]
  split_ifs <;> rfl

/-- A length has the outcome that its digits and what follows them decide, and no
other. -/
theorem lengthAt_eq_iff (run : DigitRun digits rest)
    {outcome : Except DecodeError (Found Nat)} :
    lengthAt start (digits ++ rest) = outcome ↔
      LengthOutcome start digits rest outcome := by
  constructor
  · rintro rfl
    cases rest with
    | nil =>
      rw [List.append_nil, lengthAt_unterminated run.all]
      exact .unterminated
    | cons byte rest =>
      rw [run.lengthAt_cons]
      split_ifs with noColon zero small
      · exact .notAColon noColon
      · rw [not_not.1 noColon]
        exact .leadingZero (zeroInFront_iff.2 zero)
      · rw [not_not.1 noColon]
        exact .read (mt zeroInFront_iff.1 zero) small
      · rw [not_not.1 noColon]
        exact .tooLarge (mt zeroInFront_iff.1 zero) (Nat.not_lt.1 small)
  · intro decided
    cases decided with
    | unterminated => rw [List.append_nil, lengthAt_unterminated run.all]
    | notAColon noColon => rw [run.lengthAt_cons, if_pos noColon]
    | leadingZero zero =>
      rw [run.lengthAt_cons, if_neg (not_not.2 rfl), if_pos (zeroInFront_iff.1 zero)]
    | tooLarge plain large =>
      rw [run.lengthAt_cons, if_neg (not_not.2 rfl),
        if_neg (mt zeroInFront_iff.2 plain), if_neg (Nat.not_lt.2 large)]
    | read plain small =>
      rw [run.lengthAt_cons, if_neg (not_not.2 rfl),
        if_neg (mt zeroInFront_iff.2 plain), if_pos small]

/-- From a digit on there is a run of digits. -/
theorem digitRun_of_digit {input : Bytes} {first : UInt8}
    (here : input.head? = some first) (digit : Decimal.isDigit first = true) :
    DigitRun (input.takeWhile Decimal.isDigit) (input.dropWhile Decimal.isDigit) := by
  obtain ⟨others, rfl⟩ := List.head?_eq_some_iff.1 here
  refine ⟨?_, List.all_eq_true.1 (List.all_takeWhile ..), ?_⟩
  · rw [List.takeWhile_cons_of_pos digit]
    exact List.cons_ne_nil _ _
  · intro byte head
    have stopped := List.head?_dropWhile_not Decimal.isDigit (first :: others)
    rw [Option.mem_def.1 head] at stopped
    simpa using stopped

/-- A length that is read, but exceeds what is left, is refused as it was declared, and
a length that does not exceed it is not refused. -/
theorem stringAt_eq_truncated_iff {length : Found Nat} {input : Bytes}
    (read : lengthAt start input = .ok length) :
    stringAt start input =
      .error (.truncatedString start length.result length.rest.length) ↔
      length.rest.length < length.result := by
  rw [stringAt_eq_error_iff, read]
  simp

/-- From a position that holds a digit on, let the digits be as many as there are.  The
length of a byte string there has the outcome that the digits and what follows them
decide: it is the number that they denote, with the position behind the colon, or the
first cause that applies.  A number below 2^64 that is greater than the number of octets
left is told by the error of the byte string.  In place the outcomes are the same,
without a fault. -/
theorem lengthAt_exact {input : Bytes} {position : Nat} {first : UInt8}
    (here : input[position]? = some first) (digit : Decimal.isDigit first = true) :
    let digits := (input.drop position).takeWhile Decimal.isDigit
    let rest := (input.drop position).dropWhile Decimal.isDigit
    (∀ outcome, lengthAt position (input.drop position) = outcome ↔
      LengthOutcome position digits rest outcome) ∧
    (∀ after, rest = Mark.colon :: after → ¬ZeroInFront digits →
      Decimal.value digits < 2 ^ 64 →
      (stringAt position (input.drop position) =
          .error (.truncatedString position (Decimal.value digits) after.length) ↔
        after.length < Decimal.value digits)) ∧
    (input.length ≤ Decimal.maxSigned → ∀ limit room,
      (Decoder.mk input limit room).length position =
        Decoder.Run.ofOutcome (lengthAt position (input.drop position)) ∧
      (Decoder.mk input limit room).string position =
        Decoder.Run.ofOutcome (stringAt position (input.drop position))) := by
  intro digits rest
  rw [← List.head?_drop] at here
  have run : DigitRun digits rest := digitRun_of_digit here digit
  have parts : digits ++ rest = input.drop position := List.takeWhile_append_dropWhile
  have decides (outcome : Except DecodeError (Found Nat)) :
      lengthAt position (input.drop position) = outcome ↔
        LengthOutcome position digits rest outcome := by
    rw [← parts]
    exact lengthAt_eq_iff run
  refine ⟨decides, ?_, ?_⟩
  · intro after colon plain small
    have decided :=
      (decides (.ok ⟨_, _, after⟩)).2 (by rw [colon]; exact .read plain small)
    exact stringAt_eq_truncated_iff decided
  · intro short limit room
    obtain ⟨others, cons⟩ := List.head?_eq_some_iff.1 here
    have within : position ≤ input.length :=
      Nat.le_of_lt (lt_length_of_drop_eq_cons cons)
    have shortDecoder : (Decoder.mk input limit room).Short := short
    exact ⟨Decoder.length_eq shortDecoder within, Decoder.string_eq shortDecoder within⟩

/-- The greatest word is read as a length, and as two octets are left it is told by the
error of the byte string.  The number after it is no length. -/
theorem lengthAt_exact_greatest :
    (Bytes.ofString "l18446744073709551615:ae")[1]? = some 0x31 ∧
    Decimal.isDigit 0x31 = true ∧
    lengthAt 1 (Bytes.ofString "18446744073709551615:ae") =
      .ok ⟨18446744073709551615, 22, Bytes.ofString "ae"⟩ ∧
    stringAt 1 (Bytes.ofString "18446744073709551615:ae") =
      .error (.truncatedString 1 18446744073709551615 2) ∧
    (Decoder.mk (Bytes.ofString "l18446744073709551615:ae") 1 1).string 1 =
      throw (.truncatedString 1 18446744073709551615 2) ∧
    (Bytes.ofString "18446744073709551616:ae")[0]? = some 0x31 ∧
    lengthAt 0 (Bytes.ofString "18446744073709551616:ae") =
      .error (.malformedStringLength 0 "invalid length '18446744073709551616'") := by
  have digit : Decimal.isDigit 0x31 = true := by decide
  have here : (Bytes.ofString "l18446744073709551615:ae")[1]? = some 0x31 := by decide
  have next : (Bytes.ofString "18446744073709551616:ae")[0]? = some 0x31 := by decide
  obtain ⟨decides, truncated, inPlace⟩ := lengthAt_exact here digit
  obtain ⟨decidesNext, -, -⟩ := lengthAt_exact next digit
  have plain : ¬ZeroInFront (Bytes.ofString "18446744073709551615") := by
    rw [zeroInFront_iff]
    decide
  have plainNext : ¬ZeroInFront (Bytes.ofString "18446744073709551616") := by
    rw [zeroInFront_iff]
    decide
  have refused :=
    (truncated (Bytes.ofString "ae") (by decide) plain (by decide)).2 (by decide)
  refine ⟨here, digit, (decides _).2 (.read plain (by decide)), refused, ?_, next,
    (decidesNext _).2 (.tooLarge plainNext (by decide))⟩
  rw [((inPlace (by decide)) 1 1).2, refused]
  rfl

end Metainfo.Bencode
