import Mathlib.Data.List.TakeWhile
import Metainfo.Bencode.Decode
import Metainfo.Proofs.Bencode.Unambiguity

/-!
# Reading integers and byte strings

A reading carries the proof that it left less than it was given, and so depends on the
whole input.  Apart from that proof it is a result, an offset and the octets left.
Integers and byte strings are found exactly where their canonical forms stand.  An
integer is refused for want of its end, or because the octets up to the first mark of an
end are no canonical text.  A length is refused by what follows its digits, then by the
digits themselves.  The equations here cut the input at the octet where the scan for the
end or for the colon stops.
-/

namespace Metainfo.Bencode

/-- What was found at the front of an input: the result, the offset of the octet after
it, and the octets from there on. -/
structure Found (Result : Type) where
  result : Result
  next : Nat
  rest : Bytes

/-- The same finding with a result computed from the result. -/
def Found.map {Result Other : Type} (convert : Result → Other) (found : Found Result) :
    Found Other :=
  ⟨convert found.result, found.next, found.rest⟩

/-- What a reading found. -/
def Reading.found {Result : Type} {input : Bytes} (reading : Reading Result input) :
    Found Result :=
  ⟨reading.result, reading.next, reading.rest⟩

/-- Finds an integer after its mark, which stands at `start`. -/
def integerAt (start : Nat) (input : Bytes) : Except DecodeError (Found Integer) :=
  (readInteger start input).map Reading.found

/-- Finds the length of a byte string and the colon after it. -/
def lengthAt (start : Nat) (input : Bytes) : Except DecodeError (Found Nat) :=
  (readLength start input).map Reading.found

/-- Finds a byte string. -/
def stringAt (start : Nat) (input : Bytes) : Except DecodeError (Found Bytes) :=
  (readString start input).map Reading.found

/-- Octets that are all digits, or digits up to an octet that is none. -/
theorem digits_or_stop (input : Bytes) :
    (∀ byte ∈ input, Decimal.isDigit byte = true) ∨
    ∃ digits byte rest, input = digits ++ byte :: rest ∧
      (∀ digit ∈ digits, Decimal.isDigit digit = true) ∧
      Decimal.isDigit byte = false := by
  have parts := List.takeWhile_append_dropWhile (p := Decimal.isDigit) (l := input)
  have digits : ∀ digit ∈ input.takeWhile Decimal.isDigit,
      Decimal.isDigit digit = true :=
    List.all_eq_true.1 (List.all_takeWhile ..)
  cases remaining : input.dropWhile Decimal.isDigit with
  | nil =>
    rw [remaining, List.append_nil] at parts
    rw [parts] at digits
    exact .inl digits
  | cons byte rest =>
    have stopped := List.head?_dropWhile_not Decimal.isDigit input
    simp only [remaining, List.head?_cons] at stopped
    rw [remaining] at parts
    exact .inr ⟨_, byte, rest, parts.symm, digits, by simpa using stopped⟩

section Integers

variable {start : Nat} {input text rest : Bytes}

theorem integerAt_unterminated (endless : Mark.finish ∉ input) :
    integerAt start input =
      .error (.malformedInteger start IntegerFault.unterminated.reason) := by
  have remaining : input.dropWhile (· != Mark.finish) = [] := by
    rw [List.dropWhile_eq_nil_iff]
    intro byte member
    simpa using ne_of_mem_of_not_mem member endless
  rw [integerAt, readInteger]
  split
  · rfl
  · rename_i byte rest other
    rw [remaining] at other
    cases other

/-- Up to the first mark of an end stands the text of the integer, or what is none. -/
theorem integerAt_terminated (first : Mark.finish ∉ text) :
    integerAt start (text ++ Mark.finish :: rest) =
      match Integer.ofText? text with
      | none => .error (.malformedInteger start (IntegerFault.notCanonical text).reason)
      | some integer => .ok ⟨integer, start + text.length + 2, rest⟩ := by
  have before : ∀ byte ∈ text, (byte != Mark.finish) = true := by
    intro byte member
    simpa using ne_of_mem_of_not_mem member first
  have taken : (text ++ Mark.finish :: rest).takeWhile (· != Mark.finish) = text := by
    rw [List.takeWhile_append_of_pos before, List.takeWhile_cons_of_neg (by simp),
      List.append_nil]
  have remaining : (text ++ Mark.finish :: rest).dropWhile (· != Mark.finish) =
      Mark.finish :: rest := by
    rw [List.dropWhile_append_of_pos before, List.dropWhile_cons_of_neg (by simp)]
  rw [integerAt, readInteger]
  split
  · rename_i other
    rw [remaining] at other
    cases other
  · rename_i byte others other
    rw [remaining] at other
    cases other
    simp only [taken]
    cases Integer.ofText? text <;> rfl

theorem ofText?_eq_some_iff {integer : Integer} :
    Integer.ofText? text = some integer ↔ text = integer.text := by
  constructor
  · intro parsed
    rw [Integer.ofText?] at parsed
    split at parsed
    · cases parsed
      rfl
    · cases parsed
  · rintro rfl
    rw [Integer.ofText?, dif_pos integer.canonical]

/-- An integer is found where its text and the mark of its end stand. -/
theorem integerAt_eq_ok_iff {found : Found Integer} :
    integerAt start input = .ok found ↔
      input = found.result.text ++ Mark.finish :: found.rest ∧
        found.next = start + found.result.text.length + 2 := by
  constructor
  · intro read
    by_cases closed : Mark.finish ∈ input
    · obtain ⟨text, rest, rfl, first⟩ := List.eq_append_cons_of_mem closed
      rw [integerAt_terminated first] at read
      cases parsed : Integer.ofText? text with
      | none => simp [parsed] at read
      | some integer =>
        rw [parsed] at read
        cases read
        rw [ofText?_eq_some_iff.1 parsed]
        exact ⟨rfl, rfl⟩
    · rw [integerAt_unterminated closed] at read
      cases read
  · rintro ⟨rfl, next⟩
    have first : Mark.finish ∉ found.result.text := fun member => by
      simpa using text_ne_finish found.result _ member
    rw [integerAt_terminated first, ofText?_eq_some_iff.2 rfl]
    simp only [← next]

/-- An integer is refused with the offset of its mark. -/
theorem exists_reason_of_integerAt {error : DecodeError}
    (failed : integerAt start input = .error error) :
    ∃ reason, error = .malformedInteger start reason := by
  by_cases closed : Mark.finish ∈ input
  · obtain ⟨text, rest, rfl, first⟩ := List.eq_append_cons_of_mem closed
    rw [integerAt_terminated first] at failed
    cases parsed : Integer.ofText? text with
    | none =>
      rw [parsed] at failed
      cases failed
      exact ⟨_, rfl⟩
    | some integer => simp [parsed] at failed
  · rw [integerAt_unterminated closed] at failed
    cases failed
    exact ⟨_, rfl⟩

end Integers

section Lengths

variable {start : Nat} {digits rest : Bytes} {byte : UInt8}

theorem lengthAt_unterminated (all : ∀ digit ∈ digits, Decimal.isDigit digit = true) :
    lengthAt start digits =
      .error (.malformedStringLength start LengthFault.unterminated.reason) := by
  have remaining : digits.dropWhile Decimal.isDigit = [] := by
    rwa [List.dropWhile_eq_nil_iff]
  rw [lengthAt, readLength]
  split
  · rfl
  · rename_i byte rest other
    rw [remaining] at other
    cases other

/-- Behind the digits a colon is asked for first; then the digits are looked at. -/
theorem lengthAt_stopped (all : ∀ digit ∈ digits, Decimal.isDigit digit = true)
    (stop : Decimal.isDigit byte = false) :
    lengthAt start (digits ++ byte :: rest) =
      if byte ≠ Mark.colon then
        .error (.malformedStringLength (start + digits.length)
          (LengthFault.notAColon byte).reason)
      else if digits.length > 1 ∧ digits.head? = some 0x30 then
        .error (.malformedStringLength start LengthFault.leadingZero.reason)
      else
        match Decimal.readWithin Decimal.maxWord digits with
        | none =>
            .error (.malformedStringLength start (LengthFault.tooLarge digits).reason)
        | some length => .ok ⟨length, start + digits.length + 1, rest⟩ := by
  have taken : (digits ++ byte :: rest).takeWhile Decimal.isDigit = digits := by
    rw [List.takeWhile_append_of_pos all, List.takeWhile_cons_of_neg (by simp [stop]),
      List.append_nil]
  have remaining :
      (digits ++ byte :: rest).dropWhile Decimal.isDigit = byte :: rest := by
    rw [List.dropWhile_append_of_pos all, List.dropWhile_cons_of_neg (by simp [stop])]
  rw [lengthAt, readLength]
  split
  · rename_i other
    rw [remaining] at other
    cases other
  · rename_i next others other
    rw [remaining] at other
    cases other
    simp only [taken]
    split
    · rfl
    · split
      · rfl
      · cases Decimal.readWithin Decimal.maxWord digits <;> rfl

/-- The length of a byte string is found where its decimal text and a colon stand. -/
theorem lengthAt_eq_ok_iff {input : Bytes} {found : Found Nat} :
    lengthAt start input = .ok found ↔
      input = Decimal.ofNat found.result ++ Mark.colon :: found.rest ∧
        found.next = start + (Decimal.ofNat found.result).length + 1 ∧
        found.result ≤ Decimal.maxWord := by
  constructor
  · intro read
    rcases digits_or_stop input with all | ⟨digits, byte, rest, rfl, all, stop⟩
    · rw [lengthAt_unterminated all] at read
      cases read
    · rw [lengthAt_stopped all stop] at read
      split at read
      · cases read
      · rename_i colon
        split at read
        · cases read
        · rename_i plain
          cases number : Decimal.readWithin Decimal.maxWord digits with
          | none => simp [number] at read
          | some length =>
            rw [number] at read
            cases read
            have nonempty : digits ≠ [] := by
              rintro rfl
              cases number
            have allDigits := List.all_eq_true.2 all
            rw [Decimal.readWithin_eq nonempty allDigits] at number
            split at number
            · rename_i within
              cases number
              have text := Decimal.ofNat_value nonempty allDigits plain
              simp only [text, not_not.1 colon]
              exact ⟨trivial, trivial, within⟩
            · cases number
  · rintro ⟨rfl, next, within⟩
    have digits := List.all_eq_true.1 (Decimal.all_isDigit_ofNat found.result)
    rw [lengthAt_stopped digits (by decide), if_neg (by simp),
      if_neg (Decimal.ofNat_plain _), Decimal.readWithin_ofNat within]
    simp only [← next]

theorem lengthAt_ofNat {length : Nat} (rest : Bytes)
    (within : length ≤ Decimal.maxWord) :
    lengthAt start (Decimal.ofNat length ++ Mark.colon :: rest) =
      .ok ⟨length, start + (Decimal.ofNat length).length + 1, rest⟩ :=
  lengthAt_eq_ok_iff.2 ⟨rfl, rfl, within⟩

theorem exists_reason_of_lengthAt {input : Bytes} {error : DecodeError}
    (failed : lengthAt start input = .error error) :
    ∃ offset reason, error = .malformedStringLength offset reason := by
  rcases digits_or_stop input with all | ⟨digits, byte, rest, rfl, all, stop⟩
  · rw [lengthAt_unterminated all] at failed
    cases failed
    exact ⟨_, _, rfl⟩
  · rw [lengthAt_stopped all stop] at failed
    split at failed
    · cases failed
      exact ⟨_, _, rfl⟩
    · split at failed
      · cases failed
        exact ⟨_, _, rfl⟩
      · split at failed
        · cases failed
          exact ⟨_, _, rfl⟩
        · cases failed

end Lengths

/-- A byte string is what follows its length. -/
theorem stringAt_eq (start : Nat) (input : Bytes) :
    stringAt start input =
      match lengthAt start input with
      | .error error => .error error
      | .ok length =>
          if (length.rest.take length.result).length = length.result then
            .ok ⟨length.rest.take length.result, length.next + length.result,
              length.rest.drop length.result⟩
          else
            .error (.truncatedString start length.result
              (length.rest.take length.result).length) := by
  rw [stringAt, readString, lengthAt]
  cases readLength start input with
  | error error => rfl
  | ok length =>
    by_cases enough : (length.rest.take length.result).length = length.result
    · simp only [Except.map, Reading.found, if_pos enough]
    · simp only [Except.map, Reading.found, if_neg enough]

/-- A byte string is found where its canonical form stands. -/
theorem stringAt_eq_ok_iff {start : Nat} {input : Bytes} {found : Found Bytes} :
    stringAt start input = .ok found ↔
      input = encodeString found.result ++ found.rest ∧
        found.next = start + (encodeString found.result).length ∧
        found.result.length ≤ Decimal.maxWord := by
  rw [stringAt_eq]
  constructor
  · intro read
    cases whole : lengthAt start input with
    | error error => simp [whole] at read
    | ok length =>
      obtain ⟨parts, next, within⟩ := lengthAt_eq_ok_iff.1 whole
      simp only [whole] at read
      split at read
      · rename_i enough
        cases read
        simp only [encodeString, enough, List.append_assoc, List.cons_append,
          List.take_append_drop, List.length_append, List.length_cons]
        exact ⟨parts, by omega, within⟩
      · cases read
  · rintro ⟨rfl, next, within⟩
    have whole : lengthAt start (encodeString found.result ++ found.rest) =
        .ok ⟨found.result.length,
          start + (Decimal.ofNat found.result.length).length + 1,
          found.result ++ found.rest⟩ := by
      rw [encodeString, List.append_assoc, List.cons_append]
      exact lengthAt_ofNat _ within
    have after : start + (Decimal.ofNat found.result.length).length + 1 +
        found.result.length =
        found.next := by
      simp only [next, encodeString, List.length_append, List.length_cons]
      omega
    simp only [whole, List.take_left, List.drop_left, if_true, after]

/-- A byte string is refused for its length, or because fewer octets follow than the
length says. -/
theorem stringAt_eq_error_iff {start : Nat} {input : Bytes} {error : DecodeError} :
    stringAt start input = .error error ↔
      lengthAt start input = .error error ∨
      ∃ length, lengthAt start input = .ok length ∧ length.rest.length < length.result ∧
        error = .truncatedString start length.result length.rest.length := by
  rw [stringAt_eq]
  cases lengthAt start input with
  | error fault => simp
  | ok length =>
    by_cases enough : length.result ≤ length.rest.length
    · simp [List.length_take, Nat.min_eq_left enough, Nat.not_lt.2 enough]
    · have few : length.rest.length < length.result := Nat.not_le.1 enough
      have taken : (length.rest.take length.result).length = length.rest.length := by
        rw [List.length_take, Nat.min_eq_right (Nat.le_of_lt few)]
      simp [taken, Nat.ne_of_lt few, few, eq_comm]

/-- What a byte string can be refused with. -/
theorem stringAt_error_cases {start : Nat} {input : Bytes} {error : DecodeError}
    (failed : stringAt start input = .error error) :
    (∃ offset reason, error = .malformedStringLength offset reason) ∨
      ∃ declared available, error = .truncatedString start declared available := by
  rcases stringAt_eq_error_iff.1 failed with length | ⟨length, -, -, rfl⟩
  · exact .inl (exists_reason_of_lengthAt length)
  · exact .inr ⟨_, _, rfl⟩

end Metainfo.Bencode
