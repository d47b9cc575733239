import Metainfo.Proofs.Bencode.Failure

/-!
# Errors and the input

An error says what is wrong at an offset.  Main statement: what it says is there to see
in the input at this offset, which lies inside the input unless the input is empty.
-/

namespace Metainfo.Bencode

open Value

/-- At the offset of the error the input has what the error says.  A malformed length is
shown either where its digits begin, or behind them at an octet that should be a
colon. -/
def DecodeError.BorneOut (limit : Nat) (input : Bytes) : DecodeError → Prop
  | .unexpectedEnd offset => input = [] ∧ offset = 0
  | .malformedInteger offset _ =>
      ∃ rest, input.drop offset = Mark.integer :: rest ∧
        ∀ text after, IntegerText text → rest ≠ text ++ Mark.finish :: after
  | .malformedStringLength offset _ =>
      (∃ digit rest, input.drop offset = digit :: rest ∧ Decimal.isDigit digit = true ∧
        ∀ length after, LengthText length → Decimal.value length ≤ Decimal.maxWord →
          digit :: rest ≠ length ++ Mark.colon :: after) ∨
      ∃ front digits byte rest, input = front ++ (digits ++ byte :: rest) ∧
        offset = front.length + digits.length ∧ digits ≠ [] ∧
        (∀ digit ∈ digits, Decimal.isDigit digit = true) ∧
        Decimal.isDigit byte = false ∧
        byte ≠ Mark.colon
  | .truncatedString offset declared available =>
      ∃ length rest, input.drop offset = length ++ Mark.colon :: rest ∧
        LengthText length ∧
        Decimal.value length = declared ∧ declared ≤ Decimal.maxWord ∧
        rest.length = available ∧ available < declared
  | .unterminatedList offset => ∃ rest, input.drop offset = Mark.list :: rest
  | .unterminatedDictionary offset =>
      ∃ rest, input.drop offset = Mark.dictionary :: rest
  | .nonStringKey offset =>
      ∃ byte rest, input.drop offset = byte :: rest ∧ Decimal.isDigit byte = false ∧
        byte ≠ Mark.finish
  | .unknownTypePrefix offset byte =>
      ∃ rest, input.drop offset = byte :: rest ∧ byte ≠ Mark.integer ∧
        byte ≠ Mark.list ∧
        byte ≠ Mark.dictionary ∧ Decimal.isDigit byte = false
  | .trailingData offset remaining =>
      (∃ value, decode limit (input.take offset) = .ok value) ∧
        offset + remaining = input.length ∧ 0 < remaining
  | .depthLimitExceeded offset bound =>
      bound = limit ∧ ∃ byte rest, input.drop offset = byte :: rest ∧
      opensContainer byte
  | .duplicateKey offset key =>
      ∃ name bytes rest, input.drop offset = name ++ rest ∧
        Spells name (.byteString bytes) ∧
        Utf8.decodeLossy bytes = key

variable {limit depth start position : Nat} {input text rest : Bytes}
  {error : DecodeError}

/-- What is to be seen at an offset lies inside the input. -/
theorem DecodeError.BorneOut.offset_lt (borneOut : error.BorneOut limit input)
    (nonempty : input ≠ []) : error.offset < input.length := by
  cases error with
  | unexpectedEnd offset => exact absurd borneOut.1 nonempty
  | malformedInteger offset reason =>
    obtain ⟨rest, here, -⟩ := borneOut
    exact lt_length_of_drop_eq_cons here
  | malformedStringLength offset reason =>
    rcases borneOut with ⟨digit, rest, here, -⟩ |
      ⟨front, digits, byte, rest, rfl, behind, -⟩
    · exact lt_length_of_drop_eq_cons here
    · simp only [DecodeError.offset, behind, List.length_append, List.length_cons]
      omega
  | truncatedString offset declared available =>
    obtain ⟨length, rest, here, -⟩ := borneOut
    cases length with
    | nil => exact lt_length_of_drop_eq_cons here
    | cons digit digits => exact lt_length_of_drop_eq_cons here
  | unterminatedList offset =>
    obtain ⟨rest, here⟩ := borneOut
    exact lt_length_of_drop_eq_cons here
  | unterminatedDictionary offset =>
    obtain ⟨rest, here⟩ := borneOut
    exact lt_length_of_drop_eq_cons here
  | nonStringKey offset =>
    obtain ⟨byte, rest, here, -⟩ := borneOut
    exact lt_length_of_drop_eq_cons here
  | unknownTypePrefix offset byte =>
    obtain ⟨rest, here, -⟩ := borneOut
    exact lt_length_of_drop_eq_cons here
  | trailingData offset remaining =>
    obtain ⟨-, total, positive⟩ := borneOut
    rw [DecodeError.offset]
    omega
  | depthLimitExceeded offset bound =>
    obtain ⟨-, byte, rest, here, -⟩ := borneOut
    exact lt_length_of_drop_eq_cons here
  | duplicateKey offset key =>
    obtain ⟨name, bytes, rest, here, spelled, -⟩ := borneOut
    obtain ⟨digit, tail, cons, -⟩ := exists_encodeString_eq_cons bytes
    rw [spells_byteString_iff.1 spelled, cons, List.cons_append] at here
    exact lt_length_of_drop_eq_cons here

/-! ## Integers and byte strings -/

/-- Where an integer is refused, its mark is not followed by the text of one and the
mark of its end. -/
theorem borneOut_of_integerAt (here : input.drop start = Mark.integer :: rest)
    (failed : integerAt start rest = .error error) : error.BorneOut limit input := by
  obtain ⟨reason, rfl⟩ := exists_reason_of_integerAt failed
  refine ⟨rest, here, ?_⟩
  intro text after isText split
  have read : integerAt start rest =
      .ok ⟨⟨text, integerText_iff.1 isText⟩, start + text.length + 2, after⟩ :=
    integerAt_eq_ok_iff.2 ⟨split, rfl⟩
  rw [failed] at read
  cases read

/-- A length is refused where it begins, or at an octet behind its digits that is no
colon. -/
theorem lengthAt_error_cases (failed : lengthAt start text = .error error) :
    (∃ reason, error = .malformedStringLength start reason) ∨
      ∃ digits byte rest reason, text = digits ++ byte :: rest ∧
        error = .malformedStringLength (start + digits.length) reason ∧
        (∀ digit ∈ digits, Decimal.isDigit digit = true) ∧
        Decimal.isDigit byte = false ∧
        byte ≠ Mark.colon := by
  rcases digits_or_stop text with all | ⟨digits, byte, rest, rfl, all, stop⟩
  · rw [lengthAt_unterminated all] at failed
    cases failed
    exact .inl ⟨_, rfl⟩
  · rw [lengthAt_stopped all stop] at failed
    split at failed
    · rename_i noColon
      cases failed
      exact .inr ⟨digits, byte, rest, _, rfl, rfl, all, stop, noColon⟩
    · split at failed
      · cases failed
        exact .inl ⟨_, rfl⟩
      · split at failed
        · cases failed
          exact .inl ⟨_, rfl⟩
        · cases failed

/-- Where a length stands, it is read. -/
theorem lengthAt_of_lengthText {length after : Bytes} (isLength : LengthText length)
    (within : Decimal.value length ≤ Decimal.maxWord) (start : Nat) :
    lengthAt start (length ++ Mark.colon :: after) =
      .ok ⟨Decimal.value length, start + length.length + 1, after⟩ := by
  apply lengthAt_eq_ok_iff.2
  rw [isLength.ofNat_value]
  exact ⟨rfl, rfl, within⟩

/-- Where a byte string is refused, its length is not as it should be, or too few octets
follow. -/
theorem borneOut_of_stringAt {byte : UInt8} (here : input.drop start = byte :: rest)
    (digit : Decimal.isDigit byte = true)
    (failed : stringAt start (byte :: rest) = .error error) :
    error.BorneOut limit input := by
  rcases stringAt_eq_error_iff.1 failed with refused | ⟨length, read, few, rfl⟩
  · rcases lengthAt_error_cases refused with
      ⟨reason, rfl⟩ | ⟨digits, stop, after, reason, split, rfl, all, noDigit, noColon⟩
    · refine .inl ⟨byte, rest, here, digit, ?_⟩
      intro length after isLength within split
      rw [split, lengthAt_of_lengthText isLength within] at refused
      cases refused
    · have nonempty : digits ≠ [] := by
        rintro rfl
        rw [List.nil_append, List.cons.injEq] at split
        rw [split.1, noDigit] at digit
        cases digit
      have inside := lt_length_of_drop_eq_cons here
      refine .inr ⟨input.take start, digits, stop, after, ?_, ?_, nonempty, all,
        noDigit, noColon⟩
      · rw [← split, ← here, List.take_append_drop]
      · rw [List.length_take, Nat.min_eq_left (Nat.le_of_lt inside)]
  · obtain ⟨split, -, within⟩ := lengthAt_eq_ok_iff.1 read
    refine ⟨Decimal.ofNat length.result, length.rest, ?_, ?_, ?_, within, rfl, few⟩
    · rw [here, split]
    · exact lengthText_iff.2 (Integer.isNatural_ofNat _)
    · exact Decimal.value_ofNat _

/-! ## Lists and dictionaries -/

/-- What is wrong with an entry is to be seen where the entry begins, or where the
dictionary does. -/
theorem EntryFault.borneOut {keys : List Bytes} {others : Bytes}
    (fault : EntryFault limit depth start position keys text error)
    (opening : input.drop start = Mark.dictionary :: others)
    (here : input.drop position = text) : error.BorneOut limit input := by
  cases fault with
  | noEntry => exact ⟨others, opening⟩
  | noValue short => exact ⟨others, opening⟩
  | nonStringKey noFinish noDigit => exact ⟨_, _, here, noDigit, noFinish⟩
  | key digit failed => exact borneOut_of_stringAt here digit failed
  | duplicateKey member short readable =>
    exact ⟨_, _, _, here, spells_byteString_iff.2 rfl, rfl⟩

/-- What is wrong at a place is to be seen there. -/
theorem Raises.borneOut {place : Place} (raises : Raises limit place error)
    (here : input.drop place.offset = place.rest) (nonempty : place.rest ≠ []) :
    error.BorneOut limit input := by
  cases raises with
  | unexpectedEnd => exact absurd rfl nonempty
  | integer failed => exact borneOut_of_integerAt here failed
  | byteString digit failed => exact borneOut_of_stringAt here digit failed
  | unknown noInteger noContainer noDigit =>
    obtain ⟨noList, noDictionary⟩ := not_or.1 noContainer
    exact ⟨_, here, noInteger, noList, noDictionary, noDigit⟩
  | tooDeep opens deep => exact ⟨rfl, _, _, here, opens⟩
  | noItem readable => exact ⟨_, here⟩
  | @entry depth offset entries rest error readable fault =>
    apply fault.borneOut here
    have here : input.drop offset =
        Mark.dictionary :: (encodeEntries entries ++ rest) := here
    rw [← List.drop_drop, ← List.drop_drop, here, List.drop_one, List.tail_cons,
      List.drop_left]

/-- A place inside an input holds octets, if the input does. -/
theorem Reaches.rest_ne_nil {place inner : Place} (reaches : Reaches limit place inner)
    (nonempty : place.rest ≠ []) : inner.rest ≠ [] := by
  cases reaches with
  | refl => exact nonempty
  | tail _ enters =>
    cases enters with
    | item => exact List.cons_ne_nil _ _
    | entry => exact List.cons_ne_nil _ _

theorem borneOut_of_valueAt (nonempty : input ≠ [])
    (failed : valueAt limit 0 0 input = .error error) : error.BorneOut limit input := by
  obtain ⟨place, reaches, raises⟩ := valueAt_eq_error_iff.1 failed
  obtain ⟨before, text, offset⟩ := Reaches.exists_before reaches
  have here : input.drop place.offset = place.rest := by
    simp only [Nat.zero_add] at text offset
    rw [text, offset, List.drop_left]
  exact raises.borneOut here (reaches.rest_ne_nil nonempty)

/-- What an error of decoding says is there to see in the input at the offset of the
error.  Unless the input is empty, the offset lies inside it. -/
theorem borneOut_of_decode (failed : decode limit input = .error error) :
    error.BorneOut limit input ∧
      (error.offset < input.length ∨ error = .unexpectedEnd 0 ∧ input = []) := by
  by_cases empty : input = []
  · subst empty
    rw [decode_eq, valueAt_nil] at failed
    cases failed
    exact ⟨⟨rfl, rfl⟩, .inr ⟨rfl, rfl⟩⟩
  have borneOut : error.BorneOut limit input := by
    rw [decode_eq] at failed
    cases read : valueAt limit 0 0 input with
    | error fault =>
      rw [read] at failed
      cases failed
      exact borneOut_of_valueAt empty read
    | ok found =>
      simp only [read] at failed
      split at failed
      · cases failed
      rename_i more
      cases failed
      obtain ⟨written, readable, text, -, next⟩ :=
        (valueAt_eq_ok_iff (Nat.zero_le _)).1 read
      have positive := List.length_pos_iff.2 more
      rw [Nat.zero_add] at next
      refine ⟨⟨written.sorted, ?_⟩, ?_, positive⟩
      · rw [next, text, List.take_left]
        exact decode_eq_ok_iff.2 ⟨written, readable, rfl, rfl⟩
      · rw [next, ← List.length_append, ← text]
  exact ⟨borneOut, .inl (borneOut.offset_lt empty)⟩

/-- In the text `d1:a5:bce` the value under the key declares two octets more than there
are. -/
theorem borneOut_cutOff :
    decode 1 (Bytes.ofString "d1:a5:bce") = .error (.truncatedString 4 5 3) ∧
    (DecodeError.truncatedString 4 5 3).BorneOut 1 (Bytes.ofString "d1:a5:bce") ∧
    4 < (Bytes.ofString "d1:a5:bce").length := by
  have empty : (Value.dictionary []).Readable 1 0 :=
    readable_dictionary_iff.2 ⟨by decide, .nil, by simp⟩
  have enters :
      Enters 1 ⟨0, 0, Bytes.ofString "d1:a5:bce"⟩ ⟨1, 4, Bytes.ofString "5:bce"⟩ :=
    @Enters.entry 1 0 0 [] (Bytes.ofString "a") 0x35 (Bytes.ofString ":bce") empty
      (by decide)
  have length :
      lengthAt 4 (Bytes.ofString "5:bce") = .ok ⟨5, 6, Bytes.ofString "bce"⟩ :=
    lengthAt_eq_ok_iff.2 ⟨by decide, by decide, by decide⟩
  have raises : Raises 1 ⟨1, 4, Bytes.ofString "5:bce"⟩ (.truncatedString 4 5 3) :=
    .byteString (by decide) (stringAt_eq_error_iff.2 (.inr ⟨_, length, by decide, rfl⟩))
  have failed : decode 1 (Bytes.ofString "d1:a5:bce") =
      .error (.truncatedString 4 5 3) := by
    rw [decode_eq, valueAt_eq_error_iff.2 ⟨_, .single enters, raises⟩]
  obtain ⟨borneOut, inside | ⟨impossible, -⟩⟩ := borneOut_of_decode failed
  · exact ⟨failed, borneOut, inside⟩
  · cases impossible

end Metainfo.Bencode
