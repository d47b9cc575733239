import Metainfo.Proofs.Bencode.Failure

/-!
# What follows an input

A value is found without a look at what follows it, so that other octets may follow, or
none.  An error that tells of octets that are there, and not of the end of the input,
stays the same whatever is put behind the input: reading comes to the same place, and
the same is wrong there.
-/

namespace Metainfo.Bencode

open Value

variable {limit depth start position : Nat} {input : Bytes} {place inner : Place}
  {error : DecodeError}

/-- The error tells of octets that the input holds, and not of its end.  A malformed
integer does so if a mark of an end follows its own mark; a malformed length does so
unless its colon is missing at the end of the input. -/
def DecodeError.Settled (input : Bytes) : DecodeError → Prop
  | .malformedInteger offset _ => Mark.finish ∈ input.drop (offset + 1)
  | .malformedStringLength _ reason => reason ≠ LengthFault.unterminated.reason
  | .nonStringKey _ | .unknownTypePrefix _ _ | .depthLimitExceeded _ _
  | .duplicateKey _ _ => True
  | .unexpectedEnd _ | .truncatedString _ _ _ | .unterminatedList _
  | .unterminatedDictionary _
  | .trailingData _ _ => False

/-! ## Integers and byte strings -/

theorem integerAt_append (failed : integerAt start input = .error error)
    (closed : Mark.finish ∈ input) (suffix : Bytes) :
    integerAt start (input ++ suffix) = .error error := by
  obtain ⟨text, rest, rfl, first⟩ := List.eq_append_cons_of_mem closed
  rw [integerAt_terminated first] at failed
  rw [List.append_assoc, List.cons_append, integerAt_terminated first]
  cases parsed : Integer.ofText? text with
  | none => rwa [parsed] at failed
  | some integer => simp [parsed] at failed

theorem lengthAt_append (failed : lengthAt start input = .error error)
    (settled : ∀ offset,
      error ≠ .malformedStringLength offset LengthFault.unterminated.reason)
    (suffix : Bytes) :
    lengthAt start (input ++ suffix) = .error error := by
  rcases digits_or_stop input with all | ⟨digits, byte, rest, rfl, all, stop⟩
  · rw [lengthAt_unterminated all] at failed
    cases failed
    exact absurd rfl (settled start)
  · rw [lengthAt_stopped all stop] at failed
    rw [List.append_assoc, List.cons_append, lengthAt_stopped all stop]
    split at failed
    · rwa [if_pos ‹_›]
    · rw [if_neg ‹_›]
      split at failed
      · rwa [if_pos ‹_›]
      · rw [if_neg ‹_›]
        cases number : Decimal.readWithin Decimal.maxWord digits with
        | none => rwa [number] at failed
        | some length => simp [number] at failed

theorem stringAt_append {whole : Bytes} (failed : stringAt start input = .error error)
    (settled : error.Settled whole) (suffix : Bytes) :
    stringAt start (input ++ suffix) = .error error := by
  rcases stringAt_eq_error_iff.1 failed with length | ⟨length, -, -, rfl⟩
  · refine stringAt_eq_error_iff.2 (.inl (lengthAt_append length ?_ suffix))
    rintro offset rfl
    exact settled rfl
  · exact settled.elim

/-! ## Places with more behind them -/

/-- The same place with more octets behind it. -/
def Place.append (place : Place) (suffix : Bytes) : Place :=
  ⟨place.depth, place.offset, place.rest ++ suffix⟩

theorem Enters.append (enters : Enters limit place inner) (suffix : Bytes) :
    Enters limit (place.append suffix) (inner.append suffix) := by
  cases enters with
  | @item depth offset items byte rest readable noFinish =>
    simp only [Place.append, List.cons_append, List.append_assoc]
    exact .item readable noFinish
  | @entry depth offset entries key byte rest readable short =>
    simp only [Place.append, List.cons_append, List.append_assoc]
    exact .entry readable short

theorem Reaches.append (reaches : Reaches limit place inner) (suffix : Bytes) :
    Reaches limit (place.append suffix) (inner.append suffix) := by
  induction reaches with
  | refl => exact .refl
  | tail _ enters ih => exact ih.tail (enters.append suffix)

theorem EntryFault.append {keys : List Bytes} {whole : Bytes}
    (fault : EntryFault limit depth start position keys input error)
    (settled : error.Settled whole) (suffix : Bytes) :
    EntryFault limit depth start position keys (input ++ suffix) error := by
  cases fault with
  | noEntry => exact settled.elim
  | noValue short => exact settled.elim
  | nonStringKey noFinish noDigit => exact .nonStringKey noFinish noDigit
  | key digit failed => exact .key digit (stringAt_append failed settled suffix)
  | duplicateKey member short readable =>
    rw [List.append_assoc, List.append_assoc]
    exact .duplicateKey member short readable

/-- A settled error is raised at a place of the input whatever follows. -/
theorem Raises.append (raises : Raises limit place error)
    (inside : input.drop place.offset = place.rest) (settled : error.Settled input)
    (suffix : Bytes) : Raises limit (place.append suffix) error := by
  cases raises with
  | unexpectedEnd => exact settled.elim
  | @integer depth offset rest error failed =>
    obtain ⟨reason, rfl⟩ := exists_reason_of_integerAt failed
    have closed : Mark.finish ∈ rest := by
      have settled : Mark.finish ∈ input.drop (offset + 1) := settled
      rwa [← List.drop_drop, inside] at settled
    exact .integer (integerAt_append failed closed suffix)
  | byteString digit failed =>
    exact .byteString digit (stringAt_append failed settled suffix)
  | unknown noInteger noContainer noDigit =>
    exact .unknown noInteger noContainer noDigit
  | tooDeep opens deep => exact .tooDeep opens deep
  | noItem readable => exact settled.elim
  | @entry depth offset entries rest error readable fault =>
    simp only [Place.append, List.cons_append, List.append_assoc]
    exact .entry readable (fault.append settled suffix)

/-- A settled error comes out whatever follows the input. -/
theorem decodePrefix_append_of_settled
    (failed : decodePrefix limit input = .error error) (settled : error.Settled input)
    (suffix : Bytes) :
    decodePrefix limit (input ++ suffix) = .error error := by
  obtain ⟨place, reaches, raises⟩ := decodePrefix_eq_error_iff.1 failed
  obtain ⟨before, text, offset⟩ := Reaches.exists_before reaches
  have inside : input.drop place.offset = place.rest := by
    simp only [Nat.zero_add] at text offset
    rw [text, offset, List.drop_left]
  exact decodePrefix_eq_error_iff.2
    ⟨place.append suffix, reaches.append suffix, raises.append inside settled suffix⟩

/-! ## Values with more or less behind them -/

/-- What follows an input does not change what was decoded, nor does it change an error
unless this tells of the end of the input.  A decoded value is found as well where its
own text is all there is, and no other beginning of the input is the text of a value. -/
theorem decodePrefix_append (limit : Nat) (input suffix : Bytes) :
    (∀ consumed value, decodePrefix limit input = .ok (consumed, value) →
      decodePrefix limit (input ++ suffix) = .ok (consumed, value) ∧
      decodePrefix limit (input.take consumed) = .ok (consumed, value) ∧
      consumed ≤ input.length ∧
      ∀ length, length ≤ input.length →
        ((∃ other, decode limit (input.take length) = .ok other) ↔ length = consumed)) ∧
    ∀ error, decodePrefix limit input = .error error → error.Settled input →
      decodePrefix limit (input ++ suffix) = .error error := by
  refine ⟨?_, fun error failed settled =>
    decodePrefix_append_of_settled failed settled suffix⟩
  intro consumed value decoded
  obtain ⟨written, readable, ⟨rest, rfl⟩, rfl, rfl⟩ := decodePrefix_eq_ok_iff.1 decoded
  refine ⟨?_, ?_, ?_, ?_⟩
  · exact decodePrefix_eq_ok_iff.2
      ⟨written, readable, ⟨rest ++ suffix, by rw [List.append_assoc]⟩, rfl, rfl⟩
  · rw [List.take_left]
    exact decodePrefix_eq_ok_iff.2 ⟨written, readable, List.prefix_refl _, rfl, rfl⟩
  · rw [List.length_append]
    omega
  · intro length within
    constructor
    · rintro ⟨other, accepted⟩
      obtain ⟨front, -, text, -⟩ := decode_eq_ok_iff.1 accepted
      have parts := List.take_append_drop length (written.encode ++ rest)
      rw [text] at parts
      obtain ⟨rfl, -⟩ := encode_append_inj parts
      rw [← text, List.length_take, Nat.min_eq_left within]
    · rintro rfl
      rw [List.take_left]
      exact ⟨_, decode_eq_ok_iff.2 ⟨written, readable, rfl, rfl⟩⟩

/-- The text `d1:al1:eleee` is that of a value, and `i-0e` is refused, whatever
follows. -/
theorem decodePrefix_append_nested :
    decodePrefix 3 nested.encode = .ok (12, nested) ∧
    decodePrefix 3 (nested.encode ++ nested.encode) = .ok (12, nested) ∧
    ∃ error, decodePrefix 3 (Bytes.ofString "i-0e") = .error error ∧
      error.Settled (Bytes.ofString "i-0e") ∧
      decodePrefix 3 (Bytes.ofString "i-0e" ++ nested.encode) = .error error := by
  have decoded : decodePrefix 3 nested.encode = .ok (12, nested) :=
    decodePrefix_eq_ok_iff.2
      ⟨nested, nested_readable, List.prefix_refl _, nested_ordered.sorted_eq.symm,
        by decide⟩
  have noFinish : Mark.finish ∉ Bytes.ofString "-0" := by decide
  have failed : decodePrefix 3 (Bytes.ofString "i-0e") =
      .error (.malformedInteger 0
        (IntegerFault.notCanonical (Bytes.ofString "-0")).reason) :=
    decodePrefix_eq_error_iff.2 ⟨_, .refl, .integer (integerAt_terminated noFinish)⟩
  have settled : (DecodeError.malformedInteger 0
      (IntegerFault.notCanonical (Bytes.ofString "-0")).reason).Settled
        (Bytes.ofString "i-0e") := by
    rw [DecodeError.Settled]
    decide
  refine ⟨decoded, ?_, _, failed, settled, ?_⟩
  · exact ((decodePrefix_append 3 nested.encode nested.encode).1 12 nested decoded).1
  · exact (decodePrefix_append 3 _ nested.encode).2 _ failed settled

end Metainfo.Bencode
