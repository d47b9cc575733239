import Metainfo.Bencode.Sequence
import Metainfo.Proofs.Bencode.Acceptance

/-!
# Values one after the other

A sequence is read by decoding a value, then the next one from where that one ended, and
so on.  Main statement: the values that come out lie behind each other without a gap;
behind an input that was used up reading goes on as if it began there; and values that
are written one after the other come out as they were.
-/

namespace Metainfo.Bencode

open Value

variable {limit start offset consumed : Nat} {input other : Bytes} {value : Value}
  {sequence following : Sequence}

/-! ## One value -/

/-- The text of a value has at least two octets: a mark at its beginning or a digit, and
one more. -/
theorem two_le_length_encode (value : Value) : 2 ≤ value.encode.length := by
  cases value with
  | byteString bytes =>
    have digits := List.length_pos_iff.2 (Decimal.ofNat_ne_nil bytes.length)
    rw [encode_byteString, encodeString, List.length_append, List.length_cons]
    omega
  | integer number =>
    rw [encode_integer, List.length_append, List.length_cons, List.length_singleton]
    omega
  | list items =>
    rw [encode_list, List.length_append, List.length_cons, List.length_singleton]
    omega
  | dictionary entries =>
    rw [encode_dictionary, List.length_append, List.length_cons, List.length_singleton]
    omega

/-- A decoded value takes at least two octets, and none that are not there. -/
theorem consumed_bounds (decoded : decodePrefix limit input = .ok (consumed, value)) :
    2 ≤ consumed ∧ consumed ≤ input.length := by
  obtain ⟨written, -, front, -, rfl⟩ := decodePrefix_eq_ok_iff.1 decoded
  exact ⟨two_le_length_encode written, front.length_le⟩

theorem decodePrefix_append_of_ok
    (decoded : decodePrefix limit input = .ok (consumed, value)) (other : Bytes) :
    decodePrefix limit (input ++ other) = .ok (consumed, value) := by
  obtain ⟨written, readable, front, result, length⟩ := decodePrefix_eq_ok_iff.1 decoded
  exact decodePrefix_eq_ok_iff.2
    ⟨written, readable, front.trans (List.prefix_append input other), result, length⟩

/-- A value in order is decoded where it is written, whatever follows it. -/
theorem decodePrefix_of_ordered (ordered : value.Ordered) (fits : value.Fits)
    (within : value.depth ≤ limit) (rest : Bytes) :
    decodePrefix limit (value.encode ++ rest) = .ok (value.encode.length, value) := by
  have readable : value.Readable limit 0 := ⟨ordered.distinct, fits, by omega⟩
  exact decodePrefix_eq_ok_iff.2
    ⟨value, readable, List.prefix_append .., ordered.sorted_eq.symm, rfl⟩

/-- What a reader leaves is what lies behind the octets that it took. -/
theorem rest_eq_drop {reading : Reading Value input}
    (read : readValue limit 0 0 input = .ok reading) :
    reading.rest = input.drop reading.next := by
  have found : valueAt limit 0 0 input = .ok reading.found := by
    rw [valueAt, read]
    rfl
  obtain ⟨written, -, text, -, next⟩ := (valueAt_eq_ok_iff (Nat.zero_le limit)).1 found
  have text : input = written.encode ++ reading.rest := text
  have next : reading.next = 0 + written.encode.length := next
  rw [next, Nat.zero_add]
  conv => rhs; rw [text]
  rw [List.drop_left]

/-! ## Steps of reading -/

/-- Reading on from an offset, value by value, gives the sequence.  It comes to an end
where nothing is left or no value can be decoded, and otherwise goes on behind the value
that was. -/
inductive Runs (limit : Nat) : Nat → Bytes → Sequence → Prop where
  | finished (start : Nat) : Runs limit start [] ⟨[], none⟩
  | failed {start : Nat} {input : Bytes} {error : DecodeError} :
      input ≠ [] → decodePrefix limit input = .error error →
      Runs limit start input ⟨[], some (start, error)⟩
  | value {start consumed : Nat} {input : Bytes} {value : Value} {values : List Located}
      {failure : Option (Nat × DecodeError)} :
      decodePrefix limit input = .ok (consumed, value) →
      Runs limit (start + consumed) (input.drop consumed) ⟨values, failure⟩ →
      Runs limit start input ⟨⟨start, consumed, value⟩ :: values, failure⟩

/-- Reading comes to an end for every input, and what was read before stays in front. -/
theorem exists_runs (limit : Nat) : (start : Nat) → (input : Bytes) →
    ∃ sequence, Runs limit start input sequence ∧
      ∀ done, Sequence.decodeFrom limit start input done =
        ⟨done.reverse ++ sequence.values, sequence.failure⟩
  | start, input => by
      by_cases empty : input = []
      · subst empty
        refine ⟨_, .finished start, fun done => ?_⟩
        rw [Sequence.decodeFrom, if_pos rfl, List.append_nil]
      cases read : readValue limit 0 0 input with
      | error error =>
        have failed : decodePrefix limit input = .error error := by
          rw [decodePrefix, read]
          rfl
        refine ⟨_, .failed empty failed, fun done => ?_⟩
        rw [Sequence.decodeFrom, if_neg empty, read]
        simp
      | ok reading =>
        have decoded :
            decodePrefix limit input = .ok (reading.next, reading.result) := by
          rw [decodePrefix, read]
          rfl
        have smaller := reading.rest_lt
        obtain ⟨rest, runs, text⟩ :=
          exists_runs limit (start + reading.next) reading.rest
        rw [rest_eq_drop read] at runs
        refine ⟨_, .value decoded runs, fun done => ?_⟩
        rw [Sequence.decodeFrom, if_neg empty, read]
        simp [text]
termination_by _ input => input.length

/-- The sequence of an input is what comes of reading it value by value. -/
theorem runs_decode (limit : Nat) (input : Bytes) :
    Runs limit 0 input (Sequence.decode limit input) := by
  obtain ⟨sequence, runs, text⟩ := exists_runs limit 0 input
  rw [Sequence.decode, text]
  exact runs

/-- Nothing else can come of it. -/
theorem Runs.unique (runs : Runs limit start input sequence)
    (others : Runs limit start input following) : sequence = following := by
  induction runs generalizing following with
  | finished start =>
    cases others with
    | finished => rfl
    | failed nonempty => exact absurd rfl nonempty
    | value decoded =>
      have := consumed_bounds decoded
      rw [List.length_nil] at this
      omega
  | failed nonempty failed =>
    cases others with
    | finished => exact absurd rfl nonempty
    | failed _ otherFailed =>
      rw [failed] at otherFailed
      cases otherFailed
      rfl
    | value decoded =>
      rw [failed] at decoded
      cases decoded
  | value decoded rest ih =>
    cases others with
    | finished =>
      have := consumed_bounds decoded
      rw [List.length_nil] at this
      omega
    | failed _ failed =>
      rw [decoded] at failed
      cases failed
    | value otherDecoded otherRest =>
      rw [decoded] at otherDecoded
      cases otherDecoded
      cases ih otherRest
      rfl

theorem Runs.eq_decode (runs : Runs limit 0 input sequence) :
    Sequence.decode limit input = sequence :=
  (runs_decode limit input).unique runs

/-! ## Where the values lie -/

/-- The values lie behind each other without a gap, from one offset up to another. -/
def Adjoining : Nat → List Located → Nat → Prop
  | start, [], stop => start = stop
  | start, located :: values, stop =>
      located.start = start ∧ Adjoining (start + located.consumed) values stop

/-- The values that are read lie behind each other, each takes two octets or more, and
reading stops behind the last one: at the end of the input, or before it with an
error. -/
theorem Runs.exists_adjoining (runs : Runs limit start input sequence) :
    (∀ located ∈ sequence.values, 2 ≤ located.consumed) ∧
    ∃ stop, Adjoining start sequence.values stop ∧
      ((sequence.failure = none ∧ stop = start + input.length) ∨
        ∃ error, sequence.failure = some (stop, error) ∧
          stop < start + input.length) := by
  induction runs with
  | finished start => exact ⟨by simp, start, rfl, .inl ⟨rfl, rfl⟩⟩
  | @failed start input error nonempty failed =>
    have := List.length_pos_iff.2 nonempty
    exact ⟨by simp, start, rfl, .inr ⟨error, rfl, by omega⟩⟩
  | @value start consumed input value values failure decoded rest ih =>
    obtain ⟨large, stop, adjoining, ending⟩ := ih
    have bounds := consumed_bounds decoded
    have behind :
        start + consumed + (input.drop consumed).length = start + input.length := by
      rw [List.length_drop]
      omega
    rw [behind] at ending
    exact ⟨List.forall_mem_cons.2 ⟨bounds.1, large⟩, stop, ⟨rfl, adjoining⟩, ending⟩

/-! ## Inputs behind each other -/

/-- The same values and the same error, all of them so many octets later. -/
def Sequence.moved (offset : Nat) (sequence : Sequence) : Sequence :=
  ⟨sequence.values.map fun located =>
    ⟨offset + located.start, located.consumed, located.value⟩,
    sequence.failure.map fun (place, error) => (offset + place, error)⟩

/-- A sequence that did not fail, and another one behind it. -/
def Sequence.followedBy (sequence following : Sequence) : Sequence :=
  ⟨sequence.values ++ following.values, following.failure⟩

/-- Reading from a later offset gives the same, so many octets later. -/
theorem Runs.moved (runs : Runs limit start input sequence) (offset : Nat) :
    Runs limit (offset + start) input (sequence.moved offset) := by
  induction runs with
  | finished start => exact .finished (offset + start)
  | failed nonempty failed => exact .failed nonempty failed
  | @value start consumed input value values failure decoded rest ih =>
    rw [← Nat.add_assoc] at ih
    exact .value decoded ih

/-- Where an input is used up, reading goes on with what is put behind it. -/
theorem Runs.append (runs : Runs limit start input sequence)
    (finished : sequence.failure = none)
    (others : Runs limit (start + input.length) other following) :
    Runs limit start (input ++ other) (sequence.followedBy following) := by
  induction runs with
  | finished start => exact others
  | failed => cases finished
  | @value start consumed input value values failure decoded rest ih =>
    have within := (consumed_bounds decoded).2
    have behind :
        start + consumed + (input.drop consumed).length = start + input.length := by
      rw [List.length_drop]
      omega
    rw [behind, ← List.drop_append_of_le_length within] at ih
    exact .value (decodePrefix_append_of_ok decoded other) (ih finished others)

/-- Values in order that are written one after the other are read one after the
other. -/
theorem exists_runs_flatMap_encode {values : List Value}
    (each : ∀ value ∈ values, value.Ordered ∧ value.Fits ∧ value.depth ≤ limit)
    (start : Nat) :
    ∃ located, Runs limit start (values.flatMap encode) ⟨located, none⟩ ∧
      located.map Located.value = values := by
  induction values generalizing start with
  | nil => exact ⟨[], .finished start, rfl⟩
  | cons value values ih =>
    rw [List.forall_mem_cons] at each
    obtain ⟨⟨ordered, fits, within⟩, others⟩ := each
    obtain ⟨located, runs, same⟩ := ih others (start + value.encode.length)
    have decoded := decodePrefix_of_ordered ordered fits within (values.flatMap encode)
    refine ⟨⟨start, value.encode.length, value⟩ :: located, ?_,
      by rw [List.map_cons, same]⟩
    rw [List.flatMap_cons]
    apply Runs.value decoded
    rw [List.drop_left]
    exact runs

/-- Reading values one after the other comes to an end; each value takes two octets or
more and begins where the one before it ended, and the last one ends where the input
does or where an error is found.  Behind an input that is used up, another one is read
as if it stood alone.  Values in order that lie no deeper than the limit, and whose byte
strings have lengths of 64 bits, come out of their texts put together. -/
theorem Sequence.decode_in_pieces (limit : Nat) :
    (∀ input, Runs limit 0 input (Sequence.decode limit input) ∧
      (∀ sequence, Runs limit 0 input sequence →
        sequence = Sequence.decode limit input) ∧
      (∀ located ∈ (Sequence.decode limit input).values, 2 ≤ located.consumed) ∧
      ∃ stop, Adjoining 0 (Sequence.decode limit input).values stop ∧
        (((Sequence.decode limit input).failure = none ∧ stop = input.length) ∨
          ∃ error, (Sequence.decode limit input).failure = some (stop, error) ∧
            stop < input.length)) ∧
    (∀ input other, (Sequence.decode limit input).failure = none →
      Sequence.decode limit (input ++ other) =
        (Sequence.decode limit input).followedBy
          ((Sequence.decode limit other).moved input.length)) ∧
    ∀ values : List Value,
      (∀ value ∈ values, value.Ordered ∧ value.Fits ∧ value.depth ≤ limit) →
      (Sequence.decode limit (values.flatMap encode)).values.map Located.value =
        values ∧
      (Sequence.decode limit (values.flatMap encode)).failure = none := by
  refine ⟨fun input => ?_, fun input other finished => ?_, fun values each => ?_⟩
  · have runs := runs_decode limit input
    have places := runs.exists_adjoining
    rw [Nat.zero_add] at places
    exact ⟨runs, fun sequence others => others.unique runs, places⟩
  · have others := (runs_decode limit other).moved input.length
    rw [Nat.add_comm] at others
    exact ((runs_decode limit input).append finished others).eq_decode
  · obtain ⟨located, runs, same⟩ := exists_runs_flatMap_encode each 0
    rw [runs.eq_decode]
    exact ⟨same, rfl⟩

/-- Two values are read where they are written, and behind them an integer is refused,
the error counting from its own beginning. -/
theorem decode_nested_in_pieces :
    (∀ value ∈ [nested, nested], value.Ordered ∧ value.Fits ∧ value.depth ≤ 3) ∧
    Sequence.decode 3 (nested.encode ++ nested.encode) =
      ⟨[⟨0, 12, nested⟩, ⟨12, 12, nested⟩], none⟩ ∧
    Sequence.decode 3 (nested.encode ++ nested.encode ++ Bytes.ofString "i-0e") =
      ⟨[⟨0, 12, nested⟩, ⟨12, 12, nested⟩],
        some (24, .malformedInteger 0 "'-0' is not a canonical integer")⟩ := by
  have each : ∀ value ∈ [nested, nested], value.Ordered ∧ value.Fits ∧
      value.depth ≤ 3 := by
    simp only [List.forall_mem_cons, List.not_mem_nil, false_implies, implies_true,
      and_true, and_self]
    exact ⟨nested_ordered, nested_readable.fits, nested_readable.within⟩
  have first :=
    decodePrefix_of_ordered nested_ordered nested_readable.fits nested_readable.within
  have twice : Sequence.decode 3 (nested.encode ++ nested.encode) =
      ⟨[⟨0, 12, nested⟩, ⟨12, 12, nested⟩], none⟩ := by
    apply Runs.eq_decode
    apply Runs.value (first nested.encode)
    rw [List.drop_left]
    have last := first []
    rw [List.append_nil] at last
    apply Runs.value last
    rw [List.drop_length]
    exact .finished 24
  have refused : Sequence.decode 3 (Bytes.ofString "i-0e") =
      ⟨[], some (0, .malformedInteger 0 "'-0' is not a canonical integer")⟩ := by
    apply Runs.eq_decode
    apply Runs.failed (by decide)
    have noFinish : Mark.finish ∉ Bytes.ofString "-0" := by decide
    have failed : integerAt 0 (Bytes.ofString "-0" ++ Mark.finish :: []) =
        .error (.malformedInteger 0 "'-0' is not a canonical integer") :=
      integerAt_terminated noFinish
    have text : Bytes.ofString "i-0e" =
        Mark.integer :: (Bytes.ofString "-0" ++ Mark.finish :: []) := by decide
    rw [decodePrefix_eq, text, valueAt_integer, failed]
    rfl
  have finished :
      (Sequence.decode 3 (nested.encode ++ nested.encode)).failure = none := by
    simpa using ((Sequence.decode_in_pieces 3).2.2 [nested, nested] each).2
  refine ⟨each, twice, ?_⟩
  rw [(Sequence.decode_in_pieces 3).2.1 _ _ finished, twice, refused]
  rfl

end Metainfo.Bencode
