import Metainfo.Proofs.Bencode.DepthLimit
import Metainfo.Proofs.Bencode.Safety

/-!
# Reading from another position

What a reader does depends on the octets from its position on and on how many more lists
and dictionaries the limit of depth allows.  The position itself, and how many lists and
dictionaries are around it, only show in the offsets that are returned and in the limit
that an error tells.  Main statement: from a position in an input, inside some lists and
dictionaries, a value is read as from the beginning of what follows the position, under
a limit that is smaller by as many; all offsets are greater by the position.
-/

namespace Metainfo.Bencode

open Value

variable {Result : Type} {octets levels limit depth start position : Nat}
  {input : Bytes} {place inner : Place} {error : DecodeError}

/-- The same error so many octets later, inside so many more lists and dictionaries. -/
def DecodeError.shifted (octets levels : Nat) : DecodeError → DecodeError
  | .unexpectedEnd offset => .unexpectedEnd (octets + offset)
  | .malformedInteger offset reason => .malformedInteger (octets + offset) reason
  | .malformedStringLength offset reason =>
      .malformedStringLength (octets + offset) reason
  | .truncatedString offset declared available =>
      .truncatedString (octets + offset) declared available
  | .unterminatedList offset => .unterminatedList (octets + offset)
  | .unterminatedDictionary offset => .unterminatedDictionary (octets + offset)
  | .nonStringKey offset => .nonStringKey (octets + offset)
  | .unknownTypePrefix offset byte => .unknownTypePrefix (octets + offset) byte
  | .trailingData offset remaining => .trailingData (octets + offset) remaining
  | .depthLimitExceeded offset limit =>
      .depthLimitExceeded (octets + offset) (levels + limit)
  | .duplicateKey offset key => .duplicateKey (octets + offset) key

/-- The same finding so many octets later. -/
def Found.shifted (octets : Nat) (found : Found Result) : Found Result :=
  ⟨found.result, octets + found.next, found.rest⟩

/-- The same outcome so many octets later, inside so many more lists and
dictionaries. -/
def shiftedOutcome (octets levels : Nat) :
    Except DecodeError (Found Result) → Except DecodeError (Found Result)
  | .error error => .error (error.shifted octets levels)
  | .ok found => .ok (found.shifted octets)

theorem shiftedOutcome_map {Other : Type} (convert : Result → Other)
    (outcome : Except DecodeError (Found Result)) :
    (shiftedOutcome octets levels outcome).map (Found.map convert) =
      shiftedOutcome octets levels (outcome.map (Found.map convert)) := by
  cases outcome <;> rfl

/-! ## Integers and byte strings -/

theorem integerAt_shifted (octets levels start : Nat) (input : Bytes) :
    integerAt (octets + start) input =
      shiftedOutcome octets levels (integerAt start input) := by
  by_cases closed : Mark.finish ∈ input
  · obtain ⟨text, rest, rfl, first⟩ := List.eq_append_cons_of_mem closed
    rw [integerAt_terminated first, integerAt_terminated first]
    cases Integer.ofText? text with
    | none => rfl
    | some integer => simp only [shiftedOutcome, Found.shifted, Nat.add_assoc]
  · rw [integerAt_unterminated closed, integerAt_unterminated closed]
    rfl

theorem lengthAt_shifted (octets levels start : Nat) (input : Bytes) :
    lengthAt (octets + start) input =
      shiftedOutcome octets levels (lengthAt start input) := by
  rcases digits_or_stop input with all | ⟨digits, byte, rest, rfl, all, stop⟩
  · rw [lengthAt_unterminated all, lengthAt_unterminated all]
    rfl
  · rw [lengthAt_stopped all stop, lengthAt_stopped all stop]
    split
    · rw [Nat.add_assoc]
      rfl
    · split
      · rfl
      · cases Decimal.readWithin Decimal.maxWord digits with
        | none => rfl
        | some length => simp only [shiftedOutcome, Found.shifted, Nat.add_assoc]

theorem stringAt_shifted (octets levels start : Nat) (input : Bytes) :
    stringAt (octets + start) input =
      shiftedOutcome octets levels (stringAt start input) := by
  rw [stringAt_eq, stringAt_eq, lengthAt_shifted octets levels]
  cases lengthAt start input with
  | error error => rfl
  | ok length =>
    simp only [shiftedOutcome, Found.shifted]
    split
    · rw [Nat.add_assoc]
    · rfl

/-! ## Places -/

/-- The same place so many octets later, inside so many more lists and dictionaries. -/
def Place.shifted (octets levels : Nat) (place : Place) : Place :=
  ⟨levels + place.depth, octets + place.offset, place.rest⟩

theorem Value.Readable.shifted {written : Value}
    (readable : written.Readable limit depth) (levels : Nat) :
    written.Readable (levels + limit) (levels + depth) :=
  ⟨readable.distinct, readable.fits, by have := readable.within; omega⟩

theorem Enters.shifted (enters : Enters limit place inner) (octets levels : Nat) :
    Enters (levels + limit) (place.shifted octets levels)
      (inner.shifted octets levels) := by
  cases enters with
  | item readable noFinish =>
    simp only [Place.shifted, ← Nat.add_assoc]
    exact .item (readable.shifted levels) noFinish
  | entry readable short =>
    simp only [Place.shifted, ← Nat.add_assoc]
    exact .entry (readable.shifted levels) short

theorem Reaches.shifted (reaches : Reaches limit place inner) (octets levels : Nat) :
    Reaches (levels + limit) (place.shifted octets levels)
      (inner.shifted octets levels) := by
  induction reaches with
  | refl => exact .refl
  | tail _ enters ih => exact ih.tail (enters.shifted octets levels)

theorem EntryFault.shifted {keys : List Bytes}
    (fault : EntryFault limit depth start position keys input error)
    (octets levels : Nat) :
    EntryFault (levels + limit) (levels + depth) (octets + start)
      (octets + position) keys input
      (error.shifted octets levels) := by
  cases fault with
  | noEntry => exact .noEntry
  | noValue short => exact .noValue short
  | nonStringKey noFinish noDigit => exact .nonStringKey noFinish noDigit
  | key digit failed =>
    refine .key digit ?_
    rw [stringAt_shifted octets levels, failed]
    rfl
  | duplicateKey member short readable =>
    exact .duplicateKey member short (readable.shifted levels)

/-- What is wrong at a place is wrong so many octets later, too. -/
theorem Raises.shifted (raises : Raises limit place error) (octets levels : Nat) :
    Raises (levels + limit) (place.shifted octets levels)
      (error.shifted octets levels) := by
  cases raises with
  | unexpectedEnd => exact .unexpectedEnd
  | integer failed =>
    refine .integer ?_
    rw [integerAt_shifted octets levels, failed]
    rfl
  | byteString digit failed =>
    refine .byteString digit ?_
    rw [stringAt_shifted octets levels, failed]
    rfl
  | unknown noInteger noContainer noDigit =>
    exact .unknown noInteger noContainer noDigit
  | tooDeep opens deep => exact .tooDeep opens (Nat.add_le_add_left deep levels)
  | noItem readable => exact .noItem (readable.shifted levels)
  | entry readable fault =>
    have fault := fault.shifted octets levels
    simp only [← Nat.add_assoc] at fault
    exact .entry (readable.shifted levels) fault

/-- A value is read so many octets later, and inside so many more lists and
dictionaries, as it is. -/
theorem valueAt_shifted (shallow : depth ≤ limit) (octets levels start : Nat)
    (input : Bytes) :
    valueAt (levels + limit) (levels + depth) (octets + start) input =
      shiftedOutcome octets levels (valueAt limit depth start input) := by
  cases outcome : valueAt limit depth start input with
  | error error =>
    obtain ⟨place, reaches, raises⟩ := valueAt_eq_error_iff.1 outcome
    exact valueAt_eq_error_iff.2
      ⟨_, Reaches.shifted reaches octets levels, raises.shifted octets levels⟩
  | ok found =>
    obtain ⟨written, readable, text, result, next⟩ :=
      (valueAt_eq_ok_iff shallow).1 outcome
    refine (valueAt_eq_ok_iff (Nat.add_le_add_left shallow levels)).2
      ⟨written, readable.shifted levels, text, result, ?_⟩
    rw [Found.shifted, next, Nat.add_assoc]

/-- The limit that an error tells is the one that was given. -/
theorem bound_eq_of_valueAt {offset bound : Nat}
    (failed : valueAt limit depth start input =
      .error (.depthLimitExceeded offset bound)) :
    bound = limit := by
  obtain ⟨place, -, raises⟩ := valueAt_eq_error_iff.1 failed
  exact (Raises.tooDeep_iff.1 raises).1

/-! ## In place -/

namespace Decoder

open Run

/-- The same end of a run so many octets later, inside so many more lists and
dictionaries. -/
def Run.shifted (octets levels : Nat) : Run (Nat × Result) → Run (Nat × Result)
  | .ok (.ok (next, result)) => pure (octets + next, result)
  | .ok (.error error) => throw (error.shifted octets levels)
  | .error fault => stop fault

theorem shifted_ofOutcome (outcome : Except DecodeError (Found Result)) :
    (ofOutcome outcome).shifted octets levels =
      ofOutcome (shiftedOutcome octets levels outcome) := by
  cases outcome <;> rfl

/-- A run in two parts is shifted with its parts. -/
theorem bind_shifted {Other : Type} {first other : Run (Nat × Result)}
    {next following : Nat × Result → Run (Nat × Other)}
    (same : first = other.shifted octets levels)
    (step : ∀ position result, other = pure (position, result) →
      next (octets + position, result) =
        (following (position, result)).shifted octets levels) :
    first >>= next = (other >>= following).shifted octets levels := by
  subst same
  match other, step with
  | .ok (.ok (position, result)), step => exact step position result rfl
  | .ok (.error error), _ => rfl
  | .error fault, _ => rfl

/-- A decoder of the octets from a position on, whose limit and room are smaller by the
lists and dictionaries that are around the position. -/
def behind (decoder : Decoder) (octets levels : Nat) : Decoder :=
  ⟨decoder.input.drop octets, decoder.limit - levels, decoder.room - levels⟩

/-- So many octets can be put aside, and so many lists and dictionaries around what
follows them: the input has them, and the limit and the room allow for them.  Positions
and depths are words. -/
structure Splits (decoder : Decoder) (octets levels : Nat) : Prop where
  short : decoder.Short
  word : decoder.limit ≤ Decimal.maxWord
  within : octets ≤ decoder.input.length
  allowed : levels ≤ decoder.limit
  room : levels ≤ decoder.room

variable {decoder : Decoder} {byte : UInt8} {rest : Bytes}

@[simp] theorem limit_behind (decoder : Decoder) (octets levels : Nat) :
    (decoder.behind octets levels).limit = decoder.limit - levels := rfl

@[simp] theorem room_behind (decoder : Decoder) (octets levels : Nat) :
    (decoder.behind octets levels).room = decoder.room - levels := rfl

theorem drop_behind (decoder : Decoder) (octets levels position : Nat) :
    (decoder.behind octets levels).input.drop position =
      decoder.input.drop (octets + position) :=
  List.drop_drop

theorem octet_behind (decoder : Decoder) (octets levels position : Nat) :
    octet (decoder.behind octets levels).input position =
      octet decoder.input (octets + position) := by
  rw [octet, octet, behind, List.getElem?_drop]

namespace Splits

theorem length_behind (splits : decoder.Splits octets levels) :
    octets + (decoder.behind octets levels).input.length = decoder.input.length := by
  rw [behind, List.length_drop, Nat.add_sub_cancel' splits.within]

theorem short_behind (splits : decoder.Splits octets levels) :
    (decoder.behind octets levels).Short := by
  have length := splits.length_behind
  have short := splits.short
  rw [Short] at short ⊢
  omega

/-- The position behind an octet. -/
theorem add_one (splits : decoder.Splits octets levels)
    (inside : octets + position < decoder.input.length) :
    add (octets + position) 1 = pure (octets + (position + 1)) ∧
    add position 1 = pure (position + 1) :=
  ⟨add_eq (splits.short.fits (by omega)), add_eq (splits.short.fits (by omega))⟩

/-- The depth of what lies in a list or a dictionary. -/
theorem deeper (splits : decoder.Splits octets levels)
    (shallow : levels + depth < decoder.limit) :
    add (levels + depth) 1 = pure (levels + (depth + 1)) ∧
    add depth 1 = pure (depth + 1) := by
  have word := splits.word
  exact ⟨add_eq (by omega), add_eq (by omega)⟩

theorem integer_behind (splits : decoder.Splits octets levels)
    (here : decoder.input.drop (octets + position) = Mark.integer :: rest) :
    decoder.integer (octets + position) =
      ((decoder.behind octets levels).integer position).shifted octets levels := by
  have hereBehind := (drop_behind decoder octets levels position).trans here
  rw [integer_eq splits.short here, integer_eq splits.short_behind hereBehind,
    shifted_ofOutcome, ← shiftedOutcome_map, integerAt_shifted octets levels]

/-- An error of the limit tells the limit of the decoder of the whole input. -/
theorem tooDeep_shifted (splits : decoder.Splits octets levels) :
    (throw (.depthLimitExceeded (octets + position) decoder.limit) :
      Run (Nat × Result)) =
      Run.shifted octets levels
        (throw (.depthLimitExceeded position (decoder.limit - levels))) := by
  conv_lhs => rw [← Nat.add_sub_cancel' splits.allowed]
  rfl

theorem string_behind (splits : decoder.Splits octets levels)
    (inside : octets + position ≤ decoder.input.length) :
    decoder.string (octets + position) =
      ((decoder.behind octets levels).string position).shifted octets levels := by
  have length := splits.length_behind
  rw [string_eq splits.short inside, string_eq splits.short_behind (by omega),
    shifted_ofOutcome, drop_behind, stringAt_shifted octets levels]

end Splits

-- The induction is on the turns.  A reader calls others at positions that it has
-- computed, which have to lie inside the input for their sums to be words: what was
-- found before them ends there.
mutual

/-- With as many turns a value is read at both positions, or both runs end alike. -/
theorem value_behind (splits : decoder.Splits octets levels) :
    (turns position depth : Nat) →
    octets + position ≤ decoder.input.length → levels + depth ≤ decoder.limit →
    decoder.value turns (octets + position) (levels + depth) =
      ((decoder.behind octets levels).value turns position depth).shifted octets levels
  | 0, _, _, _, _ => by
      rw [value, value]
      rfl
  | turns + 1, position, depth, inside, allowed => by
      have room := splits.room
      have full : levels + depth > decoder.room ↔
          depth > (decoder.behind octets levels).room := by
        rw [room_behind]
        omega
      rw [value, value, ← List.head?_drop, ← List.head?_drop, drop_behind]
      by_cases deep : depth > (decoder.behind octets levels).room
      · rw [if_pos deep, if_pos (full.2 deep)]
        rfl
      rw [if_neg deep, if_neg (mt full.1 deep)]
      cases here : decoder.input.drop (octets + position) with
      | nil => rfl
      | cons byte rest =>
        simp only [List.head?_cons]
        split_ifs with isInteger isList isDictionary isDigit
        · exact splits.integer_behind (isInteger ▸ here)
        · exact list_behind splits turns position depth
            (lt_length_of_drop_eq_cons here) allowed
        · exact dictionary_behind splits turns position depth
            (lt_length_of_drop_eq_cons here) allowed
        · exact bind_shifted (splits.string_behind inside) fun _ _ _ => rfl
        · rfl

theorem list_behind (splits : decoder.Splits octets levels) :
    (turns position depth : Nat) →
    octets + position < decoder.input.length → levels + depth ≤ decoder.limit →
    decoder.list turns (octets + position) (levels + depth) =
      ((decoder.behind octets levels).list turns position depth).shifted octets levels
  | 0, _, _, _, _ => by
      rw [list, list]
      rfl
  | turns + 1, position, depth, inside, allowed => by
      rw [list, list, limit_behind]
      by_cases deep : depth ≥ decoder.limit - levels
      · rw [if_pos deep, if_pos (by omega)]
        exact splits.tooDeep_shifted
      have first := splits.add_one inside
      rw [if_neg deep, if_neg (by omega), first.1, first.2, pure_bind, pure_bind]
      exact items_behind splits turns position depth (position + 1) [] inside (by omega)

theorem items_behind (splits : decoder.Splits octets levels) :
    (turns start depth position : Nat) → (done : List Value) →
    octets + position ≤ decoder.input.length → levels + depth < decoder.limit →
    decoder.items turns (octets + start) (levels + depth) (octets + position) done =
      ((decoder.behind octets levels).items turns start depth position done).shifted
        octets levels
  | 0, _, _, _, _, _, _ => by
      rw [items, items]
      rfl
  | turns + 1, start, depth, position, done, inside, shallow => by
      have length := splits.length_behind
      rw [items, items]
      by_cases ended : position < (decoder.behind octets levels).input.length
      · have before : octets + position < decoder.input.length := by omega
        rw [if_pos ended, if_pos before, octet_behind]
        cases here : decoder.input.drop (octets + position) with
        | nil => exact absurd before (not_lt_length_of_drop_eq_nil here)
        | cons byte rest =>
          rw [octet_eq here, pure_bind, pure_bind]
          by_cases finish : byte = Mark.finish
          · have last := splits.add_one before
            rw [if_neg (not_not.2 finish), if_neg (not_not.2 finish), last.1, last.2]
            rfl
          -- An item stands here; the decoders read it alike, and then what follows it.
          have deeper := splits.deeper shallow
          rw [if_pos finish, if_pos finish, deeper.1, deeper.2, pure_bind, pure_bind]
          refine bind_shifted
            (value_behind splits turns position (depth + 1) inside shallow) ?_
          intro next item read
          have stretch := stretch_of_value turns position (depth + 1) read
          exact items_behind splits turns start depth next (item :: done)
            (by have := stretch.le_length; omega) shallow
      · rw [if_neg ended, if_neg (by omega)]
        rfl

theorem dictionary_behind (splits : decoder.Splits octets levels) :
    (turns position depth : Nat) →
    octets + position < decoder.input.length → levels + depth ≤ decoder.limit →
    decoder.dictionary turns (octets + position) (levels + depth) =
      ((decoder.behind octets levels).dictionary turns position depth).shifted
        octets levels
  | 0, _, _, _, _ => by
      rw [dictionary, dictionary]
      rfl
  | turns + 1, position, depth, inside, allowed => by
      rw [dictionary, dictionary, limit_behind]
      by_cases deep : depth ≥ decoder.limit - levels
      · rw [if_pos deep, if_pos (by omega)]
        exact splits.tooDeep_shifted
      have first := splits.add_one inside
      rw [if_neg deep, if_neg (by omega), first.1, first.2, pure_bind, pure_bind]
      exact entries_behind splits turns position depth (position + 1) [] inside
        (by omega)

theorem entries_behind (splits : decoder.Splits octets levels) :
    (turns start depth position : Nat) → (done : List (Bytes × Value)) →
    octets + position ≤ decoder.input.length → levels + depth < decoder.limit →
    decoder.entries turns (octets + start) (levels + depth) (octets + position) done =
      ((decoder.behind octets levels).entries turns start depth position done).shifted
        octets levels
  | 0, _, _, _, _, _, _ => by
      rw [entries, entries]
      rfl
  | turns + 1, start, depth, position, done, inside, shallow => by
      have length := splits.length_behind
      rw [entries, entries]
      by_cases ended : position < (decoder.behind octets levels).input.length
      · have before : octets + position < decoder.input.length := by omega
        rw [if_pos ended, if_pos before, octet_behind]
        cases here : decoder.input.drop (octets + position) with
        | nil => exact absurd before (not_lt_length_of_drop_eq_nil here)
        | cons byte rest =>
          rw [octet_eq here, pure_bind, pure_bind]
          by_cases finish : byte = Mark.finish
          · have last := splits.add_one before
            rw [if_neg (not_not.2 finish), if_neg (not_not.2 finish), last.1, last.2]
            rfl
          rw [if_pos finish, if_pos finish]
          by_cases noDigit : Decimal.isDigit byte = false
          · rw [if_pos noDigit, if_pos noDigit]
            rfl
          rw [if_neg noDigit, if_neg noDigit]
          -- An entry stands here: a key, then a value in what the key has left.
          refine bind_shifted (splits.string_behind inside) ?_
          intro behindKey key readKey
          have keyStretch := stretch_of_string readKey
          dsimp only
          by_cases noValue : behindKey ≥ (decoder.behind octets levels).input.length
          · rw [if_pos noValue, if_pos (by omega)]
            rfl
          have deeper := splits.deeper shallow
          rw [if_neg noValue, if_neg (by omega), deeper.1, deeper.2, pure_bind,
            pure_bind]
          refine bind_shifted
            (value_behind splits turns behindKey (depth + 1) (by omega) shallow) ?_
          intro next value read
          have stretch := stretch_of_value turns behindKey (depth + 1) read
          dsimp only
          split
          · rfl
          · exact entries_behind splits turns start depth next
              (Entries.insert key value done)
              (by have := stretch.le_length; omega) shallow
      · rw [if_neg ended, if_neg (by omega)]
        rfl

end

/-- From a position in an input, inside some lists and dictionaries, a value is read as
from the beginning of what follows the position, under a limit that is smaller by as
many.  All offsets are greater by the position, and an error of the limit tells the
greater limit; nothing else differs.  In place this holds of every number of turns, and
both runs come to an end without a fault if there are three turns for every octet behind
the position and one more. -/
theorem position_independent {input : Bytes} {limit depth position : Nat}
    (allowed : depth ≤ limit) (within : position ≤ input.length) :
    valueAt limit depth position (input.drop position) =
      shiftedOutcome position depth
        (valueAt (limit - depth) 0 0 (input.drop position)) ∧
    (∀ offset bound,
      valueAt (limit - depth) 0 0 (input.drop position) =
        .error (.depthLimitExceeded offset bound) →
      bound = limit - depth) ∧
    (input.length ≤ Decimal.maxSigned → limit ≤ Decimal.maxWord →
      ∀ room, limit ≤ room → ∀ turns,
      (Decoder.mk input limit room).value turns position depth =
        ((Decoder.mk (input.drop position) (limit - depth)
          (room - depth)).value turns 0 0).shifted position depth ∧
      (3 * (input.length - position) < turns →
        (Decoder.mk input limit room).value turns position depth =
          ofOutcome (valueAt limit depth position (input.drop position)))) := by
  have alone : valueAt limit depth position (input.drop position) =
      shiftedOutcome position depth
        (valueAt (limit - depth) 0 0 (input.drop position)) := by
    have shifted := valueAt_shifted (Nat.zero_le (limit - depth)) position depth 0
      (input.drop position)
    rwa [Nat.add_sub_cancel' allowed, Nat.add_zero, Nat.add_zero] at shifted
  refine ⟨alone, fun offset bound => bound_eq_of_valueAt, ?_⟩
  intro short word room roomy turns
  have splits : (Decoder.mk input limit room).Splits position depth :=
    ⟨short, word, within, allowed, Nat.le_trans allowed roomy⟩
  have same := value_behind splits turns 0 0 within allowed
  refine ⟨same, fun enough => ?_⟩
  have stands : ((Decoder.mk input limit room).behind position depth).Stands 0 0 :=
    ⟨Nat.zero_le _, Nat.le_refl _, Nat.zero_le _⟩
  have roomyBehind : limit - depth ≤ room - depth := Nat.sub_le_sub_right roomy depth
  have turnsBehind : 3 * (input.drop position).length + 1 ≤ turns := by
    rw [List.length_drop]
    omega
  have read :=
    value_eq splits.short_behind (Nat.le_trans (Nat.min_le_left ..) roomyBehind)
    turns 0 0 stands turnsBehind
  rw [List.drop_zero] at read
  rw [alone, ← shifted_ofOutcome]
  exact same.trans (congrArg _ read)

/-- A list inside a dictionary, and in it a dictionary with a list.  Three levels are
allowed, of which two are left for what follows the mark of the outer dictionary and its
key. -/
theorem position_independent_nested :
    1 ≤ 3 ∧ 4 ≤ (Bytes.ofString "d1:ald1:bleeee").length ∧
    valueAt 2 0 0 (Bytes.ofString "ld1:bleeee") = .error (.depthLimitExceeded 5 2) ∧
    valueAt 3 1 4 (Bytes.ofString "ld1:bleeee") = .error (.depthLimitExceeded 9 3) ∧
    (Decoder.mk (Bytes.ofString "d1:ald1:bleeee") 3 3).value 31 4 1 =
      throw (.depthLimitExceeded 9 3) := by
  have outer :
      Enters 2 ⟨0, 0, Bytes.ofString "ld1:bleeee"⟩ ⟨1, 1, Bytes.ofString "d1:bleeee"⟩ :=
    @Enters.item 2 0 0 [] Mark.dictionary (Bytes.ofString "1:bleeee")
      (readable_list_iff.2 ⟨by decide, by simp⟩) (by decide)
  have inner :
      Enters 2 ⟨1, 1, Bytes.ofString "d1:bleeee"⟩ ⟨2, 5, Bytes.ofString "leeee"⟩ :=
    @Enters.entry 2 1 1 [] (Bytes.ofString "b") Mark.list (Bytes.ofString "eeee")
      (readable_dictionary_iff.2 ⟨by decide, by simp [Entries.keys], by simp⟩)
      (by decide)
  have raises : Raises 2 ⟨2, 5, Bytes.ofString "leeee"⟩ (.depthLimitExceeded 5 2) :=
    .tooDeep (.inl rfl) (Nat.le_refl _)
  have alone : valueAt 2 0 0 (Bytes.ofString "ld1:bleeee") =
      .error (.depthLimitExceeded 5 2) :=
    valueAt_eq_error_iff.2 ⟨_, .tail (.single outer) inner, raises⟩
  have within : 4 ≤ (Bytes.ofString "d1:ald1:bleeee").length := by decide
  obtain ⟨shifted, -, inPlace⟩ := @position_independent _ 3 1 4 (by decide) within
  have behind : (Bytes.ofString "d1:ald1:bleeee").drop 4 =
      Bytes.ofString "ld1:bleeee" := by decide
  rw [behind] at shifted inPlace
  rw [alone] at shifted
  refine ⟨by decide, within, alone, shifted, ?_⟩
  rw [((inPlace (by decide) (by decide) 3 (Nat.le_refl _)) 31).2 (by decide), shifted]
  rfl

end Decoder

end Metainfo.Bencode
