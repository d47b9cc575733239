import Metainfo.Bencode.InPlace
import Metainfo.Proofs.Bencode.Failure
import Metainfo.Proofs.Bencode.Sequences

/-!
# Decoding is safe

Decoding in place does what the readers of `Decode` do.  Main statement: on every input
shorter than 2^63 octets it comes to an end without a fault, with the outcome of
decoding, and it needs no more room than the limit of depth and the length of the input
allow; every reader that succeeds takes at least two octets and stays inside the input.
-/

namespace Metainfo.Bencode.Decoder

open Run

variable {decoder : Decoder} {bytes rest : Bytes} {byte : UInt8} {position depth : Nat}

/-! ## Runs without a fault -/

namespace Run

variable {Result Other : Type}

/-- What is decoded is the end of the reader's run. -/
def ended (outcome : Except DecodeError Result) : Run Result :=
  Except.ok outcome

/-- The reader comes to an end with what was found and the position behind it. -/
def ofOutcome : Except DecodeError (Found Result) → Run (Nat × Result)
  | .error error => throw error
  | .ok found => pure (found.next, found.result)

theorem ofOutcome_map (convert : Result → Other)
    (outcome : Except DecodeError (Found Result)) :
    (do let found ← ofOutcome outcome; pure (found.1, convert found.2)) =
      ofOutcome (outcome.map (Found.map convert)) := by
  cases outcome with
  | error error => rfl
  | ok found => rfl

end Run

/-! ## Steps without a fault -/

theorem octet_eq (here : bytes.drop position = byte :: rest) :
    octet bytes position = pure byte := by
  have found : bytes[position]? = some byte := by
    rw [← List.head?_drop, here, List.head?_cons]
  rw [octet, found]

theorem slice_eq {first last : Nat} {middle back : Bytes}
    (here : bytes.drop first = middle ++ back) (within : first ≤ bytes.length)
    (ends : last = first + middle.length) : slice bytes first last = pure middle := by
  have length := congrArg List.length here
  rw [List.length_drop, List.length_append] at length
  rw [slice, if_pos ⟨by omega, by omega⟩, here, ends, Nat.add_sub_cancel_left,
    List.take_left]

theorem slice_to_end {first : Nat} (within : first ≤ bytes.length) :
    slice bytes first bytes.length = pure (bytes.drop first) := by
  apply slice_eq (List.append_nil _).symm within
  rw [List.length_drop]
  omega

theorem add_eq {left right : Nat} (fits : left + right ≤ Decimal.maxWord) :
    add left right = pure (left + right) :=
  if_pos fits

theorem subtract_eq {left right : Nat} (le : right ≤ left) :
    subtract left right = pure (left - right) :=
  if_pos le

/-- The search stops at the first octet that passes the test. -/
theorem findIdx?_stopped {test : UInt8 → Bool} {front : Bytes}
    (before : ∀ byte ∈ front, test byte = false) (stop : test byte = true) :
    (front ++ byte :: rest).findIdx? test = some front.length := by
  induction front with
  | nil => simp [List.findIdx?_cons, stop]
  | cons first front ih =>
    rw [List.forall_mem_cons] at before
    rw [List.cons_append, List.findIdx?_cons, before.1, ih before.2]
    rfl

theorem findIdx?_endless {test : UInt8 → Bool}
    (fails : ∀ byte ∈ bytes, test byte = false) : bytes.findIdx? test = none := by
  rwa [List.findIdx?_eq_none_iff]

/-- An input that is shorter than 2^63 octets. -/
def Short (decoder : Decoder) : Prop :=
  decoder.input.length ≤ Decimal.maxSigned

theorem Short.fits (short : decoder.Short) {number : Nat}
    (le : number ≤ decoder.input.length + 1) : number ≤ Decimal.maxWord := by
  have : Decimal.maxSigned + 1 ≤ Decimal.maxWord := by decide
  have : decoder.input.length ≤ Decimal.maxSigned := short
  omega

theorem drop_add_length {front back : Bytes}
    (here : bytes.drop position = front ++ back) :
    bytes.drop (position + front.length) = back := by
  rw [← List.drop_drop, here, List.drop_left]

theorem add_length_le {front back : Bytes} (here : bytes.drop position = front ++ back)
    (within : position ≤ bytes.length) : position + front.length ≤ bytes.length := by
  have length := congrArg List.length here
  rw [List.length_drop, List.length_append] at length
  omega

theorem not_lt_length_of_drop_eq_nil (here : bytes.drop position = []) :
    ¬position < bytes.length := by
  rw [List.drop_eq_nil_iff] at here
  exact Nat.not_lt.2 here

/-! ## Integers and byte strings -/

/-- An integer is read in place as it is found. -/
theorem integer_eq (short : decoder.Short)
    (here : decoder.input.drop position = Mark.integer :: rest) :
    decoder.integer position =
      ofOutcome ((integerAt position rest).map (Found.map .integer)) := by
  have inside := lt_length_of_drop_eq_cons here
  have body : decoder.input.drop (position + 1) = rest :=
    @drop_add_length _ _ [Mark.integer] _ here
  rw [integer, add_eq (short.fits (by omega)), pure_bind, slice_to_end inside,
    pure_bind, body]
  by_cases closed : Mark.finish ∈ rest
  · obtain ⟨text, after, rfl, first⟩ := List.eq_append_cons_of_mem closed
    have before : ∀ byte ∈ text, (byte == Mark.finish) = false := by
      intro byte member
      simpa using ne_of_mem_of_not_mem member first
    have behind := add_length_le body inside
    rw [integerAt_terminated first, findIdx?_stopped before (by simp)]
    simp only
    rw [add_eq (short.fits (by omega)), pure_bind, slice_eq body inside rfl, pure_bind]
    cases Integer.ofText? text with
    | none => rfl
    | some number =>
      have last : position + 1 + text.length + 1 = position + text.length + 2 := by
        omega
      simp only
      rw [add_eq (short.fits (by omega)), pure_bind, last]
      rfl
  · have endless : ∀ byte ∈ rest, (byte == Mark.finish) = false := by
      intro byte member
      simpa using ne_of_mem_of_not_mem member closed
    rw [integerAt_unterminated closed, findIdx?_endless endless]
    rfl

/-- Where there are digits only, all are counted. -/
theorem countDigits_endless (within : position ≤ decoder.input.length)
    (all : ∀ digit ∈ decoder.input.drop position, Decimal.isDigit digit = true) :
    decoder.countDigits position = pure (decoder.input.length - position) := by
  have endless : ∀ digit ∈ decoder.input.drop position,
      (!Decimal.isDigit digit) = false := by
    simpa using all
  rw [countDigits, slice_to_end within, pure_bind, subtract_eq within, pure_bind,
    findIdx?_endless endless, Option.getD_none]

/-- The digits are counted up to an octet that is none. -/
theorem countDigits_stopped {digits : Bytes} (within : position ≤ decoder.input.length)
    (here : decoder.input.drop position = digits ++ byte :: rest)
    (all : ∀ digit ∈ digits, Decimal.isDigit digit = true)
    (stop : Decimal.isDigit byte = false) :
    decoder.countDigits position = pure digits.length := by
  have before : ∀ digit ∈ digits, (!Decimal.isDigit digit) = false := by
    simpa using all
  rw [countDigits, slice_to_end within, pure_bind, subtract_eq within, pure_bind, here,
    findIdx?_stopped before (by simp [stop]), Option.getD_some]

theorem leading_eq (digits : Bytes) :
    leading digits = pure (if digits.length > 1 then digits.head? else none) := by
  rw [leading]
  split
  · cases digits with
    | nil => contradiction
    | cons digit digits => rfl
  · rfl

/-- A length is read in place as it is found. -/
theorem length_eq (short : decoder.Short) (within : position ≤ decoder.input.length) :
    decoder.length position =
      ofOutcome (lengthAt position (decoder.input.drop position)) := by
  rcases digits_or_stop (decoder.input.drop position) with
    all | ⟨digits, byte, rest, here, all, stop⟩
  · have colon : position + (decoder.input.length - position) =
        decoder.input.length := by omega
    have absent : decoder.input[decoder.input.length]? = none :=
      List.getElem?_eq_none (Nat.le_refl _)
    rw [lengthAt_unterminated all, length, countDigits_endless within all, pure_bind,
      add_eq (short.fits (by omega)), pure_bind, colon, absent]
    rfl
  · have behind := drop_add_length here
    have inside := lt_length_of_drop_eq_cons behind
    have found : decoder.input[position + digits.length]? = some byte := by
      rw [← List.head?_drop, behind, List.head?_cons]
    rw [here, lengthAt_stopped all stop, length,
      countDigits_stopped within here all stop, pure_bind,
      add_eq (short.fits (by omega)), pure_bind, found]
    simp only
    by_cases colon : byte = Mark.colon
    · rw [if_neg (not_not.2 colon), if_neg (not_not.2 colon), slice_eq here within rfl,
        pure_bind, leading_eq, pure_bind]
      by_cases zero : digits.length > 1 ∧ digits.head? = some 0x30
      · rw [if_pos zero.1, if_pos zero.2, if_pos zero]
        rfl
      · have plain :
            ¬(if digits.length > 1 then digits.head? else none) = some 0x30 := by
          intro first
          split at first
          · exact zero ⟨‹_›, first⟩
          · cases first
        rw [if_neg plain, if_neg zero]
        cases Decimal.readWithin Decimal.maxWord digits with
        | none => rfl
        | some length =>
          simp only
          rw [add_eq (short.fits (by omega)), pure_bind]
          rfl
    · rw [if_pos colon, if_pos colon]
      rfl

/-- What was found from a position on takes at least two octets and lies inside the
input. -/
structure Advances {Result : Type} (bytes : Bytes) (position : Nat)
    (found : Found Result) : Prop where
  two_le : position + 2 ≤ found.next
  le_length : found.next ≤ bytes.length
  drop_next : bytes.drop found.next = found.rest

theorem Advances.of_text {Result : Type} {found : Found Result} {text : Bytes}
    (within : position ≤ bytes.length) (here : bytes.drop position = text ++ found.rest)
    (next : found.next = position + text.length) (two : 2 ≤ text.length) :
    Advances bytes position found := by
  constructor
  · omega
  · rw [next]
    exact add_length_le here within
  · rw [next]
    exact drop_add_length here

theorem advances_of_lengthAt {length : Found Nat} (within : position ≤ bytes.length)
    (read : lengthAt position (bytes.drop position) = .ok length) :
    Advances bytes position length := by
  obtain ⟨here, next, -⟩ := lengthAt_eq_ok_iff.1 read
  have digits := List.length_pos_iff.2 (Decimal.ofNat_ne_nil length.result)
  have text : bytes.drop position =
      (Decimal.ofNat length.result ++ [Mark.colon]) ++ length.rest := by
    rw [here, List.append_assoc, List.singleton_append]
  apply Advances.of_text within text
  · rw [next, List.length_append, List.length_singleton, Nat.add_assoc]
  · rw [List.length_append, List.length_singleton]
    omega

theorem advances_of_stringAt {string : Found Bytes} (within : position ≤ bytes.length)
    (read : stringAt position (bytes.drop position) = .ok string) :
    Advances bytes position string := by
  obtain ⟨here, next, -⟩ := stringAt_eq_ok_iff.1 read
  have two := two_le_length_encode (.byteString string.result)
  rw [Value.encode_byteString] at two
  exact .of_text within here next two

theorem advances_of_valueAt {limit : Nat} {value : Found Value}
    (shallow : depth ≤ limit) (within : position ≤ bytes.length)
    (read : valueAt limit depth position (bytes.drop position) = .ok value) :
    Advances bytes position value := by
  obtain ⟨written, -, here, -, next⟩ := (valueAt_eq_ok_iff shallow).1 read
  exact .of_text within here next (two_le_length_encode written)

/-- A byte string is read in place as it is found. -/
theorem string_eq (short : decoder.Short) (within : position ≤ decoder.input.length) :
    decoder.string position =
      ofOutcome (stringAt position (decoder.input.drop position)) := by
  rw [string, length_eq short within, stringAt_eq]
  cases read : lengthAt position (decoder.input.drop position) with
  | error error => rfl
  | ok length =>
    have advances := advances_of_lengthAt within read
    have behind : length.rest.length = decoder.input.length - length.next := by
      rw [← advances.drop_next, List.length_drop]
    have inside := advances.le_length
    simp only [ofOutcome, pure_bind]
    rw [subtract_eq inside, pure_bind, List.length_take]
    by_cases enough : length.result ≤ length.rest.length
    · have taken : (length.rest.take length.result).length = length.result := by
        rw [List.length_take, Nat.min_eq_left enough]
      have split : decoder.input.drop length.next =
          length.rest.take length.result ++ length.rest.drop length.result := by
        rw [advances.drop_next, List.take_append_drop]
      rw [if_neg (by omega), if_pos (Nat.min_eq_left enough),
        add_eq (short.fits (by omega)), pure_bind,
        slice_eq split inside (by rw [taken]), pure_bind]
    · rw [if_pos (by omega), if_neg (by omega), Nat.min_eq_right (by omega), behind]

/-! ## Values -/

/-- Where a reader may stand: inside the input or at its end, and inside so many lists
and dictionaries as the limit allows.  Each of these has taken an octet, so that there
are no more than octets before the position. -/
structure Stands (decoder : Decoder) (position depth : Nat) : Prop where
  within : position ≤ decoder.input.length
  depth_le : depth ≤ position
  allowed : depth ≤ decoder.limit

namespace Stands

theorem not_gt_room (stands : decoder.Stands position depth)
    (room : min decoder.limit decoder.input.length ≤ decoder.room) :
    ¬depth > decoder.room := by
  obtain ⟨within, depth_le, allowed⟩ := stands
  omega

/-- Behind the mark of a list or a dictionary a reader stands inside one more. -/
theorem enter (stands : decoder.Stands position depth)
    (inside : position < decoder.input.length) (shallow : ¬depth ≥ decoder.limit) :
    decoder.Stands (position + 1) (depth + 1) :=
  ⟨inside, Nat.succ_le_succ stands.depth_le, Nat.lt_of_not_le shallow⟩

/-- Behind what was found a reader stands inside as many. -/
theorem advance {Result : Type} {found : Found Result}
    (stands : decoder.Stands position depth)
    (advances : Advances decoder.input position found) :
    decoder.Stands found.next depth := by
  obtain ⟨two_le, le_length, -⟩ := advances
  have depth_le := stands.depth_le
  exact ⟨le_length, by omega, stands.allowed⟩

/-- The depth of what lies in a list or a dictionary is a word. -/
theorem add_eq (stands : decoder.Stands position (depth + 1)) (short : decoder.Short) :
    add depth 1 = pure (depth + 1) := by
  obtain ⟨within, depth_le, -⟩ := stands
  exact Decoder.add_eq (short.fits (by omega))

end Stands

mutual

/-- A value is read in place as it is found, if there is room for what lies around it
and there are three turns for every octet: one for a value, one for its opening mark and
one among its items or entries. -/
theorem value_eq (short : decoder.Short)
    (room : min decoder.limit decoder.input.length ≤ decoder.room) :
    (turns position depth : Nat) → decoder.Stands position depth →
    3 * (decoder.input.length - position) < turns →
    decoder.value turns position depth =
      ofOutcome (valueAt decoder.limit depth position (decoder.input.drop position))
  | turns + 1, position, depth, stands, enough => by
      rw [value, if_neg (stands.not_gt_room room), ← List.head?_drop]
      cases here : decoder.input.drop position with
      | nil =>
        rw [valueAt_nil]
        rfl
      | cons byte rest =>
        have inside := lt_length_of_drop_eq_cons here
        simp only [List.head?_cons]
        by_cases isInteger : byte = Mark.integer
        · subst isInteger
          rw [if_pos rfl, integer_eq short here, valueAt_integer]
        rw [if_neg isInteger]
        by_cases isList : byte = Mark.list
        · subst isList
          rw [if_pos rfl,
            list_eq short room turns position depth stands here (by omega)]
        rw [if_neg isList]
        by_cases isDictionary : byte = Mark.dictionary
        · subst isDictionary
          rw [if_pos rfl,
            dictionary_eq short room turns position depth stands here (by omega)]
        rw [if_neg isDictionary]
        by_cases isDigit : Decimal.isDigit byte = true
        · rw [if_pos isDigit, string_eq short stands.within, here,
            valueAt_string isDigit]
          exact ofOutcome_map Value.byteString _
        rw [if_neg isDigit,
          valueAt_unknown isInteger isList isDictionary (by simpa using isDigit)]
        rfl

/-- A list is read in place as it is found. -/
theorem list_eq (short : decoder.Short)
    (room : min decoder.limit decoder.input.length ≤ decoder.room) :
    (turns position depth : Nat) → {rest : Bytes} → decoder.Stands position depth →
    decoder.input.drop position = Mark.list :: rest →
    3 * (decoder.input.length - position) ≤ turns →
    decoder.list turns position depth =
      ofOutcome (valueAt decoder.limit depth position (Mark.list :: rest))
  | 0, position, depth, rest, stands, here, enough => by
      have inside := lt_length_of_drop_eq_cons here
      omega
  | turns + 1, position, depth, rest, stands, here, enough => by
      have inside := lt_length_of_drop_eq_cons here
      have behind : decoder.input.drop (position + 1) = rest :=
        @drop_add_length _ _ [Mark.list] _ here
      rw [list, valueAt_list]
      split
      · rfl
      · next shallow =>
        rw [add_eq (short.fits (by omega)), pure_bind, ← behind]
        exact items_eq short room turns position depth (position + 1) []
          (stands.enter inside shallow) (by omega)

/-- Items are read in place as they are found. -/
theorem items_eq (short : decoder.Short)
    (room : min decoder.limit decoder.input.length ≤ decoder.room) :
    (turns start depth position : Nat) → (done : List Value) →
    decoder.Stands position (depth + 1) →
    3 * (decoder.input.length - position) + 1 < turns →
    decoder.items turns start depth position done =
      ofOutcome
        (itemsAt decoder.limit depth start position (decoder.input.drop position) done)
  | turns + 1, start, depth, position, done, stands, enough => by
      rw [items]
      cases here : decoder.input.drop position with
      | nil =>
        rw [if_neg (not_lt_length_of_drop_eq_nil here), itemsAt_nil]
        rfl
      | cons byte rest =>
        have inside := lt_length_of_drop_eq_cons here
        rw [if_pos inside, octet_eq here, pure_bind]
        by_cases finish : byte = Mark.finish
        · subst finish
          rw [if_neg (not_not.2 rfl), itemsAt_finish, add_eq (short.fits (by omega)),
            pure_bind]
          rfl
        -- An item stands here; what follows it is read with the item put aside.
        rw [if_pos finish, itemsAt_cons finish, stands.add_eq short, pure_bind,
          value_eq short room turns position (depth + 1) stands (by omega), ← here]
        cases read :
          valueAt decoder.limit (depth + 1) position (decoder.input.drop position) with
        | error error => rfl
        | ok item =>
          have advances := advances_of_valueAt stands.allowed stands.within read
          have two := advances.two_le
          have within := advances.le_length
          simp only [ofOutcome, pure_bind]
          rw [← advances.drop_next]
          exact items_eq short room turns start depth item.next (item.result :: done)
            (stands.advance advances) (by omega)

/-- A dictionary is read in place as it is found. -/
theorem dictionary_eq (short : decoder.Short)
    (room : min decoder.limit decoder.input.length ≤ decoder.room) :
    (turns position depth : Nat) → {rest : Bytes} → decoder.Stands position depth →
    decoder.input.drop position = Mark.dictionary :: rest →
    3 * (decoder.input.length - position) ≤ turns →
    decoder.dictionary turns position depth =
      ofOutcome (valueAt decoder.limit depth position (Mark.dictionary :: rest))
  | 0, position, depth, rest, stands, here, enough => by
      have inside := lt_length_of_drop_eq_cons here
      omega
  | turns + 1, position, depth, rest, stands, here, enough => by
      have inside := lt_length_of_drop_eq_cons here
      have behind : decoder.input.drop (position + 1) = rest :=
        @drop_add_length _ _ [Mark.dictionary] _ here
      rw [dictionary, valueAt_dictionary]
      split
      · rfl
      · next shallow =>
        rw [add_eq (short.fits (by omega)), pure_bind, ← behind]
        exact entries_eq short room turns position depth (position + 1) []
          (stands.enter inside shallow) (by omega)

/-- Entries are read in place as they are found. -/
theorem entries_eq (short : decoder.Short)
    (room : min decoder.limit decoder.input.length ≤ decoder.room) :
    (turns start depth position : Nat) → (done : List (Bytes × Value)) →
    decoder.Stands position (depth + 1) →
    3 * (decoder.input.length - position) + 1 < turns →
    decoder.entries turns start depth position done =
      ofOutcome
        (entriesAt decoder.limit depth start position
          (decoder.input.drop position) done)
  | turns + 1, start, depth, position, done, stands, enough => by
      rw [entries]
      cases here : decoder.input.drop position with
      | nil =>
        rw [if_neg (not_lt_length_of_drop_eq_nil here), entriesAt_nil]
        rfl
      | cons byte rest =>
        have inside := lt_length_of_drop_eq_cons here
        rw [if_pos inside, octet_eq here, pure_bind]
        by_cases finish : byte = Mark.finish
        · subst finish
          rw [if_neg (not_not.2 rfl), entriesAt_finish, add_eq (short.fits (by omega)),
            pure_bind]
          rfl
        rw [if_pos finish]
        by_cases noDigit : Decimal.isDigit byte = false
        · rw [if_pos noDigit, entriesAt_nonString finish noDigit]
          rfl
        -- An entry stands here: a key, then a value in what the key has left.
        rw [if_neg noDigit, entriesAt_cons (by simpa using noDigit),
          string_eq short stands.within, ← here]
        cases readKey : stringAt position (decoder.input.drop position) with
        | error error => rfl
        | ok key =>
          have keyAdvances := advances_of_stringAt stands.within readKey
          have keyTwo := keyAdvances.two_le
          have keyStands := stands.advance keyAdvances
          have behind := keyAdvances.drop_next
          simp only [ofOutcome, pure_bind]
          by_cases empty : key.rest = []
          · have ended : key.next ≥ decoder.input.length := by
              rwa [empty, List.drop_eq_nil_iff] at behind
            rw [if_pos empty, if_pos ended]
          have before : ¬key.next ≥ decoder.input.length := by
            rw [← behind, List.drop_eq_nil_iff] at empty
            exact empty
          rw [if_neg empty, if_neg before, stands.add_eq short, pure_bind, ← behind,
            value_eq short room turns key.next (depth + 1) keyStands (by omega)]
          cases read :
            valueAt decoder.limit (depth + 1) key.next (decoder.input.drop key.next)
              with
          | error error => rfl
          | ok value =>
            have advances := advances_of_valueAt keyStands.allowed keyStands.within read
            have two := advances.two_le
            have within := advances.le_length
            simp only [ofOutcome, pure_bind]
            split
            · rfl
            · rw [← advances.drop_next]
              exact entries_eq short room turns start depth value.next
                (Entries.insert key.result value.result done)
                (keyStands.advance advances)
                (by omega)

end

/-! ## Where readers end -/

/-- The stretch between two positions holds at least two octets and lies inside the
input. -/
structure Stretch (decoder : Decoder) (position next : Nat) : Prop where
  two_le : position + 2 ≤ next
  le_length : next ≤ decoder.input.length

theorem add_eq_pure {left right sum : Nat} (added : add left right = pure sum) :
    sum = left + right := by
  rw [add] at added
  split at added
  · exact (pure_inj added).symm
  · exact absurd added stop_ne_pure

theorem slice_eq_pure {first last : Nat} {part : Bytes}
    (cut : slice bytes first last = pure part) :
    first ≤ last ∧ last ≤ bytes.length ∧
    part = (bytes.drop first).take (last - first) := by
  rw [slice] at cut
  split at cut
  · next within => exact ⟨within.1, within.2, (pure_inj cut).symm⟩
  · exact absurd cut stop_ne_pure

theorem lt_length_of_getElem? (found : bytes[position]? = some byte) :
    position < bytes.length := by
  obtain ⟨within, -⟩ := List.getElem?_eq_some_iff.1 found
  exact within

theorem stretch_of_integer {next : Nat} {value : Value}
    (read : decoder.integer position = pure (next, value)) :
    decoder.Stretch position next := by
  rw [integer] at read
  obtain ⟨body, isBody, read⟩ := bind_eq_pure read
  obtain ⟨behind, isBehind, read⟩ := bind_eq_pure read
  have isBody := add_eq_pure isBody
  obtain ⟨-, -, isBehind⟩ := slice_eq_pure isBehind
  split at read
  · exact absurd read throw_ne_pure
  · next count isCount =>
    obtain ⟨finish, isFinish, read⟩ := bind_eq_pure read
    obtain ⟨text, isText, read⟩ := bind_eq_pure read
    have isFinish := add_eq_pure isFinish
    have inside : count < behind.length :=
      (List.findIdx?_eq_some_iff_getElem.1 isCount).1
    have length := congrArg List.length isBehind
    rw [List.length_take, List.length_drop] at length
    split at read
    · exact absurd read throw_ne_pure
    · obtain ⟨last, isLast, read⟩ := bind_eq_pure read
      have isLast := add_eq_pure isLast
      have isNext : last = next := congrArg Prod.fst (pure_inj read)
      constructor <;> omega

theorem stretch_of_length {next length : Nat}
    (read : decoder.length position = pure (next, length)) :
    decoder.Stretch position next := by
  rw [Decoder.length] at read
  obtain ⟨count, -, read⟩ := bind_eq_pure read
  obtain ⟨colon, isColon, read⟩ := bind_eq_pure read
  have isColon := add_eq_pure isColon
  split at read
  · exact absurd read throw_ne_pure
  · next byte found =>
    have inside := lt_length_of_getElem? found
    split at read
    · exact absurd read throw_ne_pure
    · obtain ⟨digits, isDigits, read⟩ := bind_eq_pure read
      obtain ⟨first, -, read⟩ := bind_eq_pure read
      obtain ⟨-, -, isDigits⟩ := slice_eq_pure isDigits
      split at read
      · exact absurd read throw_ne_pure
      · split at read
        · exact absurd read throw_ne_pure
        · next number isNumber =>
          obtain ⟨last, isLast, read⟩ := bind_eq_pure read
          have isLast := add_eq_pure isLast
          have isNext : last = next := congrArg Prod.fst (pure_inj read)
          have nonempty : digits ≠ [] := by
            rintro rfl
            rw [Decimal.readWithin, if_pos rfl] at isNumber
            cases isNumber
          have length := congrArg List.length isDigits
          have positive := List.length_pos_iff.2 nonempty
          rw [List.length_take, List.length_drop] at length
          constructor <;> omega

theorem stretch_of_string {next : Nat} {string : Bytes}
    (read : decoder.string position = pure (next, string)) :
    decoder.Stretch position next := by
  rw [Decoder.string] at read
  obtain ⟨⟨first, length⟩, isLength, read⟩ := bind_eq_pure read
  obtain ⟨two, -⟩ := stretch_of_length isLength
  obtain ⟨available, -, read⟩ := bind_eq_pure read
  split at read
  · exact absurd read throw_ne_pure
  · obtain ⟨last, isLast, read⟩ := bind_eq_pure read
    obtain ⟨bytes, isBytes, read⟩ := bind_eq_pure read
    have isLast := add_eq_pure isLast
    obtain ⟨-, inside, -⟩ := slice_eq_pure isBytes
    have isNext : last = next := congrArg Prod.fst (pure_inj read)
    constructor <;> omega

mutual

theorem stretch_of_value :
    (turns position depth : Nat) → {next : Nat} → {result : Value} →
    decoder.value turns position depth = pure (next, result) →
    decoder.Stretch position next
  | 0, _, _, _, _, read => by
      rw [value] at read
      exact absurd read stop_ne_pure
  | turns + 1, position, depth, next, result, read => by
      rw [value] at read
      split at read
      · exact absurd read stop_ne_pure
      split at read
      · exact absurd read throw_ne_pure
      split at read
      · exact stretch_of_integer read
      split at read
      · exact stretch_of_list turns position depth read
      split at read
      · exact stretch_of_dictionary turns position depth read
      split at read
      · obtain ⟨⟨last, bytes⟩, isString, read⟩ := bind_eq_pure read
        have isNext : last = next := congrArg Prod.fst (pure_inj read)
        exact isNext ▸ stretch_of_string isString
      · exact absurd read throw_ne_pure

theorem stretch_of_list :
    (turns position depth : Nat) → {next : Nat} → {result : Value} →
    decoder.list turns position depth = pure (next, result) →
    decoder.Stretch position next
  | 0, _, _, _, _, read => by
      rw [list] at read
      exact absurd read stop_ne_pure
  | turns + 1, position, depth, next, result, read => by
      rw [list] at read
      split at read
      · exact absurd read throw_ne_pure
      · obtain ⟨first, isFirst, read⟩ := bind_eq_pure read
        have behind : position < first :=
          add_eq_pure isFirst ▸ Nat.lt_succ_self position
        exact stretch_of_items turns position depth first [] behind read

/-- A list ends behind its items. -/
theorem stretch_of_items : (turns start depth position : Nat) → (done : List Value) →
    {next : Nat} → {result : Value} → start < position →
    decoder.items turns start depth position done = pure (next, result) →
    decoder.Stretch start next
  | 0, _, _, _, _, _, _, _, read => by
      rw [items] at read
      exact absurd read stop_ne_pure
  | turns + 1, start, depth, position, done, next, result, behind, read => by
      rw [items] at read
      split at read
      · next inside =>
        obtain ⟨byte, -, read⟩ := bind_eq_pure read
        split at read
        · obtain ⟨deeper, -, read⟩ := bind_eq_pure read
          obtain ⟨⟨following, item⟩, isItem, read⟩ := bind_eq_pure read
          obtain ⟨two, -⟩ := stretch_of_value turns position deeper isItem
          exact stretch_of_items turns start depth following (item :: done)
            (by omega) read
        · obtain ⟨last, isLast, read⟩ := bind_eq_pure read
          have isLast := add_eq_pure isLast
          have isNext : last = next := congrArg Prod.fst (pure_inj read)
          constructor <;> omega
      · exact absurd read throw_ne_pure

theorem stretch_of_dictionary :
    (turns position depth : Nat) → {next : Nat} → {result : Value} →
    decoder.dictionary turns position depth = pure (next, result) →
    decoder.Stretch position next
  | 0, _, _, _, _, read => by
      rw [dictionary] at read
      exact absurd read stop_ne_pure
  | turns + 1, position, depth, next, result, read => by
      rw [dictionary] at read
      split at read
      · exact absurd read throw_ne_pure
      · obtain ⟨first, isFirst, read⟩ := bind_eq_pure read
        have behind : position < first :=
          add_eq_pure isFirst ▸ Nat.lt_succ_self position
        exact stretch_of_entries turns position depth first [] behind read

/-- A dictionary ends behind its entries. -/
theorem stretch_of_entries : (turns start depth position : Nat) →
    (done : List (Bytes × Value)) → {next : Nat} → {result : Value} → start < position →
    decoder.entries turns start depth position done = pure (next, result) →
    decoder.Stretch start next
  | 0, _, _, _, _, _, _, _, read => by
      rw [entries] at read
      exact absurd read stop_ne_pure
  | turns + 1, start, depth, position, done, next, result, behind, read => by
      rw [entries] at read
      split at read
      · next inside =>
        obtain ⟨byte, -, read⟩ := bind_eq_pure read
        split at read
        · split at read
          · exact absurd read throw_ne_pure
          obtain ⟨⟨middle, key⟩, isKey, read⟩ := bind_eq_pure read
          obtain ⟨two, -⟩ := stretch_of_string isKey
          dsimp only at read
          split at read
          · exact absurd read throw_ne_pure
          obtain ⟨deeper, -, read⟩ := bind_eq_pure read
          obtain ⟨⟨following, value⟩, isValue, read⟩ := bind_eq_pure read
          obtain ⟨more, -⟩ := stretch_of_value turns middle deeper isValue
          split at read
          · exact absurd read throw_ne_pure
          · exact stretch_of_entries turns start depth following
              (Entries.insert key value done)
              (by omega) read
        · obtain ⟨last, isLast, read⟩ := bind_eq_pure read
          have isLast := add_eq_pure isLast
          have isNext : last = next := congrArg Prod.fst (pure_inj read)
          constructor <;> omega
      · exact absurd read throw_ne_pure

end

/-! ## Whole inputs -/

theorem value_eq_ended {input : Bytes} {turns : Nat}
    (short : input.length ≤ Decimal.maxSigned) (limit : Nat)
    (enough : 3 * input.length < turns) :
    (Decoder.mk input limit (min limit input.length)).value turns 0 0 =
      ended (decodePrefix limit input) := by
  have read :=
    @value_eq ⟨input, limit, min limit input.length⟩ short (Nat.le_refl _) turns 0 0
    ⟨Nat.zero_le _, Nat.le_refl _, Nat.zero_le _⟩ enough
  rw [read, decodePrefix_eq, List.drop_zero]
  cases valueAt limit 0 0 input with
  | error error => rfl
  | ok found => rfl

theorem whole_eq_ended {input : Bytes} {turns : Nat}
    (short : input.length ≤ Decimal.maxSigned) (limit : Nat)
    (enough : 3 * input.length < turns) :
    (Decoder.mk input limit (min limit input.length)).whole turns =
      ended (decode limit input) := by
  rw [whole, value_eq_ended short limit enough, decodePrefix_eq, decode_eq]
  cases read : valueAt limit 0 0 input with
  | error error => rfl
  | ok found =>
    have advances : Advances input 0 found :=
      @advances_of_valueAt input 0 0 limit found (Nat.zero_le _) (Nat.zero_le _) read
    have inside := advances.le_length
    have behind := advances.drop_next
    have length := congrArg List.length behind
    rw [List.length_drop] at length
    have finished : ended (.ok (found.next, found.result)) =
        pure (found.next, found.result) := rfl
    rw [Except.map, finished, pure_bind]
    dsimp only
    by_cases empty : found.rest = []
    · have last : ¬found.next ≠ input.length := by
        rw [empty, List.length_nil] at length
        omega
      rw [if_neg last]
      simp only [if_pos empty]
      rfl
    · have last : found.next ≠ input.length := by
        have positive := List.length_pos_iff.2 empty
        omega
      rw [if_pos last, subtract_eq inside, pure_bind, length]
      simp only [if_neg empty]
      rfl

/-- Decoding a short input in place comes to an end without a fault, whether or not the
value is to be alone, and there the outcome is that of decoding; three turns for every
octet and one more are enough, and room for as many values around each other as the
limit and the length allow.  Whatever a reader finds at a position takes at least two
octets and lies inside the input. -/
theorem decode_in_place {input : Bytes} (short : input.length ≤ Decimal.maxSigned)
    (limit : Nat) :
    let decoder : Decoder := ⟨input, limit, min limit input.length⟩
    ∀ turns,
      (3 * input.length < turns →
        decoder.value turns 0 0 = ended (decodePrefix limit input) ∧
        decoder.whole turns = ended (decode limit input)) ∧
      ∀ position next,
        (∀ number, decoder.integer position = pure (next, number) →
          decoder.Stretch position next) ∧
        (∀ length, decoder.length position = pure (next, length) →
          decoder.Stretch position next) ∧
        (∀ string, decoder.string position = pure (next, string) →
          decoder.Stretch position next) ∧
        ∀ depth result,
          (decoder.value turns position depth = pure (next, result) →
            decoder.Stretch position next) ∧
          (decoder.list turns position depth = pure (next, result) →
            decoder.Stretch position next) ∧
          (decoder.dictionary turns position depth = pure (next, result) →
            decoder.Stretch position next) := by
  intro decoder turns
  constructor
  · intro enough
    exact ⟨value_eq_ended short limit enough, whole_eq_ended short limit enough⟩
  · intro position next
    refine ⟨fun _ => stretch_of_integer, fun _ => stretch_of_length,
      fun _ => stretch_of_string, ?_⟩
    intro depth result
    exact ⟨stretch_of_value turns position depth, stretch_of_list turns position depth,
      stretch_of_dictionary turns position depth⟩

/-- The list holds a byte string that declares the greatest length of all, with two
octets to follow. -/
theorem decode_in_place_longest :
    (Bytes.ofString "l18446744073709551615:ae").length ≤ Decimal.maxSigned ∧
    (Decoder.mk (Bytes.ofString "l18446744073709551615:ae") 1 1).whole 100 =
      ended (.error (.truncatedString 1 Decimal.maxWord 2)) := by
  have short : (Bytes.ofString "l18446744073709551615:ae").length ≤
      Decimal.maxSigned := by decide
  have empty : (Value.list []).Readable 1 0 :=
    Value.readable_list_iff.2 ⟨by decide, by simp⟩
  have enters : Enters 1 ⟨0, 0, Bytes.ofString "l18446744073709551615:ae"⟩
      ⟨1, 1, Bytes.ofString "18446744073709551615:ae"⟩ :=
    @Enters.item 1 0 0 [] 0x31 (Bytes.ofString "8446744073709551615:ae") empty
      (by decide)
  have length : lengthAt 1 (Bytes.ofString "18446744073709551615:ae") =
      .ok ⟨Decimal.maxWord, 22, Bytes.ofString "ae"⟩ :=
    lengthAt_eq_ok_iff.2 ⟨by decide, by decide, by decide⟩
  have raises : Raises 1 ⟨1, 1, Bytes.ofString "18446744073709551615:ae"⟩
      (.truncatedString 1 Decimal.maxWord 2) :=
    .byteString (by decide) (stringAt_eq_error_iff.2 (.inr ⟨_, length, by decide, rfl⟩))
  have failed : decode 1 (Bytes.ofString "l18446744073709551615:ae") =
      .error (.truncatedString 1 Decimal.maxWord 2) := by
    rw [decode_eq, valueAt_eq_error_iff.2 ⟨_, .single enters, raises⟩]
  refine ⟨short, ?_⟩
  rw [← failed]
  exact ((decode_in_place short 1 100).1 (by decide)).2

end Metainfo.Bencode.Decoder
