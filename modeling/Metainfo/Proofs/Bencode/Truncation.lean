import Metainfo.Proofs.Bencode.Failure

/-!
# Inputs that are cut off

The text of a value consists of tokens: integers, byte strings, and the marks around
lists and dictionaries.  If an input is cut off, either a token is cut through, or what
is missing is the rest of the innermost list or dictionary that is open there.  Main
statement: whatever is accepted fails in this way, and in no other, if its end is cut
off.
-/

namespace Metainfo.Bencode

open Value

/-! ## Tokens -/

/-- A part of a text that has no parts. -/
inductive Token where
  | integer (number : Integer)
  | byteString (bytes : Bytes)
  | list
  | dictionary
  | finish

def Token.text : Token → Bytes
  | integer number => Mark.integer :: (number.text ++ [Mark.finish])
  | byteString bytes => encodeString bytes
  | list => [Mark.list]
  | dictionary => [Mark.dictionary]
  | finish => [Mark.finish]

theorem Token.length_text_pos (token : Token) : 0 < token.text.length := by
  cases token with
  | byteString bytes =>
    rw [text, encodeString, List.length_append, List.length_cons]
    omega
  | integer | list | dictionary | finish => simp [text]

/-- The number of octets that tokens take. -/
def textLength (tokens : List Token) : Nat :=
  (tokens.flatMap Token.text).length

@[simp] theorem textLength_nil : textLength [] = 0 := rfl

@[simp] theorem textLength_cons (token : Token) (tokens : List Token) :
    textLength (token :: tokens) = token.text.length + textLength tokens := by
  simp [textLength]

@[simp] theorem textLength_append (tokens others : List Token) :
    textLength (tokens ++ others) = textLength tokens + textLength others := by
  simp [textLength]

namespace Value

mutual

/-- The tokens of the canonical form of a value. -/
def tokens : Value → List Token
  | .byteString bytes => [.byteString bytes]
  | .integer number => [.integer number]
  | .list items => .list :: (tokensOfItems items ++ [.finish])
  | .dictionary entries => .dictionary :: (tokensOfEntries entries ++ [.finish])

/-- The tokens of the items of a list. -/
def tokensOfItems : List Value → List Token
  | [] => []
  | item :: items => item.tokens ++ tokensOfItems items

/-- The tokens of keys and values. -/
def tokensOfEntries : List (Bytes × Value) → List Token
  | [] => []
  | (key, value) :: entries =>
      .byteString key :: (value.tokens ++ tokensOfEntries entries)

end

/-- The tokens of a key and its value. -/
def tokensOfEntry (entry : Bytes × Value) : List Token :=
  .byteString entry.1 :: entry.2.tokens

@[simp] theorem tokens_list (items : List Value) :
    (list items).tokens = .list :: (items.flatMap tokens ++ [.finish]) := by
  rw [tokens]
  congr 2
  induction items with
  | nil => rfl
  | cons item items ih => rw [tokensOfItems, ih, List.flatMap_cons]

@[simp] theorem tokens_dictionary (entries : List (Bytes × Value)) :
    (dictionary entries).tokens =
      .dictionary :: (entries.flatMap tokensOfEntry ++ [.finish]) := by
  rw [tokens]
  congr 2
  induction entries with
  | nil => rfl
  | cons entry entries ih =>
    rw [tokensOfEntries, ih, List.flatMap_cons, tokensOfEntry, List.cons_append]

theorem tokens_ne_nil (value : Value) : value.tokens ≠ [] := by
  cases value <;> simp [tokens]

/-- The tokens one after the other are the canonical form. -/
@[simp] theorem flatMap_tokens (value : Value) :
    value.tokens.flatMap Token.text = value.encode := by
  induction value using parts_induction with
  | byteString bytes => simp [tokens, Token.text]
  | integer number => simp [tokens, Token.text]
  | list items ih =>
    have inside : (items.flatMap fun item => item.tokens.flatMap Token.text) =
        items.flatMap encode := by
      rw [List.flatMap_def, List.flatMap_def, List.map_congr_left ih]
    simp [Token.text, List.flatMap_assoc, inside]
  | dictionary entries ih =>
    have inside :
        (entries.flatMap fun entry => (tokensOfEntry entry).flatMap Token.text) =
        encodeEntries entries := by
      rw [List.flatMap_def, encodeEntries, List.flatMap_def]
      congr 1
      refine List.map_congr_left fun entry member => ?_
      rw [tokensOfEntry, List.flatMap_cons, ih entry member]
      rfl
    simp [Token.text, List.flatMap_assoc, inside]

@[simp] theorem textLength_flatMap_tokens (items : List Value) :
    textLength (items.flatMap tokens) = (items.flatMap encode).length := by
  simp [textLength, List.flatMap_assoc]

@[simp] theorem textLength_flatMap_tokensOfEntry (entries : List (Bytes × Value)) :
    textLength (entries.flatMap tokensOfEntry) = (encodeEntries entries).length := by
  simp [textLength, List.flatMap_assoc, tokensOfEntry, Token.text]

end Value

/-! ## What is open -/

/-- A list or dictionary of which the end has not come, and the offset at which it
begins. -/
inductive Container where
  | list (start : Nat)
  | dictionary (start : Nat)

/-- The error of a list or dictionary that has no end. -/
def Container.unterminated : Container → DecodeError
  | list start => .unterminatedList start
  | dictionary start => .unterminatedDictionary start

/-- What is open after a token that begins at `offset`, the innermost first; `outer` is
open before it. -/
def Token.openAfter (offset : Nat) (outer : List Container) : Token → List Container
  | integer _ => outer
  | byteString _ => outer
  | list => .list offset :: outer
  | dictionary => .dictionary offset :: outer
  | finish => outer.tail

/-- What is open after tokens, the first of which begins at `offset`. -/
def openAfter (offset : Nat) (outer : List Container) : List Token → List Container
  | [] => outer
  | token :: tokens =>
      openAfter (offset + token.text.length) (token.openAfter offset outer) tokens

theorem openAfter_append (offset : Nat) (outer : List Container)
    (tokens others : List Token) :
    openAfter offset outer (tokens ++ others) =
      openAfter (offset + textLength tokens)
        (openAfter offset outer tokens) others := by
  induction tokens generalizing offset outer with
  | nil => rfl
  | cons token tokens ih =>
    rw [List.cons_append, openAfter, ih, openAfter, textLength_cons, Nat.add_assoc]

theorem openAfter_flatMap {Part : Type} {tokensOf : Part → List Token}
    {parts : List Part}
    (each : ∀ part ∈ parts, ∀ offset outer,
      openAfter offset outer (tokensOf part) = outer)
    (offset : Nat) (outer : List Container) :
    openAfter offset outer (parts.flatMap tokensOf) = outer := by
  induction parts generalizing offset with
  | nil => rfl
  | cons part parts ih =>
    rw [List.forall_mem_cons] at each
    rw [List.flatMap_cons, openAfter_append, each.1, ih each.2]

/-- After the text of a value the same is open as before it. -/
@[simp] theorem openAfter_tokens (value : Value) (offset : Nat)
    (outer : List Container) : openAfter offset outer value.tokens = outer := by
  induction value using parts_induction generalizing offset outer with
  | byteString bytes => rfl
  | integer number => rfl
  | list items ih =>
    rw [tokens_list, openAfter, openAfter_append, openAfter_flatMap ih]
    rfl
  | dictionary entries ih =>
    have each : ∀ entry ∈ entries, ∀ offset outer,
        openAfter offset outer (tokensOfEntry entry) = outer :=
      fun entry member offset outer => ih entry member _ outer
    rw [tokens_dictionary, openAfter, openAfter_append, openAfter_flatMap each]
    rfl

/-! ## Errors at the end of an input -/

/-- What is wrong with an input that ends inside a token, `taken` octets behind the
offset at which the token begins.  What is open before the token is listed with the
innermost first. -/
inductive Token.CutError : Nat → List Container → Token → Nat → DecodeError → Prop where
  | nothing {token : Token} : CutError 0 [] token 0 (.unexpectedEnd 0)
  | between {offset : Nat} {container : Container} {outer : List Container}
      {token : Token} :
      CutError offset (container :: outer) token 0 container.unterminated
  | integer {offset : Nat} {outer : List Container} {number : Integer} {taken : Nat} :
      0 < taken →
      CutError offset outer (.integer number) taken
        (.malformedInteger offset "missing 'e' terminator")
  | length {offset : Nat} {outer : List Container} {bytes : Bytes} {taken : Nat} :
      0 < taken → taken ≤ (Decimal.ofNat bytes.length).length →
      CutError offset outer (.byteString bytes) taken
        (.malformedStringLength offset "missing ':' after length")
  | bytes {offset : Nat} {outer : List Container} {bytes : Bytes}
      {taken available : Nat} :
      taken = (Decimal.ofNat bytes.length).length + 1 + available →
      CutError offset outer (.byteString bytes) taken
        (.truncatedString offset bytes.length available)

/-- What is wrong with the first `cut` octets of the text of tokens.  The text begins at
`start`, where `outer` is open. -/
inductive CutError (start : Nat) (outer : List Container) (tokens : List Token)
    (cut : Nat) (error : DecodeError) : Prop where
  | intro {before after : List Token} {token : Token} {taken : Nat} :
      tokens = before ++ token :: after → cut = textLength before + taken →
      taken < token.text.length →
      token.CutError (start + textLength before)
        (openAfter start outer before) taken error →
      CutError start outer tokens cut error

/-- A token is cut off in one way only. -/
theorem Token.CutError.unique {offset taken : Nat} {outer : List Container}
    {token : Token} {error other : DecodeError}
    (cutOff : token.CutError offset outer taken error)
    (otherwise : token.CutError offset outer taken other) : error = other := by
  cases cutOff with
  | nothing => cases otherwise <;> first | rfl | omega
  | between => cases otherwise <;> first | rfl | omega
  | integer => cases otherwise <;> first | rfl | omega
  | length => cases otherwise <;> first | rfl | omega
  | bytes available =>
    cases otherwise with
    | bytes otherAvailable =>
      obtain rfl := Nat.add_left_cancel (available.symm.trans otherAvailable)
      rfl
    | nothing | between | length => omega

/-- Tokens are cut off in one of them only. -/
theorem split_token_unique {before others after rest : List Token} {token other : Token}
    {taken otherTaken : Nat} (same : before ++ token :: after = others ++ other :: rest)
    (place : textLength before + taken = textLength others + otherTaken)
    (inside : taken < token.text.length)
    (otherInside : otherTaken < other.text.length) :
    before = others ∧ token = other ∧ taken = otherTaken := by
  induction before generalizing others with
  | nil =>
    cases others with
    | nil =>
      cases same
      exact ⟨rfl, rfl, by simpa using place⟩
    | cons first others =>
      cases same
      simp only [textLength_nil, textLength_cons] at place
      omega
  | cons first before ih =>
    cases others with
    | nil =>
      cases same
      simp only [textLength_nil, textLength_cons] at place
      omega
    | cons second others =>
      rw [List.cons_append, List.cons_append, List.cons.injEq] at same
      obtain ⟨rfl, same⟩ := same
      simp only [textLength_cons] at place
      obtain ⟨rfl, others⟩ := ih same (by omega)
      exact ⟨rfl, others⟩

namespace CutError

variable {start cut : Nat} {outer : List Container} {tokens : List Token}
  {error other : DecodeError}

theorem unique (cutOff : CutError start outer tokens cut error)
    (otherwise : CutError start outer tokens cut other) : error = other := by
  obtain ⟨split, place, inside, cutToken⟩ := cutOff
  obtain ⟨otherSplit, otherPlace, otherInside, otherToken⟩ := otherwise
  obtain ⟨rfl, rfl, rfl⟩ := split_token_unique (split.symm.trans otherSplit)
    (place.symm.trans otherPlace) inside otherInside
  exact cutToken.unique otherToken

/-- The first token is cut off. -/
theorem head {token : Token} (inside : cut < token.text.length)
    (cutOff : token.CutError start outer cut error) :
    CutError start outer (token :: tokens) cut error :=
  .intro (List.nil_append _).symm (Nat.zero_add _).symm inside cutOff

/-- What is wrong with some of the tokens is wrong with all of them. -/
theorem inside (front back : List Token)
    (cutOff :
      CutError (start + textLength front)
        (openAfter start outer front) tokens cut error) :
    CutError start outer (front ++ (tokens ++ back))
      (textLength front + cut) error := by
  obtain @⟨before, after, token, taken, rfl, rfl, inside, cutToken⟩ := cutOff
  rw [← openAfter_append, Nat.add_assoc, ← textLength_append] at cutToken
  have split : front ++ (before ++ token :: after ++ back) =
      front ++ before ++ token :: (after ++ back) := by simp
  exact .intro split (by rw [textLength_append, Nat.add_assoc]) inside cutToken

/-- What is wrong with a part among others, whose tokens have a text and leave something
open. -/
theorem among {front back : List Token} {opened : List Container} {text inside : Bytes}
    (isOpen : openAfter start outer front = opened)
    (length : textLength front = text.length)
    (cutOff : CutError (start + text.length) opened tokens inside.length error) :
    CutError start outer (front ++ (tokens ++ back)) (text ++ inside).length error := by
  rw [List.length_append, ← length]
  rw [← length, ← isOpen] at cutOff
  exact cutOff.inside front back

/-- Where tokens are missing although something is open, this has no end. -/
theorem between {front back : List Token} {container : Container}
    {around : List Container} {text : Bytes}
    (isOpen : openAfter start outer front = container :: around)
    (length : textLength front = text.length) (nonempty : back ≠ []) :
    CutError start outer (front ++ back) text.length container.unterminated := by
  obtain ⟨token, rest, rfl⟩ := List.exists_cons_of_ne_nil nonempty
  rw [← length]
  refine .intro rfl rfl token.length_text_pos ?_
  rw [isOpen]
  exact .between

end CutError

/-! ## Reading what is cut off -/

theorem length_lt_of_append {text front back : Bytes} (split : text = front ++ back)
    (nonempty : back ≠ []) : front.length < text.length := by
  have := List.length_pos_iff.2 nonempty
  rw [split, List.length_append]
  omega

/-- What begins a text between two marks, and is not all of it, begins with the first
mark. -/
theorem exists_inside_of_between {first last : UInt8} {text front back : Bytes}
    (same : first :: (text ++ [last]) = front ++ back) (begun : front ≠ [])
    (cutOff : back ≠ []) :
    ∃ inside missing, front = first :: inside ∧ text = inside ++ missing := by
  rcases List.cons_eq_append_iff.1 same with ⟨rfl, -⟩ | ⟨inside, rfl, rest⟩
  · exact absurd rfl begun
  · rcases List.eq_nil_or_concat back with rfl | ⟨missing, byte, rfl⟩
    · exact absurd rfl cutOff
    · rw [List.concat_eq_append, ← List.append_assoc] at rest
      exact ⟨inside, missing, rfl, (List.append_inj' rest rfl).1⟩

/-- What begins texts that stand one after the other ends between two of them or inside
one. -/
theorem exists_parts_of_flatMap {Part : Type} {textOf : Part → Bytes}
    {parts : List Part} {front back : Bytes}
    (same : parts.flatMap textOf = front ++ back) :
    ∃ before after, parts = before ++ after ∧
      (front = before.flatMap textOf ∨
        ∃ part rest inside missing, after = part :: rest ∧
          textOf part = inside ++ missing ∧
          inside ≠ [] ∧ missing ≠ [] ∧ front = before.flatMap textOf ++ inside) := by
  rw [List.flatMap_def, List.flatten_eq_append_iff] at same
  rcases same with ⟨_, _, split, rfl, -⟩ | ⟨_, inside, byte, missing, _, split, rfl, -⟩
  · obtain ⟨before, after, rfl, rfl, -⟩ := List.map_eq_append_iff.1 split
    exact ⟨before, after, rfl, .inl rfl⟩
  · obtain ⟨before, after, rfl, rfl, others⟩ := List.map_eq_append_iff.1 split
    obtain ⟨part, rest, rfl, text, -⟩ := List.map_eq_cons_iff.1 others
    refine ⟨before, part :: rest, rfl, ?_⟩
    by_cases empty : inside = []
    · rw [empty, List.append_nil]
      exact .inl rfl
    · exact .inr ⟨part, rest, inside, byte :: missing, rfl, text, empty, by simp, rfl⟩

/-- A byte string that is cut off is refused for want of the rest. -/
theorem exists_error_of_stringAt {bytes front back : Bytes}
    (text : encodeString bytes = front ++ back) (begun : front ≠ [])
    (cutOff : back ≠ []) (short : bytes.length ≤ Decimal.maxWord) (start : Nat)
    (outer : List Container) :
    ∃ error, stringAt start front = .error error ∧
      (Token.byteString bytes).CutError start outer front.length error := by
  have digits := List.all_eq_true.1 (Decimal.all_isDigit_ofNat bytes.length)
  have onlyDigits {front more : Bytes}
      (split : Decimal.ofNat bytes.length = front ++ more)
      (begun : front ≠ []) :
      ∃ error, stringAt start front = .error error ∧
        (Token.byteString bytes).CutError start outer front.length error := by
    have all : ∀ digit ∈ front, Decimal.isDigit digit = true := fun digit member =>
      digits digit (by rw [split]; exact List.mem_append_left _ member)
    refine ⟨_, stringAt_eq_error_iff.2 (.inl (lengthAt_unterminated all)),
      .length ?_ ?_⟩
    · exact List.length_pos_iff.2 begun
    · rw [split, List.length_append]
      omega
  -- The cut is behind the digits of the length, or among them.
  rw [encodeString, List.append_eq_append_iff] at text
  rcases text with ⟨tail, rfl, rest⟩ | ⟨more, split, -⟩
  · rcases List.cons_eq_append_iff.1 rest with ⟨rfl, -⟩ | ⟨inside, rfl, rfl⟩
    · rw [List.append_nil] at begun ⊢
      exact onlyDigits (List.append_nil _).symm begun
    · have found : lengthAt start _ = _ := lengthAt_ofNat inside short
      have few : inside.length < (inside ++ back).length :=
        length_lt_of_append rfl cutOff
      refine ⟨_, stringAt_eq_error_iff.2 (.inr ⟨_, found, few, rfl⟩), .bytes ?_⟩
      simp only [List.length_append, List.length_cons]
      omega
  · exact onlyDigits split begun

section Values

variable {limit depth : Nat}

/-- What is open among the items of a list. -/
theorem openAfter_list (start : Nat) (outer : List Container) (items : List Value) :
    openAfter start outer (.list :: items.flatMap tokens) = .list start :: outer :=
  openAfter_flatMap (fun item _ => openAfter_tokens item) _ _

theorem textLength_list (items : List Value) :
    textLength (.list :: items.flatMap tokens) =
      (Mark.list :: items.flatMap encode).length := by
  rw [textLength_cons, textLength_flatMap_tokens]
  exact Nat.add_comm ..

/-- What is open among the entries of a dictionary. -/
theorem openAfter_dictionary (start : Nat) (outer : List Container)
    (entries : List (Bytes × Value)) :
    openAfter start outer (.dictionary :: entries.flatMap tokensOfEntry) =
      .dictionary start :: outer :=
  openAfter_flatMap (fun entry _ _ => openAfter_tokens entry.2 _) _ _

theorem textLength_dictionary (entries : List (Bytes × Value)) :
    textLength (.dictionary :: entries.flatMap tokensOfEntry) =
      (Mark.dictionary :: encodeEntries entries).length := by
  rw [textLength_cons, textLength_flatMap_tokensOfEntry]
  exact Nat.add_comm ..

/-- Reading only the beginning of the canonical form fails, with what is wrong with the
tokens where they are cut off. -/
def Value.FailsCutOff (limit depth : Nat) (written : Value) : Prop :=
  ∀ front back, written.encode = front ++ back → front ≠ [] → back ≠ [] → ∀ start outer,
    ∃ error, valueAt limit depth start front = .error error ∧
      CutError start outer written.tokens front.length error

theorem failsCutOff_byteString {bytes : Bytes}
    (short : bytes.length ≤ Decimal.maxWord) :
    (byteString bytes).FailsCutOff limit depth := by
  intro front back text begun cutOff start outer
  rw [encode_byteString] at text
  obtain ⟨error, failed, cutToken⟩ :=
    exists_error_of_stringAt text begun cutOff short start outer
  obtain ⟨digit, rest, cons, isDigit⟩ := exists_encodeString_eq_cons bytes
  have less := length_lt_of_append text cutOff
  obtain ⟨_, tail, rfl⟩ := List.exists_cons_of_ne_nil begun
  obtain rfl : _ = digit := (List.cons.inj (text.symm.trans cons)).1
  refine ⟨error, Raises.valueAt_eq (.byteString isDigit failed), ?_⟩
  exact .head less cutToken

theorem failsCutOff_integer (number : Integer) :
    (integer number).FailsCutOff limit depth := by
  intro front back text begun cutOff start outer
  rw [encode_integer] at text
  have less : front.length < (Token.integer number).text.length :=
    length_lt_of_append text cutOff
  obtain ⟨inside, missing, rfl, split⟩ := exists_inside_of_between text begun cutOff
  have endless : Mark.finish ∉ inside := by
    intro member
    have inText : Mark.finish ∈ number.text := by
      rw [split]
      exact List.mem_append_left _ member
    simpa using text_ne_finish number _ inText
  refine ⟨_, Raises.valueAt_eq (.integer (integerAt_unterminated endless)), ?_⟩
  exact .head less (.integer (by simp))

/-- A list that is cut off has no end, or one of its items is cut off. -/
theorem failsCutOff_list {items : List Value}
    (readable : (list items).Readable limit depth)
    (each : ∀ item ∈ items, item.FailsCutOff limit (depth + 1)) :
    (list items).FailsCutOff limit depth := by
  intro front back text begun cutOff start outer
  rw [encode_list] at text
  obtain ⟨inside, missing, rfl, split⟩ := exists_inside_of_between text begun cutOff
  obtain ⟨before, after, rfl, place⟩ := exists_parts_of_flatMap split
  obtain ⟨shallow, readableItems⟩ := readable_list_iff.1 readable
  have readableBefore : (list before).Readable limit depth :=
    readable_list_iff.2 ⟨shallow, fun item member =>
      readableItems item (List.mem_append_left _ member)⟩
  have isOpen := openAfter_list start outer before
  have length := textLength_list before
  -- The cut is between two items, or inside one of them.
  rcases place with rfl |
    ⟨item, rest, part, more, rfl, itemText, partBegun, partCut, rfl⟩
  · have inParts : (list (before ++ after)).tokens =
        (.list :: before.flatMap tokens) ++ (after.flatMap tokens ++ [.finish]) := by
      simp
    rw [inParts]
    exact ⟨(Container.list start).unterminated,
      Raises.valueAt_eq (.noItem readableBefore), .between isOpen length (by simp)⟩
  · have inParts : (list (before ++ item :: rest)).tokens =
        (.list :: before.flatMap tokens) ++
          (item.tokens ++ (rest.flatMap tokens ++ [.finish])) := by simp
    have member : item ∈ before ++ item :: rest := by simp
    have offset : start + (Mark.list :: before.flatMap encode).length =
        start + 1 + (before.flatMap encode).length := by
      rw [List.length_cons]
      omega
    obtain ⟨error, failed, cutItem⟩ :=
      each item member part more itemText partBegun partCut
      (start + (Mark.list :: before.flatMap encode).length) (.list start :: outer)
    obtain ⟨first, _, cons, -, noFinish⟩ := exists_encode_eq_cons item
    obtain ⟨byte, tail, rfl⟩ := List.exists_cons_of_ne_nil partBegun
    obtain rfl : byte = first := (List.cons.inj (itemText.symm.trans cons)).1
    rw [inParts]
    rw [offset] at failed
    exact ⟨error, (Enters.item readableBefore noFinish).valueAt_eq failed,
      .among isOpen length cutItem⟩

/-- An entry that is cut off has a key that is cut off, or no value, or one that is cut
off. -/
theorem exists_error_of_entry {before : List (Bytes × Value)} {key : Bytes}
    {value : Value} {part more : Bytes}
    (readable : (dictionary before).Readable limit depth)
    (short : key.length ≤ Decimal.maxWord) (fails : value.FailsCutOff limit (depth + 1))
    (text : encodeString key ++ value.encode = part ++ more) (begun : part ≠ [])
    (cutOff : more ≠ []) (start : Nat) (outer : List Container) :
    ∃ error,
      valueAt limit depth start (Mark.dictionary :: (encodeEntries before ++ part)) =
        .error error ∧
      CutError (start + (Mark.dictionary :: encodeEntries before).length)
        (.dictionary start :: outer) (tokensOfEntry (key, value)) part.length
        error := by
  have offset : start + (Mark.dictionary :: encodeEntries before).length =
      start + 1 + (encodeEntries before).length := by
    rw [List.length_cons]
    omega
  have keyLength : textLength [.byteString key] = (encodeString key).length := by
    simp [Token.text]
  have noValue : ∃ error,
      valueAt limit depth start
          (Mark.dictionary :: (encodeEntries before ++ encodeString key)) =
            .error error ∧
        CutError (start + (Mark.dictionary :: encodeEntries before).length)
          (.dictionary start :: outer) ([.byteString key] ++ value.tokens)
          (encodeString key).length error :=
    ⟨(Container.dictionary start).unterminated,
      Raises.valueAt_eq (.entry readable (.noValue short)),
      .between rfl keyLength value.tokens_ne_nil⟩
  -- The cut is at the end of the key or behind it, or at the end of the key or inside
  -- it.
  rw [List.append_eq_append_iff] at text
  rcases text with ⟨tail, rfl, valueText⟩ | ⟨rest, keyText, -⟩
  · by_cases empty : tail = []
    · rw [empty, List.append_nil]
      exact noValue
    · obtain ⟨error, failed, cutValue⟩ := fails tail more valueText empty cutOff
        (start + (Mark.dictionary :: encodeEntries before).length +
          (encodeString key).length)
        (.dictionary start :: outer)
      obtain ⟨byte, rest, rfl⟩ := List.exists_cons_of_ne_nil empty
      rw [offset] at failed
      have inParts :
          tokensOfEntry (key, value) = [.byteString key] ++ (value.tokens ++ []) := by
        rw [List.append_nil]
        rfl
      rw [inParts]
      exact ⟨error, (Enters.entry readable short).valueAt_eq failed,
        .among rfl keyLength cutValue⟩
  · by_cases empty : rest = []
    · rw [empty, List.append_nil] at keyText
      rw [← keyText]
      exact noValue
    · obtain ⟨error, failed, cutToken⟩ :=
        exists_error_of_stringAt keyText begun empty short
          (start + (Mark.dictionary :: encodeEntries before).length)
          (.dictionary start :: outer)
      obtain ⟨digit, _, cons, isDigit⟩ := exists_encodeString_eq_cons key
      have less := length_lt_of_append keyText empty
      obtain ⟨byte, tail, rfl⟩ := List.exists_cons_of_ne_nil begun
      obtain rfl : byte = digit := (List.cons.inj (keyText.symm.trans cons)).1
      rw [offset] at failed
      exact ⟨error, Raises.valueAt_eq (.entry readable (.key isDigit failed)),
        .head less cutToken⟩

/-- A dictionary that is cut off has no end, or one of its entries is cut off. -/
theorem failsCutOff_dictionary {entries : List (Bytes × Value)}
    (readable : (dictionary entries).Readable limit depth)
    (each : ∀ entry ∈ entries, entry.2.FailsCutOff limit (depth + 1)) :
    (dictionary entries).FailsCutOff limit depth := by
  intro front back text begun cutOff start outer
  rw [encode_dictionary] at text
  obtain ⟨inside, missing, rfl, split⟩ := exists_inside_of_between text begun cutOff
  obtain ⟨before, after, rfl, place⟩ := exists_parts_of_flatMap split
  obtain ⟨shallow, keys, readableEntries⟩ := readable_dictionary_iff.1 readable
  have readableBefore : (dictionary before).Readable limit depth := by
    refine readable_dictionary_iff.2 ⟨shallow, ?_, fun entry member =>
      readableEntries entry (List.mem_append_left _ member)⟩
    rw [Entries.keys, List.map_append] at keys
    exact (List.nodup_append.1 keys).1
  have isOpen := openAfter_dictionary start outer before
  have length := textLength_dictionary before
  rcases place with rfl |
    ⟨⟨key, value⟩, rest, part, more, rfl, entryText, partBegun, partCut, rfl⟩
  · have inParts : (dictionary (before ++ after)).tokens =
        (.dictionary :: before.flatMap tokensOfEntry) ++
          (after.flatMap tokensOfEntry ++ [.finish]) := by simp
    have failed :
        valueAt limit depth start (Mark.dictionary :: (encodeEntries before ++ [])) =
        .error (.unterminatedDictionary start) :=
      Raises.valueAt_eq (.entry readableBefore .noEntry)
    rw [List.append_nil] at failed
    rw [inParts]
    exact ⟨(Container.dictionary start).unterminated, failed,
      .between isOpen length (by simp)⟩
  · have inParts : (dictionary (before ++ (key, value) :: rest)).tokens =
        (.dictionary :: before.flatMap tokensOfEntry) ++
          (tokensOfEntry (key, value) ++
            (rest.flatMap tokensOfEntry ++ [.finish])) := by simp
    have member : (key, value) ∈ before ++ (key, value) :: rest := by simp
    obtain ⟨error, failed, cutEntry⟩ := exists_error_of_entry readableBefore
      (readableEntries _ member).1 (each _ member) entryText partBegun partCut
      start outer
    rw [inParts]
    exact ⟨error, failed, .among isOpen length cutEntry⟩

/-- A readable value that is cut off is refused for want of the rest. -/
theorem Value.Readable.failsCutOff {written : Value}
    (readable : written.Readable limit depth) : written.FailsCutOff limit depth := by
  induction written using parts_induction generalizing depth with
  | byteString bytes =>
    cases readable.fits with
    | byteString short => exact failsCutOff_byteString short
  | integer number => exact failsCutOff_integer number
  | list items ih =>
    have each := (readable_list_iff.1 readable).2
    exact failsCutOff_list readable fun item member => ih item member (each item member)
  | dictionary entries ih =>
    have each := (readable_dictionary_iff.1 readable).2.2
    exact failsCutOff_dictionary readable fun entry member =>
      ih entry member (each entry member).2

end Values

/-- If the end of an accepted input is cut off, decoding fails, and what it says is
wrong is what is wrong with the tokens of the input. -/
theorem decode_take {limit : Nat} {input : Bytes} {value : Value}
    (decoded : decode limit input = .ok value) :
    ∃ written, Spells input written ∧ (∀ other, Spells input other → other = written) ∧
      written.tokens.flatMap Token.text = input ∧
      ∀ cut < input.length, ∃ error,
        decode limit (input.take cut) = .error error ∧
        decodePrefix limit (input.take cut) = .error error ∧
        ∀ other, CutError 0 [] written.tokens cut other ↔ other = error := by
  obtain ⟨written, readable, rfl, rfl⟩ := decode_eq_ok_iff.1 decoded
  have spelled : Spells written.encode written := spells_iff.2 ⟨rfl, readable.distinct⟩
  refine ⟨written, spelled, fun other otherSpelled => otherSpelled.unique spelled,
    flatMap_tokens written, fun cut less => ?_⟩
  have fails : ∃ error, valueAt limit 0 0 (written.encode.take cut) = .error error ∧
      CutError 0 [] written.tokens cut error := by
    by_cases nothing : cut = 0
    · obtain ⟨token, tokens, split⟩ := List.exists_cons_of_ne_nil written.tokens_ne_nil
      rw [nothing, List.take_zero, split]
      exact ⟨_, valueAt_nil, .head token.length_text_pos .nothing⟩
    · have length : (written.encode.take cut).length = cut := by
        rw [List.length_take, Nat.min_eq_left (Nat.le_of_lt less)]
      have begun : written.encode.take cut ≠ [] := by
        rw [← List.length_pos_iff, length]
        omega
      have cutOff : written.encode.drop cut ≠ [] := by
        rw [← List.length_pos_iff, List.length_drop]
        omega
      have fails :=
        readable.failsCutOff _ _ (List.take_append_drop cut _).symm begun cutOff 0 []
      rwa [length] at fails
  obtain ⟨error, failed, cutError⟩ := fails
  refine ⟨error, by rw [decode_eq, failed], by rw [decodePrefix_eq, failed]; rfl,
    fun other => ?_⟩
  constructor
  · exact fun otherError => otherError.unique cutError
  · rintro rfl
    exact cutError

/-- The text `d1:bli-1elee1:a1:ee` is cut off inside an integer, inside a list within a
list, between a key and its value, and inside a byte string. -/
theorem decode_take_descending :
    decode 3 descending.encode = .ok descending.sorted ∧
    decode 3 (descending.encode.take 7) =
      .error (.malformedInteger 5 "missing 'e' terminator") ∧
    decode 3 (descending.encode.take 10) = .error (.unterminatedList 9) ∧
    decode 3 (descending.encode.take 15) = .error (.unterminatedDictionary 0) ∧
    decode 3 (descending.encode.take 17) = .error (.truncatedString 15 1 0) := by
  have decoded : decode 3 descending.encode = .ok descending.sorted :=
    decode_encode descending_distinct (by decide) (by decide)
  obtain ⟨written, -, only, -, fails⟩ := decode_take decoded
  obtain rfl := only descending (spells_iff.2 ⟨rfl, descending_distinct⟩)
  have diagnosed {error : DecodeError} (index taken : Nat)
      (within : index < descending.tokens.length)
      (inside : taken < descending.tokens[index].text.length)
      (cutToken : descending.tokens[index].CutError
        (0 + textLength (descending.tokens.take index))
        (openAfter 0 [] (descending.tokens.take index)) taken error) :
      textLength (descending.tokens.take index) + taken < descending.encode.length →
      decode 3
        (descending.encode.take (textLength (descending.tokens.take index) + taken)) =
        .error error := by
    intro less
    have split : descending.tokens = descending.tokens.take index ++
        descending.tokens[index] :: descending.tokens.drop (index + 1) := by simp
    obtain ⟨other, failed, -, same⟩ := fails _ less
    rw [failed, (same error).1 ⟨split, rfl, inside, cutToken⟩]
  refine ⟨decoded, ?_, ?_, ?_, ?_⟩
  · exact diagnosed 3 2 (by decide) (by decide) (.integer (by decide)) (by decide)
  · exact diagnosed 5 0 (by decide) (by decide) .between (by decide)
  · exact diagnosed 8 0 (by decide) (by decide) .between (by decide)
  · exact diagnosed 8 2 (by decide) (by decide) (.bytes (by decide)) (by decide)

end Metainfo.Bencode
