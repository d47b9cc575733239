import Metainfo.Toml.Reader

/-!
# Decimal integers in TOML

An integer in decimal is a natural number with or without a sign.  Its digits may be set
apart by underscores, and only the number zero begins with a zero.  Such a text is read
as the number that it denotes by position, if that is a signed word; and the decimal
digits of a number are such a text.
-/

namespace Metainfo.Toml

variable {text more digits others : List Char} {digit : Char} {number : Nat}
  {value : Int}

/-- The text of a natural number.  A digit may follow a number other than zero, with an
underscore before it or without one. -/
inductive NaturalText : List Char → Nat → Prop where
  | digit {digit : Char} :
      digit.isDigit = true → NaturalText [digit] (digit.toNat - '0'.toNat)
  | next {text : List Char} {number : Nat} {digit : Char} :
      NaturalText text number → number ≠ 0 → digit.isDigit = true →
      NaturalText (text ++ [digit]) (number * 10 + (digit.toNat - '0'.toNat))
  | apart {text : List Char} {number : Nat} {digit : Char} :
      NaturalText text number → number ≠ 0 → digit.isDigit = true →
      NaturalText (text ++ ['_', digit]) (number * 10 + (digit.toNat - '0'.toNat))

/-- The text of an integer. -/
inductive IntegerText : List Char → Int → Prop where
  | plain {text : List Char} {number : Nat} : NaturalText text number →
      IntegerText text number
  | plus {text : List Char} {number : Nat} : NaturalText text number →
      IntegerText ('+' :: text) number
  | minus {text : List Char} {number : Nat} :
      NaturalText text number → IntegerText ('-' :: text) (-number)

/-! ## Digits -/

theorem digitValue_of_isDigit (decimal : digit.isDigit = true) :
    digitValue digit = digit.toNat - '0'.toNat :=
  if_pos decimal

theorem digits?_pair (decimal : digit.isDigit = true) {first : Char}
    (isFirst : first.isDigit = true) :
    digits? Char.isDigit (first :: [digit]) = some (first :: [digit]) := by
  have apart (rest : List Char) (same : [digit] = '_' :: rest) : False := by
    cases same
    cases decimal
  rw [digits?.eq_4 _ _ _ (List.cons_ne_nil _ _) apart, if_pos isFirst, digits?,
    if_pos decimal]
  rfl

theorem digits?_apart (decimal : digit.isDigit = true) {first : Char}
    (isFirst : first.isDigit = true) :
    digits? Char.isDigit (first :: ['_', digit]) = some (first :: [digit]) := by
  rw [digits?, if_pos isFirst, digits?, if_pos decimal]
  rfl

/-- A sequence of digits goes on where its last digit does. -/
theorem digits?_append {isDigit : Char → Bool}
    (read : digits? isDigit text = some digits)
    (goesOn : ∀ last, isDigit last = true →
      digits? isDigit (last :: more) = some (last :: others)) :
    digits? isDigit (text ++ more) = some (digits ++ others) := by
  fun_induction digits? isDigit text generalizing digits with
  | case1 => cases read
  | case2 last isDigit =>
    cases read
    exact goesOn last isDigit
  | case3 => cases read
  | case4 digit rest isDigit ih =>
    obtain ⟨behind, readBehind, rfl⟩ := Option.map_eq_some_iff.1 read
    simp [digits?, isDigit, ih readBehind]
  | case5 => cases read
  | case6 digit rest notLast notApart isDigit ih =>
    obtain ⟨behind, readBehind, rfl⟩ := Option.map_eq_some_iff.1 read
    have notLastAppended : rest ++ more = [] → False := fun same =>
      notLast (List.append_eq_nil_iff.1 same).1
    have notApartAppended (after : List Char) (same : rest ++ more = '_' :: after) :
        False := by
      obtain ⟨next, tail, rfl⟩ := List.exists_cons_of_ne_nil notLast
      injection same with same
      exact notApart tail (by rw [same])
    rw [List.cons_append, digits?.eq_4 _ _ _ notLastAppended notApartAppended,
      if_pos isDigit, ih readBehind]
    rfl
  | case7 => cases read

/-- The text is read as digits that denote the number, and a zero in front of them
stands alone. -/
structure ReadsAs (text digits : List Char) (number : Nat) : Prop where
  read : digits? Char.isDigit text = some digits
  denotes : valueOf 10 digits = number
  plain : digits.head? = some '0' → number = 0 ∧ text = ['0']

theorem ReadsAs.single (decimal : digit.isDigit = true) :
    ReadsAs [digit] [digit] (digit.toNat - '0'.toNat) := by
  refine ⟨by rw [digits?, if_pos decimal], ?_, ?_⟩
  · simp [valueOf, digitValue_of_isDigit decimal]
  · intro zero
    cases Option.some.inj zero
    exact ⟨rfl, rfl⟩

/-- A digit more, whatever stands between it and the digits before. -/
theorem ReadsAs.append (reads : ReadsAs text digits number) (notZero : number ≠ 0)
    (decimal : digit.isDigit = true)
    (goesOn : ∀ last, last.isDigit = true →
      digits? Char.isDigit (last :: more) = some (last :: [digit])) :
    ReadsAs (text ++ more) (digits ++ [digit])
      (number * 10 + (digit.toNat - '0'.toNat)) := by
  refine ⟨digits?_append reads.read goesOn, ?_, ?_⟩
  · rw [valueOf, List.foldl_append, ← valueOf, reads.denotes, List.foldl_cons,
      List.foldl_nil, digitValue_of_isDigit decimal]
  · intro zero
    cases digits with
    | nil => exact absurd reads.denotes.symm notZero
    | cons first behind => exact absurd (reads.plain zero).1 notZero

theorem NaturalText.exists_readsAs (written : NaturalText text number) :
    ∃ digits, ReadsAs text digits number := by
  induction written with
  | digit decimal => exact ⟨_, .single decimal⟩
  | next _ notZero decimal ih =>
    obtain ⟨digits, reads⟩ := ih
    exact ⟨_, reads.append notZero decimal fun _ => digits?_pair decimal⟩
  | apart _ notZero decimal ih =>
    obtain ⟨digits, reads⟩ := ih
    exact ⟨_, reads.append notZero decimal fun _ => digits?_apart decimal⟩

/-- No superfluous zero stands in front of a natural number, and its digits denote
it. -/
theorem NaturalText.exists_plainDigits (written : NaturalText text number) :
    ∃ digits, plainDigits? text = some digits ∧ valueOf 10 digits = number := by
  obtain ⟨digits, reads⟩ := written.exists_readsAs
  refine ⟨digits, ?_, reads.denotes⟩
  simp only [plainDigits?, reads.read]
  exact if_neg fun superfluous => superfluous.2 (reads.plain superfluous.1).2

/-! ## The characters of numbers -/

/-- A natural number is written with digits and underscores. -/
theorem NaturalText.isDigit_or_underscore (written : NaturalText text number)
    {char : Char} (member : char ∈ text) : char.isDigit = true ∨ char = '_' := by
  induction written with
  | digit decimal =>
    rw [List.mem_singleton] at member
    exact .inl (member ▸ decimal)
  | next _ _ decimal ih =>
    rcases List.mem_append.1 member with member | member
    · exact ih member
    · rw [List.mem_singleton] at member
      exact .inl (member ▸ decimal)
  | apart _ _ decimal ih =>
    rcases List.mem_append.1 member with member | member
    · exact ih member
    · rw [List.mem_cons, List.mem_singleton] at member
      rcases member with rfl | rfl
      · exact .inr rfl
      · exact .inl decimal

theorem NaturalText.exists_cons (written : NaturalText text number) :
    ∃ digit rest, text = digit :: rest ∧ digit.isDigit = true := by
  induction written with
  | @digit digit decimal => exact ⟨digit, [], rfl, decimal⟩
  | next _ _ _ ih =>
    obtain ⟨digit, rest, rfl, decimal⟩ := ih
    exact ⟨digit, _, rfl, decimal⟩
  | apart _ _ _ ih =>
    obtain ⟨digit, rest, rfl, decimal⟩ := ih
    exact ⟨digit, _, rfl, decimal⟩

/-- A natural number begins with no sign. -/
theorem NaturalText.splitSign_eq (written : NaturalText text number) :
    splitSign text = (false, text) := by
  obtain ⟨digit, rest, rfl, decimal⟩ := written.exists_cons
  unfold splitSign
  split
  · next same =>
    cases same
    cases decimal
  · next same =>
    cases same
    cases decimal
  · rfl

/-- Whether a character may stand in an integer. -/
def isIntegerChar (char : Char) : Bool :=
  char.isDigit || char == '_' || char == '+' || char == '-'

theorem NaturalText.all_isIntegerChar (written : NaturalText text number) :
    text.all isIntegerChar = true := by
  rw [List.all_eq_true]
  intro char member
  rcases written.isDigit_or_underscore member with decimal | rfl
  · simp [isIntegerChar, decimal]
  · rfl

/-- An integer is written with digits, underscores and signs. -/
theorem IntegerText.all_isIntegerChar (written : IntegerText text value) :
    text.all isIntegerChar = true := by
  cases written with
  | plain natural => exact natural.all_isIntegerChar
  | plus natural => simp [natural.all_isIntegerChar, isIntegerChar]
  | minus natural => simp [natural.all_isIntegerChar, isIntegerChar]

/-- A text that an integer is not is told from it by one character. -/
theorem IntegerText.not_mem (written : IntegerText text value) (char : Char)
    (strange : isIntegerChar char = false) : char ∉ text := by
  intro member
  rw [List.all_eq_true.1 written.all_isIntegerChar char member] at strange
  cases strange

theorem IntegerText.ne_nil (written : IntegerText text value) : text ≠ [] := by
  cases written with
  | plain natural =>
    obtain ⟨digit, rest, rfl, -⟩ := natural.exists_cons
    exact List.cons_ne_nil _ _
  | plus => exact List.cons_ne_nil _ _
  | minus => exact List.cons_ne_nil _ _

/-- An integer begins with a character that may stand in it. -/
theorem IntegerText.exists_cons (written : IntegerText text value) :
    ∃ first rest, text = first :: rest ∧ ∀ other, isIntegerChar other = false →
      first ≠ other := by
  obtain ⟨first, rest, rfl⟩ := List.exists_cons_of_ne_nil written.ne_nil
  refine ⟨first, rest, rfl, ?_⟩
  rintro _ strange rfl
  exact written.not_mem first strange List.mem_cons_self

/-! ## Reading -/

theorem word?_toInt (word : Int64) : word? word.toInt = some word := by
  rw [word?, if_pos ⟨word.minValue_le_toInt, word.toInt_le⟩, Int64.ofInt_toInt]

/-- An integer has no mark of a base, so it is a sign and a natural number. -/
theorem IntegerText.integer?_eq (written : IntegerText text value) :
    integer? text = word? value := by
  unfold integer?
  split
  · exact absurd (by simp) (written.not_mem 'x' rfl)
  · exact absurd (by simp) (written.not_mem 'o' rfl)
  · exact absurd (by simp) (written.not_mem 'b' rfl)
  · cases written with
    | plain natural =>
      obtain ⟨digits, read, denotes⟩ := natural.exists_plainDigits
      simp [natural.splitSign_eq, read, denotes]
    | plus natural =>
      obtain ⟨digits, read, denotes⟩ := natural.exists_plainDigits
      simp [splitSign, read, denotes]
    | minus natural =>
      obtain ⟨digits, read, denotes⟩ := natural.exists_plainDigits
      simp [splitSign, read, denotes]

/-- The text of a signed word is read as that word. -/
theorem IntegerText.wordValue?_eq {word : Int64}
    (written : IntegerText text word.toInt) :
    wordValue? text = some (.integer word) := by
  have notTrue : text ≠ "true".toList := by
    rintro rfl
    exact absurd (by simp) (written.not_mem 't' rfl)
  have notFalse : text ≠ "false".toList := by
    rintro rfl
    exact absurd (by simp) (written.not_mem 'f' rfl)
  rw [wordValue?, if_neg notTrue, if_neg notFalse, written.integer?_eq, word?_toInt]

/-! ## Writing -/

theorem naturalText_toDigits (number : Nat) :
    NaturalText (Nat.toDigits 10 number) number := by
  induction number using Nat.strongRecOn with
  | _ number ih =>
    have decimal (digit : Nat) (small : digit < 10) :
        (Nat.digitChar digit).isDigit = true := by
      revert digit
      decide
    have denotes (digit : Nat) (small : digit < 10) :
        (Nat.digitChar digit).toNat - '0'.toNat = digit := by
      revert digit
      decide
    by_cases small : number < 10
    · rw [Nat.toDigits_of_lt_base small]
      have written := NaturalText.digit (decimal number small)
      rwa [denotes number small] at written
    · have last : number % 10 < 10 := Nat.mod_lt _ (by decide)
      rw [Nat.toDigits_eq_if (by decide), if_neg small]
      have written := (ih (number / 10) (by omega)).next (by omega) (decimal _ last)
      rwa [denotes _ last, Nat.div_add_mod'] at written

end Metainfo.Toml
