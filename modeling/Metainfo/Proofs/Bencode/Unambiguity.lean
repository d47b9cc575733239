import Metainfo.Proofs.Bencode.Grammar

/-!
# Where a text ends

Texts of the grammar carry their end with them: an integer ends at the first mark of an
end, a byte string after as many octets as its length says, and lists and dictionaries
at a mark with which no value begins.  So what begins with the text of a value
determines the value and the end of its text.
-/

namespace Metainfo.Bencode

/-- The octets of the text of an integer are digits, or a minus sign in front of
them. -/
theorem IntegerText.digit_or_minus {text : Bytes} (integer : IntegerText text) :
    ∀ byte ∈ text, byte = Integer.minus ∨ Decimal.isDigit byte = true := by
  have ofPositive {digits : Bytes} (positive : PositiveText digits) :
      ∀ byte ∈ digits, Decimal.isDigit byte = true := by
    cases positive with
    | intro digit nonzero all => exact List.forall_mem_cons.2 ⟨digit, all⟩
  cases integer with
  | zero => simp [Decimal.isDigit]
  | positive positive => exact fun byte member => .inr (ofPositive positive byte member)
  | negative positive =>
    rw [List.forall_mem_cons]
    exact ⟨.inl rfl, fun byte member => .inr (ofPositive positive byte member)⟩

/-- The mark at the end of an integer occurs nowhere in its text. -/
theorem text_ne_finish (number : Integer) :
    ∀ byte ∈ number.text, (byte != Mark.finish) = true := by
  intro byte member
  rw [bne_iff_ne]
  rintro rfl
  rcases (integerText_iff.2 number.canonical).digit_or_minus _ member with minus | digit
  · exact absurd minus (by decide)
  · exact absurd digit (by decide)

theorem takeWhile_integer (number : Integer) (rest : Bytes) :
    (number.text ++ Mark.finish :: rest).takeWhile (· != Mark.finish) =
      number.text := by
  rw [List.takeWhile_append_of_pos (text_ne_finish number),
    List.takeWhile_cons_of_neg (by simp), List.append_nil]

theorem dropWhile_integer (number : Integer) (rest : Bytes) :
    (number.text ++ Mark.finish :: rest).dropWhile (· != Mark.finish) =
      Mark.finish :: rest := by
  rw [List.dropWhile_append_of_pos (text_ne_finish number),
    List.dropWhile_cons_of_neg (by simp)]

theorem takeWhile_length (number : Nat) (rest : Bytes) :
    (Decimal.ofNat number ++ Mark.colon :: rest).takeWhile Decimal.isDigit =
      Decimal.ofNat number := by
  have digits := List.all_eq_true.1 (Decimal.all_isDigit_ofNat number)
  rw [List.takeWhile_append_of_pos digits, List.takeWhile_cons_of_neg (by decide),
    List.append_nil]

theorem dropWhile_length (number : Nat) (rest : Bytes) :
    (Decimal.ofNat number ++ Mark.colon :: rest).dropWhile Decimal.isDigit =
      Mark.colon :: rest := by
  have digits := List.all_eq_true.1 (Decimal.all_isDigit_ofNat number)
  rw [List.dropWhile_append_of_pos digits, List.dropWhile_cons_of_neg (by decide)]

/-- The length in front of a byte string tells where it ends. -/
theorem encodeString_append_inj {left right rest tail : Bytes}
    (same : encodeString left ++ rest = encodeString right ++ tail) :
    left = right ∧ rest = tail := by
  simp only [encodeString, List.append_assoc, List.cons_append] at same
  have digits := congrArg (List.takeWhile Decimal.isDigit) same
  rw [takeWhile_length, takeWhile_length] at digits
  have length := congrArg Decimal.value digits
  rw [Decimal.value_ofNat, Decimal.value_ofNat] at length
  have bytes := congrArg (List.dropWhile Decimal.isDigit) same
  rw [dropWhile_length, dropWhile_length, List.cons_inj_right] at bytes
  exact List.append_inj bytes length

namespace Value

/-- The kind of the value that begins with an octet. -/
def kindOf (byte : UInt8) : Kind :=
  if byte = Mark.integer then .integer
  else if byte = Mark.list then .list
  else if byte = Mark.dictionary then .dictionary
  else .byteString

/-- The first octet of a canonical form tells the kind, and it is not the mark of an
end. -/
theorem exists_encode_eq_cons (value : Value) :
    ∃ first rest, value.encode = first :: rest ∧ kindOf first = value.kind ∧
      first ≠ Mark.finish := by
  cases value with
  | byteString bytes =>
    obtain ⟨first, digits, number⟩ :=
      List.exists_cons_of_ne_nil (Decimal.ofNat_ne_nil bytes.length)
    have digit : Decimal.isDigit first = true := by
      apply List.all_eq_true.1 (Decimal.all_isDigit_ofNat bytes.length)
      simp [number]
    have other (mark : UInt8) (noDigit : Decimal.isDigit mark = false) :
        first ≠ mark := by
      rintro rfl
      simp [noDigit] at digit
    refine ⟨first, digits ++ Mark.colon :: bytes, ?_, ?_, other Mark.finish (by decide)⟩
    · rw [encode_byteString, encodeString, number, List.cons_append]
    · rw [kindOf, if_neg (other Mark.integer (by decide)),
        if_neg (other Mark.list (by decide)),
        if_neg (other Mark.dictionary (by decide)), kind]
  | integer number => exact ⟨_, _, encode_integer number, rfl, by decide⟩
  | list items => exact ⟨_, _, encode_list items, rfl, by decide⟩
  | dictionary entries => exact ⟨_, _, encode_dictionary entries, rfl, by decide⟩

/-- What begins with one canonical form begins with no canonical form of another
kind. -/
theorem kind_eq_of_encode_append {left right : Value} {rest tail : Bytes}
    (same : left.encode ++ rest = right.encode ++ tail) : left.kind = right.kind := by
  obtain ⟨leftFirst, leftRest, leftText, leftKind, -⟩ := exists_encode_eq_cons left
  obtain ⟨rightFirst, rightRest, rightText, rightKind, -⟩ := exists_encode_eq_cons right
  rw [leftText, rightText, List.cons_append, List.cons_append, List.cons.injEq] at same
  rw [← leftKind, ← rightKind, same.1]

/-- No value begins with the mark of an end. -/
theorem encode_append_ne_finish (value : Value) (rest tail : Bytes) :
    value.encode ++ rest ≠ Mark.finish :: tail := by
  obtain ⟨first, text, cons, -, notFinish⟩ := exists_encode_eq_cons value
  rw [cons, List.cons_append]
  intro same
  exact notFinish (List.cons.inj same).1

/-- The items of a list can be told apart if each of them can be told from what
follows. -/
theorem flatMap_encode_inj {items others : List Value} {rest tail : Bytes}
    (each : ∀ item ∈ items, ∀ (other : Value) (rest tail : Bytes),
      item.encode ++ rest = other.encode ++ tail → item = other ∧ rest = tail)
    (same : items.flatMap encode ++ Mark.finish :: rest =
      others.flatMap encode ++ Mark.finish :: tail) :
    items = others ∧ rest = tail := by
  induction items generalizing others with
  | nil =>
    cases others with
    | nil => simpa using same
    | cons other others =>
      rw [List.flatMap_cons, List.append_assoc] at same
      exact (encode_append_ne_finish _ _ _ same.symm).elim
  | cons item items ih =>
    rw [List.forall_mem_cons] at each
    cases others with
    | nil =>
      rw [List.flatMap_cons, List.append_assoc] at same
      exact (encode_append_ne_finish _ _ _ same).elim
    | cons other others =>
      rw [List.flatMap_cons, List.flatMap_cons, List.append_assoc, List.append_assoc]
        at same
      obtain ⟨rfl, sameRest⟩ := each.1 other _ _ same
      obtain ⟨rfl, rfl⟩ := ih each.2 sameRest
      exact ⟨rfl, rfl⟩

/-- The entries of a dictionary can be told apart if each value can be told from what
follows. -/
theorem flatMap_entries_inj {entries others : List (Bytes × Value)} {rest tail : Bytes}
    (each : ∀ entry ∈ entries, ∀ (other : Value) (rest tail : Bytes),
      entry.2.encode ++ rest = other.encode ++ tail → entry.2 = other ∧ rest = tail)
    (same : entries.flatMap (fun entry => encodeString entry.1 ++ entry.2.encode) ++
        Mark.finish :: rest =
      others.flatMap (fun entry => encodeString entry.1 ++ entry.2.encode) ++
        Mark.finish :: tail) :
    entries = others ∧ rest = tail := by
  induction entries generalizing others with
  | nil =>
    cases others with
    | nil => simpa using same
    | cons other others =>
      rw [List.flatMap_cons, List.append_assoc, List.append_assoc, ← encode_byteString]
        at same
      exact (encode_append_ne_finish _ _ _ same.symm).elim
  | cons entry entries ih =>
    rw [List.forall_mem_cons] at each
    cases others with
    | nil =>
      rw [List.flatMap_cons, List.append_assoc, List.append_assoc, ← encode_byteString]
        at same
      exact (encode_append_ne_finish _ _ _ same).elim
    | cons other others =>
      obtain ⟨key, value⟩ := entry
      obtain ⟨otherKey, otherValue⟩ := other
      simp only [List.flatMap_cons, List.append_assoc] at same
      obtain ⟨rfl, sameValue⟩ := encodeString_append_inj same
      obtain ⟨rfl, sameRest⟩ := each.1 otherValue _ _ sameValue
      obtain ⟨rfl, rfl⟩ := ih each.2 sameRest
      exact ⟨rfl, rfl⟩

/-- What begins with a canonical form tells the value and where its text ends. -/
theorem encode_append_inj {left right : Value} {rest tail : Bytes}
    (same : left.encode ++ rest = right.encode ++ tail) :
    left = right ∧ rest = tail := by
  induction left using parts_induction generalizing right rest tail with
  | byteString bytes =>
    cases right with
    | byteString others =>
      rw [encode_byteString, encode_byteString] at same
      obtain ⟨rfl, rfl⟩ := encodeString_append_inj same
      exact ⟨rfl, rfl⟩
    | integer | list | dictionary => cases kind_eq_of_encode_append same
  | integer number =>
    cases right with
    | integer other =>
      rw [encode_integer, encode_integer] at same
      simp only [List.cons_append, List.append_assoc, List.cons.injEq, true_and,
        List.nil_append] at same
      have text := congrArg (List.takeWhile (· != Mark.finish)) same
      rw [takeWhile_integer, takeWhile_integer] at text
      have after := congrArg (List.dropWhile (· != Mark.finish)) same
      rw [dropWhile_integer, dropWhile_integer] at after
      cases number
      cases other
      exact ⟨by simpa using text, by simpa using after⟩
    | byteString | list | dictionary => cases kind_eq_of_encode_append same
  | list items ih =>
    cases right with
    | list others =>
      rw [encode_list, encode_list] at same
      simp only [List.cons_append, List.append_assoc, List.cons.injEq, true_and,
        List.nil_append] at same
      obtain ⟨rfl, rfl⟩ :=
        flatMap_encode_inj (fun item member _ _ _ => ih item member) same
      exact ⟨rfl, rfl⟩
    | byteString | integer | dictionary => cases kind_eq_of_encode_append same
  | dictionary entries ih =>
    cases right with
    | dictionary others =>
      rw [encode_dictionary, encode_dictionary] at same
      simp only [List.cons_append, List.append_assoc, List.cons.injEq, true_and,
        List.nil_append] at same
      obtain ⟨rfl, rfl⟩ :=
        flatMap_entries_inj (fun entry member _ _ _ => ih entry member) same
      exact ⟨rfl, rfl⟩
    | byteString | integer | list => cases kind_eq_of_encode_append same

theorem encode_injective {left right : Value} (same : left.encode = right.encode) :
    left = right := by
  have empty : left.encode ++ [] = right.encode ++ [] := by rw [same]
  exact (encode_append_inj empty).1

end Value

/-- A text is that of one value only. -/
theorem Spells.unique {text : Bytes} {left right : Value}
    (spellsLeft : Spells text left) (spellsRight : Spells text right) : left = right :=
  Value.encode_injective
    ((spells_iff.1 spellsLeft).1.symm.trans (spells_iff.1 spellsRight).1)

/-- A text denotes one value at most. -/
theorem Derives.unique {text : Bytes} {left right : Value}
    (derivesLeft : Derives text left) (derivesRight : Derives text right) :
    left = right := by
  obtain ⟨written, spelled, rearranged, ordered⟩ := derivesLeft
  obtain ⟨other, otherSpelled, otherRearranged, otherOrdered⟩ := derivesRight
  obtain rfl := spelled.unique otherSpelled
  exact (rearranged.eq_sorted ordered).trans
    (otherRearranged.eq_sorted otherOrdered).symm

end Metainfo.Bencode
