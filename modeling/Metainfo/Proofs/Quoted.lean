import Mathlib.Tactic.SplitIfs
import Metainfo.Text.Quoted

/-!
# Quoted text

The form of a character between quotes is read back with nothing known of what follows
it, and no form begins with a quote.  Main statement: a quoted text can be told from
what follows it, whatever quotes, backslashes and control characters it contains.
-/

namespace Metainfo.Hex

/-- The number that hexadecimal digits denote. -/
def value (digits : List Char) : Nat :=
  digits.foldl (fun number digit => number * 16 + Hex.digits.idxOf digit) 0

theorem value_concat (front : List Char) (last : Char) :
    value (front ++ [last]) = value front * 16 + Hex.digits.idxOf last := by
  rw [value, List.foldl_append]
  rfl

theorem idxOf_digitChar {nibble : Nat} (small : nibble < 16) :
    Hex.digits.idxOf nibble.digitChar = nibble := by
  revert nibble
  decide

/-- The digits of a number denote it. -/
theorem value_number (number : Nat) : value (Hex.number number) = number := by
  induction number using Nat.strongRecOn with
  | _ number ih =>
    by_cases small : number < 16
    · rw [Hex.number, Nat.toDigits_of_lt_base small, ← List.nil_append [_],
        value_concat, idxOf_digitChar small]
      exact Nat.zero_add number
    · have front := ih (number / 16) (by omega)
      rw [Hex.number] at front ⊢
      rw [Nat.toDigits_eq_if (by decide), if_neg small, value_concat, front,
        idxOf_digitChar (Nat.mod_lt _ (by decide))]
      omega

theorem digitChar_ne_brace (nibble : Nat) : nibble.digitChar ≠ '\x7d' :=
  Nat.digitChar_ne '\x7d' (by decide)

/-- No digit of a number is a brace. -/
theorem ne_brace_of_mem_number {number : Nat} {digit : Char}
    (member : digit ∈ Hex.number number) : digit ≠ '\x7d' := by
  induction number using Nat.strongRecOn with
  | _ number ih =>
    rw [Hex.number, Nat.toDigits_eq_if (by decide)] at member
    split at member
    · rw [List.mem_singleton.1 member]
      exact digitChar_ne_brace number
    · rcases List.mem_append.1 member with front | last
      · exact ih (number / 16) (by omega) front
      · rw [List.mem_singleton.1 last]
        exact digitChar_ne_brace (number % 16)

end Metainfo.Hex

namespace Metainfo.Text

/-- The character for which a letter stands behind a backslash. -/
def shortEscape? : Char → Option Char
  | '0' => some '\x00'
  | 't' => some '\t'
  | 'r' => some '\r'
  | 'n' => some '\n'
  | '\\' => some '\\'
  | '"' => some '"'
  | _ => none

/-- Reads what follows a backslash. -/
def readEscape? : List Char → Option (Char × List Char)
  | [] => none
  | letter :: rest =>
      if letter = 'u' then
        some (Char.ofNat (Hex.value (rest.tail.takeWhile (· ≠ '\x7d'))),
          (rest.tail.dropWhile (· ≠ '\x7d')).tail)
      else (shortEscape? letter).map fun char => (char, rest)

/-- Reads the form of one character between quotes. -/
def readQuotedChar? : List Char → Option (Char × List Char)
  | [] => none
  | char :: rest =>
      if char = '"' then none
      else if char = '\\' then readEscape? rest
      else some (char, rest)

/-- A character is read from its code between braces. -/
theorem readEscape?_number (char : Char) (rest : List Char) :
    readEscape? ('u' :: '\x7b' :: (Hex.number char.toNat ++ '\x7d' :: rest)) =
      some (char, rest) := by
  have digits : ∀ digit ∈ Hex.number char.toNat, decide (digit ≠ '\x7d') = true :=
    fun digit member => decide_eq_true (Hex.ne_brace_of_mem_number member)
  rw [readEscape?, if_pos rfl, List.tail_cons, List.takeWhile_append_of_pos digits,
    List.dropWhile_append_of_pos digits, List.takeWhile_cons_of_neg (by decide),
    List.dropWhile_cons_of_neg (by decide), List.append_nil, Hex.value_number,
    Char.ofNat_toNat, List.tail_cons]

/-- A character is read from its form between quotes. -/
theorem readQuotedChar?_quotedChar (char : Char) (rest : List Char) :
    readQuotedChar? (quotedChar char ++ rest) = some (char, rest) := by
  unfold quotedChar
  split_ifs with nul tab return_ feed backslash quote hidden
  · rw [nul]; rfl
  · rw [tab]; rfl
  · rw [return_]; rfl
  · rw [feed]; rfl
  · rw [backslash]; rfl
  · rw [quote]; rfl
  · rw [List.append_assoc, List.append_assoc]
    exact readEscape?_number char rest
  · rw [List.singleton_append, readQuotedChar?, if_neg quote, if_neg backslash]

/-- The forms of characters and the quote behind them can be told from what follows. -/
theorem flatMap_quotedChar_inj {chars others rest more : List Char}
    (same : chars.flatMap quotedChar ++ '"' :: rest =
      others.flatMap quotedChar ++ '"' :: more) :
    chars = others ∧ rest = more := by
  induction chars generalizing others with
  | nil =>
    cases others with
    | nil => exact ⟨rfl, (List.cons.inj same).2⟩
    | cons other others =>
      have read :=
        readQuotedChar?_quotedChar other (others.flatMap quotedChar ++ '"' :: more)
      rw [← List.append_assoc, ← List.flatMap_cons, ← same] at read
      cases read
  | cons char chars ih =>
    have read :=
      readQuotedChar?_quotedChar char (chars.flatMap quotedChar ++ '"' :: rest)
    rw [← List.append_assoc, ← List.flatMap_cons, same] at read
    cases others with
    | nil => cases read
    | cons other others =>
      rw [List.flatMap_cons, List.append_assoc, readQuotedChar?_quotedChar,
        Option.some.injEq, Prod.mk.injEq] at read
      obtain ⟨rfl, behind⟩ := read
      obtain ⟨rfl, tail⟩ := ih behind.symm
      exact ⟨rfl, tail⟩

theorem toList_quoted (text : String) :
    (quoted text).toList = '"' :: (text.toList.flatMap quotedChar ++ ['"']) := by
  rw [quoted, String.toList_ofList, List.cons_append]

/-- A quoted text can be told from what follows it. -/
theorem quoted_append_inj {text other : String} {rest more : List Char}
    (same : (quoted text).toList ++ rest = (quoted other).toList ++ more) :
    text = other ∧ rest = more := by
  simp only [toList_quoted, List.cons_append, List.append_assoc, List.cons.injEq,
    true_and, List.nil_append] at same
  obtain ⟨chars, behind⟩ := flatMap_quotedChar_inj same
  exact ⟨String.toList_inj.1 chars, behind⟩

-- What a key holds of the text after keys is escaped, so it does not end the key.
example : quoted "a\" at byte 7\n" = "\"a\\\" at byte 7\\n\"" := by decide +kernel

end Metainfo.Text
