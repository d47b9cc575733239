import Metainfo.Bencode.Error
import Metainfo.Proofs.Json.Reading
import Metainfo.Proofs.Quoted

/-!
# What messages tell

Of an error only its message is shown and logged.  A message begins with words by which
the kind of the error is known; what follows them are numbers, each ended by something
that is no digit, and a text that is quoted or stands last.  Main statement: errors with
the same message are the same.
-/

namespace Metainfo.Bencode

/-- The kinds of errors. -/
inductive ErrorKind where
  | unexpectedEnd
  | malformedInteger
  | malformedStringLength
  | truncatedString
  | unterminatedList
  | unterminatedDictionary
  | nonStringKey
  | unknownTypePrefix
  | trailingData
  | depthLimitExceeded
  | duplicateKey
  deriving DecidableEq

/-- The words with which the messages of a kind begin. -/
def ErrorKind.lead : ErrorKind → String
  | .unexpectedEnd => "Unexpected end of input at byte "
  | .malformedInteger => "Malformed integer at byte "
  | .malformedStringLength => "Malformed string length at byte "
  | .truncatedString => "Truncated string at byte "
  | .unterminatedList => "Unterminated list starting at byte "
  | .unterminatedDictionary => "Unterminated dictionary starting at byte "
  | .nonStringKey => "Non-string dictionary key at byte "
  | .unknownTypePrefix => "Unknown type prefix "
  | .trailingData => "Trailing data at byte "
  | .depthLimitExceeded => "Nesting deeper than "
  | .duplicateKey => "Duplicate dictionary key "

/-- No kind has words that begin with those of another. -/
theorem ErrorKind.eq_of_lead_prefix {kind other : ErrorKind} :
    kind.lead.toList <+: other.lead.toList → kind = other := by
  cases kind <;> cases other <;> decide

/-! ## Numbers -/

section Numbers

variable {number other : Nat} {literal rest more : List Char}

theorem toDigits_append_inj (ends : Json.Ends rest) (otherEnds : Json.Ends more)
    (same : Nat.toDigits 10 number ++ rest = Nat.toDigits 10 other ++ more) :
    number = other ∧ rest = more := by
  have read := Json.readNatural?_toDigits number ends
  rw [same, Json.readNatural?_toDigits other otherEnds, Option.some.injEq,
    Prod.mk.injEq] at read
  exact ⟨read.1.symm, read.2.symm⟩

theorem toDigits_inj (same : Nat.toDigits 10 number = Nat.toDigits 10 other) :
    number = other := by
  have ends : Json.Ends [] := nofun
  rw [← List.append_nil (Nat.toDigits 10 number),
    ← List.append_nil (Nat.toDigits 10 other)] at same
  exact (toDigits_append_inj ends ends same).1

/-- A number is known from its digits where words follow that begin with something
else. -/
theorem toDigits_literal_inj
    (stops : literal.head?.any (fun char => !char.isDigit) = true)
    (same : Nat.toDigits 10 number ++ (literal ++ rest) =
      Nat.toDigits 10 other ++ (literal ++ more)) :
    number = other ∧ rest = more := by
  have ends (behind : List Char) : Json.Ends (literal ++ behind) := by
    cases literal with
    | nil => cases stops
    | cons char literal => exact Json.ends_cons (by simpa using stops) _
  obtain ⟨equal, behind⟩ := toDigits_append_inj (ends rest) (ends more) same
  exact ⟨equal, List.append_cancel_left behind⟩

theorem digit_inj {nibble other : Nat} (small : nibble < 16) (otherSmall : other < 16)
    (same : Hex.digit nibble = Hex.digit other) : nibble = other := by
  have value := Json.hexValue?_digit small
  rw [same, Json.hexValue?_digit otherSmall] at value
  exact (Option.some.inj value).symm

theorem octet_inj {byte other : UInt8} (same : Hex.octet byte = Hex.octet other) :
    byte = other := by
  simp only [Hex.octet, List.cons.injEq, and_true] at same
  have range := byte.toNat_lt
  have otherRange := other.toNat_lt
  have high := digit_inj (by omega) (by omega) same.1
  have low := digit_inj (by omega) (by omega) same.2
  exact UInt8.toNat_inj.1 (by omega)

theorem toList_byteText (byte : UInt8) :
    (DecodeError.byteText byte).toList = '0' :: 'x' :: Hex.octet byte := by
  rw [DecodeError.byteText, Hex.encode, List.flatMap_singleton, String.toList_append,
    String.toList_ofList, String.toList_ofList]
  rfl

/-- An octet is known from its two digits, whatever follows them. -/
theorem byteText_append_inj {byte other : UInt8}
    (same : (DecodeError.byteText byte).toList ++ rest =
      (DecodeError.byteText other).toList ++ more) :
    byte = other ∧ rest = more := by
  rw [toList_byteText, toList_byteText] at same
  obtain ⟨digits, behind⟩ := List.append_inj same rfl
  simp only [List.cons.injEq, true_and] at digits
  exact ⟨octet_inj digits, behind⟩

end Numbers

/-! ## Messages -/

namespace DecodeError

/-- The kind of an error. -/
def kind : DecodeError → ErrorKind
  | .unexpectedEnd _ => .unexpectedEnd
  | .malformedInteger _ _ => .malformedInteger
  | .malformedStringLength _ _ => .malformedStringLength
  | .truncatedString _ _ _ => .truncatedString
  | .unterminatedList _ => .unterminatedList
  | .unterminatedDictionary _ => .unterminatedDictionary
  | .nonStringKey _ => .nonStringKey
  | .unknownTypePrefix _ _ => .unknownTypePrefix
  | .trailingData _ _ => .trailingData
  | .depthLimitExceeded _ _ => .depthLimitExceeded
  | .duplicateKey _ _ => .duplicateKey

/-- What a message tells after the words of its kind. -/
def details : DecodeError → List Char
  | .unexpectedEnd offset | .unterminatedList offset | .unterminatedDictionary offset
  | .nonStringKey offset => Nat.toDigits 10 offset
  | .malformedInteger offset reason | .malformedStringLength offset reason =>
      Nat.toDigits 10 offset ++ (": ".toList ++ reason.toList)
  | .truncatedString offset declared available =>
      Nat.toDigits 10 offset ++ (": declared ".toList ++ (Nat.toDigits 10 declared ++
        (" bytes, ".toList ++ (Nat.toDigits 10 available ++ " available".toList))))
  | .unknownTypePrefix offset byte =>
      (byteText byte).toList ++ (" at byte ".toList ++ Nat.toDigits 10 offset)
  | .trailingData offset remaining =>
      Nat.toDigits 10 offset ++ (": ".toList ++ (Nat.toDigits 10 remaining ++
        " bytes left after the top-level value".toList))
  | .depthLimitExceeded offset limit =>
      Nat.toDigits 10 limit ++ (" levels at byte ".toList ++ Nat.toDigits 10 offset)
  | .duplicateKey offset key =>
      (Text.quoted key).toList ++ (" at byte ".toList ++ Nat.toDigits 10 offset)

theorem toList_message (error : DecodeError) :
    error.message.toList = error.kind.lead.toList ++ error.details := by
  unfold message
  cases error <;>
    simp only [toString, String.toList_append, Nat.toList_repr, List.append_assoc, kind,
      ErrorKind.lead, details]

/-- An error is known from its kind and what its message tells besides. -/
theorem eq_of_details_eq {left right : DecodeError} (kinds : left.kind = right.kind)
    (same : left.details = right.details) : left = right := by
  cases left with
  | unexpectedEnd offset =>
    cases right with
    | unexpectedEnd other => rw [toDigits_inj same]
    | _ => cases kinds
  | malformedInteger offset reason =>
    cases right with
    | malformedInteger other otherReason =>
      obtain ⟨rfl, reasons⟩ := toDigits_literal_inj (by decide) same
      rw [String.toList_inj.1 reasons]
    | _ => cases kinds
  | malformedStringLength offset reason =>
    cases right with
    | malformedStringLength other otherReason =>
      obtain ⟨rfl, reasons⟩ := toDigits_literal_inj (by decide) same
      rw [String.toList_inj.1 reasons]
    | _ => cases kinds
  | truncatedString offset declared available =>
    cases right with
    | truncatedString other otherDeclared otherAvailable =>
      obtain ⟨rfl, behindOffset⟩ := toDigits_literal_inj (by decide) same
      obtain ⟨rfl, behindDeclared⟩ := toDigits_literal_inj (by decide) behindOffset
      rw [toDigits_inj (List.append_cancel_right behindDeclared)]
    | _ => cases kinds
  | unterminatedList offset =>
    cases right with
    | unterminatedList other => rw [toDigits_inj same]
    | _ => cases kinds
  | unterminatedDictionary offset =>
    cases right with
    | unterminatedDictionary other => rw [toDigits_inj same]
    | _ => cases kinds
  | nonStringKey offset =>
    cases right with
    | nonStringKey other => rw [toDigits_inj same]
    | _ => cases kinds
  | unknownTypePrefix offset byte =>
    cases right with
    | unknownTypePrefix other otherByte =>
      obtain ⟨rfl, behind⟩ := byteText_append_inj same
      rw [toDigits_inj (List.append_cancel_left behind)]
    | _ => cases kinds
  | trailingData offset remaining =>
    cases right with
    | trailingData other otherRemaining =>
      obtain ⟨rfl, behind⟩ := toDigits_literal_inj (by decide) same
      rw [toDigits_inj (List.append_cancel_right behind)]
    | _ => cases kinds
  | depthLimitExceeded offset limit =>
    cases right with
    | depthLimitExceeded other otherLimit =>
      obtain ⟨rfl, behind⟩ := toDigits_literal_inj (by decide) same
      rw [toDigits_inj behind]
    | _ => cases kinds
  | duplicateKey offset key =>
    cases right with
    | duplicateKey other otherKey =>
      obtain ⟨rfl, behind⟩ := Text.quoted_append_inj same
      rw [toDigits_inj (List.append_cancel_left behind)]
    | _ => cases kinds

/-- Errors have the same message only if they are the same.  A quoted key is known
whatever follows it, so that no key can be mistaken for one with some of the text after
it. -/
theorem message_eq_iff :
    (∀ left right : DecodeError, left.message = right.message ↔ left = right) ∧
    ∀ key other rest more : String,
      Text.quoted key ++ rest = Text.quoted other ++ more ↔
        key = other ∧ rest = more := by
  constructor
  · intro left right
    refine ⟨fun same => ?_, congrArg message⟩
    have texts := congrArg String.toList same
    rw [toList_message, toList_message] at texts
    have kinds : left.kind = right.kind := by
      have behindLeft := List.prefix_append left.kind.lead.toList left.details
      have behindRight := List.prefix_append right.kind.lead.toList right.details
      rw [texts] at behindLeft
      rcases List.prefix_or_prefix_of_prefix behindLeft behindRight with begins | begins
      · exact ErrorKind.eq_of_lead_prefix begins
      · exact (ErrorKind.eq_of_lead_prefix begins).symm
    rw [kinds] at texts
    exact eq_of_details_eq kinds (List.append_cancel_left texts)
  · intro key other rest more
    constructor
    · intro same
      have texts := congrArg String.toList same
      rw [String.toList_append, String.toList_append] at texts
      obtain ⟨keys, behind⟩ := Text.quoted_append_inj texts
      exact ⟨keys, String.toList_inj.1 behind⟩
    · rintro ⟨rfl, rfl⟩
      rfl

end DecodeError

end Metainfo.Bencode
