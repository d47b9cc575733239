import Metainfo.Decimal
import Metainfo.Text.Quoted

/-!
# Decode errors

Every error names its cause and the offset of the octet at which it was found.  The
message of an error tells both, and a key inside it is quoted, so that no key can be
mistaken for the text after it.
-/

namespace Metainfo.Bencode

/-- What is wrong with an input, and at which offset. -/
inductive DecodeError where
  /-- A value was expected where the input ends. -/
  | unexpectedEnd (offset : Nat)
  /-- The integer beginning at the offset has no canonical text or no end. -/
  | malformedInteger (offset : Nat) (reason : String)
  /-- The length of a byte string is not written as it should be. -/
  | malformedStringLength (offset : Nat) (reason : String)
  /-- The byte string beginning at the offset declares more octets than there are. -/
  | truncatedString (offset declared available : Nat)
  /-- The list beginning at the offset has no end. -/
  | unterminatedList (offset : Nat)
  /-- The dictionary beginning at the offset has no end. -/
  | unterminatedDictionary (offset : Nat)
  /-- A dictionary key is not a byte string. -/
  | nonStringKey (offset : Nat)
  /-- No value begins with this octet. -/
  | unknownTypePrefix (offset : Nat) (byte : UInt8)
  /-- Octets follow the value. -/
  | trailingData (offset remaining : Nat)
  /-- The list or dictionary beginning at the offset lies deeper than the limit
  allows. -/
  | depthLimitExceeded (offset limit : Nat)
  /-- The key beginning at the offset occurred before in the same dictionary. -/
  | duplicateKey (offset : Nat) (key : String)
  deriving DecidableEq, Repr

namespace DecodeError

/-- The offset at which the error was found. -/
def offset : DecodeError → Nat
  | .unexpectedEnd offset => offset
  | .malformedInteger offset _ => offset
  | .malformedStringLength offset _ => offset
  | .truncatedString offset _ _ => offset
  | .unterminatedList offset => offset
  | .unterminatedDictionary offset => offset
  | .nonStringKey offset => offset
  | .unknownTypePrefix offset _ => offset
  | .trailingData offset _ => offset
  | .depthLimitExceeded offset _ => offset
  | .duplicateKey offset _ => offset

/-- An octet as a hexadecimal number of two digits. -/
def byteText (byte : UInt8) : String :=
  "0x" ++ Hex.encode [byte]

/-- The message of an error. -/
def message : DecodeError → String
  | .unexpectedEnd offset => s!"Unexpected end of input at byte {offset}"
  | .malformedInteger offset reason => s!"Malformed integer at byte {offset}: {reason}"
  | .malformedStringLength offset reason =>
      s!"Malformed string length at byte {offset}: {reason}"
  | .truncatedString offset declared available =>
      s!"Truncated string at byte {offset}: declared {declared} bytes, " ++
        s!"{available} available"
  | .unterminatedList offset => s!"Unterminated list starting at byte {offset}"
  | .unterminatedDictionary offset =>
      s!"Unterminated dictionary starting at byte {offset}"
  | .nonStringKey offset => s!"Non-string dictionary key at byte {offset}"
  | .unknownTypePrefix offset byte =>
      "Unknown type prefix " ++ byteText byte ++ s!" at byte {offset}"
  | .trailingData offset remaining =>
      s!"Trailing data at byte {offset}: " ++
        s!"{remaining} bytes left after the top-level value"
  | .depthLimitExceeded offset limit =>
      s!"Nesting deeper than {limit} levels at byte {offset}"
  | .duplicateKey offset key =>
      "Duplicate dictionary key " ++ Text.quoted key ++ s!" at byte {offset}"

end DecodeError

end Metainfo.Bencode
