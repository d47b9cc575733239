import Metainfo.Text.Combining
import Metainfo.Text.Hex
import Metainfo.Text.Unprintable

/-!
# Quoted text

A text is quoted so that its end and every character in it can be told: between double
quotes, with a backslash before a double quote or a backslash, short escapes for tab,
line feed, carriage return and NUL, and `\u{…}` with the hexadecimal code for other
characters that would not show on their own.
-/

namespace Metainfo.Text

/-- The form of one character between quotes. -/
def quotedChar (char : Char) : List Char :=
  if char = '\x00' then ['\\', '0']
  else if char = '\t' then ['\\', 't']
  else if char = '\r' then ['\\', 'r']
  else if char = '\n' then ['\\', 'n']
  else if char = '\\' then ['\\', '\\']
  else if char = '"' then ['\\', '"']
  else if isCombining char || isUnprintable char then
    ['\\', 'u', '\x7b'] ++ Hex.number char.toNat ++ ['\x7d']
  else [char]

/-- A text between double quotes. -/
def quoted (text : String) : String :=
  String.ofList ('"' :: text.toList.flatMap quotedChar ++ ['"'])

end Metainfo.Text
