import Metainfo.Text.Utf8

/-!
# Native texts

Paths and the words of a command line are octets to the system.  Mostly they are
UTF-8, but they need not be, so they are taken as they are.  Only where one is
shown, each stretch of it that is no UTF-8 is replaced by U+FFFD.
-/

namespace Metainfo

/-- Octets that the system hands over as a text. -/
structure NativeText where
  octets : Bytes
  deriving DecidableEq, Repr

namespace NativeText

/-- The UTF-8 form of a text. -/
def ofString (text : String) : NativeText := ⟨Bytes.ofString text⟩

instance : Coe String NativeText := ⟨ofString⟩

instance : Coe (List String) (List NativeText) := ⟨List.map ofString⟩

/-- The text as it is shown. -/
def display (native : NativeText) : String :=
  Utf8.decodeLossy native.octets

end NativeText

end Metainfo
