import Metainfo.Bencode.Decode

/-!
# Limits

How large a torrent file may be and how deep its values may lie inside each other.
-/

namespace Metainfo

/-- The limits under which torrents are read. -/
structure Limits where
  /-- The greatest number of octets of a file. -/
  maxFileSize : Nat
  maxDepth : Nat
  deriving DecidableEq, Repr

/-- Ten mebioctets, and the depth that decoding allows by itself. -/
def Limits.default : Limits := ⟨10 * 1024 * 1024, Bencode.defaultDepth⟩

end Metainfo
