import Metainfo.Bytes

/-!
# Marks

The octets with a meaning of their own in bencoded text: they begin a value, separate
the length of a byte string from its octets, or end an integer, a list or a dictionary.
-/

namespace Metainfo.Bencode.Mark

/-- The octet `i`, which begins an integer. -/
abbrev integer : UInt8 := 0x69

/-- The octet `l`, which begins a list. -/
abbrev list : UInt8 := 0x6C

/-- The octet `d`, which begins a dictionary. -/
abbrev dictionary : UInt8 := 0x64

/-- The octet `e`, which ends what one of the others began. -/
abbrev finish : UInt8 := 0x65

/-- The octet `:`, which ends the length of a byte string. -/
abbrev colon : UInt8 := 0x3A

end Metainfo.Bencode.Mark
