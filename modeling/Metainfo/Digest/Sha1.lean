import Metainfo.Bytes

/-!
# SHA-1

The message is padded to whole blocks of sixty-four octets with a one bit, zero bits and
its length in bits.  Each block is expanded to eighty words, and eighty rounds mix them
into a state of five words, which after the last block is the digest.
-/

namespace Metainfo.Sha1

/-- The five words of a state, and of a digest. -/
structure Digest where
  a : UInt32
  b : UInt32
  c : UInt32
  d : UInt32
  e : UInt32
  deriving DecidableEq, Repr

/-- The state before the first block. -/
def initial : Digest :=
  ⟨0x67452301, 0xEFCDAB89, 0x98BADCFE, 0x10325476, 0xC3D2E1F0⟩

/-- Rotates a word to the left; `count` is between 1 and 31. -/
def rotate (count word : UInt32) : UInt32 :=
  (word <<< count) ||| (word >>> (32 - count))

/-- The word of four octets, the most significant first. -/
def word (first second third fourth : UInt8) : UInt32 :=
  (first.toUInt32 <<< 24) ||| (second.toUInt32 <<< 16) ||| (third.toUInt32 <<< 8) |||
    fourth.toUInt32

/-- The four octets of a word, the most significant first. -/
def octets (word : UInt32) : Bytes :=
  [(word >>> 24).toUInt8, (word >>> 16).toUInt8, (word >>> 8).toUInt8, word.toUInt8]

/-- The words of a block, in reverse order in front of `done`. -/
def wordsOnto (done : List UInt32) : Bytes → List UInt32
  | first :: second :: third :: fourth :: rest =>
      wordsOnto (word first second third fourth :: done) rest
  | _ => done

/-- The logical function and the constant of a round. -/
def mix (round : Nat) (b c d : UInt32) : UInt32 × UInt32 :=
  if round < 20 then ((b &&& c) ||| (~~~b &&& d), 0x5A827999)
  else if round < 40 then (b ^^^ c ^^^ d, 0x6ED9EBA1)
  else if round < 60 then ((b &&& c) ||| (b &&& d) ||| (c &&& d), 0x8F1BBCDC)
  else (b ^^^ c ^^^ d, 0xCA62C1D6)

/-- One round with its word. -/
def step (state : Digest) (round : Nat) (word : UInt32) : Digest :=
  let (mixed, constant) := mix round state.b state.c state.d
  ⟨rotate 5 state.a + mixed + state.e + constant + word, state.a, rotate 30 state.b,
    state.c, state.d⟩

/-- The word that follows at least sixteen others, given with the latest first. -/
def nextWord : List UInt32 → UInt32
  | _ :: _ :: w3 :: _ :: _ :: _ :: _ :: w8 :: _ :: _ :: _ :: _ :: _ :: w14 :: _ ::
      w16 :: _ =>
      rotate 1 (w3 ^^^ w8 ^^^ w14 ^^^ w16)
  | _ => 0

/-- The last `count` rounds; `words` holds the words of the rounds before, the latest
first. -/
def expandedRounds : (count : Nat) → Digest → List UInt32 → Digest
  | 0, state, _ => state
  | count + 1, state, words =>
      let next := nextWord words
      expandedRounds count (step state (79 - count) next) (next :: words)

/-- Mixes one block into the state. -/
def compress (state : Digest) (block : Bytes) : Digest :=
  let words := wordsOnto [] block
  let (mixed, _) := words.reverse.foldl
    (fun (state, round) word => (step state round word, round + 1)) (state, 0)
  let mixed := expandedRounds 64 mixed words
  ⟨state.a + mixed.a, state.b + mixed.b, state.c + mixed.c, state.d + mixed.d,
    state.e + mixed.e⟩

/-- The octets after a message of a given length: a one bit, zeros, and the length in
bits as sixty-four bits. -/
def padding (length : Nat) : Bytes :=
  0x80 :: List.replicate ((119 - length % 64) % 64) 0 ++
    (octets (UInt32.ofNat (length * 8 / UInt32.size)) ++
      octets (UInt32.ofNat (length * 8)))

/-- The digest of a message. -/
def digest (message : Bytes) : Digest :=
  (Bytes.chunks 64 (message ++ padding message.length)).foldl compress initial

/-- The twenty octets of a digest. -/
def Digest.toBytes (digest : Digest) : Bytes :=
  octets digest.a ++ octets digest.b ++ octets digest.c ++ octets digest.d ++
    octets digest.e

/-- A digest has twenty octets. -/
@[simp] theorem Digest.length_toBytes (digest : Digest) :
    digest.toBytes.length = 20 := by
  simp [Digest.toBytes, octets]

end Metainfo.Sha1
