import RemoteCall.Bytes

/-!
# MD5 digests

A text is padded to blocks of 64 bytes: by one bit, zeros, and its length in bits. Each block takes the
state of four words through 64 steps, each of which mixes one word of the block into the state.

A digest has sixteen bytes; `window` reads four of them as a number.
-/

namespace RemoteCall.Md5

/-- Four words. -/
structure State where
  a : UInt32
  b : UInt32
  c : UInt32
  d : UInt32

/-- The state before the first block. -/
def start : State := ⟨0x67452301, 0xefcdab89, 0x98badcfe, 0x10325476⟩

/-- The constant of each step: the first 32 bits of the fraction of the sine of its number. -/
def sines : Array UInt32 := #[
  0xd76aa478, 0xe8c7b756, 0x242070db, 0xc1bdceee, 0xf57c0faf, 0x4787c62a, 0xa8304613, 0xfd469501,
  0x698098d8, 0x8b44f7af, 0xffff5bb1, 0x895cd7be, 0x6b901122, 0xfd987193, 0xa679438e, 0x49b40821,
  0xf61e2562, 0xc040b340, 0x265e5a51, 0xe9b6c7aa, 0xd62f105d, 0x02441453, 0xd8a1e681, 0xe7d3fbc8,
  0x21e1cde6, 0xc33707d6, 0xf4d50d87, 0x455a14ed, 0xa9e3e905, 0xfcefa3f8, 0x676f02d9, 0x8d2a4c8a,
  0xfffa3942, 0x8771f681, 0x6d9d6122, 0xfde5380c, 0xa4beea44, 0x4bdecfa9, 0xf6bb4b60, 0xbebfbc70,
  0x289b7ec6, 0xeaa127fa, 0xd4ef3085, 0x04881d05, 0xd9d4d039, 0xe6db99e5, 0x1fa27cf8, 0xc4ac5665,
  0xf4292244, 0x432aff97, 0xab9423a7, 0xfc93a039, 0x655b59c3, 0x8f0ccc92, 0xffeff47d, 0x85845dd1,
  0x6fa87e4f, 0xfe2ce6e0, 0xa3014314, 0x4e0811a1, 0xf7537e82, 0xbd3af235, 0x2ad7d2bb, 0xeb86d391]

/-- How far each step turns the bits of its sum; the steps of a round take four of these in turn. -/
def turns : Array UInt32 := #[7, 12, 17, 22, 5, 9, 14, 20, 4, 11, 16, 23, 6, 10, 15, 21]

/-- One step of a block. -/
def step (block : Array UInt32) (s : State) (i : Nat) : State :=
  let (mixed, word) : UInt32 × Nat :=
    match i / 16 with
    | 0 => ((s.b &&& s.c) ||| (~~~s.b &&& s.d), i)
    | 1 => ((s.d &&& s.b) ||| (~~~s.d &&& s.c), 5 * i + 1)
    | 2 => (s.b ^^^ s.c ^^^ s.d, 3 * i + 5)
    | _ => (s.c ^^^ (s.b ||| ~~~s.d), 7 * i)
  let sum := s.a + mixed + sines.getD i 0 + block.getD (word % 16) 0
  let turn := turns.getD (i / 16 * 4 + i % 4) 0
  ⟨s.d, s.b + ((sum <<< turn) ||| (sum >>> (32 - turn))), s.b, s.c⟩

/-- The state after a block. -/
def absorb (s : State) (block : Array UInt32) : State :=
  let t := (List.range 64).foldl (step block) s
  ⟨s.a + t.a, s.b + t.b, s.c + t.c, s.d + t.d⟩

/-- The text with its padding. -/
def pad (bytes : Bytes) : Bytes :=
  -- the length takes the last eight bytes of a block, and one byte ends the text
  let zeros := (119 - bytes.length % 64) % 64
  bytes ++ 0x80 :: List.replicate zeros 0 ++ Bytes.littleEndian 8 (bytes.length * 8)

/-- A word that four bytes spell. -/
def word (bytes : Bytes) : UInt32 :=
  UInt32.ofNat (Bytes.ofLittleEndian bytes)

/-- The words of a block. -/
def words (block : Bytes) : Array UInt32 :=
  ((List.range 16).map fun i => word ((block.drop (4 * i)).take 4)).toArray

/-- The state after all blocks. -/
def absorbAll : Nat → Bytes → State → State
  | 0, _, s => s
  | blocks + 1, bytes, s => absorbAll blocks (bytes.drop 64) (absorb s (words (bytes.take 64)))

/-- The digest of a byte string. -/
def digest (bytes : Bytes) : Bytes :=
  let padded := pad bytes
  let s := absorbAll (padded.length / 64) padded start
  [s.a, s.b, s.c, s.d].flatMap fun w => Bytes.littleEndian 4 w.toNat

/-- The number that four bytes of the digest of a text spell. -/
def window (text : String) (i : Nat) : UInt32 :=
  word (((digest (Bytes.ofText text)).drop (4 * i)).take 4)

end RemoteCall.Md5
