import InstrumentBus.Power
import InstrumentBus.Word.Hex

/-!
# The MD5 digest

A digest of sixteen bytes. The message is padded to blocks of sixteen little-endian words, and each
block is mixed into a state of four words in sixty-four steps.
-/

namespace InstrumentBus.Md5

/-- The four words that a digest is made of. -/
structure State where
  a : UInt32
  b : UInt32
  c : UInt32
  d : UInt32
deriving DecidableEq, Repr

/-- The state before the first block. -/
def State.initial : State :=
  { a := 0x67452301, b := 0xefcdab89, c := 0x98badcfe, d := 0x10325476 }

/-- The constant of each step: the first 32 bits of the fraction of a sine. -/
def sines : Array UInt32 := #[
  0xd76aa478, 0xe8c7b756, 0x242070db, 0xc1bdceee, 0xf57c0faf, 0x4787c62a, 0xa8304613, 0xfd469501,
  0x698098d8, 0x8b44f7af, 0xffff5bb1, 0x895cd7be, 0x6b901122, 0xfd987193, 0xa679438e, 0x49b40821,
  0xf61e2562, 0xc040b340, 0x265e5a51, 0xe9b6c7aa, 0xd62f105d, 0x02441453, 0xd8a1e681, 0xe7d3fbc8,
  0x21e1cde6, 0xc33707d6, 0xf4d50d87, 0x455a14ed, 0xa9e3e905, 0xfcefa3f8, 0x676f02d9, 0x8d2a4c8a,
  0xfffa3942, 0x8771f681, 0x6d9d6122, 0xfde5380c, 0xa4beea44, 0x4bdecfa9, 0xf6bb4b60, 0xbebfbc70,
  0x289b7ec6, 0xeaa127fa, 0xd4ef3085, 0x04881d05, 0xd9d4d039, 0xe6db99e5, 0x1fa27cf8, 0xc4ac5665,
  0xf4292244, 0x432aff97, 0xab9423a7, 0xfc93a039, 0x655b59c3, 0x8f0ccc92, 0xffeff47d, 0x85845dd1,
  0x6fa87e4f, 0xfe2ce6e0, 0xa3014314, 0x4e0811a1, 0xf7537e82, 0xbd3af235, 0x2ad7d2bb, 0xeb86d391]

/-- The rotations of the four rounds, each used four times. -/
def rotations : Array UInt32 := #[
  7, 12, 17, 22, 5, 9, 14, 20, 4, 11, 16, 23, 6, 10, 15, 21]

/-- A word rotated to the left. -/
def rotate (w amount : UInt32) : UInt32 :=
  (w <<< amount) ||| (w >>> (32 - amount))

/-- The function of a round and the place of the word that the step takes. -/
def round (s : State) (i : Nat) : UInt32 × Nat :=
  if i < 16 then ((s.b &&& s.c) ||| (~~~s.b &&& s.d), i)
  else if i < 32 then ((s.d &&& s.b) ||| (~~~s.d &&& s.c), (5 * i + 1) % 16)
  else if i < 48 then (s.b ^^^ s.c ^^^ s.d, (3 * i + 5) % 16)
  else (s.c ^^^ (s.b ||| ~~~s.d), (7 * i) % 16)

/-- One step on a block. -/
def step (block : Array UInt32) (s : State) (i : Nat) : State :=
  let (f, place) := round s i
  let sum := f + s.a + sines.getD i 0 + block.getD place 0
  { a := s.d, b := s.b + rotate sum (rotations.getD (4 * (i / 16) + i % 4) 0), c := s.b, d := s.c }

/-- The state after a block. -/
def absorb (s : State) (block : Array UInt32) : State :=
  let t := (List.range 64).foldl (step block) s
  { a := s.a + t.a, b := s.b + t.b, c := s.c + t.c, d := s.d + t.d }

/-- The little-endian bytes of a number. -/
def littleEndian (count n : Nat) : List UInt8 :=
  (List.range count).map fun i => UInt8.ofNat (n / 256 ^ i)

/-- The message with its end mark, zeros up to a whole number of blocks, and its length in bits. -/
def pad (message : List UInt8) : List UInt8 :=
  let zeros := (119 - message.length % 64) % 64
  message ++ 0x80 :: List.replicate zeros 0 ++ littleEndian 8 (8 * message.length)

/-- The little-endian words of a list of bytes. -/
def words : List UInt8 → List UInt32
  | b0 :: b1 :: b2 :: b3 :: rest =>
    (b0.toUInt32 ||| (b1.toUInt32 <<< 8) ||| (b2.toUInt32 <<< 16) ||| (b3.toUInt32 <<< 24)) ::
      words rest
  | _ => []

/-- The state after `count` blocks of words. -/
def absorbAll : Nat → State → List UInt32 → State
  | 0, s, _ => s
  | count + 1, s, ws => absorbAll count (absorb s (ws.take 16).toArray) (ws.drop 16)

/-- The digest of a message, sixteen bytes. -/
def digest (message : List UInt8) : List UInt8 :=
  let ws := words (pad message)
  let s := absorbAll (ws.length / 16) .initial ws
  [s.a, s.b, s.c, s.d].flatMap fun w => littleEndian 4 w.toNat

/-- A digest as hexadecimal text. -/
def text (digest : List UInt8) : String :=
  String.join (digest.map fun b => Hex.padded 2 b.toNat)

end InstrumentBus.Md5
