import InstrumentBus.Gzip.Huffman

/-!
# Deflated data

Deflated data is a sequence of blocks, read from the least significant bit of each byte on. A block
is stored as it is, or its bytes are written with a fixed code or with codes that the block itself
carries. Coded blocks hold single bytes and copies of earlier output. A copy may reach back beyond
the start of the output, where every byte is zero.
-/

namespace InstrumentBus.Gzip

/-! ## Bits -/

/-- The bits of bytes, the least significant of each byte first. -/
def bitsOf (bytes : List UInt8) : List Bool :=
  bytes.flatMap fun b => (List.range 8).map b.toNat.testBit

/-- A number of `count` bits, the least significant first, and the bits that follow. -/
def number? : Nat → List Bool → Option (Nat × List Bool)
  | 0, bits => some (0, bits)
  | _ + 1, [] => none
  | count + 1, bit :: bits =>
    (number? count bits).map fun (n, rest) => (bit.toNat + 2 * n, rest)

/-- The bits from the next byte on, if the whole input has whole bytes. -/
def alignToByte (bits : List Bool) : List Bool :=
  bits.drop (bits.length % 8)

/-! ## Tables -/

/-- The least length of each kind of copy and the bits that add to it. -/
def copyLengths : Array (Nat × Nat) := #[
  (3, 0), (4, 0), (5, 0), (6, 0), (7, 0), (8, 0), (9, 0), (10, 0), (11, 1), (13, 1), (15, 1),
  (17, 1), (19, 2), (23, 2), (27, 2), (31, 2), (35, 3), (43, 3), (51, 3), (59, 3), (67, 4),
  (83, 4), (99, 4), (115, 4), (131, 5), (163, 5), (195, 5), (227, 5), (258, 0)]

/-- The least distance of each kind of copy and the bits that add to it. -/
def copyDistances : Array (Nat × Nat) := #[
  (1, 0), (2, 0), (3, 0), (4, 0), (5, 1), (7, 1), (9, 2), (13, 2), (17, 3), (25, 3), (33, 4),
  (49, 4), (65, 5), (97, 5), (129, 6), (193, 6), (257, 7), (385, 7), (513, 8), (769, 8),
  (1025, 9), (1537, 9), (2049, 10), (3073, 10), (4097, 11), (6145, 11), (8193, 12), (12289, 12),
  (16385, 13), (24577, 13)]

/-- The order in which a block gives the lengths of the code for its code lengths. -/
def lengthOrder : List Nat :=
  [16, 17, 18, 0, 8, 7, 9, 6, 10, 5, 11, 4, 12, 3, 13, 2, 14, 1, 15]

/-- The fixed code for bytes and copy lengths. -/
def fixedLiterals : Huffman :=
  .ofLengths (List.replicate 144 8 ++ List.replicate 112 9 ++ List.replicate 24 7 ++
    List.replicate 8 8)

/-- The fixed code for copy distances. -/
def fixedDistances : Huffman :=
  .ofLengths (List.replicate 32 5)

/-! ## Coded blocks -/

/-- The value of an entry of a table: its least value and the bits that add to it. -/
def entry? (table : Array (Nat × Nat)) (i : Nat) (bits : List Bool) :
    Option (Nat × List Bool) :=
  match table[i]? with
  | none => none
  | some (least, extra) => (number? extra bits).map fun (n, rest) => (least + n, rest)

/-- The byte `distance` before the end of the output: zero if that lies before its start. -/
def byteBehind (distance : Nat) (out : Array UInt8) : UInt8 :=
  if distance ≤ out.size then out.getD (out.size - distance) 0 else 0

/-- The output followed by `count` bytes, each a copy of the byte `distance` before it. -/
def copyBack (distance : Nat) : Nat → Array UInt8 → Array UInt8
  | 0, out => out
  | count + 1, out => copyBack distance count (out.push (byteBehind distance out))

/-- The output after a coded block, and the bits that follow. Every symbol takes a bit, so the
number of bits is fuel enough. -/
def codedBlock (literals distances : Huffman) :
    Nat → Array UInt8 → List Bool → Option (Array UInt8 × List Bool)
  | 0, _, _ => none
  | fuel + 1, out, bits => do
    let (symbol, bits) ← literals.symbol? bits
    if symbol < 256 then codedBlock literals distances fuel (out.push symbol.toUInt8) bits
    else if symbol = 256 then return (out, bits)
    else
      let (length, bits) ← entry? copyLengths (symbol - 257) bits
      let (place, bits) ← distances.symbol? bits
      let (distance, bits) ← entry? copyDistances place bits
      codedBlock literals distances fuel (copyBack distance length out) bits

/-- The code lengths of a block, `wanted` in number, behind those in `found`, last first. A symbol
above 15 repeats the last length or zero. -/
def codeLengths? (code : Huffman) (wanted : Nat) :
    Nat → List Nat → List Bool → Option (List Nat × List Bool)
  | 0, _, _ => none
  | fuel + 1, found, bits =>
    if wanted ≤ found.length then
      if wanted = found.length then some (found.reverse, bits) else none
    else do
      let (symbol, bits) ← code.symbol? bits
      if symbol < 16 then codeLengths? code wanted fuel (symbol :: found) bits
      else if symbol = 16 then
        let last ← found.head?
        let (n, bits) ← number? 2 bits
        codeLengths? code wanted fuel (List.replicate (n + 3) last ++ found) bits
      else if symbol = 17 then
        let (n, bits) ← number? 3 bits
        codeLengths? code wanted fuel (List.replicate (n + 3) 0 ++ found) bits
      else
        let (n, bits) ← number? 7 bits
        codeLengths? code wanted fuel (List.replicate (n + 11) 0 ++ found) bits

/-- `count` numbers of three bits. -/
def triples? : Nat → List Bool → Option (List Nat × List Bool)
  | 0, bits => some ([], bits)
  | count + 1, bits => do
    let (n, bits) ← number? 3 bits
    let (ns, bits) ← triples? count bits
    return (n :: ns, bits)

/-- The codes that a block carries: for bytes and copy lengths, and for copy distances. -/
def carriedCodes? (bits : List Bool) : Option (Huffman × Huffman × List Bool) := do
  let (literals, bits) ← number? 5 bits
  let (distances, bits) ← number? 5 bits
  let (lengths, bits) ← number? 4 bits
  let (literals, distances) := (literals + 257, distances + 1)
  if 286 < literals ∨ 30 < distances then none
  else
    let (given, bits) ← triples? (lengths + 4) bits
    let pairs := lengthOrder.zip given
    let code := Huffman.ofLengths ((List.range 19).map fun i => (pairs.lookup i).getD 0)
    if !code.complete then none
    else
      let wanted := literals + distances
      let (found, bits) ← codeLengths? code wanted (wanted + 1) [] bits
      let (forLiterals, forDistances) :=
        (Huffman.ofLengths (found.take literals), Huffman.ofLengths (found.drop literals))
      if forLiterals.usable && forDistances.usable then return (forLiterals, forDistances, bits)
      else none

/-! ## Stored blocks -/

/-- The output followed by `count` bytes of the input. -/
def storedBytes : Nat → Array UInt8 → List Bool → Option (Array UInt8 × List Bool)
  | 0, out, bits => some (out, bits)
  | count + 1, out, bits => do
    let (b, bits) ← number? 8 bits
    storedBytes count (out.push b.toUInt8) bits

/-- The output after a stored block, which gives its length twice, the second time inverted. -/
def storedBlock (out : Array UInt8) (bits : List Bool) : Option (Array UInt8 × List Bool) := do
  let (length, bits) ← number? 16 (alignToByte bits)
  let (inverse, bits) ← number? 16 bits
  if length + inverse = 0xFFFF then storedBytes length out bits else none

/-! ## The whole -/

/-- The output after the blocks up to the last one, and the bits that follow. Every block takes a
bit, so the number of bits is fuel enough. -/
def blocks : Nat → Array UInt8 → List Bool → Option (Array UInt8 × List Bool)
  | 0, _, _ => none
  | fuel + 1, out, bits => do
    let (last, bits) ← number? 1 bits
    let (kind, bits) ← number? 2 bits
    let (out, bits) ←
      if kind = 0 then storedBlock out bits
      else if kind = 1 then codedBlock fixedLiterals fixedDistances (bits.length + 1) out bits
      else if kind = 2 then do
        let (literals, distances, bits) ← carriedCodes? bits
        codedBlock literals distances (bits.length + 1) out bits
      else none
    if last = 1 then return (out, bits) else blocks fuel out bits

/-- The bytes of deflated data at the start of the input, and the number of bytes that follow it. -/
def inflate? (input : List UInt8) : Option (List UInt8 × Nat) := do
  let bits := bitsOf input
  let (out, rest) ← blocks (bits.length + 1) #[] bits
  return (out.toList, rest.length / 8)

end InstrumentBus.Gzip
