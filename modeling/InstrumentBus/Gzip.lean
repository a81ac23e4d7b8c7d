import InstrumentBus.Gzip.Deflate

/-!
# Gzip files

A member of a gzip file is a header, deflated data, and the checksum and length of the data. Only
the first member counts; what follows it is ignored.
-/

namespace InstrumentBus.Gzip

/-- The bytes that a gzip file starts with. -/
def magic : List UInt8 := [0x1f, 0x8b]

/-! ## Checksum -/

/-- The checksum after one more bit of the reflected polynomial. -/
def crcBit (crc : UInt32) : UInt32 :=
  if crc &&& 1 = 1 then (crc >>> 1) ^^^ 0xEDB88320 else crc >>> 1

/-- The checksum after one more byte. -/
def crcByte (crc : UInt32) (b : UInt8) : UInt32 :=
  (List.range 8).foldl (fun crc _ => crcBit crc) (crc ^^^ b.toUInt32)

/-- The cyclic redundancy check of 32 bits. -/
def crc32 (bytes : List UInt8) : UInt32 :=
  ~~~(bytes.foldl crcByte 0xFFFFFFFF)

/-! ## Header -/

/-- The flag of a header that carries its own checksum. -/
def flagCrc : Nat := 1
/-- The flag of a header with extra fields. -/
def flagExtra : Nat := 2
/-- The flag of a header with a file name. -/
def flagName : Nat := 3
/-- The flag of a header with a comment. -/
def flagComment : Nat := 4

/-- The greatest length of a file name or comment. -/
def maxTextLength : Nat := 65535

/-- The number that little-endian bytes stand for. -/
def ofLittleEndian (bytes : List UInt8) : Nat :=
  bytes.foldr (fun b n => b.toNat + 256 * n) 0

/-- What follows `count` bytes. -/
def skip? (count : Nat) (input : List UInt8) : Option (List UInt8) :=
  if count ≤ input.length then some (input.drop count) else none

/-- What follows a text that ends with a zero byte. -/
def skipText? (input : List UInt8) : Option (List UInt8) :=
  let text := input.takeWhile (· != 0)
  if text.length ≤ maxTextLength then skip? (text.length + 1) input else none

/-- What follows the extra fields, which give their length first. -/
def skipExtra? (input : List UInt8) : Option (List UInt8) := do
  let rest ← skip? 2 input
  skip? (ofLittleEndian (input.take 2)) rest

/-- What follows the header of a member. -/
def skipHeader? (input : List UInt8) : Option (List UInt8) := do
  let rest ← skip? 10 input
  let flags := ((input[3]?).getD 0).toNat
  if input.take 2 ≠ magic ∨ input[2]? ≠ some 8 ∨ 0x20 ≤ flags then none
  else
    let rest ← if flags.testBit flagExtra then skipExtra? rest else some rest
    let rest ← if flags.testBit flagName then skipText? rest else some rest
    let rest ← if flags.testBit flagComment then skipText? rest else some rest
    if flags.testBit flagCrc then
      let header := input.take (input.length - rest.length)
      let after ← skip? 2 rest
      if ofLittleEndian (rest.take 2) = (crc32 header).toNat % 2 ^ 16 then some after else none
    else some rest

/-! ## Members -/

/-- The data of the first member; none if any part of it is damaged. -/
def decode? (input : List UInt8) : Option (List UInt8) := do
  let body ← skipHeader? input
  let (data, left) ← inflate? body
  let trailer := body.drop (body.length - left)
  let checksum := ofLittleEndian (trailer.take 4)
  let length := ofLittleEndian ((trailer.drop 4).take 4)
  if 8 ≤ trailer.length ∧ checksum = (crc32 data).toNat ∧ length = data.length % 2 ^ 32 then
    some data
  else none

end InstrumentBus.Gzip
