import InstrumentBus.FixedPoint.Numeral

/-!
# Doubling a decimal fraction

The bits of a fraction are found by doubling it: what passes the point is the next bit. The digits are
doubled in place, one after the other, so that any number of them is exact.
-/

namespace InstrumentBus.FixedPoint

/-- The value of a decimal digit, in a byte. -/
abbrev Digit := BitVec 8

/-- The value of the character of a digit. -/
def Digit.ofChar (c : Char) : Digit :=
  BitVec.ofNat 8 c.toNat - BitVec.ofNat 8 '0'.toNat

/-- The digits doubled, most significant first, and the carry out of them. -/
def double : List Digit → List Digit × Digit
  | [] => ([], 0)
  | d :: ds =>
    let (rest, carry) := double ds
    let doubled := d * 2 + carry
    (doubled % 10 :: rest, doubled / 10)

/-- The digits up to the last that is not zero. -/
def significant (fraction : List Char) : List Char :=
  (fraction.reverse.dropWhile (· == '0')).reverse

/-- A fraction on its way to bits. -/
structure Doubling where
  /-- The digits of what is left of the fraction. -/
  digits : List Digit
  /-- The bits found so far. -/
  bits : BitVec 128

namespace Doubling

/-- The fraction before the first bit is found. Zeros at its end say nothing. -/
def start (fraction : List Char) : Doubling :=
  { digits := (significant fraction).map Digit.ofChar, bits := 0 }

/-- One more bit. -/
def step (s : Doubling) : Doubling :=
  let (digits, carry) := double s.digits
  { digits, bits := s.bits <<< 1 ||| carry.setWidth 128 }

/-- So many more bits. -/
def run : Nat → Doubling → Doubling
  | 0, s => s
  | k + 1, s => run k s.step

end Doubling

/-- The first bits of a fraction. -/
def fractionBits (fraction : List Char) (bits : Nat) : BitVec 128 :=
  ((Doubling.start fraction).run bits).bits

end InstrumentBus.FixedPoint
