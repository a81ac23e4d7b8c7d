import InstrumentBus.Power

/-!
# Decimal numerals

A numeral is an optional sign, one or more digits, and optionally a point with one or more digits
behind it. It denotes a rational number exactly, whatever the number of its digits.
-/

namespace InstrumentBus.FixedPoint

/-- Whether a character is an ASCII digit. -/
def isDigit (c : Char) : Bool :=
  '0' ≤ c && c ≤ '9'

/-- The number that digits denote, most significant first. -/
def ofDigits (ds : List Char) : Nat :=
  ds.foldl (fun n c => 10 * n + (c.toNat - '0'.toNat)) 0

/-- The parts of a numeral. -/
structure Numeral where
  /-- Whether the sign is a minus. -/
  negative : Bool
  /-- The digits before the point. -/
  whole : List Char
  /-- The digits behind the point, if there is one. -/
  fraction : List Char
deriving DecidableEq, Repr

namespace Numeral

/-- The sign at the start of a text and what follows it. -/
def sign : List Char → Bool × List Char
  | '-' :: rest => (true, rest)
  | '+' :: rest => (false, rest)
  | rest => (false, rest)

/-- The digits at the start of a text, of which there must be one, and what follows them. -/
def digits? (text : List Char) : Option (List Char × List Char) :=
  let ds := text.takeWhile isDigit
  if ds = [] then none else some (ds, text.dropWhile isDigit)

/-- The digits behind a point at the start of a text and what follows them. -/
def pointDigits? : List Char → Option (List Char × List Char)
  | '.' :: rest => digits? rest
  | _ => none

/-- The numeral at the start of a text and what follows it. A point without digits is not part of it. -/
def leading? (text : List Char) : Option (Numeral × List Char) := do
  let (negative, unsigned) := sign text
  let (whole, rest) ← digits? unsigned
  let (fraction, rest) := (pointDigits? rest).getD ([], rest)
  return ({ negative, whole, fraction }, rest)

/-- The numeral that a whole text is. -/
def read? (text : List Char) : Option Numeral :=
  match leading? text with
  | some (n, []) => some n
  | _ => none

/-- The whole part of the magnitude, if it fits 128 bits. -/
def whole? (n : Numeral) : Option (BitVec 128) :=
  let w := ofDigits n.whole
  if w < 2 ^ 128 then some (BitVec.ofNat 128 w) else none

end Numeral

end InstrumentBus.FixedPoint
