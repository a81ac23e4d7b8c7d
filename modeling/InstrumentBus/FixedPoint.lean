import InstrumentBus.Diagnostic
import InstrumentBus.FixedPoint.Doubling
import InstrumentBus.FixedPoint.Expansion
import InstrumentBus.Text.Blank

/-!
# Fixed-point numbers

Loop constants are configured as decimal text and held as signed integers of 128 bits, of which a
given number are fractional. Reading truncates toward zero. Writing gives the exact decimal
expansion without trailing zeros.
-/

namespace InstrumentBus.FixedPoint

/-- The greatest number of fractional bits. -/
def maxFractionBits : Nat := 120

/-- Why a text or a number has no fixed-point form. -/
inductive Error where
  /-- The text is no numeral. -/
  | malformed (text : String)
  /-- There are too many fractional bits. -/
  | fractionBits (bits : Nat)
  /-- The magnitude takes more bits than there are. -/
  | overflow
deriving DecidableEq, Repr

/-- The text shown for an error. -/
def Error.message : Error → String
  | .malformed text => s!"`{text}` is not a decimal number"
  | .fractionBits bits => s!"{bits} fractional bits exceeds the supported maximum"
  | .overflow => "Value does not fit in 128 bits"

/-- The name of an error. -/
def Error.title : Error → String
  | .malformed _ => "Malformed"
  | .fractionBits _ => "FracBits"
  | .overflow => "Overflow"

instance : Diagnostic Error :=
  ⟨Error.title, Error.message⟩

/-! ## Reading -/

/-- The number that a text denotes, in units of `2 ^ -bits`, truncated toward zero. -/
def ofText (text : String) (bits : Nat) : Except Error Int :=
  if maxFractionBits < bits then .error (.fractionBits bits)
  else
    match Numeral.read? (Text.trim text.toList) with
    | none => .error (.malformed text)
    | some n =>
      match n.whole? with
      | none => .error .overflow
      | some whole =>
        -- The whole part must leave room for the fraction and the sign.
        if whole >>> (127 - bits) ≠ 0 then .error .overflow
        else
          let magnitude := whole <<< bits ||| fractionBits n.fraction bits
          if 2 ^ 127 ≤ magnitude.toNat then .error .overflow
          else .ok (if n.negative then -magnitude.toNat else magnitude.toNat)

/-! ## Writing -/

/-- The exact decimal expansion of a magnitude with `bits` fractional bits. -/
def expansion (magnitude : BitVec 128) (bits : Nat) : List Char :=
  let fraction := magnitude &&& fractionMask bits
  Nat.toDigits 10 (magnitude >>> bits).toNat ++
    if fraction = 0 then [] else '.' :: fractionDigits bits fraction

/-- The exact decimal text of `v / 2 ^ bits`. -/
def toText (v : Int) (bits : Nat) : Except Error String :=
  if maxFractionBits < bits then .error (.fractionBits bits)
  else
    let unsigned := expansion (BitVec.ofNat 128 v.natAbs) bits
    .ok (String.ofList (if v < 0 then '-' :: unsigned else unsigned))

end InstrumentBus.FixedPoint
