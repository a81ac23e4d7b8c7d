import InstrumentBus.ControlLoop.Engine
import InstrumentBus.FixedPoint

/-!
# Gains

A gain of the control loop is a signed number of 64 bits, 43 of them fractional.
-/

namespace InstrumentBus.ControlLoop

/-- A gain, by its bits. -/
structure Gain where
  /-- The number in units of `2 ^ -43`. -/
  bits : Value
deriving DecidableEq, Repr

namespace Gain

/-- The number of fractional bits. -/
def fractionBits : Nat := 43

/-- Why a text is no gain. -/
inductive Error where
  /-- The text has no fixed-point form. -/
  | notFixed (cause : FixedPoint.Error)
  /-- The number takes more than 64 bits. -/
  | outOfRange (text : String)
deriving DecidableEq, Repr

/-- The text shown for an error. -/
def Error.message : Error → String
  | .notFixed cause => cause.message
  | .outOfRange text => s!"gain {text} is out of range"

/-- The name of an error. -/
def Error.title : Error → String
  | .notFixed cause => cause.title
  | .outOfRange _ => "OutOfRange"

instance : Diagnostic Error :=
  ⟨Error.title, Error.message⟩

/-- The gain that a text denotes, truncated toward zero. -/
def ofText (text : String) : Except Error Gain :=
  match FixedPoint.ofText text fractionBits with
  | .error cause => .error (.notFixed cause)
  | .ok v =>
    if -2 ^ 63 ≤ v ∧ v < 2 ^ 63 then .ok { bits := BitVec.ofInt 64 v }
    else .error (.outOfRange text)

/-- The exact decimal text of a gain. -/
def toText (g : Gain) : Except FixedPoint.Error String :=
  FixedPoint.toText g.bits.toInt fractionBits

end Gain

end InstrumentBus.ControlLoop
