import InstrumentBus.Ad5791.Frame
import InstrumentBus.Transport.Encoding

/-!
# Settings of the AD5791

The control register and the software commands as records, and the two ways in which the converter
codes a signed number.
-/

namespace InstrumentBus.Ad5791

/-! ## Coding of numbers -/

/-- The least number that the converter takes. -/
def leastCode : Int := -2 ^ 19

/-- The greatest number that the converter takes. -/
def greatestCode : Int := 2 ^ 19 - 1

/-- A number brought into the converter's range. -/
def clampCode (n : Int) : Int :=
  max leastCode (min greatestCode n)

/-- How the converter codes a signed number. -/
inductive Coding where
  /-- Two's complement in twenty bits. -/
  | twosComplement
  /-- The distance from the least number. -/
  | offsetBinary
deriving DecidableEq, Repr

namespace Coding

/-- The name of a coding. -/
def title : Coding → String
  | .twosComplement => "TwosComplement"
  | .offsetBinary => "OffsetBinary"

/-- The code of a number, which is brought into range first. -/
def encode (c : Coding) (n : Int) : Word :=
  match c with
  | .twosComplement => BitVec.ofInt 32 (clampCode n) &&& dataMask
  | .offsetBinary => BitVec.ofInt 32 (clampCode n - leastCode)

/-- The number that a code stands for; bits above the twentieth do not count. -/
def decode (c : Coding) (code : Word) : Int :=
  match c with
  | .twosComplement => Word.signed dataWidth code
  | .offsetBinary => (code &&& dataMask).toNat + leastCode

end Coding

/-! ## Control register -/

/-- The span of the reference for which the converter compensates its linearity. -/
inductive Span where
  | upTo10V
  | upTo12V
  | upTo16V
  | upTo19V
  | upTo20V
deriving DecidableEq, Repr

/-- The code of a span in the control register. -/
def Span.code : Span → Nat
  | .upTo10V => 0
  | .upTo12V => 9
  | .upTo16V => 10
  | .upTo19V => 11
  | .upTo20V => 12

/-- The span with a given code. -/
def Span.ofCode? (n : Nat) : Option Span :=
  [upTo10V, upTo12V, upTo16V, upTo19V, upTo20V].find? fun s => s.code == n

/-- The settings in the control register. -/
structure Control where
  /-- Use the internal amplifier as a buffer of gain one. -/
  buffered : Bool
  /-- Clamp the output to ground. -/
  grounded : Bool
  tristate : Bool
  /-- Expect offset binary instead of two's complement. -/
  offsetBinary : Bool
  silent : Bool
  span : Span
deriving DecidableEq, Repr

namespace Control

/-- Nothing set. -/
def clear : Control :=
  { buffered := false, grounded := false, tristate := false, offsetBinary := false,
    silent := false, span := .upTo10V }

/-- The settings at power-on. -/
def powerOn : Control :=
  { clear with grounded := true, tristate := true }

/-- The settings that drive the output through the buffer. -/
def enabled : Control :=
  { clear with buffered := true }

/-- A word with one bit, if it is set. -/
def flag (set : Bool) (place : Nat) : Word :=
  if set then 1#32 <<< place else 0

instance : WordCode Control where
  encode c :=
    flag c.buffered 1 ||| flag c.grounded 2 ||| flag c.tristate 3 ||| flag c.offsetBinary 4 |||
      flag c.silent 5 ||| (BitVec.ofNat 32 c.span.code <<< 6)
  decode? w := (Span.ofCode? ((w >>> 6) &&& 0xF#32).toNat).map fun span =>
    { buffered := w.getLsbD 1, grounded := w.getLsbD 2, tristate := w.getLsbD 3
      offsetBinary := w.getLsbD 4, silent := w.getLsbD 5, span }

end Control

/-! ## Software commands -/

/-- Commands that the converter executes once. -/
structure Software where
  /-- Load the DAC register to the output. -/
  load : Bool
  /-- Load the clear code into the DAC register. -/
  clear : Bool
  /-- Return to the power-on state. -/
  reset : Bool
deriving DecidableEq, Repr

namespace Software

/-- No command. -/
def none : Software :=
  { load := false, clear := false, reset := false }

instance : WordCode Software where
  encode s := Control.flag s.load 0 ||| Control.flag s.clear 1 ||| Control.flag s.reset 2
  decode? w := some { load := w.getLsbD 0, clear := w.getLsbD 1, reset := w.getLsbD 2 }

end Software

end InstrumentBus.Ad5791
