import InstrumentBus.Side
import InstrumentBus.Transport

/-!
# What can go wrong in a driver
-/

namespace InstrumentBus

/-- Why an operation of a driver fails. -/
inductive DriverError where
  | fault (cause : Fault)
  /-- The manifest lacks a region. -/
  | missingRegion (name : String)
  /-- The manifest lacks a register. -/
  | missingRegister (region register : String)
  /-- Nobody may write the register. -/
  | readOnly (register : String)
  /-- The other side owns the register. -/
  | wrongSide (register : String) (owner : Side)
  /-- A condition did not come to hold in as many polls as were allowed. -/
  | timeout (condition : String) (polls : Nat)
  /-- The peripheral is connected to another master, or the grant is not for it. -/
  | notOwner (peripheral : String) (owner requester : Nat)
  /-- The core is out of reset. -/
  | running (name : String)
  /-- A byte reads back other than it was written. -/
  | verifyFailed (addr : Addr) (expected read : Byte)
  /-- There are more bytes than the RAM holds. -/
  | tooLarge (bytes capacity : Nat)
  /-- The control register reads back other than it was written. -/
  | echoMismatch (written read : Word)
  /-- A value is outside what the peripheral takes. -/
  | outOfRange (what : String)
  /-- There is no transport any more. -/
  | disconnected
  /-- The transport was left in the middle of an operation. -/
  | poisoned
deriving DecidableEq, Repr

/-- The text shown for an error of a driver. -/
def DriverError.message : DriverError → String
  | .fault cause => cause.message
  | .missingRegion name => s!"The manifest has no region `{name}`"
  | .missingRegister region register => s!"The manifest has no register `{region}.{register}`"
  | .readOnly register => s!"Register `{register}` is read only"
  | .wrongSide register owner =>
    s!"Register `{register}` can only be written from the {owner.title} side"
  | .timeout condition polls => s!"Gave up waiting for {condition} after {polls} polls"
  | .notOwner peripheral owner requester =>
    s!"`{peripheral}` is connected to master {owner}, not master {requester}"
  | .running name => s!"`{name}` is running, stop it first or force the operation"
  | .verifyFailed addr expected read =>
    "Readback mismatch at " ++ Hex.literal addr.toNat ++ ": wrote " ++
      Hex.byteLiteral expected.toNat ++ ", read " ++ Hex.byteLiteral read.toNat
  | .tooLarge bytes capacity => s!"{bytes} bytes don't fit in {capacity} bytes of RAM"
  | .echoMismatch written read =>
    "Control register wrote " ++ Hex.literal written.toNat ++ " but read back " ++
      Hex.literal read.toNat
  | .outOfRange what => s!"{what} is out of range"
  | .disconnected => "The transport has been dropped"
  | .poisoned => "The transport lock is poisoned"

/-- The name of an error of a driver. -/
def DriverError.title : DriverError → String
  | .fault cause => cause.title
  | .missingRegion _ => "MissingRegion"
  | .missingRegister _ _ => "MissingRegister"
  | .readOnly _ => "ReadOnlyViolation"
  | .wrongSide _ _ => "WrongSideViolation"
  | .timeout _ _ => "Timeout"
  | .notOwner _ _ _ => "NotOwner"
  | .running _ => "Running"
  | .verifyFailed _ _ _ => "VerifyFailed"
  | .tooLarge _ _ => "TooLarge"
  | .echoMismatch _ _ => "EchoMismatch"
  | .outOfRange _ => "OutOfRange"
  | .disconnected => "TransportGone"
  | .poisoned => "Poisoned"

instance : Diagnostic DriverError :=
  ⟨DriverError.title, DriverError.message⟩

end InstrumentBus
