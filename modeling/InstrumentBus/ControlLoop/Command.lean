import InstrumentBus.Word

/-!
# Commands of the control loop

Each command of the control loop names one of its parameters. An opcode is the code of a command
with one more bit, which asks for a write.
-/

namespace InstrumentBus.ControlLoop

/-- A parameter of the control loop. -/
inductive Command where
  /-- Nonzero while the loop runs. -/
  | status
  /-- The value that the loop holds. -/
  | setpoint
  | proportional
  | integral
  | error
  | position
  /-- The ticks with a running loop since the last reset of the count. -/
  | cycles
  /-- The delay between two iterations. -/
  | delay
deriving DecidableEq, Repr

namespace Command

/-- The commands in the order of their codes. -/
def all : List Command :=
  [.status, .setpoint, .proportional, .integral, .error, .position, .cycles, .delay]

/-- The code of a command, from 1 to 8. -/
def code : Command → Nat
  | .status => 1
  | .setpoint => 2
  | .proportional => 3
  | .integral => 4
  | .error => 5
  | .position => 6
  | .cycles => 7
  | .delay => 8

/-- The name of a command. -/
def title : Command → String
  | .status => "Status"
  | .setpoint => "Setpoint"
  | .proportional => "Proportional"
  | .integral => "Integral"
  | .error => "Error"
  | .position => "Z"
  | .cycles => "Cycles"
  | .delay => "Delay"

/-- The command with a given code. -/
def ofCode? (n : Nat) : Option Command :=
  all.find? fun c => c.code == n

/-- The place of a command's parameter. -/
def slot (c : Command) : Nat :=
  c.code - 1

/-- The bit of an opcode that asks for a write. -/
def writeBit : Word := 0x80#32

/-- The command in the low seven bits of an opcode. -/
def ofOpcode? (opcode : Word) : Option Command :=
  ofCode? (opcode &&& 0x7F#32).toNat

/-- The opcode that reads a parameter. -/
def readOpcode (c : Command) : Word :=
  BitVec.ofNat 32 c.code

/-- The opcode that writes a parameter. -/
def writeOpcode (c : Command) : Word :=
  writeBit ||| c.readOpcode

end Command

end InstrumentBus.ControlLoop
