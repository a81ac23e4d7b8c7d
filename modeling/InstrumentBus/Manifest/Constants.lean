import InstrumentBus.Manifest

/-!
# Generated constants

Programs that cannot consult a manifest when they run get the address of every register as a
constant, in C or in Rust.
-/

namespace InstrumentBus.Manifest

/-- A letter in upper case, a digit as it is, and an underscore for any other character. -/
def constantChar (c : Char) : Char :=
  if ('a' ≤ c ∧ c ≤ 'z') ∨ ('A' ≤ c ∧ c ≤ 'Z') ∨ ('0' ≤ c ∧ c ≤ '9') then c.toUpper else '_'

/-- The name of the constant for a register: both names, joined by an underscore. -/
def constantName (region register : String) : String :=
  String.ofList ((region.toList ++ '_' :: register.toList).map constantChar)

/-- The constants for the registers of one region. -/
def regionConstants (name : String) (r : Region) : List (String × Addr) :=
  match r.registers with
  | none => []
  | some registers =>
    registers.entries.filterMap fun (register, reg) =>
      (r.addressOf? reg).map fun addr => (constantName name register, addr)

/-- The constants for all registers, in the order of the names of regions and registers. A register
whose address lies past the end of the address space has none. -/
def constants (m : Manifest) : List (String × Addr) :=
  m.regions.entries.flatMap fun (name, r) => regionConstants name r

/-- The constants as a C header. -/
def cHeader (m : Manifest) : String :=
  "#pragma once\n/* manifest md5 " ++ m.digestText ++ " */\n" ++
    String.join (m.constants.map fun (name, addr) =>
      "#define " ++ name ++ " (volatile uint32_t *)" ++ Hex.literal addr.toNat ++ "\n")

/-- The constants as Rust items. -/
def rustConstants (m : Manifest) : String :=
  "pub const MANIFEST_MD5: &str = \"" ++ m.digestText ++ "\";\n" ++
    String.join (m.constants.map fun (name, addr) =>
      "pub const " ++ name ++ ": u32 = " ++ Hex.literal addr.toNat ++ ";\n")

end InstrumentBus.Manifest
