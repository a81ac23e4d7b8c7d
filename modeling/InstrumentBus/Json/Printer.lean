import InstrumentBus.Json
import InstrumentBus.Word.Hex

/-!
# Written JSON

A value is written over several lines, with two blanks for every level and a blank after the colon
of a member. Empty containers stay on their line. In a string only the quote, the backslash and the
control characters are escaped.
-/

namespace InstrumentBus.Json

/-- A character as it stands inside a string literal. -/
def escape (c : Char) : List Char :=
  if c = '"' then ['\\', '"']
  else if c = '\\' then ['\\', '\\']
  else if c = '\x08' then ['\\', 'b']
  else if c = '\t' then ['\\', 't']
  else if c = '\n' then ['\\', 'n']
  else if c = '\x0c' then ['\\', 'f']
  else if c = '\r' then ['\\', 'r']
  else if c.toNat < 0x20 then '\\' :: 'u' :: (Hex.padded 4 c.toNat).toList
  else [c]

/-- A text as a string literal. -/
def quoted (s : String) : List Char :=
  '"' :: s.toList.flatMap escape ++ ['"']

/-- The start of a line inside `level` containers. -/
def newline (level : Nat) : List Char :=
  '\n' :: List.replicate (2 * level) ' '

mutual

/-- A value inside `level` containers. -/
def lines (level : Nat) : Json String → List Char
  | .null => "null".toList
  | .bool true => "true".toList
  | .bool false => "false".toList
  | .natural n => Nat.toDigits 10 n
  | .numeral text => text.toList
  | .string s => quoted s
  | .array [] => ['[', ']']
  | .array (v :: vs) =>
    '[' :: newline (level + 1) ++ lines (level + 1) v ++ itemLines (level + 1) vs ++
      newline level ++ [']']
  | .object [] => ['\x7b', '\x7d']
  | .object ((k, v) :: ms) =>
    '\x7b' :: newline (level + 1) ++ quoted k ++ [':', ' '] ++ lines (level + 1) v ++
      memberLines (level + 1) ms ++ newline level ++ ['\x7d']

/-- The items after the first one. -/
def itemLines (level : Nat) : List (Json String) → List Char
  | [] => []
  | v :: vs => ',' :: newline level ++ lines level v ++ itemLines level vs

/-- The members after the first one. -/
def memberLines (level : Nat) : List (String × Json String) → List Char
  | [] => []
  | (k, v) :: ms =>
    ',' :: newline level ++ quoted k ++ [':', ' '] ++ lines level v ++ memberLines level ms

end

/-- The text of a value. -/
def pretty (v : Json String) : String :=
  String.ofList (lines 0 v)

end InstrumentBus.Json
