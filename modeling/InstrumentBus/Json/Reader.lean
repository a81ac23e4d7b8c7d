import InstrumentBus.Json
import InstrumentBus.Json.Literal

/-!
# Reading JSON text

The reader takes bytes and accepts one value with blanks around it. Numbers follow the grammar of
JSON: no leading zeros, and digits on both sides of a point and behind an exponent.
-/

namespace InstrumentBus.Json

/-! ## Blanks and words -/

/-- Whether a byte may stand between two tokens. -/
def isBlank (b : UInt8) : Bool :=
  b == 0x20 || b == 0x0a || b == 0x0d || b == 0x09

/-- The input from its first token on. -/
def skipBlanks (input : List UInt8) : List UInt8 :=
  input.dropWhile isBlank

/-- What follows the given bytes at the start of the input. -/
def strip? (expected input : List UInt8) : Option (List UInt8) :=
  if expected.isPrefixOf input then some (input.drop expected.length) else none

/-! ## Numbers -/

/-- Whether a byte is a decimal digit. -/
def isDigit (b : UInt8) : Bool :=
  0x30 ≤ b && b ≤ 0x39

/-- The digits at the start of the input and what follows them. -/
def digits (input : List UInt8) : List UInt8 × List UInt8 :=
  (input.takeWhile isDigit, input.dropWhile isDigit)

/-- The number that a list of digits denotes. -/
def ofDigits (ds : List UInt8) : Nat :=
  ds.foldl (fun n b => 10 * n + (b.toNat - 0x30)) 0

/-- At least one digit at the start of the input, and what follows. -/
def someDigits? (input : List UInt8) : Option (List UInt8 × List UInt8) :=
  match digits input with
  | ([], _) => none
  | found => some found

/-- The whole part of a number: digits without a leading zero. -/
def whole? (input : List UInt8) : Option (List UInt8 × List UInt8) :=
  match someDigits? input with
  | none => none
  | some (ds, rest) =>
    if ds.head? = some 0x30 ∧ 1 < ds.length then none else some (ds, rest)

/-- The fraction of a number, empty if there is no point. -/
def fraction? (input : List UInt8) : Option (List UInt8 × List UInt8) :=
  match input with
  | b :: rest =>
    if b = ascii '.' then (someDigits? rest).map fun (ds, rest) => (b :: ds, rest)
    else some ([], input)
  | [] => some ([], [])

/-- The exponent of a number, empty if there is none. -/
def exponent? (input : List UInt8) : Option (List UInt8 × List UInt8) :=
  match input with
  | b :: rest =>
    if b = ascii 'e' ∨ b = ascii 'E' then
      let (sign, rest) :=
        match rest with
        | s :: rest' => if s = ascii '+' ∨ s = ascii '-' then ([s], rest') else ([], rest)
        | [] => ([], [])
      (someDigits? rest).map fun (ds, rest) => (b :: sign ++ ds, rest)
    else some ([], input)
  | [] => some ([], [])

/-- The ASCII text of bytes. -/
def asciiText (bs : List UInt8) : String :=
  String.ofList (bs.map fun b => Char.ofNat b.toNat)

/-- A number at the start of the input. -/
def number? {τ : Type} (input : List UInt8) : Option (Json τ × List UInt8) := do
  let (minus, rest) :=
    match input with
    | b :: rest => if b = ascii '-' then ([b], rest) else ([], input)
    | [] => ([], [])
  let (ds, rest) ← whole? rest
  let (frac, rest) ← fraction? rest
  let (expo, rest) ← exponent? rest
  if minus.isEmpty && frac.isEmpty && expo.isEmpty then return (.natural (ofDigits ds), rest)
  else return (.numeral (asciiText (minus ++ ds ++ frac ++ expo)), rest)

/-! ## Values -/

/-- A JSON value as it is read. -/
abbrev Read := Json (Option String)

/-- A word that stands for a value. -/
def word? (word : String) (v : Read) (input : List UInt8) : Option (Read × List UInt8) :=
  (strip? (word.toList.map ascii) input).map fun rest => (v, rest)

/-- A value that is no container, at the start of the input. -/
def scalar? (input : List UInt8) : Option (Read × List UInt8) :=
  match input with
  | [] => none
  | b :: rest =>
    if b = ascii '"' then (literal? rest).map fun (s, rest) => (.string s, rest)
    else if b = ascii 'n' then word? "null" .null input
    else if b = ascii 't' then word? "true" (.bool true) input
    else if b = ascii 'f' then word? "false" (.bool false) input
    else number? input

mutual

/-- A value at the start of the input; each level of the text takes one unit of `fuel`. -/
def value? : Nat → List UInt8 → Option (Read × List UInt8)
  | 0, _ => none
  | fuel + 1, input =>
    match skipBlanks input with
    | [] => none
    | b :: rest =>
      if b = ascii '[' then
        match skipBlanks rest with
        | [] => none
        | c :: after =>
          if c = ascii ']' then some (.array [], after)
          else (items? fuel rest).map fun (vs, rest) => (.array vs, rest)
      else if b = ascii '\x7b' then
        match skipBlanks rest with
        | [] => none
        | c :: after =>
          if c = ascii '\x7d' then some (.object [], after)
          else (members? fuel rest).map fun (ms, rest) => (.object ms, rest)
      else scalar? (b :: rest)

/-- The items of a list up to its closing bracket. -/
def items? : Nat → List UInt8 → Option (List Read × List UInt8)
  | 0, _ => none
  | fuel + 1, input =>
    match value? fuel input with
    | none => none
    | some (v, rest) =>
      match skipBlanks rest with
      | [] => none
      | b :: rest =>
        if b = ascii ']' then some ([v], rest)
        else if b = ascii ',' then (items? fuel rest).map fun (vs, rest) => (v :: vs, rest)
        else none

/-- The members of an object up to its closing brace. -/
def members? : Nat → List UInt8 → Option (List (Option String × Read) × List UInt8)
  | 0, _ => none
  | fuel + 1, input =>
    match skipBlanks input with
    | [] => none
    | q :: rest =>
      if q = ascii '"' then
        match literal? rest with
        | none => none
        | some (key, rest) =>
          match skipBlanks rest with
          | [] => none
          | c :: rest =>
            if c = ascii ':' then
              match value? fuel rest with
              | none => none
              | some (v, rest) =>
                match skipBlanks rest with
                | [] => none
                | b :: rest =>
                  if b = ascii '\x7d' then some ([(key, v)], rest)
                  else if b = ascii ',' then
                    (members? fuel rest).map fun (ms, rest) => ((key, v) :: ms, rest)
                  else none
            else none
      else none

end

/-- The value of a whole text. Every second level of the recursion takes a byte, so twice the length
of the text is fuel enough. -/
def read? (text : List UInt8) : Option Read :=
  match value? (2 * text.length + 2) text with
  | some (v, rest) => if (skipBlanks rest).isEmpty then some v else none
  | none => none

end InstrumentBus.Json
