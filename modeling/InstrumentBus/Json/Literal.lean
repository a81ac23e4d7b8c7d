import InstrumentBus.Word.Hex

/-!
# String literals in JSON text

The body of a string literal is a sequence of bytes and escapes. A literal is well formed when every
escape is complete and no control character stands in it bare. Which text it denotes is a second
question: escapes may name halves of a surrogate pair, and bytes need not be UTF-8, so some literals
denote none.
-/

namespace InstrumentBus.Json

/-- A piece of a string literal. -/
inductive Piece where
  /-- A byte of the text. -/
  | byte (b : UInt8)
  | unit (n : Nat)
deriving DecidableEq, Repr

/-- The byte of an ASCII character. -/
def ascii (c : Char) : UInt8 :=
  c.toNat.toUInt8

/-- What a short escape stands for. -/
def shortEscape? (b : UInt8) : Option UInt8 :=
  if b = ascii '"' ∨ b = ascii '\\' ∨ b = ascii '/' then some b
  else if b = ascii 'b' then some 0x08
  else if b = ascii 'f' then some 0x0c
  else if b = ascii 'n' then some 0x0a
  else if b = ascii 'r' then some 0x0d
  else if b = ascii 't' then some 0x09
  else none

/-- The value of a hexadecimal digit. -/
def hexDigit? (b : UInt8) : Option Nat :=
  Hex.value? (Char.ofNat b.toNat)

/-- The code unit written with four hexadecimal digits. -/
def codeUnit? (a b c d : UInt8) : Option Nat := do
  let a ← hexDigit? a
  let b ← hexDigit? b
  let c ← hexDigit? c
  let d ← hexDigit? d
  return ((a * 16 + b) * 16 + c) * 16 + d

/-- The pieces of a literal up to its closing quote, behind those already taken, and the bytes that
follow. -/
def pieces? (taken : List Piece) : List UInt8 → Option (List Piece × List UInt8)
  | [] => none
  | b :: rest =>
    if b = ascii '"' then some (taken.reverse, rest)
    else if b = ascii '\\' then
      match rest with
      | [] => none
      | e :: rest =>
        if e = ascii 'u' then
          match rest with
          | h0 :: h1 :: h2 :: h3 :: rest =>
            match codeUnit? h0 h1 h2 h3 with
            | some n => pieces? (.unit n :: taken) rest
            | none => none
          | _ => none
        else
          match shortEscape? e with
          | some c => pieces? (.byte c :: taken) rest
          | none => none
    else if b < 0x20 then none
    else pieces? (.byte b :: taken) rest

/-- Whether a code unit is the first half of a surrogate pair. -/
def isHighSurrogate (n : Nat) : Bool :=
  0xD800 ≤ n && n ≤ 0xDBFF

/-- Whether a code unit is the second half of a surrogate pair. -/
def isLowSurrogate (n : Nat) : Bool :=
  0xDC00 ≤ n && n ≤ 0xDFFF

/-- The character of a surrogate pair. -/
def ofSurrogates (high low : Nat) : Char :=
  Char.ofNat (0x10000 + (high - 0xD800) * 0x400 + (low - 0xDC00))

/-- The bytes that the pieces stand for; none if half of a surrogate pair stands alone. -/
def bytes? : List Piece → Option (List UInt8)
  | [] => some []
  | .byte b :: rest => (bytes? rest).map (b :: ·)
  | .unit n :: rest =>
    if isHighSurrogate n then
      match rest with
      | .unit m :: rest =>
        if isLowSurrogate m then
          (bytes? rest).map (String.utf8EncodeChar (ofSurrogates n m) ++ ·)
        else none
      | _ => none
    else if isLowSurrogate n then none
    else (bytes? rest).map (String.utf8EncodeChar (Char.ofNat n) ++ ·)

/-- The text that the pieces denote. -/
def text? (ps : List Piece) : Option String :=
  (bytes? ps).bind fun bs => String.fromUTF8? ⟨bs.toArray⟩

/-- The text of a literal whose opening quote has been read, and the bytes that follow it. -/
def literal? (input : List UInt8) : Option (Option String × List UInt8) :=
  (pieces? [] input).map fun (ps, rest) => (text? ps, rest)

end InstrumentBus.Json
