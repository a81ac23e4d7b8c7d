/-!
# Hexadecimal text

Numbers in messages, in generated constants and in digests are written in lower-case hexadecimal.
-/

namespace InstrumentBus.Hex

/-- The hexadecimal digits of `n`, most significant first, without leading zeros. -/
def digits (n : Nat) : String :=
  String.ofList (Nat.toDigits 16 n)

/-- The digits of `n`, filled with leading zeros to at least `places`. -/
def padded (places n : Nat) : String :=
  let ds := Nat.toDigits 16 n
  String.ofList (List.replicate (places - ds.length) '0' ++ ds)

/-- The digits of `n` behind `0x`, as messages show an address. -/
def literal (n : Nat) : String :=
  "0x" ++ digits n

/-- A byte as `0x` and two digits. -/
def byteLiteral (n : Nat) : String :=
  "0x" ++ padded 2 n

/-- The value of a hexadecimal digit of either case. -/
def value? (c : Char) : Option Nat :=
  if '0' ≤ c ∧ c ≤ '9' then some (c.toNat - '0'.toNat)
  else if 'a' ≤ c ∧ c ≤ 'f' then some (c.toNat - 'a'.toNat + 10)
  else if 'A' ≤ c ∧ c ≤ 'F' then some (c.toNat - 'A'.toNat + 10)
  else none

/-- The number that digits stand for, most significant first; any other character counts as zero. -/
def number (text : String) : Nat :=
  text.toList.foldl (fun n c => 16 * n + (value? c).getD 0) 0

/-- The bytes that pairs of digits stand for; an odd digit at the end is left out. -/
def bytes (text : String) : List (BitVec 8) :=
  pairs text.toList
where
  pairs : List Char → List (BitVec 8)
    | high :: low :: rest => BitVec.ofNat 8 (number (String.ofList [high, low])) :: pairs rest
    | _ => []

end InstrumentBus.Hex
