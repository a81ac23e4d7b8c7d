import InstrumentBus.Bus

/-!
# Block RAM

A RAM of whole words with byte lane enables. Accesses past its end are acknowledged: reads answer
zero and writes are dropped.
-/

namespace InstrumentBus

/-- A word-organised memory. -/
structure Ram where
  /-- The words in address order. -/
  words : Array Word
deriving DecidableEq, Repr

namespace Ram

/-- A RAM of zeros that holds at least `bytes` bytes, in whole words. -/
def zero (bytes : Nat) : Ram :=
  { words := Array.replicate ((bytes + 3) / 4) 0 }

/-- The size in bytes. -/
def size (r : Ram) : Nat :=
  4 * r.words.size

/-- The word in place `i`. -/
def word? (r : Ram) (i : Nat) : Option Word :=
  r.words[i]?

/-- The word at a byte address; zero past the end. -/
def wordAt (r : Ram) (addr : Addr) : Word :=
  r.words[addr.toNat / 4]?.getD 0

/-- The answer to a transaction. -/
def transact (r : Ram) : Request → Response × Ram
  | .read addr => (.acked (r.wordAt addr), r)
  | .write addr data lanes =>
    let w := Word.merge (r.wordAt addr) data lanes.mask
    (.acked 0, { r with words := r.words.setIfInBounds (addr.toNat / 4) w })

instance : Target Ram where
  transact := transact

/-- A RAM does nothing by itself. -/
instance : Clocked Ram where
  tick r := r

end Ram

end InstrumentBus
