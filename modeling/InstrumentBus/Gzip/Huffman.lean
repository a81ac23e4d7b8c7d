import InstrumentBus.Power

/-!
# Huffman codes

A code is given by the number of code words of each length, from one bit to fifteen, and by the
symbols in the order of their code words. Words of one length are consecutive numbers, and the words
of the next length start where those leave off.
-/

namespace InstrumentBus.Gzip

/-- A canonical prefix-free code. -/
structure Huffman where
  /-- The number of code words of each length, shortest first. -/
  counts : List Nat
  /-- The symbols in the order of their code words. -/
  symbols : Array Nat
deriving DecidableEq, Repr

namespace Huffman

/-- The greatest length of a code word. -/
def maxLength : Nat := 15

/-- The code in which symbol `i` has a word of `lengths[i]` bits; no word if that is zero. -/
def ofLengths (lengths : List Nat) : Huffman :=
  let indexed := lengths.zipIdx
  let steps := (List.range maxLength).map (· + 1)
  { counts := steps.map lengths.count
    symbols := (steps.flatMap fun n =>
      indexed.filterMap fun (len, symbol) => if len = n then some symbol else none).toArray }

/-- The room that the words take, in units of words of the greatest length. -/
def room (h : Huffman) : Nat :=
  h.counts.zipIdx.foldr (fun (n, i) room => n * 2 ^ (maxLength - 1 - i) + room) 0

/-- Whether every sequence of bits starts with exactly one word. -/
def complete (h : Huffman) : Bool :=
  h.room == 2 ^ maxLength

/-- Whether the code is complete, has no word, or has a single word of one bit. -/
def usable (h : Huffman) : Bool :=
  h.complete || h.symbols.isEmpty || (h.symbols.size = 1 && h.counts.head? = some 1)

/-- The symbol of the word at the start of the bits: `word` holds the bits so far, `first` is the
first word of the current length and `index` the place of its symbol. -/
def search (h : Huffman) : List Nat → Nat → Nat → Nat → List Bool → Option (Nat × List Bool)
  | [], _, _, _, _ => none
  | _ :: _, _, _, _, [] => none
  | n :: counts, word, first, index, bit :: bits =>
    let word := 2 * word + bit.toNat
    if word < first + n then
      (h.symbols[index + (word - first)]?).map fun symbol => (symbol, bits)
    else h.search counts word (2 * (first + n)) (index + n) bits

/-- The symbol of the word at the start of the bits, and the bits that follow. -/
def symbol? (h : Huffman) (bits : List Bool) : Option (Nat × List Bool) :=
  h.search h.counts 0 0 0 bits

end Huffman

end InstrumentBus.Gzip
