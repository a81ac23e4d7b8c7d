import InstrumentBus.Proofs.Ram.Memory
import InstrumentBus.Proofs.Transport.Calls

/-!
# Word accesses to a plain memory

A word is there if its four bytes are. An access to it is then all or nothing: it delivers the word, or changes its
four bytes and no other, and where a byte is missing it fails with the address of the first such byte and changes
nothing (`Memory.AccessesWord`). This holds of every word but the last of the address space, whose limit wraps
around: an access to that one goes through no address at all (`Memory.word_accesses_below_last`).
-/

namespace InstrumentBus.Memory

variable {m : Memory} {addr : Addr} {ranges : List (Addr × Word)}

/-! ## Backed addresses -/

/-- The ranges that a memory is made of end inside the address space. -/
def InSpace (ranges : List (Addr × Word)) : Prop :=
  ∀ r ∈ ranges, r.1.toNat + r.2.toNat ≤ 2 ^ 32

/-- A memory backs the addresses from the first one of a range on, if no range goes past the end. -/
theorem backs_of_ranges (made : m.ranges = (ofRanges ranges).ranges) (inside : InSpace ranges) (a : Nat) :
    m.backs a = true ↔ ∃ r ∈ ranges, r.1.toNat ≤ a ∧ a < r.1.toNat + r.2.toNat := by
  rw [backs_iff_of_ranges made]
  refine exists_congr fun r => and_congr_right fun listed => ?_
  have ends := inside r listed
  have place {i : Nat} (short : i < r.2.toNat) : (r.1 + BitVec.ofNat 32 i).toNat = r.1.toNat + i :=
    Addr.toNat_add_ofNat ends short
  constructor
  · rintro ⟨i, short, rfl⟩
    rw [place short]
    omega
  · rintro ⟨above, below⟩
    exact ⟨a - r.1.toNat, by omega, (place (by omega)).trans (by omega)⟩

theorem byte_of_backs {a : Nat} (backed : m.backs a = true) : m.byte a = .ok (m.written.getD a 0) := by
  refine byte_of_byte? ?_
  rw [byte?, if_pos backed]

theorem byte_of_not_backs {a : Nat} (missing : m.backs a = false) :
    m.byte a = .error (.unmapped (BitVec.ofNat 32 a)) := by
  rw [byte, byte?, missing]
  rfl

/-- Several bytes are read up to the first that is missing. -/
theorem mapM_byte_of_missing {before after : List Nat} {a : Nat} (backed : ∀ b ∈ before, m.backs b = true)
    (missing : m.backs a = false) :
    (before ++ a :: after).mapM m.byte = .error (.unmapped (BitVec.ofNat 32 a)) := by
  induction before with
  | nil =>
    rw [List.nil_append, List.mapM_cons, byte_of_not_backs missing]
    rfl
  | cons b before ih =>
    rw [List.cons_append, List.mapM_cons, byte_of_backs (backed b List.mem_cons_self),
      ih fun b' later => backed b' (List.mem_cons_of_mem _ later)]
    rfl

/-! ## Words that are there -/

/-- Bytes that are put together to a word show in it. -/
theorem getLsbD_ofBytes (bytes : List Byte) {k i : Nat} {v : Byte} (inWord : k < 4) (present : bytes[k]? = some v)
    (low : i < 8) : (ofBytes bytes).getLsbD (8 * k + i) = v.getLsbD i := by
  induction k generalizing bytes with
  | zero =>
    cases bytes with
    | nil => cases present
    | cons b bytes =>
      cases present
      rw [Nat.mul_zero, Nat.zero_add, getLsbD_ofBytes_cons _ _ (by omega), if_pos low]
  | succ k ih =>
    cases bytes with
    | nil => cases present
    | cons b bytes =>
      rw [getLsbD_ofBytes_cons _ _ (by omega), if_neg (by omega), ← ih bytes (by omega) present]
      congr 1
      omega

theorem byte_ofBytes (bytes : List Byte) {k : Nat} {v : Byte} (inWord : k < 4) (present : bytes[k]? = some v) :
    (ofBytes bytes).byte k = v := by
  apply BitVec.eq_of_getLsbD_eq
  intro i low
  rw [Word.getLsbD_byte _ _ low, getLsbD_ofBytes bytes inWord present low]

/-- A word is there if its bytes are. -/
theorem exists_holdsWord (below : addr.toNat + 4 < 2 ^ 32)
    (backed : ∀ k < 4, m.backs (addr.toNat + k) = true) : ∃ w, m.HoldsWord addr w := by
  let bytes := (List.range 4).map fun k => m.written.getD (addr.toNat + k) 0
  refine ⟨ofBytes bytes, below, fun k inWord => ?_⟩
  have present : bytes[k]? = some (m.written.getD (addr.toNat + k) 0) := by
    rw [List.getElem?_map, List.getElem?_range inWord]
    rfl
  rw [byte?, if_pos (backed k inWord), byte_ofBytes bytes inWord present]

/-- A word that is stored is there. -/
theorem HoldsWord.storeWord {w : Word} (held : m.HoldsWord addr w) (new : Word) :
    (m.storeWord addr new).HoldsWord addr new := by
  refine ⟨held.below, fun k inWord => ?_⟩
  rw [held.byte?_storeWord, if_pos (by omega), Nat.add_sub_cancel_left]

/-! ## Words with a missing byte -/

/-- The first byte of a word that is missing. -/
structure FirstMissing (m : Memory) (addr : Addr) (k : Nat) : Prop where
  inWord : k < 4
  missing : m.backs (addr.toNat + k) = false
  backed : ∀ j < k, m.backs (addr.toNat + j) = true

/-- Going through the bytes of a word, all are there so far or one was the first that is missing. -/
theorem backed_or_firstMissing (m : Memory) (addr : Addr) {count : Nat} (few : count ≤ 4) :
    (∀ k < count, m.backs (addr.toNat + k) = true) ∨ ∃ k, m.FirstMissing addr k := by
  induction count with
  | zero => exact .inl fun k none => absurd none (Nat.not_lt_zero k)
  | succ count ih =>
    rcases ih (Nat.le_of_succ_le few) with backed | first
    · cases present : m.backs (addr.toNat + count) with
      | false => exact .inr ⟨count, few, present, backed⟩
      | true =>
        refine .inl fun k within => ?_
        rcases Nat.lt_succ_iff_lt_or_eq.1 within with earlier | rfl
        · exact backed k earlier
        · exact present
    · exact .inr first

theorem FirstMissing.mapM_byte {k : Nat} (first : m.FirstMissing addr k) (below : addr.toNat + 4 < 2 ^ 32) :
    (wordAddresses addr).mapM m.byte = .error (.unmapped (addr + BitVec.ofNat 32 k)) := by
  have inWord := first.inWord
  have split : wordAddresses addr = List.range' addr.toNat k ++
      (addr.toNat + k) :: List.range' (addr.toNat + k + 1) (3 - k) := by
    rw [wordAddresses, toNat_wordLimit below, Nat.add_sub_cancel_left, ← List.range'_succ, List.range'_append_1]
    congr 1
    omega
  have place : BitVec.ofNat 32 (addr.toNat + k) = addr + BitVec.ofNat 32 k := by
    rw [BitVec.ofNat_add, BitVec.ofNat_toNat, BitVec.setWidth_eq]
  rw [split, mapM_byte_of_missing ?_ first.missing, place]
  intro b listed
  obtain ⟨j, within, rfl⟩ := List.mem_range'.1 listed
  rw [Nat.one_mul]
  exact first.backed j within

/-! ## Accesses -/

/-- What the accesses to a word do: all of it or nothing. -/
structure AccessesWord (m : Memory) (addr : Addr) : Prop where
  /-- The word ends inside the address space. -/
  limit : (wordLimit addr).toNat = addr.toNat + 4
  succeeds : ∀ w, (Transport.writeWord m addr w).1 = .ok () ↔ ∀ k < 4, m.backs (addr.toNat + k) = true
  /-- A write changes the bytes of the word and no other. -/
  changes : ∀ w, (Transport.writeWord m addr w).1 = .ok () → ∀ j,
    (Transport.writeWord m addr w).2.byte? j =
      if addr.toNat ≤ j ∧ j < addr.toNat + 4 then some (w.byte (j - addr.toNat)) else m.byte? j
  /-- What was written is read. -/
  shows : ∀ w, (Transport.writeWord m addr w).1 = .ok () →
    (Transport.readWord (Transport.writeWord m addr w).2 addr).1 = .ok w
  /-- An access to a word with a missing byte tells the first, and changes nothing. -/
  fails : ∀ k, m.FirstMissing addr k →
    (∀ w, Transport.writeWord m addr w = (.error (.unmapped (addr + BitVec.ofNat 32 k)), m)) ∧
    Transport.readWord m addr = (.error (.unmapped (addr + BitVec.ofNat 32 k)), m)

theorem transport_writeWord (m : Memory) (addr : Addr) (w : Word) :
    Transport.writeWord m addr w = m.commit (m.writeWord addr w) :=
  rfl

theorem HoldsWord.transport_writeWord {w : Word} (held : m.HoldsWord addr w) (aligned : addr.Aligned) (new : Word) :
    Transport.writeWord m addr new = (.ok (), m.storeWord addr new) := by
  rw [Memory.transport_writeWord, held.writeWord aligned]
  rfl

theorem FirstMissing.transport_writeWord {k : Nat} (first : m.FirstMissing addr k) (aligned : addr.Aligned)
    (below : addr.toNat + 4 < 2 ^ 32) (w : Word) :
    Transport.writeWord m addr w = (.error (.unmapped (addr + BitVec.ofNat 32 k)), m) := by
  rw [Memory.transport_writeWord, writeWord, if_pos aligned, first.mapM_byte below]
  rfl

theorem FirstMissing.transport_readWord {k : Nat} (first : m.FirstMissing addr k) (aligned : addr.Aligned)
    (below : addr.toNat + 4 < 2 ^ 32) :
    Transport.readWord m addr = (.error (.unmapped (addr + BitVec.ofNat 32 k)), m) := by
  refine Prod.ext ?_ rfl
  show m.readWord addr = _
  rw [readWord, if_pos aligned, first.mapM_byte below]
  rfl

theorem transport_readByte (m : Memory) (addr : Addr) :
    (m.backs addr.toNat = true ∧ ∃ v, (Transport.readByte m addr).1 = .ok v) ∨
    (m.backs addr.toNat = false ∧ (Transport.readByte m addr).1 = .error (.unmapped addr)) := by
  cases backed : m.backs addr.toNat with
  | true => exact .inl ⟨rfl, _, byte_of_backs backed⟩
  | false =>
    have raised := byte_of_not_backs backed
    rw [BitVec.ofNat_toNat, BitVec.setWidth_eq] at raised
    exact .inr ⟨rfl, raised⟩

/-- The word at the end of the address space. -/
def lastWord : Addr :=
  0xFFFFFFFC

theorem below_of_ne_lastWord (aligned : addr.Aligned) (other : addr ≠ lastWord) : addr.toNat + 4 < 2 ^ 32 := by
  have place : addr.toNat ≠ lastWord.toNat := fun same => other (BitVec.eq_of_toNat_eq same)
  have last : lastWord.toNat = 2 ^ 32 - 4 := rfl
  have bound := addr.isLt
  unfold Addr.Aligned at aligned
  omega

/-- A word is read if its bytes are there. -/
theorem transport_readWord (m : Memory) (aligned : addr.Aligned) (other : addr ≠ lastWord) :
    ((∀ k < 4, m.backs (addr.toNat + k) = true) ∧ ∃ w, (Transport.readWord m addr).1 = .ok w) ∨
    ∃ k, m.FirstMissing addr k ∧
      (Transport.readWord m addr).1 = .error (.unmapped (addr + BitVec.ofNat 32 k)) := by
  have below := below_of_ne_lastWord aligned other
  rcases m.backed_or_firstMissing addr (Nat.le_refl 4) with present | ⟨k, first⟩
  · obtain ⟨w, held⟩ := exists_holdsWord below present
    exact .inl ⟨present, w, held.readWord aligned⟩
  · exact .inr ⟨k, first, congrArg Prod.fst (first.transport_readWord aligned below)⟩

theorem accessesWord (m : Memory) (aligned : addr.Aligned) (other : addr ≠ lastWord) : m.AccessesWord addr := by
  have below := below_of_ne_lastWord aligned other
  have succeeds (w : Word) :
      (Transport.writeWord m addr w).1 = .ok () ↔ ∀ k < 4, m.backs (addr.toNat + k) = true := by
    rcases m.backed_or_firstMissing addr (Nat.le_refl 4) with present | ⟨k, first⟩
    · obtain ⟨old, held⟩ := exists_holdsWord below present
      exact iff_of_true (congrArg Prod.fst (held.transport_writeWord aligned w)) present
    · refine iff_of_false ?_ fun present => ?_
      · rw [first.transport_writeWord aligned below]
        rintro ⟨⟩
      · cases first.missing.symm.trans (present k first.inWord)
  refine ⟨toNat_wordLimit below, succeeds, fun w done j => ?_, fun w done => ?_, fun k first => ?_⟩
  · obtain ⟨old, held⟩ := exists_holdsWord below ((succeeds w).1 done)
    rw [held.transport_writeWord aligned w]
    exact held.byte?_storeWord w j
  · obtain ⟨old, held⟩ := exists_holdsWord below ((succeeds w).1 done)
    rw [held.transport_writeWord aligned w]
    exact (held.storeWord w).readWord aligned
  · exact ⟨first.transport_writeWord aligned below, first.transport_readWord aligned below⟩

/-- The limit of the last word wraps around: an access to it goes through no address. -/
theorem transport_writeWord_lastWord (m : Memory) (w : Word) : Transport.writeWord m lastWord w = (.ok (), m) :=
  rfl

theorem transport_readWord_lastWord (m : Memory) : Transport.readWord m lastWord = (.ok 0, m) :=
  rfl

/-! ## After any calls -/

theorem ranges_storeWord (m : Memory) (addr : Addr) (w : Word) : (m.storeWord addr w).ranges = m.ranges := by
  unfold storeWord
  generalize (wordAddresses addr).zipIdx = places
  induction places generalizing m with
  | nil => rfl
  | cons place places ih => exact ih (m.store place.1 (w.byte place.2))

/-- No access changes the ranges of a memory. -/
theorem refines_ranges (made : List (Nat × Nat)) :
    Transport.Refines (fun _ => True) fun m m' : Memory => m' = m ∧ m.ranges = made where
  readWord := by
    rintro _ m addr ⟨rfl, kept⟩ -
    exact ⟨rfl, rfl, kept⟩
  writeWord := by
    rintro _ m addr ⟨rfl, kept⟩ - w
    refine ⟨rfl, rfl, ?_⟩
    rw [transport_writeWord, writeWord]
    split
    · cases (wordAddresses addr).mapM m.byte with
      | error e => exact kept
      | ok bytes => exact (m.ranges_storeWord addr w).trans kept
    · exact kept
  readByte := by
    rintro _ m addr ⟨rfl, kept⟩ -
    exact ⟨rfl, rfl, kept⟩
  writeByte := by
    rintro _ m addr ⟨rfl, kept⟩ - v
    refine ⟨rfl, rfl, ?_⟩
    show (m.commit (m.writeByte addr v)).2.ranges = made
    rw [writeByte]
    cases m.byte addr.toNat with
    | error e => exact kept
    | ok old => exact kept

/-- Whatever is called on a memory, it backs what it was made to back. -/
theorem ranges_calls (m : Memory) (cs : List Transport.Call) : (Transport.calls m cs).2.ranges = m.ranges :=
  ((refines_ranges m.ranges).calls ⟨rfl, rfl⟩ fun _ _ _ _ => trivial).after.2

/-- After any calls on a memory whose ranges end inside the address space, it backs the addresses of these ranges,
which are addresses all, and every word but the last is accessed as a whole or not at all. The limit of the last
word is the one that leaves the address space: a write to it succeeds and changes nothing, and a read delivers
zero, whatever is there. -/
theorem word_accesses_below_last (inside : InSpace ranges) (cs : List Transport.Call) :
    (∀ a, (Transport.calls (ofRanges ranges) cs).2.backs a = true ↔
      ∃ r ∈ ranges, r.1.toNat ≤ a ∧ a < r.1.toNat + r.2.toNat) ∧
    (∀ a, (Transport.calls (ofRanges ranges) cs).2.backs a = true → a < 2 ^ 32) ∧
    (∀ addr : Addr, addr.Aligned → addr ≠ lastWord →
      (Transport.calls (ofRanges ranges) cs).2.AccessesWord addr) ∧
    wordLimit lastWord = 0 ∧
    (∀ w, Transport.writeWord (Transport.calls (ofRanges ranges) cs).2 lastWord w =
      (.ok (), (Transport.calls (ofRanges ranges) cs).2)) ∧
    Transport.readWord (Transport.calls (ofRanges ranges) cs).2 lastWord =
      (.ok 0, (Transport.calls (ofRanges ranges) cs).2) := by
  have backs := backs_of_ranges (ranges_calls (ofRanges ranges) cs) inside
  refine ⟨backs, fun a backed => ?_, fun addr aligned other => accessesWord _ aligned other, rfl,
    transport_writeWord_lastWord _, transport_readWord_lastWord _⟩
  obtain ⟨r, listed, -, within⟩ := (backs a).1 backed
  exact Nat.lt_of_lt_of_le within (inside r listed)

/-- A memory with a range that ends within a word, and one that ends with the address space. -/
def splitRanges : List (Addr × Word) :=
  [(0x100, 6), (0xFFFFFFF0, 16)]

theorem word_with_two_bytes_is_left_alone :
    InSpace splitRanges ∧
    ∀ w, Transport.writeWord (Transport.calls (ofRanges splitRanges) [.writeByte 0x104 7]).2 0x104 w =
      (.error (.unmapped 0x106), (Transport.calls (ofRanges splitRanges) [.writeByte 0x104 7]).2) := by
  have inside : InSpace splitRanges := by
    simp [InSpace, splitRanges]
  obtain ⟨-, -, accesses, -⟩ := word_accesses_below_last inside [.writeByte 0x104 7]
  refine ⟨inside, ?_⟩
  exact ((accesses 0x104 (by decide) (by decide)).fails 2 ⟨by decide, rfl, by decide⟩).1

/-- The last word is there, but a write to it has no effect. -/
theorem last_word_is_not_written :
    InSpace splitRanges ∧ (∀ k < 4, (ofRanges splitRanges).backs (lastWord.toNat + k) = true) ∧
    Transport.writeWord (ofRanges splitRanges) lastWord 0x04030201 = (.ok (), ofRanges splitRanges) ∧
    Transport.readWord (ofRanges splitRanges) lastWord = (.ok 0, ofRanges splitRanges) ∧
    (Transport.readByte (ofRanges splitRanges) lastWord).1 = .ok 0 ∧
    ¬lastWord.toNat + 4 < 2 ^ 32 := by
  have inside : InSpace splitRanges := by
    simp [InSpace, splitRanges]
  have still : (ofRanges splitRanges).byte? lastWord.toNat = some 0 :=
    byte?_ofRanges (.tail _ (.head _)) (by decide : 12 < (16 : Word).toNat)
  exact ⟨inside, by decide, rfl, rfl, byte_of_byte? still, by decide⟩

end InstrumentBus.Memory
