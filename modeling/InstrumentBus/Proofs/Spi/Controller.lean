import InstrumentBus.Proofs.RegisterFile.History
import InstrumentBus.Spi.Controller

/-!
# The session of an SPI controller

Whatever a controller is asked to do, its flags tell where its transfer is (`Sound`): no transaction can
touch them, and every tick sets them as it moves the transfer on. So a controller can be followed by its
transfer, its `arm` bit, the frame in `to_slave` and the device alone, and the lemmas of this module say
what a tick does to each of these. A frame reaches the device only in the tick that completes a transfer:
`due` lists it then, and `leftOver` is what an earlier session still has to shift.
-/

namespace InstrumentBus

/-- A device after it took some frames. -/
def SerialDevice.feed {δ : Type} [SerialDevice δ] (device : δ) (frames : List Word) : δ :=
  frames.foldl (fun d w => (SerialDevice.exchange d w).2) device

/-- Where a tick moves a transfer of a controller that is armed or not. -/
def Spi.Transfer.next (armed : Bool) (cycles : Nat) : Spi.Transfer → Spi.Transfer
  | .idle => if armed then .busy cycles else .idle
  | .busy 0 => .done
  | .busy (left + 1) => .busy left
  | .done => if armed then .done else .idle

namespace Spi.Controller

variable {δ : Type} {frameWidth cycles : Nat}

theorem sound_layout (wide : 0 < frameWidth) (narrow : frameWidth ≤ 32) :
    (layout frameWidth).Sound := by
  refine ⟨(by decide : ["ready_to_arm", "finished", "arm", "from_slave", "to_slave"].Nodup), ?_,
    (by decide : 4 * 5 ≤ 2 ^ 31)⟩
  intro f present
  simp only [layout, List.mem_toArray, List.mem_cons, List.not_mem_nil, or_false] at present
  rcases present with rfl | rfl | rfl | rfl | rfl
  · decide
  · decide
  · decide
  · exact ⟨wide, narrow⟩
  · exact ⟨wide, narrow⟩

theorem readyToArm_field :
    (layout frameWidth).fields[readyToArm]? = some ⟨"ready_to_arm", 1, .readOnly⟩ :=
  rfl

theorem finished_field :
    (layout frameWidth).fields[finished]? = some ⟨"finished", 1, .readOnly⟩ :=
  rfl

theorem arm_field : (layout frameWidth).fields[arm]? = some ⟨"arm", 1, .readWrite⟩ :=
  rfl

theorem fromSlave_field :
    (layout frameWidth).fields[fromSlave]? = some ⟨"from_slave", frameWidth, .readOnly⟩ :=
  rfl

theorem toSlave_field :
    (layout frameWidth).fields[toSlave]? = some ⟨"to_slave", frameWidth, .readWrite⟩ :=
  rfl

/-- A controller with frames of `frameWidth` bits and a delay of `cycles` ticks whose flags tell where its
transfer is. -/
structure Sound (frameWidth cycles : Nat) (c : Controller δ) : Prop where
  width : c.frameWidth = frameWidth
  delay : c.cycles = cycles
  places : (layout c.frameWidth).Sound
  fits : c.registers.Fits
  ready : c.registers.value readyToArm = if c.transfer = .idle then 1 else 0
  complete : c.registers.value finished = if c.transfer = .done then 1 else 0
  bounded : ∀ left, c.transfer = .busy left → left ≤ cycles

theorem Sound.field {c : Controller δ} (sound : c.Sound frameWidth cycles) {i : Nat} {f : Field}
    (found : (layout frameWidth).fields[i]? = some f) :
    (layout c.frameWidth).fields[i]? = some f := by
  rw [sound.width, found]

/-- The frame in `to_slave`. -/
def frame (c : Controller δ) : Word :=
  c.registers.value toSlave &&& widthMask c.frameWidth

/-- The frames that the next tick shifts. -/
def due (c : Controller δ) : List Word :=
  match c.transfer with
  | .busy 0 => [c.frame]
  | _ => []

/-- The frames that are still to be shifted if `arm` stays low after the next tick. -/
def leftOver (c : Controller δ) : List Word :=
  match c.transfer with
  | .idle => if c.armed then [c.frame] else []
  | .busy _ => [c.frame]
  | .done => []

/-- The controller after a write of its user to the register in place `i`. -/
def put (c : Controller δ) (i : Nat) (w : Word) : Controller δ :=
  (c.transact (.writeWord (Layout.offset i) w)).2

theorem length_leftOver_le (c : Controller δ) : c.leftOver.length ≤ 1 := by
  unfold leftOver
  cases c.transfer with
  | idle =>
    dsimp only
    split
    · exact Nat.le_refl 1
    · exact Nat.zero_le 1
  | busy left => exact Nat.le_refl 1
  | done => exact Nat.zero_le 1

theorem due_of_idle {c : Controller δ} (transfer : c.transfer = .idle) : c.due = [] := by
  rw [due, transfer]

theorem due_of_done {c : Controller δ} (transfer : c.transfer = .done) : c.due = [] := by
  rw [due, transfer]

theorem due_cases (c : Controller δ) : c.due = [] ∨ c.due = [c.frame] := by
  unfold due
  split
  · exact .inr rfl
  · exact .inl rfl

theorem eq_frame_of_mem_due {c : Controller δ} {frame : Word} (due : frame ∈ c.due) :
    frame = c.frame := by
  rcases c.due_cases with none | one
  · rw [none] at due
    nomatch due
  · rw [one] at due
    exact List.mem_singleton.1 due

/-! ## One tick -/

section Tick

variable [SerialDevice δ]

/-- What a tick does: nothing, or one of the four moves of a session. -/
theorem tick_cases (c : Controller δ) :
    (c.transfer = .idle ∧ c.armed = false ∧ c.tick = c) ∨
    (c.transfer = .idle ∧ c.armed = true ∧
      c.tick = { c with registers := c.registers.drive readyToArm 0, transfer := .busy c.cycles }) ∨
    (∃ left, c.transfer = .busy (left + 1) ∧ c.tick = { c with transfer := .busy left }) ∨
    (c.transfer = .busy 0 ∧ c.tick = c.shift) ∨
    (c.transfer = .done ∧ c.armed = true ∧ c.tick = c) ∨
    (c.transfer = .done ∧ c.armed = false ∧
      c.tick = { c with
        registers := (c.registers.drive finished 0).drive readyToArm 1, transfer := .idle }) := by
  unfold tick
  cases transfer : c.transfer with
  | idle => cases armed : c.armed <;> simp
  | busy left => cases left <;> simp
  | done => cases armed : c.armed <;> simp

theorem tick_of_idle {c : Controller δ} (idle : c.transfer = .idle) (released : c.armed = false) :
    c.tick = c := by
  rw [tick, idle]
  simp [released]

theorem tick_of_done {c : Controller δ} (complete : c.transfer = .done) (armed : c.armed = true) :
    c.tick = c := by
  rw [tick, complete]
  simp [armed]

theorem transfer_tick (c : Controller δ) : c.tick.transfer = c.transfer.next c.armed c.cycles := by
  rcases tick_cases c with ⟨transfer, armed, ticked⟩ | ⟨transfer, armed, ticked⟩ |
    ⟨left, transfer, ticked⟩ | ⟨transfer, ticked⟩ | ⟨transfer, armed, ticked⟩ |
    ⟨transfer, armed, ticked⟩
  · simp [ticked, transfer, armed, Transfer.next]
  · simp [ticked, transfer, armed, Transfer.next]
  · simp [ticked, transfer, Transfer.next]
  · simp [ticked, transfer, Transfer.next, shift]
  · simp [ticked, transfer, armed, Transfer.next]
  · simp [ticked, transfer, armed, Transfer.next]

@[simp]
theorem frameWidth_tick (c : Controller δ) : c.tick.frameWidth = c.frameWidth := by
  rcases tick_cases c with ⟨-, -, ticked⟩ | ⟨-, -, ticked⟩ | ⟨_, -, ticked⟩ | ⟨-, ticked⟩ |
    ⟨-, -, ticked⟩ | ⟨-, -, ticked⟩ <;> simp [ticked, shift]

@[simp]
theorem cycles_tick (c : Controller δ) : c.tick.cycles = c.cycles := by
  rcases tick_cases c with ⟨-, -, ticked⟩ | ⟨-, -, ticked⟩ | ⟨_, -, ticked⟩ | ⟨-, ticked⟩ |
    ⟨-, -, ticked⟩ | ⟨-, -, ticked⟩ <;> simp [ticked, shift]

theorem device_tick (c : Controller δ) : c.tick.device = SerialDevice.feed c.device c.due := by
  rcases tick_cases c with ⟨transfer, -, ticked⟩ | ⟨transfer, -, ticked⟩ | ⟨left, transfer, ticked⟩ |
    ⟨transfer, ticked⟩ | ⟨transfer, -, ticked⟩ | ⟨transfer, -, ticked⟩
  · simp [ticked, transfer, due, SerialDevice.feed]
  · simp [ticked, transfer, due, SerialDevice.feed]
  · simp [ticked, transfer, due, SerialDevice.feed]
  · simp [ticked, transfer, due, SerialDevice.feed, shift, frame]
  · simp [ticked, transfer, due, SerialDevice.feed]
  · simp [ticked, transfer, due, SerialDevice.feed]

/-- A tick drives the two flags and, as it completes a transfer, the answer; the other registers stay. -/
theorem value_tick (c : Controller δ) {j : Nat} (flag : 1 < j)
    (beside : fromSlave ≠ j ∨ c.transfer ≠ .busy 0) :
    c.tick.registers.value j = c.registers.value j := by
  have ready : readyToArm ≠ j := Nat.ne_of_lt (Nat.lt_of_succ_lt flag)
  have complete : finished ≠ j := Nat.ne_of_lt flag
  rcases tick_cases c with ⟨-, -, ticked⟩ | ⟨-, -, ticked⟩ | ⟨_, -, ticked⟩ | ⟨transfer, ticked⟩ |
    ⟨-, -, ticked⟩ | ⟨-, -, ticked⟩
  · rw [ticked]
  · rw [ticked]
    exact RegisterFile.value_drive_of_ne _ ready _
  · rw [ticked]
  · -- the only tick that drives the answer
    have other : fromSlave ≠ j := beside.resolve_right (· transfer)
    rw [ticked]
    exact (RegisterFile.value_drive_of_ne _ complete _).trans
      (RegisterFile.value_drive_of_ne _ other _)
  · rw [ticked]
  · rw [ticked]
    exact (RegisterFile.value_drive_of_ne _ ready _).trans
      (RegisterFile.value_drive_of_ne _ complete _)

@[simp]
theorem armed_tick (c : Controller δ) : c.tick.armed = c.armed := by
  rw [armed, armed, value_tick c (by decide) (.inl (by decide))]

@[simp]
theorem frame_tick (c : Controller δ) : c.tick.frame = c.frame := by
  rw [frame, frame, value_tick c (by decide) (.inl (by decide)), frameWidth_tick]

theorem value_fromSlave_tick {c : Controller δ} (last : c.transfer = .busy 0) :
    c.tick.registers.value fromSlave =
      (SerialDevice.exchange c.device c.frame).1 &&& widthMask c.frameWidth := by
  have ticked : c.tick = c.shift := by rw [tick, last]
  have inside : fromSlave < (layout c.frameWidth).count := (by decide : 3 < 5)
  have width : (layout c.frameWidth).widthAt fromSlave = c.frameWidth := rfl
  have stored (v : Word) : (c.registers.drive fromSlave (v &&& widthMask c.frameWidth)).value fromSlave =
      v &&& widthMask c.frameWidth := by
    rw [RegisterFile.value_drive_self _ inside, width, BitVec.and_assoc, BitVec.and_self]
  rw [ticked]
  exact (RegisterFile.value_drive_of_ne _ (by decide) _).trans (stored _)

/-- What is due now and what is left over after the tick is what was left over before. -/
theorem due_append_leftOver_tick (c : Controller δ) : c.due ++ c.tick.leftOver = c.leftOver := by
  have next := transfer_tick c
  cases transfer : c.transfer with
  | idle =>
    cases armed : c.armed <;> simp [due, leftOver, next, transfer, armed, Transfer.next]
  | busy left => cases left <;> simp [due, leftOver, next, transfer, Transfer.next]
  | done => cases armed : c.armed <;> simp [due, leftOver, next, transfer, armed, Transfer.next]

theorem value_drive_flag (r : RegisterFile (layout frameWidth)) {i : Nat} (flag : i < 2) {v : Word}
    (bit : v &&& widthMask 1 = v) : (r.drive i v).value i = v := by
  have inside : i < (layout frameWidth).count := Nat.lt_trans flag (by decide : 2 < 5)
  have width : (layout frameWidth).widthAt i = 1 := by
    rcases (by omega : i = 0 ∨ i = 1) with rfl | rfl <;> rfl
  rw [RegisterFile.value_drive_self _ inside, width, bit]

theorem Sound.tick {c : Controller δ} (sound : c.Sound frameWidth cycles) :
    c.tick.Sound frameWidth cycles := by
  obtain ⟨width, delay, places, fits, ready, complete, bounded⟩ := sound
  rcases tick_cases c with ⟨-, -, ticked⟩ | ⟨transfer, -, ticked⟩ | ⟨left, transfer, ticked⟩ |
    ⟨transfer, ticked⟩ | ⟨-, -, ticked⟩ | ⟨transfer, -, ticked⟩
  · rw [ticked]
    exact ⟨width, delay, places, fits, ready, complete, bounded⟩
  · rw [ticked]
    refine ⟨width, delay, places, fits.step (.drive readyToArm 0), ?_, ?_, ?_⟩
    · exact value_drive_flag _ (by decide) (by decide)
    · rw [transfer] at complete
      exact (RegisterFile.value_drive_of_ne _ (by decide) _).trans complete
    · rintro left ⟨⟩
      exact Nat.le_of_eq delay
  · rw [ticked]
    rw [transfer] at ready complete
    refine ⟨width, delay, places, fits, ready, complete, ?_⟩
    rintro _ ⟨⟩
    exact Nat.le_of_succ_le (bounded _ transfer)
  · rw [ticked]
    refine ⟨width, delay, places, ?_, ?_, ?_, ?_⟩
    · exact (fits.step (.drive fromSlave _)).step (.drive finished 1)
    · rw [transfer] at ready
      exact ((RegisterFile.value_drive_of_ne _ (by decide) _).trans
        (RegisterFile.value_drive_of_ne _ (by decide) _)).trans ready
    · exact value_drive_flag _ (by decide) (by decide)
    · rintro _ ⟨⟩
  · rw [ticked]
    exact ⟨width, delay, places, fits, ready, complete, bounded⟩
  · rw [ticked]
    refine ⟨width, delay, places, ?_, ?_, ?_, ?_⟩
    · exact (fits.step (.drive finished 0)).step (.drive readyToArm 1)
    · exact value_drive_flag _ (by decide) (by decide)
    · exact (RegisterFile.value_drive_of_ne _ (by decide) _).trans
        (value_drive_flag _ (by decide) (by decide))
    · rintro _ ⟨⟩

end Tick

/-! ## Transactions -/

/-- No transaction reaches the flags, the transfer or the device. -/
theorem Sound.transact {c : Controller δ} (sound : c.Sound frameWidth cycles) (req : Request) :
    (c.transact req).2.Sound frameWidth cycles := by
  obtain ⟨width, delay, places, fits, ready, complete, bounded⟩ := sound
  -- both flags are read-only, so what they told of the transfer before is still true
  have kept {i : Nat} {f : Field} (found : (layout c.frameWidth).fields[i]? = some f)
      (fixed : f.access.writableBy .supervisor = false) :
      (c.registers.transactFrom .supervisor req).2.value i = c.registers.value i :=
    c.registers.value_transactFrom_of_not_writableBy found fixed req
  refine ⟨width, delay, places, fits.step (.transact .supervisor req), ?_, ?_, bounded⟩
  · exact (kept readyToArm_field rfl).trans ready
  · exact (kept finished_field rfl).trans complete

/-- The frame changes only by a write to it. -/
theorem frame_transact (c : Controller δ) {req : Request}
    (beside : ∀ data lanes, req ≠ .write (Layout.offset toSlave) data lanes) :
    (c.transact req).2.frame = c.frame :=
  congrArg (· &&& widthMask c.frameWidth)
    (c.registers.value_transactFrom_of_ne_offset .supervisor beside)

theorem sound_reset (device : δ) (wide : 0 < frameWidth) (narrow : frameWidth ≤ 32) :
    (reset device frameWidth cycles).Sound frameWidth cycles := by
  refine ⟨rfl, rfl, sound_layout wide narrow, ?_, ?_, ?_, ?_⟩
  · exact (RegisterFile.fits_zero _).step (.drive readyToArm 1)
  · exact value_drive_flag _ (by decide) (by decide)
  · exact (RegisterFile.value_drive_of_ne _ (by decide) _).trans (RegisterFile.value_zero _ _)
  · rintro _ ⟨⟩

theorem Sound.transact_read {c : Controller δ} (sound : c.Sound frameWidth cycles) {i : Nat}
    {f : Field} (found : (layout c.frameWidth).fields[i]? = some f) :
    c.transact (.read (Layout.offset i)) = (.acked (c.registers.value i), c) := by
  have inside : i < (layout c.frameWidth).count := (Array.getElem?_eq_some_iff.1 found).1
  rw [Controller.transact, RegisterFile.transactFrom_read_offset sound.places inside]

/-- A write to a register that takes writes keeps the bits within its width, and changes no other. -/
theorem Sound.value_put {c : Controller δ} (sound : c.Sound frameWidth cycles) {i : Nat} {f : Field}
    (found : (layout c.frameWidth).fields[i]? = some f) (writable : f.access = .readWrite) (w : Word)
    (j : Nat) :
    (c.put i w).registers.value j =
      if j = i then w &&& widthMask f.width else c.registers.value j := by
  have granted : f.access.writableBy .supervisor = true := by
    rw [writable]
    rfl
  exact sound.fits.value_transactFrom_writeWord sound.places found granted w j

/-- The bits beyond the width of a register do not count. -/
theorem Sound.put_and_widthMask {c : Controller δ} (sound : c.Sound frameWidth cycles) {i : Nat}
    {f : Field} (found : (layout c.frameWidth).fields[i]? = some f) (w : Word) :
    c.put i (w &&& widthMask f.width) = c.put i w := by
  have inside : i < (layout c.frameWidth).count := (Array.getElem?_eq_some_iff.1 found).1
  have same : c.registers.transactFrom .supervisor
        (.writeWord (Layout.offset i) (w &&& widthMask f.width)) =
      c.registers.transactFrom .supervisor (.writeWord (Layout.offset i) w) := by
    rw [RegisterFile.transactFrom_writeWord, RegisterFile.transactFrom_writeWord,
      RegisterFile.write_and_widthMask (sound.places.indexAt?_offset inside) found]
  exact congrArg (fun answered => { c with registers := answered.2 }) same

/-! ## How a session ends -/

section Session

variable [SerialDevice δ] {c : Controller δ}

/-- The number of polls that still find a released controller busy. -/
def misses (c : Controller δ) : Nat :=
  match c.transfer with
  | .busy left => left + 1
  | _ => 0

/-- Two ticks on, an earlier session takes less than a whole delay more. -/
theorem Sound.misses_tick_tick_le (sound : c.Sound frameWidth cycles) :
    c.tick.tick.misses ≤ cycles := by
  have delay := sound.delay
  have next : c.tick.tick.transfer = (c.transfer.next c.armed c.cycles).next c.armed c.cycles := by
    rw [transfer_tick, transfer_tick, armed_tick, cycles_tick]
  rw [misses, next]
  -- A session that opens in the first of the two ticks has a whole delay before it, and the second tick
  -- takes one from that; any other session has begun to count down.
  cases transfer : c.transfer with
  | idle =>
    cases c.armed with
    | false => exact Nat.zero_le _
    | true =>
      cases waiting : c.cycles with
      | zero => exact Nat.zero_le _
      | succ left =>
        simp only [Transfer.next, if_true]
        omega
  | busy left =>
    have bound := sound.bounded left transfer
    rcases left with _ | _ | left
    · cases c.armed <;> simp [Transfer.next]
    · exact Nat.zero_le _
    · simp only [Transfer.next]
      omega
  | done => cases c.armed <;> simp [Transfer.next]

/-- A tick leaves no idle controller armed. -/
theorem armed_of_tick_idle (idle : c.tick.transfer = .idle) : c.tick.armed = false := by
  rw [transfer_tick] at idle
  rw [armed_tick]
  cases armed : c.armed with
  | false => rfl
  | true =>
    rw [armed] at idle
    cases transfer : c.transfer with
    | idle =>
      rw [transfer] at idle
      cases idle
    | busy left =>
      rw [transfer] at idle
      cases left <;> cases idle
    | done =>
      rw [transfer] at idle
      cases idle

/-- A released controller is ready after the tick, or one miss closer to it. -/
theorem Sound.tick_of_released (sound : c.Sound frameWidth cycles) (released : c.armed = false) :
    (c.misses = 0 ∧ c.tick.transfer = .idle ∧ c.tick.registers.value readyToArm = 1) ∨
    (c.misses = c.tick.misses + 1 ∧ c.tick.registers.value readyToArm = 0) := by
  have next := transfer_tick c
  have ready := sound.tick.ready
  rw [released] at next
  cases transfer : c.transfer with
  | idle =>
    rw [transfer] at next
    have idle : c.tick.transfer = .idle := next
    exact .inl ⟨by rw [misses, transfer], idle, by rw [ready, if_pos idle]⟩
  | busy left =>
    rw [transfer] at next
    refine .inr ⟨?_, ?_⟩
    · cases left <;> simp [misses, transfer, next, Transfer.next]
    · cases left <;> simp [ready, next, Transfer.next]
  | done =>
    rw [transfer] at next
    have idle : c.tick.transfer = .idle := next
    exact .inl ⟨by rw [misses, transfer], idle, by rw [ready, if_pos idle]⟩

/-- The controller is released, and that many polls still find it busy. -/
def Released (misses : Nat) (c : Controller δ) : Prop :=
  c.armed = false ∧ c.misses = misses

theorem Sound.tick_of_released_zero (sound : c.Sound frameWidth cycles) (released : c.Released 0) :
    c.tick.Released 0 ∧ c.tick.transfer = .idle ∧ c.due = [] := by
  obtain ⟨low, free⟩ := released
  have still : c.tick.armed = false := by
    rw [armed_tick, low]
  rcases sound.tick_of_released low with ⟨-, idle, -⟩ | ⟨more, -⟩
  · refine ⟨⟨still, by rw [misses, idle]⟩, idle, ?_⟩
    rw [misses] at free
    rw [due]
    cases transfer : c.transfer with
    | idle => rfl
    | busy left => simp [transfer] at free
    | done => rfl
  · omega

theorem Sound.tick_of_released_succ (sound : c.Sound frameWidth cycles) {n : Nat}
    (released : c.Released (n + 1)) : c.tick.Released n ∧ c.tick.transfer ≠ .idle := by
  obtain ⟨low, busy⟩ := released
  have still : c.tick.armed = false := by
    rw [armed_tick, low]
  rcases sound.tick_of_released low with ⟨free, -, -⟩ | ⟨more, closed⟩
  · omega
  · refine ⟨⟨still, by omega⟩, fun idle => ?_⟩
    rw [sound.tick.ready, if_pos idle] at closed
    cases closed

/-- The frame of the open session is shifted in the tick after `n` more. -/
def ShiftsAfter (n : Nat) (c : Controller δ) : Prop :=
  c.transfer = .busy n ∨ c.transfer = .idle ∧ c.armed = true ∧ n = c.cycles + 1

/-- A tick before the last brings the frame one tick closer. -/
theorem Sound.tick_of_shiftsAfter_succ (sound : c.Sound frameWidth cycles) {n : Nat}
    (later : c.ShiftsAfter (n + 1)) :
    c.tick.ShiftsAfter n ∧ c.tick.registers.value finished = 0 ∧ c.due = [] := by
  have busy : c.tick.transfer = .busy n := by
    rw [transfer_tick]
    rcases later with transfer | ⟨transfer, armed, last⟩
    · rw [transfer]
      rfl
    · rw [transfer, armed, Nat.succ.inj last]
      rfl
  refine ⟨.inl busy, ?_, ?_⟩
  · rw [sound.tick.complete, busy]
    rfl
  · rcases later with transfer | ⟨transfer, -, -⟩
    · simp only [due, transfer]
    · simp only [due, transfer]

/-- The last tick shifts the frame and finishes the session. -/
theorem Sound.tick_of_shiftsAfter_zero (sound : c.Sound frameWidth cycles) (last : c.ShiftsAfter 0) :
    c.tick.transfer = .done ∧ c.tick.registers.value finished = 1 ∧ c.due = [c.frame] ∧
      c.tick.registers.value fromSlave =
        (SerialDevice.exchange c.device c.frame).1 &&& widthMask frameWidth := by
  have transfer : c.transfer = .busy 0 := by
    rcases last with transfer | ⟨-, -, zero⟩
    · exact transfer
    · cases zero
  have done : c.tick.transfer = .done := by
    rw [transfer_tick, transfer]
    rfl
  refine ⟨done, ?_, ?_, ?_⟩
  · rw [sound.tick.complete, if_pos done]
  · simp only [due, transfer]
  · rw [value_fromSlave_tick transfer, sound.width]

end Session

/-! ## The two registers that take writes -/

section Put

variable {c : Controller δ}

theorem Sound.value_put_arm (sound : c.Sound frameWidth cycles) (w : Word) :
    (c.put arm w).registers.value arm = w &&& widthMask 1 := by
  rw [sound.value_put arm_field rfl, if_pos rfl]

theorem Sound.frame_put_arm (sound : c.Sound frameWidth cycles) (w : Word) :
    (c.put arm w).frame = c.frame := by
  have kept : (c.put arm w).registers.value toSlave = c.registers.value toSlave := by
    rw [sound.value_put arm_field rfl, if_neg (by decide)]
  exact congrArg (· &&& widthMask c.frameWidth) kept

theorem Sound.armed_put_arm (sound : c.Sound frameWidth cycles) (w : Word) :
    (c.put arm w).armed = (w &&& widthMask 1 == 1) := by
  rw [armed, sound.value_put_arm]

/-- What is left over does not depend on `arm` once the session is open. -/
theorem Sound.leftOver_release (sound : c.Sound frameWidth cycles)
    (open_or_released : c.transfer = .idle → c.armed = false) :
    (c.put arm 0).leftOver = c.leftOver := by
  have transfer : (c.put arm 0).transfer = c.transfer := rfl
  rw [leftOver, leftOver, transfer, sound.frame_put_arm, sound.armed_put_arm]
  cases stage : c.transfer with
  | idle =>
    rw [open_or_released stage]
    rfl
  | busy left => rfl
  | done => rfl

theorem Sound.armed_put_toSlave (sound : c.Sound frameWidth cycles) (w : Word) :
    (c.put toSlave w).armed = c.armed := by
  rw [armed, armed, sound.value_put toSlave_field rfl, if_neg (by decide)]

theorem Sound.frame_put_toSlave (sound : c.Sound frameWidth cycles) (w : Word) :
    (c.put toSlave w).frame = w &&& widthMask frameWidth := by
  have stored : (c.put toSlave w).registers.value toSlave = w &&& widthMask c.frameWidth := by
    rw [sound.value_put toSlave_field rfl, if_pos rfl]
  have cut : (c.put toSlave w).frame = (w &&& widthMask c.frameWidth) &&& widthMask c.frameWidth :=
    congrArg (· &&& widthMask c.frameWidth) stored
  rw [cut, BitVec.and_assoc, BitVec.and_self, sound.width]

end Put

end Spi.Controller

end InstrumentBus
