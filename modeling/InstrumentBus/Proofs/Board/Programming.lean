import InstrumentBus.Proofs.Word.Window
import InstrumentBus.Proofs.Board.CoreDriver
import InstrumentBus.Proofs.Driver.Loading

/-!
# Programming the core of a board

A load leaves the core at rest, its RAM with the supervisor, and in the RAM the program in front of what was there
before (`meets_load`). The board moves on while the RAM is being taken, so that even a core which was running has
noticed its reset before the first byte is written. The core is at rest until it is enabled, whatever others do in
the meantime, and so it fetches anew as soon as the board moves on then (`enabled_core_fetches_loaded_program`).
-/

namespace InstrumentBus

/-- What every action of a list keeps, the actions of the list keep in turn. -/
theorem Action.meets_mapM {σ α β : Type} {P : σ → Prop} {E : DriverError → σ → Prop}
    {act : α → Action σ β} {l : List α} (each : ∀ a ∈ l, Meets P (act a) (fun _ => P) E) :
    Meets P (l.mapM act) (fun _ => P) E := by
  induction l with
  | nil => exact meets_pure fun _ before => before
  | cons a l ih =>
    rw [List.mapM_cons]
    refine (each a (.head _)).bind fun _ => ?_
    exact (ih fun later listed => each later (.tail _ listed)).bind fun _ => meets_pure fun _ before => before

namespace Board

open InstrumentBus.Action (Meets)
open InstrumentBus.CoreDriver (cell)

variable {c : Config} {b : Board} {v : View} {P Q : Board → Prop} {i : Nat} {f : Field}

/-! ## Bytes of the program -/

/-- Where a byte of the program lies in its region. -/
theorem Reachable.program_cell (reach : Reachable c b) (inside : i < c.ramBytes.toNat) :
    (cell 0x6000 i).byteIndex = i % 4 ∧ (cell 0x6000 i).wordBase ∈ programRegion c ∧
      ((programRegion c).offsetOf (cell 0x6000 i).wordBase).toNat / 4 = i / 4 := by
  have placed := (reach.arranged .supervisor).placed reach.mem_programRegion
  have limit : 0x6000 + c.ramBytes.toNat ≤ 2 ^ 32 := placed.limit_le
  have place : (cell 0x6000 i).toNat = 0x6000 + i := CoreDriver.toNat_cell limit inside
  have base := Addr.toNat_wordBase (cell 0x6000 i)
  have within : (cell 0x6000 i).wordBase ∈ programRegion c := by
    rw [AddressMap.Region.mem_iff, base, place]
    exact ⟨show 0x6000 ≤ (0x6000 + i) / 4 * 4 by omega,
      show (0x6000 + i) / 4 * 4 < 0x6000 + c.ramBytes.toNat by omega⟩
  refine ⟨?_, within, ?_⟩
  · rw [Addr.byteIndex, place]
    omega
  · rw [AddressMap.Region.toNat_offsetOf placed within, base, place]
    show ((0x6000 + i) / 4 * 4 - 0x6000) / 4 = i / 4
    omega

/-- The board with other words in the RAM of the core. -/
def withProgram (b : Board) (m : Ram) : Board :=
  { b with pico0Ram := { b.pico0Ram with device := m } }

/-- A master has the RAM of a core at rest, and the RAM holds the given bytes. -/
structure Holding (master : Nat) (m : Ram) (b : Board) : Prop where
  resting : Resting master b
  program : b.program = m

theorem Holding.tick {master : Nat} {m : Ram} (holding : Holding master m b) : Holding master m b.tick :=
  ⟨holding.resting.tick, (program_tick b).trans holding.program⟩

theorem Holding.withProgram {master : Nat} {m : Ram} (holding : Holding master m b) (other : Ram) :
    Holding master other (b.withProgram other) :=
  ⟨⟨holding.resting.disabled, holding.resting.settled, holding.resting.connected⟩, rfl⟩

/-- A transaction of the supervisor with a RAM that it has is one of the RAM. -/
theorem supervisorTransact_program (supervised : b.owner .pico0Ram = supervisorMaster) (req : Request) :
    b.supervisorTransact .pico0Ram req = (b.program.transact req).map id b.withProgram := by
  have reached : b.pico0Ram.transact supervisorMaster req = _ := if_pos supervised.symm
  show (b.pico0Ram.transact supervisorMaster req).map id (fun s => { b with pico0Ram := s }) = _
  rw [reached]
  rfl

variable {m : Ram}

/-- A write of the supervisor to a byte of the program sets it in the RAM. -/
theorem Reachable.perform_writeByte (reach : Reachable c b) (holding : Holding supervisorMaster m b)
    (inside : i < c.ramBytes.toNat) (x : Byte) :
    ∃ after, b.perform .supervisor (.writeByte (cell 0x6000 i) x) = (.ok 0, after) ∧
      Holding supervisorMaster (m.setByte i x) after := by
  obtain ⟨index, within, place⟩ := reach.program_cell inside
  obtain ⟨answered, result, outcome⟩ :=
    reach.perform_of_mem (.writeByte (cell 0x6000 i) x) reach.mem_programRegion within (by rintro ⟨⟩)
  have room : i < m.size := by
    rw [← holding.program, reach.size_program]
    omega
  have written := m.transact_writeByte place room x
  rw [← index, ← holding.tick.program] at written
  obtain rfl : answered = (.acked 0, b.tick.withProgram (b.tick.program.setByte i x)) := by
    rw [← Option.some.inj result]
    exact (supervisorTransact_program holding.tick.resting.connected _).trans
      (congrArg (Prod.map id b.tick.withProgram) written)
  rw [holding.tick.program] at outcome
  exact ⟨_, outcome, holding.tick.withProgram _⟩

/-- A read of a byte of the program by the supervisor delivers what the RAM holds. -/
theorem Reachable.perform_readByte (reach : Reachable c b) (holding : Holding supervisorMaster m b)
    (inside : i < c.ramBytes.toNat) {x : Byte} (held : m.byte? i = some x) :
    b.perform .supervisor (.readByte (cell 0x6000 i)) = (.ok (x.setWidth 32), b.tick) := by
  obtain ⟨index, within, place⟩ := reach.program_cell inside
  obtain ⟨answered, result, outcome⟩ :=
    reach.perform_of_mem (.readByte (cell 0x6000 i)) reach.mem_programRegion within (by rintro ⟨⟩)
  obtain ⟨w, read, rfl⟩ := m.transact_readByte place held
  rw [← holding.tick.program] at read
  obtain rfl : answered = (.acked w, b.tick) := by
    rw [← Option.some.inj result]
    exact (supervisorTransact_program holding.tick.resting.connected _).trans
      (congrArg (Prod.map id b.tick.withProgram) read)
  rw [outcome, ← index]
  rfl

/-- The next byte of the program. -/
theorem cell_add_one (origin : Addr) (i : Nat) : cell origin i + 1 = cell origin (i + 1) := by
  rw [cell, cell, BitVec.ofNat_add, BitVec.add_assoc]
  rfl

/-- The driver writes the bytes of a program in turn. -/
theorem meets_writeBytes (bytes : List Byte) (fits : i + bytes.length ≤ c.ramBytes.toNat) :
    Meets (Supervises c (Holding supervisorMaster m)) (CoreDriver.writeBytes (cell 0x6000 i) bytes)
      (fun _ => Supervises c (Holding supervisorMaster (m.store i bytes))) fun _ _ => False := by
  induction bytes generalizing m i with
  | nil => exact Action.meets_pure fun _ supervises => supervises
  | cons x bytes ih =>
    rw [List.length_cons] at fits
    have here : i < c.ramBytes.toNat := by omega
    have first : Meets (Supervises c (Holding supervisorMaster m))
        (Action.ofAccess fun v : View => Transport.writeByte v (cell 0x6000 i) x)
        (fun _ => Supervises c (Holding supervisorMaster (m.setByte i x))) fun _ _ => False := by
      refine Supervises.meets_of_perform fun b reach holding => ?_
      obtain ⟨after, outcome, holds⟩ := reach.perform_writeByte holding here x
      exact ⟨(), after, Action.perform_ofAccess_of_ok (View.writeByte_of_perform outcome),
        reach.of_perform outcome, holds⟩
    refine first.bind fun _ => ?_
    rw [cell_add_one]
    exact ih (by omega)

/-- The driver finds the bytes of the program in the RAM. -/
theorem meets_verifyBytes (bytes : List Byte) (fits : i + bytes.length ≤ c.ramBytes.toNat)
    (held : ∀ j < bytes.length, m.byte? (i + j) = bytes[j]?) :
    Meets (Supervises c (Holding supervisorMaster m)) (CoreDriver.verifyBytes (cell 0x6000 i) bytes)
      (fun _ => Supervises c (Holding supervisorMaster m)) fun _ _ => False := by
  induction bytes generalizing i with
  | nil => exact Action.meets_pure fun _ supervises => supervises
  | cons x bytes ih =>
    rw [List.length_cons] at fits held
    have here : i < c.ramBytes.toNat := by omega
    have stored : m.byte? i = some x := held 0 (Nat.succ_pos _)
    have first : Meets (Supervises c (Holding supervisorMaster m))
        (Action.ofAccess fun v : View => Transport.readByte v (cell 0x6000 i))
        (fun read => Supervises c fun b => read = x ∧ Holding supervisorMaster m b) fun _ _ => False := by
      refine Supervises.meets_of_perform fun b reach holding => ?_
      have outcome := reach.perform_readByte holding here stored
      exact ⟨x, b.tick, Action.perform_ofAccess_of_ok (View.readByte_of_perform outcome),
        .step .tick reach, rfl, holding.tick⟩
    refine first.bind fun read => ?_
    split
    · rw [cell_add_one]
      refine (ih (by omega) fun j inside => ?_).weaken fun _ met => met.mono And.right
      rw [Nat.add_assoc, Nat.add_comm 1 j]
      exact held (j + 1) (Nat.succ_lt_succ inside)
    · next other => exact Action.meets_throw fun _ met => other met.holds.1

/-! ## Loading -/

/-- The core is held in reset, though it may not have noticed, and its RAM holds the given bytes. -/
structure Disabled (m : Ram) (b : Board) : Prop where
  disabled : b.pico0.enabled = false
  program : b.program = m

/-- A driver's `set` of `enable` is a step of the board, in which the core notices what `enable` was. -/
theorem meets_setEnable (w : Word)
    (next : ∀ b after : Board, P b → after.pico0.enabled = (w &&& widthMask 1 == 1) →
      after.pico0.wasEnabled = b.pico0.enabled → after.pico0Ram = b.pico0Ram → Q after) :
    Meets (Supervises c P) ((coreDriver c i).enableBit.set w) (fun _ => Supervises c Q) fun _ _ => False := by
  refine Supervises.meets_set (fun reach => reach.holds_core rfl) rfl w fun b reach holds => ?_
  refine next b _ holds ?_ (wasEnabled_tick b) (pico0Ram_tick b)
  have fits := Reachable.fits_pico0 (.step .tick reach)
  have set := Coprocessor.enabled_transactControl fits (w &&& widthMask 1)
  rwa [BitVec.and_assoc, BitVec.and_self] at set

/-- A driver's `get` of a control register of the core gives what it holds after one more step. -/
theorem meets_getCore (found : Coprocessor.controlLayout.fields[i]? = some f) {Q : Word → Board → Prop}
    (next : ∀ b, P b → Q (b.tick.pico0.control.value i &&& widthMask f.width) b.tick) :
    Meets (Supervises c P) (refOf coreRegion i f).get (fun w => Supervises c (Q w)) fun _ _ => False := by
  refine Supervises.meets_get (fun reach => reach.holds_core found) fun b _ holds => ?_
  have inside : i < Coprocessor.controlLayout.count := (Array.getElem?_eq_some_iff.1 found).1
  have read := RegisterFile.transactFrom_read_offset (by decide) inside b.tick.pico0.control .supervisor
  let put (control : RegisterFile Coprocessor.controlLayout) : Board :=
    { b.tick with pico0 := { b.tick.pico0 with control } }
  have answered : b.tick.supervisorTransact coreRegion.owner (.read (Layout.offset i)) =
      (.acked (b.tick.pico0.control.value i), b.tick) := congrArg (Prod.map id put) read
  rw [answered]
  exact next b holds

/-- The driver turns the RAM of a core in reset to a master, and the core has noticed its reset then. -/
theorem meets_turnProgram (id : Nat) {master : Nat} (present : master < pico0RamMasters.size) :
    Meets (Supervises c (Disabled m)) ((coreDriver c id).ram.connect master)
      (fun _ => Supervises c (Holding master m)) fun _ _ => False := by
  have indexed : master < 2 ^ 32 := Nat.lt_trans present (by decide)
  let selected : Word := BitVec.ofNat 32 master &&& widthMask Shared.pico0Ram.selection.width
  have selects : Meets (Supervises c (Disabled m)) (Shared.pico0Ram.selection.set (BitVec.ofNat 32 master))
      (fun _ => Supervises c (Holding master m)) fun _ _ => False := by
    refine Supervises.meets_set (fun reach => reach.holds_selection .pico0Ram) rfl _ fun b reach holds => ?_
    have ticked : Reachable c b.tick := .step .tick reach
    let answered := b.tick.supervisorTransact .pico0RamSelect (.writeWord 0 selected)
    have result : b.tick.transact? .supervisor .pico0RamSelect (.writeWord 0 selected) = some answered := rfl
    obtain ⟨connected, -⟩ := ticked.owner_of_select .pico0Ram result
    have device : answered.2.program = b.tick.program :=
      BusSwitch.device_transactControl b.tick.pico0Ram (.writeWord 0 selected)
    -- the core notices its reset in the step before the write, at the latest
    have owner : answered.2.owner .pico0Ram = master := by
      rw [connected, Shared.toNat_selected _ indexed]
      exact Shared.connectedBy_of_lt present
    exact ⟨⟨(enabled_tick b).trans holds.disabled, (wasEnabled_tick b).trans holds.disabled, owner⟩,
      device.trans ((program_tick b).trans holds.program)⟩
  have guards : Guards c .pico0Ram (coreDriver c id).ram := guards_selection c .pico0Ram id "pico0_ram"
  have reads := Supervises.meets_owner (P := Holding master m) guards fun _ _ holding => holding.tick
  exact (Arbiter.meets_connect selects reads (fun large => absurd large (Nat.not_le.2 indexed))
    fun _ _ _ other met => other (met.holds.2.symm.trans met.holds.1.resting.connected)).mono
      (fun _ holds => holds) (fun _ _ met => met.2.mono And.left) fun _ _ none => none

/-- The RAM is taken, filled and compared, whatever the core was doing. -/
theorem meets_fillProgram (id : Nat) {program : List Byte} (fits : program.length ≤ c.ramBytes.toNat)
    (room : program.length ≤ m.size) :
    Meets (Supervises c fun b => b.program = m) ((coreDriver c id).fill program)
      (fun _ => Supervises c (Holding supervisorMaster (m.store 0 program))) fun _ _ => False := by
  have start : cell 0x6000 0 = 0x6000 := CoreDriver.cell_zero _
  have whole : 0 + program.length ≤ c.ramBytes.toNat := by rwa [Nat.zero_add]
  have resets : Meets (Supervises c fun b => b.program = m) ((coreDriver c id).enableBit.set 0)
      (fun _ => Supervises c (Disabled m)) fun _ _ => False :=
    meets_setEnable 0 fun b after holds low _ same => ⟨low, (congrArg BusSwitch.device same).trans holds⟩
  refine resets.bind fun _ => (meets_turnProgram id (by decide)).bind fun _ => ?_
  have writes := meets_writeBytes (m := m) program whole
  have verifies := meets_verifyBytes (m := m.store 0 program) program whole fun j inside => by
    rw [Nat.zero_add, Ram.byte?_store_zero m program room, if_pos inside]
  rw [start] at writes verifies
  exact writes.bind fun _ => verifies

/-- A load that does not find the core running succeeds. -/
theorem meets_load (id : Nat) {program : List Byte} (force : Bool) (fits : program.length ≤ c.ramBytes.toNat)
    (room : program.length ≤ m.size) :
    Meets (Link.Live (Supervises c fun b => b.program = m)) ((coreDriver c id).load program force)
      (fun _ => Link.Live (Supervises c (Holding supervisorMaster (m.store 0 program))))
      fun e _ => e = .running "pico0" := by
  have fills : Meets (Supervises c fun b => b.program = m) ((coreDriver c id).fill program)
      (fun _ => Supervises c (Holding supervisorMaster (m.store 0 program))) fun e _ => e = .running "pico0" :=
    (meets_fillProgram id fits room).unfailing
  rw [CoreDriver.load_of_fits fits]
  refine Meets.mono (Meets.locked (E := fun e _ => e = .running "pico0") ?_) (fun _ start => start)
    (fun _ _ met => met) fun _ _ met => met.2
  cases force with
  | true => exact fills
  | false =>
    have asks : Meets (Supervises c fun b => b.program = m) ((coreDriver c id).enableBit.reads 1)
        (fun _ => Supervises c fun b => b.program = m) fun _ _ => False := by
      refine (meets_getCore (P := fun b => b.program = m) (Q := fun _ b => b.program = m) rfl
        fun b holds => (program_tick b).trans holds).bind fun _ => Action.meets_pure fun _ met => met
    refine asks.unfailing.bind fun running => ?_
    split
    · exact Action.meets_throw fun _ _ => rfl
    · exact fills

/-! ## Enabling -/

/-- The core runs on the given bytes. -/
structure RunningOn (m : Ram) (b : Board) : Prop where
  running : Running b
  program : b.program = m

theorem RunningOn.tick (runs : RunningOn m b) : RunningOn m b.tick :=
  ⟨runs.running.tick, (program_tick b).trans runs.program⟩

/-- A core at rest is given its RAM and runs. -/
theorem meets_enable (id : Nat) :
    Meets (Link.Live (Supervises c (Holding supervisorMaster m))) (coreDriver c id).enable
      (fun _ => Link.Live (Supervises c (RunningOn m))) fun _ _ => False := by
  refine Meets.locked_unfailing ?_
  have present : coprocessorMaster < pico0RamMasters.size := by decide
  have turns := meets_turnProgram (c := c) (m := m) id present
  refine (turns.weaken fun v supervises => supervises.mono fun holding =>
    ⟨holding.resting.disabled, holding.program⟩).bind fun _ => ?_
  refine meets_setEnable 1 fun b after holding high was same => ⟨⟨?_, ?_, fun noticed => ?_⟩, ?_⟩
  · rw [high]
    decide
  · exact (congrArg BusSwitch.active same).trans holding.resting.connected
  · rw [was, holding.resting.disabled] at noticed
    cases noticed
  · exact (congrArg BusSwitch.device same).trans holding.program

/-- The registers of a core that runs show the first word of its RAM. -/
theorem meets_snapshot (id : Nat) :
    Meets (Link.Live (Supervises c (RunningOn m))) (coreDriver c id).snapshot
      (fun s => Link.Live (Supervises c fun b => RunningOn m b ∧
        s.programCounter = Coprocessor.resetVector ∧ s.opcode = m.wordAt 0)) fun _ _ => False := by
  apply Meets.locked_unfailing
  have registers : Meets (Supervises c (RunningOn m)) ((coreDriver c id).registers.mapM fun r => r.get)
      (fun _ => Supervises c (RunningOn m)) fun _ _ => False := by
    refine Action.meets_mapM fun r listed => ?_
    obtain ⟨i, few, rfl⟩ := List.mem_map.1 listed
    refine Supervises.meets_get (fun reach => reach.holds_coreRegister (List.mem_range.1 few))
      fun b _ runs => ?_
    let put (debug : RegisterFile Coprocessor.debugLayout) : Board :=
      { b.tick with pico0 := { b.tick.pico0 with debug } }
    have left : (b.tick.supervisorTransact coreRegistersRegion.owner (.read (Layout.offset i))).2 = b.tick :=
      congrArg put (b.tick.pico0.debug.transactFrom_read_state .supervisor _)
    rw [left]
    exact runs.tick
  have others {i : Nat} {f : Field} (found : Coprocessor.controlLayout.fields[i]? = some f) :
      Meets (Supervises c (RunningOn m)) (refOf coreRegion i f).get (fun _ => Supervises c (RunningOn m))
        fun _ _ => False :=
    meets_getCore found fun _ runs => runs.tick
  -- each read moves the board on first, so the core has fetched when its counter and its opcode are read
  refine registers.bind fun _ => (others rfl).bind fun _ => ?_
  refine (others rfl).bind fun _ => (others rfl).bind fun _ => ?_
  refine (meets_getCore (P := RunningOn m)
    (Q := fun w b => w = Coprocessor.resetVector ∧ RunningOn m b) rfl fun b runs => ⟨?_, runs.tick⟩).bind
      fun counter => ?_
  · rw [runs.running.fetched_tick.counter]
    decide
  refine (meets_getCore
    (Q := fun w b => w = m.wordAt 0 ∧ counter = Coprocessor.resetVector ∧ RunningOn m b) rfl
      fun b before => ⟨?_, before.1, before.2.tick⟩).bind fun word => ?_
  · rw [before.2.running.fetched_tick.word, before.2.program, and_widthMask_word]
  exact Action.meets_pure fun v met => met.mono fun now => ⟨now.2.2, now.2.1, now.1⟩

/-! ## From a load to the first instruction -/

/-- An operation on a fresh link fails as its condition says, or leaves a link to a board of the supervisor. -/
theorem perform_cases_of_meets {α : Type} {a : Action (Link View) α} {Q : α → Board → Prop}
    {E : DriverError → Link View → Prop}
    (meets : Meets (Link.Live (Supervises c P)) a (fun x => Link.Live (Supervises c (Q x))) E)
    (reach : Reachable c b) (holds : P b) :
    (∃ e l, a.perform (.connect (View.mk .supervisor b)) = (.error e, l) ∧ E e l) ∨
    ∃ x after, a.perform (.connect (View.mk .supervisor b)) = (.ok x, .connect (View.mk .supervisor after)) ∧
      Reachable c after ∧ Q x after := by
  have start : Link.Live (Supervises c P) (.connect (View.mk .supervisor b)) :=
    Link.live_connect ⟨rfl, reach, holds⟩
  rcases outcome : a.perform (.connect (View.mk .supervisor b)) with ⟨e | x, l⟩
  · exact .inl ⟨e, l, rfl, meets.error start outcome⟩
  · obtain ⟨alive, supervises⟩ := meets.ok start outcome
    obtain ⟨health, side, after⟩ := l
    obtain rfl : health = .live := alive
    obtain rfl : side = .supervisor := supervises.side
    exact .inr ⟨x, after, rfl, supervises.reach, supervises.holds⟩

/-- The core has its RAM, and the supervisor reads zero there and writes nothing. -/
structure Withheld (b : Board) : Prop where
  connected : b.owner .pico0Ram = coprocessorMaster
  idle : ∀ region ∈ (b.map .supervisor).regions, region.name = "pico0_ram" →
    ∀ op : Op, op.Aligned → op.addr.wordBase ∈ region → b.perform .supervisor op = (.ok 0, b.tick)

theorem Reachable.withheld (reach : Reachable c b) (connected : b.owner .pico0Ram = coprocessorMaster) :
    Withheld b := by
  refine ⟨connected, fun region present named op aligned inside => ?_⟩
  obtain ⟨answered, result, outcome⟩ := reach.perform_of_mem op present inside aligned
  have other : b.tick.owner .pico0Ram ≠ supervisorMaster := by
    rw [owner_tick, connected]
    decide
  have block : region.owner = Shared.pico0Ram.block := owner_of_name (reach.mem_map.1 present) named
  rw [block, transact?_of_ne_owner (masterIndex?_key .pico0Ram .supervisor) other] at result
  cases result
  have zero : op.result Response.idle.data = 0 := op.result_zero
  rw [outcome, zero]

/-- A load of a program that fits succeeds unless it finds the core running and is not forced. It leaves the core
in reset, its RAM with the supervisor, the program at the start of the RAM and every other byte as it was. If the
core is enabled later, and the supervisor has left its control region and its RAM's selection alone since, then it
has its RAM, the supervisor reads zero there, and the next look at its registers shows that it fetched the first
word of the RAM at the reset vector. The RAM is as it was loaded if the supervisor has left it alone too. -/
theorem enabled_core_fetches_loaded_program (reach : Reachable c b) (id : Nat) :
    ∃ d, CoreDriver.ofManifest id (b.manifest .supervisor) "pico0" coprocessorMaster = .ok d ∧
      ∀ (program : List Byte) (force : Bool), program.length ≤ c.ramBytes.toNat →
        ((d.load program force).perform (.connect (View.mk .supervisor b))).1 ≠ .error (.running "pico0") →
        ∃ loaded : Board,
          (d.load program force).perform (.connect (View.mk .supervisor b)) =
            (.ok (), .connect (View.mk .supervisor loaded)) ∧
          loaded.pico0.enabled = false ∧ loaded.owner .pico0Ram = supervisorMaster ∧
          (∀ i, loaded.program.byte? i = if i < program.length then program[i]? else b.program.byte? i) ∧
          ∀ events : List Event, (∀ e ∈ events, e.Avoids c .pico0 ∧ e.Avoids c .pico0RamSelect) →
            ((∀ e ∈ events, e.Avoids c .pico0Ram) → (loaded.run events).program = loaded.program) ∧
            ∃ enabled : Board,
              d.enable.perform (.connect (View.mk .supervisor (loaded.run events))) =
                (.ok (), .connect (View.mk .supervisor enabled)) ∧
              Withheld enabled ∧
              ∃ s after, d.snapshot.perform (.connect (View.mk .supervisor enabled)) =
                  (.ok s, .connect (View.mk .supervisor after)) ∧
                Withheld after ∧ s.programCounter = Coprocessor.resetVector ∧
                ∀ j < 4, (loaded.run events).program.byte? j = some (Word.byte s.opcode j) := by
  refine ⟨coreDriver c id, reach.ofManifest_core id, fun program force fits found => ?_⟩
  have sized := reach.size_program
  have room : program.length ≤ b.program.size := by
    rw [sized]
    omega
  rcases perform_cases_of_meets (meets_load id force fits room) reach rfl with
    ⟨_, _, outcome, rfl⟩ | ⟨⟨⟩, loaded, loads, here, holding⟩
  · exact absurd (congrArg Prod.fst outcome) found
  refine ⟨loaded, loads, holding.resting.disabled, holding.resting.connected, fun i => ?_,
    fun events avoids => ?_⟩
  · rw [holding.program, Ram.byte?_store_zero _ _ room]
  obtain ⟨resting, keeps⟩ := here.resting_run avoids holding.resting
  refine ⟨keeps, ?_⟩
  have later : Reachable c (loaded.run events) := here.run events
  obtain ⟨_, _, _, ⟨⟩⟩ | ⟨⟨⟩, enabled, enables, there, runs⟩ :=
    perform_cases_of_meets (meets_enable id) later (⟨resting, rfl⟩ : Holding supervisorMaster _ _)
  refine ⟨enabled, enables, there.withheld runs.running.connected, ?_⟩
  obtain ⟨_, _, _, ⟨⟩⟩ | ⟨s, after, shows, beyond, still, counter, word⟩ :=
    perform_cases_of_meets (meets_snapshot id) there runs
  refine ⟨s, after, shows, beyond.withheld still.running.connected, counter, fun j place => ?_⟩
  have populated : 0 < (loaded.run events).program.size := by
    have positive := ((later.arranged .supervisor).placed later.mem_programRegion).size_pos
    rw [later.size_program]
    have bytes : 0 < c.ramBytes.toNat := positive
    omega
  rw [word]
  exact Ram.byte?_wordAt_zero populated place

/-- A small board whose core runs and has fetched a zero. -/
def fetching : Board :=
  (small 4).run [.access .supervisor (.writeWord 0x220C 1), .access .supervisor (.writeWord 0x5000 1), .tick]

/-- A core that runs is loaded by force, and shows the new first word once it is enabled again. In between each
processor makes an access. -/
theorem running_core_is_loaded_by_force : fetching.pico0.wasEnabled = true ∧
    ∃ d, CoreDriver.ofManifest 0 (fetching.manifest .supervisor) "pico0" coprocessorMaster = .ok d ∧
      ∃ loaded enabled after : Board, ∃ s,
        (d.load [0x13, 1, 2, 3] true).perform (.connect (View.mk .supervisor fetching)) =
          (.ok (), .connect (View.mk .supervisor loaded)) ∧
        d.enable.perform (.connect (View.mk .supervisor
            (loaded.run [.access .coprocessor (.readByte 0x10001), .access .supervisor (.readWord 0x2200)]))) =
          (.ok (), .connect (View.mk .supervisor enabled)) ∧
        d.snapshot.perform (.connect (View.mk .supervisor enabled)) =
          (.ok s, .connect (View.mk .supervisor after)) ∧
        s.programCounter = 0x10000 ∧
        ∀ j < 4, ([0x13, 1, 2, 3] : List Byte)[j]? = some (Word.byte s.opcode j) := by
  have reach : Reachable (.small 4) fetching := .run (.assembled (assemble_small 4)) _
  obtain ⟨d, found, loads⟩ := enabled_core_fetches_loaded_program reach 0
  obtain rfl := Except.ok.inj ((reach.ofManifest_core 0).symm.trans found)
  obtain ⟨loaded, load, -, -, bytes, later⟩ := loads [0x13, 1, 2, 3] true (by decide) (by decide +kernel)
  let events : List Event := [.access .coprocessor (.readByte 0x10001), .access .supervisor (.readWord 0x2200)]
  have reached : ∀ region ∈ regionsOf (.small 4) .supervisor,
      (Op.readWord 0x2200).addr.wordBase ∈ region → region.owner = .dac0Select := by decide
  have avoid (block : Block) (other : block ≠ .dac0Select) : ∀ e ∈ events, e.Avoids (.small 4) block :=
    List.forall_mem_cons.2 ⟨trivial, List.forall_mem_singleton.2 fun region present inside same =>
      other (same.symm.trans (reached region present inside))⟩
  obtain ⟨keeps, enabled, enables, -, s, after, shows, -, counter, word⟩ := later events fun e listed =>
    ⟨avoid .pico0 (by decide) e listed, avoid .pico0RamSelect (by decide) e listed⟩
  refine ⟨by decide +kernel, _, found, loaded, enabled, after, s, load, enables, shows, counter,
    fun j place => ?_⟩
  rw [← word j place, keeps (avoid .pico0Ram (by decide))]
  exact ((bytes j).trans (if_pos place)).symm

end Board

end InstrumentBus
