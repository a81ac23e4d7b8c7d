import InstrumentBus.Proofs.Ad5791.Coding
import InstrumentBus.Proofs.Board.Attended
import InstrumentBus.Proofs.Board.Openers

/-!
# The coding at the output of the DAC

A board is run by anybody, and one driver of the converter is among them (`Driven`); others have their turn
between and during its operations. Of every frame that the DAC takes the author is known, whoever put it into
the controller last. As long as nobody but the driver writes the control register, the DAC expects the coding
of this driver whenever its output is enabled (`enabled_output_expects_coding`). That does not depend on how
the operations of the driver end: a frame that it put in place marks its coding whenever it is shifted.
-/

namespace InstrumentBus.Board

open InstrumentBus.Action (Keeps)
open Ad5791 (Coding WritesControl)
open Spi (Controller)
open Transport (ReadsKeep WritesKeep)
open Waveform (Rig)

variable {c : Config} {b : Board}

/-! ## The frame in the controller -/

/-- Where a processor sees the controller of the DAC. -/
def dacOrigin : Side → Addr
  | .supervisor => 0x2000
  | .coprocessor => 0x20000

/-- The index of a processor on the switch of the DAC. -/
def dacMaster : Side → Nat
  | .supervisor => supervisorMaster
  | .coprocessor => coprocessorMaster

/-- A processor that is connected to the DAC puts a frame into its controller, or a part of one. -/
def Event.Loads (b : Board) : Event → Prop
  | .access side op => op.isWrite = true ∧ op.Aligned ∧ b.owner .dac0 = dacMaster side ∧
      op.addr.wordBase = dacOrigin side + Layout.offset Controller.toSlave
  | _ => False

instance (b : Board) (e : Event) : Decidable (e.Loads b) :=
  match e with
  | .tick => inferInstanceAs (Decidable False)
  | .access _ _ => inferInstanceAs (Decidable (_ ∧ _ ∧ _ ∧ _))
  | .sample _ => inferInstanceAs (Decidable False)
  | .core _ => inferInstanceAs (Decidable False)

theorem origin_of_dac0 {side : Side} {region : AddressMap.Region Block} (present : region ∈ regionsOf c side)
    (dac : region.owner = .dac0) : region.origin = dacOrigin side := by
  cases side with
  | supervisor =>
    simp only [regionsOf, supervisorRegions, List.mem_cons, List.not_mem_nil, or_false] at present
    rcases present with rfl | rfl | rfl | rfl | rfl | rfl | rfl | rfl | rfl | rfl | rfl | rfl | rfl <;>
      first | rfl | cases dac
  | coprocessor =>
    simp only [regionsOf, coprocessorRegions, List.mem_cons, List.not_mem_nil, or_false] at present
    rcases present with rfl | rfl | rfl | rfl <;> first | rfl | cases dac

/-- A step of the board leaves the frame where it is, unless the player copies a sample there. -/
theorem Reachable.frame_tick (reach : Reachable c b) (away : ¬b.rig.clock.Loads) :
    b.tick.dac0.device.frame = b.dac0.device.frame := by
  have sound := (Reachable.rig reach).1.clock
  have clocked : b.rig.clock.controller.frame = b.dac0.device.frame := Controller.frame_tick _
  show b.tick.rig.controller.frame = _
  rw [rig_tick, ← clocked]
  show b.rig.clock.move.controller.frame = _
  rcases sound.controller_move with ⟨loads, -⟩ | ⟨-, -, -, -, left⟩ | ⟨-, -, left⟩ | ⟨-, left⟩
  · exact absurd loads away
  · rw [left, sound.controller.frame_put_arm]
  · rw [left, sound.controller.frame_put_arm]
  · rw [left]

/-- A transaction leaves the frame where it is, unless a connected processor writes it. -/
theorem Block.frame_stepIf {block : Block} {side : Side} {req : Request} {r : Rig}
    (beside : block = .dac0 → r.dac.switch.active = dacMaster side →
      ∀ data lanes, req ≠ .write (Layout.offset Controller.toSlave) data lanes) :
    (r.stepIf (block.rigEvent? side req)).controller.frame = r.controller.frame := by
  have dac (master : Nat) (elsewhere : r.dac.switch.active = master →
      ∀ data lanes, req ≠ .write (Layout.offset Controller.toSlave) data lanes) :
      (r.step (.dac master req)).controller.frame = r.controller.frame := by
    by_cases connected : r.dac.switch.active = master
    · show (r.dac.switch.transact master req).2.device.frame = _
      rw [← connected, BusSwitch.transact_of_active]
      exact Controller.frame_transact _ (elsewhere connected)
    · show (r.dac.switch.transact master req).2.device.frame = _
      rw [BusSwitch.transact_of_ne_active (Ne.symm connected)]
      rfl
  cases side with
  | supervisor =>
    cases block with
    | dac0 => exact dac supervisorMaster (beside rfl)
    | dac0Select => exact congrArg Controller.frame (BusSwitch.device_transactControl r.dac.switch req)
    | _ => rfl
  | coprocessor =>
    cases block with
    | dac0 => exact dac coprocessorMaster (beside rfl)
    | _ => rfl

/-- An event leaves the frame where it is, unless a processor or the player puts one there. -/
theorem Reachable.frame_step (reach : Reachable c b) {e : Event} (foreign : ¬e.Loads b)
    (away : ¬(b.moves e = true ∧ b.rig.clock.Loads)) :
    (b.step e).dac0.device.frame = b.dac0.device.frame := by
  cases moves : b.moves e with
  | false => rw [reach.dac0_of_not_moves moves]
  | true =>
    have ticked : b.tick.dac0.device.frame = b.dac0.device.frame :=
      reach.frame_tick fun loads => away ⟨moves, loads⟩
    rw [← ticked]
    cases e with
    | tick => rfl
    | access side op =>
      show (b.perform side op).2.rig.controller.frame = b.tick.rig.controller.frame
      rcases reach.perform_answers side op with
        ⟨-, same⟩ | ⟨aligned, region, present, inside, answered, result, outcome⟩
      · rw [same]
        exact ticked.symm
      · rw [outcome, rig_transact? result]
        refine Block.frame_stepIf fun dac connected data lanes writes => foreign ?_
        obtain ⟨isWrite, place⟩ := reach.wordBase_of_write present inside writes
        rw [origin_of_dac0 (reach.mem_map.1 present) dac] at place
        have owned : b.tick.owner .dac0 = dacMaster side := connected
        rw [owner_tick] at owned
        exact ⟨isWrite, aligned, owned, place⟩
    | sample raw => cases moves
    | core activity => cases moves

/-- The supervisor puts a frame into the controller that is connected to it. -/
theorem Reachable.frame_load (reach : Reachable c b) (owned : b.owner .dac0 = supervisorMaster) (w : Word) :
    (b.step (.access .supervisor (.writeWord ((Port.dac0.region c).origin +
      Layout.offset Controller.toSlave) w))).dac0.device.frame = w &&& widthMask Ad5791.frameWidth := by
  have leads : Leads c .dac0 b b.dac0.device := ⟨reach, owned, rfl⟩
  obtain ⟨after, performed, left⟩ := leads.perform (Controller.toSlave_field) (.writeWord _ w) rfl
  show (b.perform .supervisor _).2.dac0.device.frame = _
  rw [performed]
  show (after.controller .dac0).frame = _
  rw [left.controller]
  exact leads.tick.sound.frame_put_toSlave w

/-! ## Frames and their authors -/

/-- Who put a frame into the controller. -/
inductive Author where
  /-- The frame is there since power-on. -/
  | nobody
  | player
  | processor (turn : Turn)
deriving DecidableEq, Repr

/-- The frames of the DAC and what they made of it. -/
structure Writings where
  /-- Who put the frame into the controller that is there. -/
  author : Author
  /-- The frames that the DAC took, each with its author. -/
  taken : List (Author × Word)
  /-- The states of the DAC, the latest first. -/
  seen : List Ad5791.Chip

/-- If the board moves on, the DAC takes the frame that is due first, and then another frame may be put into
the controller. -/
def noteAuthor (b : Board) (turn : Turn) (e : Event) (r : Writings) : Writings :=
  { author :=
      if e.Loads b then .processor turn
      else if b.moves e = true ∧ b.rig.clock.Loads then .player
      else r.author
    taken := r.taken ++ if b.moves e then b.dac0.device.due.map (r.author, ·) else []
    seen := (b.step e).dac :: r.seen }

/-- Nobody but the driver wrote the control register of the DAC so far. -/
def Writings.OnlyDriver (r : Writings) : Prop :=
  ∀ author frame, (author, frame) ∈ r.taken → WritesControl frame → author = .processor .driver

/-- The board as a driver of the DAC reaches it, with the authors of the frames. -/
abbrev Witnessed := Attended noteAuthor

/-- A board at power-on, whose frames are followed. -/
def Attended.begin (b : Board) : Witnessed :=
  { board := b, ahead := [], record := { author := .nobody, taken := [], seen := [b.dac] } }

/-- The driver makes a call, and others do something ahead of each of its accesses. -/
def Attended.call {α : Type} (t : Witnessed) (ahead : List (List Event))
    (a : Action (Link Witnessed) α) : Witnessed :=
  (a.perform (.connect { t with ahead })).2.bus

/-- What happens on a board from power-on, with one driver of its DAC among those who use it. Others may cause
any event, also while the driver carries out an operation, and the driver may do any operation with any grant
and keep to any poll limit and references. How the operations end does not matter. -/
inductive Driven (b : Board) (d : DacDriver) : Witnessed → Prop
  | begin : Driven b d (.begin b)
  | event {t : Witnessed} (e : Event) : Driven b d t → Driven b d (t.observe .others e)
  | call {t : Witnessed} {α : Type} {a : Action (Link Witnessed) α} {g : Grant} {limit : Nat}
    {low high : Float} (ahead : List (List Event)) : Driven b d t →
    (({ d with spi := d.spi.withPollLimit limit } : DacDriver).withReferences low high).Operation g a →
    Driven b d (t.call ahead a)

/-! ## What the driver keeps to -/

/-- The driver of the DAC. -/
def dacDriver (c : Config) (id : Nat) (coding : Coding) : DacDriver :=
  { spi := Port.dac0.driver c id, coding, lowVolts := -10.0, highVolts := 10.0 }

/-- The supervisor's manifest leads to the driver of the DAC. -/
theorem Reachable.ofManifest_dac (reach : Reachable c b) (id : Nat) (coding : Coding) :
    DacDriver.ofManifest id (b.manifest .supervisor) "dac0" coding = .ok (dacDriver c id coding) :=
  congrArg (Except.map fun spi => DacDriver.mk spi coding (-10.0) 10.0) (reach.ofManifest_port .dac0 id)

/-- A frame that the driver put into the controller marks the coding, and the DAC expected it in all its
states so far unless somebody else wrote the control register. -/
structure Coded (c : Config) (coding : Coding) (b : Board) (r : Writings) : Prop where
  reach : Reachable c b
  placed : r.author = .processor .driver → coding.Marks b.dac0.device.frame
  latest : b.dac ∈ r.seen
  expects : r.OnlyDriver → ∀ chip ∈ r.seen, chip.Expects coding

variable {coding : Coding} {r : Writings}

/-- The DAC takes no write of its control register but those of the driver, which mark the coding. -/
theorem Coded.expects_step (coded : Coded c coding b r) {turn : Turn} {e : Event}
    (only : (noteAuthor b turn e r).OnlyDriver) (expects : b.dac.Expects coding) :
    (b.step e).dac.Expects coding := by
  cases moves : b.moves e with
  | false =>
    have same : (b.step e).dac = b.dac :=
      congrArg (fun s => s.device.device) (coded.reach.dac0_of_not_moves moves)
    rw [same]
    exact expects
  | true =>
    rw [coded.reach.dac_of_moves moves]
    refine expects.feed fun frame due writes => ?_
    have taken : (r.author, frame) ∈ (noteAuthor b turn e r).taken := by
      refine List.mem_append_right _ ?_
      rw [moves]
      exact List.mem_map_of_mem due
    have own : r.author = .processor .driver := only _ _ taken writes
    rw [Controller.eq_frame_of_mem_due due] at writes ⊢
    exact coded.placed own writes

/-- An event upholds the coding if the driver puts no other frame into the controller than one that marks
it. -/
theorem Coded.note (coded : Coded c coding b r) {turn : Turn} {e : Event}
    (marks : e.Loads b → turn = .driver → coding.Marks (b.step e).dac0.device.frame) :
    Coded c coding (b.step e) (noteAuthor b turn e r) := by
  refine ⟨.step e coded.reach, fun author => ?_, .head _, fun only chip seen => ?_⟩
  · simp only [noteAuthor] at author
    split at author
    · next loads => exact marks loads (Author.processor.inj author)
    · next foreign =>
      split at author
      · cases author
      · next away =>
        rw [coded.reach.frame_step foreign away]
        exact coded.placed author
  · have before : r.OnlyDriver := fun author frame listed =>
      only author frame (List.mem_append_left _ listed)
    have expects := coded.expects before
    rcases List.mem_cons.1 seen with rfl | earlier
    · exact coded.expects_step only (expects _ coded.latest)
    · exact expects chip earlier

theorem coded_begin (assembled : assemble c = .ok b) (coding : Coding) :
    Coded c coding b (Attended.begin b).record := by
  refine ⟨.assembled assembled, Author.noConfusion, .head _, fun _ chip seen => ?_⟩
  obtain ⟨_, _, -, -, -, rfl⟩ := assemble_eq_ok_iff.1 assembled
  rw [List.mem_singleton.1 seen]
  exact Ad5791.Chip.expects_powerOn coding

/-- The coding is upheld on the transport of the driver. -/
def Upholds (c : Config) (coding : Coding) (t : Witnessed) : Prop :=
  Coded c coding t.board t.record

variable {t : Witnessed}

theorem Upholds.interlude (upholds : Upholds c coding t) : Upholds c coding t.interlude :=
  Attended.interlude_keeps (P := Coded c coding)
    (fun _ _ _ _ _ _ before => before.note fun _ own => Turn.noConfusion own) upholds

/-- An access of the driver upholds the coding if it puts no other frame into the controller than one that
marks it. -/
theorem Upholds.access (upholds : Upholds c coding t) (op : Op)
    (marks : (Event.access .supervisor op).Loads t.interlude.board →
      coding.Marks (t.access op).board.dac0.device.frame) : Upholds c coding (t.access op) :=
  upholds.interlude.note fun loads _ => marks loads

theorem readsKeep_upholds (c : Config) (coding : Coding) : ReadsKeep (Upholds c coding) :=
  fun addr _ upholds => upholds.access (.readWord addr) fun loads => absurd loads.1 Bool.false_ne_true

theorem writesKeep_arm (c : Config) (coding : Coding) (id : Nat) :
    WritesKeep (Upholds c coding) (Port.dac0.driver c id).arm.addr := by
  intro w t upholds
  refine upholds.access (.writeWord _ w) fun loads => absurd loads.2.2.2 ?_
  show (0x2000 + Layout.offset Controller.arm : Addr).wordBase ≠ 0x2000 + Layout.offset Controller.toSlave
  decide

/-- A frame that marks the coding is put into the controller, unless the supervisor is not connected. -/
theorem Upholds.load (upholds : Upholds c coding t) (id : Nat) {frame : Word}
    (marks : coding.Marks frame) (fits : frame &&& widthMask Ad5791.frameWidth = frame) :
    Upholds c coding (Transport.writeWord t (Port.dac0.driver c id).toSlave.addr
      (frame &&& widthMask (Port.dac0.driver c id).toSlave.width)).2 := by
  have whole : frame &&& widthMask (Port.dac0.driver c id).toSlave.width = frame := fits
  rw [whole]
  refine upholds.access (.writeWord _ frame) fun loads => ?_
  have there : (t.access _).board.dac0.device.frame = frame :=
    (upholds.interlude.reach.frame_load loads.2.2.1 frame).trans fits
  exact there.symm ▸ marks

/-- An operation of the driver upholds its coding, however it ends. -/
theorem Upholds.call (upholds : Upholds c coding t) {d : DacDriver} (id limit : Nat)
    (ports : d.spi = (Port.dac0.driver c id).withPollLimit limit) {α : Type} {g : Grant}
    {a : Action (Link Witnessed) α} (operation : d.Operation g a) (same : d.coding = coding)
    (ahead : List (List Event)) : Upholds c coding (t.call ahead a) := by
  subst same
  have waiting : Upholds c d.coding { t with ahead } := upholds
  have exchange (frame : Word) (sends : d.Sends frame) :
      Keeps (Upholds c d.coding) (d.spi.exchange g frame) := by
    rw [ports]
    refine SpiDriver.keeps_exchange_of_load (readsKeep_upholds c d.coding) ?_ ?_ g
    · exact writesKeep_arm c d.coding id
    · exact fun t before => before.load id sends.marks.1 sends.marks.2
  exact (operation.keeps exchange _ (Link.live_connect waiting)).2

theorem Driven.upholds {d : DacDriver} {id : Nat} (assembled : assemble c = .ok b)
    (ports : d.spi = Port.dac0.driver c id) (driven : Driven b d t) : Upholds c d.coding t := by
  induction driven with
  | begin => exact coded_begin assembled d.coding
  | event e _ ih => exact ih.note fun _ own => Turn.noConfusion own
  | @call _ _ _ _ limit _ _ ahead _ operation ih =>
    refine ih.call id limit ?_ operation rfl ahead
    exact congrArg (SpiDriver.withPollLimit · limit) ports

/-- A driver of the DAC uses a board from power-on, and so does anybody else, but nobody else writes the
control register of the DAC. Then the DAC expects the coding of the driver whenever its output is enabled,
also in the course of an operation. -/
theorem enabled_output_expects_coding (assembled : assemble c = .ok b) {id : Nat} {d : DacDriver}
    (made : DacDriver.ofManifest id (b.manifest .supervisor) "dac0" coding = .ok d) (driven : Driven b d t)
    (only : t.record.OnlyDriver) : ∀ chip ∈ t.record.seen, chip.Expects coding := by
  have opened := (Reachable.assembled assembled).ofManifest_dac id coding
  obtain rfl := Except.ok.inj (opened.symm.trans made)
  exact (driven.upholds assembled rfl).expects only

/-- A small board after its driver of the DAC configured it. Others made the board move on before the first
access and before the third. -/
def configured : Witnessed :=
  let d := dacDriver (.small 2) 0 .offsetBinary
  let g : Grant := ⟨d.spi.arbiter, supervisorIndex⟩
  Attended.call (.begin (small 2)) [[.tick], [], [.tick, .tick]] (d.configure g)

/-- The output of the configured converter is enabled, and its codes are in offset binary. -/
theorem configured_output_is_offset_binary : assemble (.small 2) = .ok (small 2) ∧
    configured.record.OnlyDriver ∧ configured.board.dac ∈ configured.record.seen ∧
    configured.board.dac.outputDisabled = false ∧
    configured.board.dac.control.getLsbD Ad5791.codingPlace = true := by
  have assembled : assemble (.small 2) = .ok (small 2) := assemble_small 2
  have made := (Reachable.assembled assembled).ofManifest_dac 0 .offsetBinary
  let d := dacDriver (.small 2) 0 .offsetBinary
  let g : Grant := ⟨d.spi.arbiter, supervisorIndex⟩
  have operation : (({ d with spi := d.spi.withPollLimit standardPollLimit } : DacDriver).withReferences
      (-10.0) 10.0).Operation g (d.configure g : Action (Link Witnessed) Ad5791.Control) := .configure
  have driven : Driven (small 2) d configured := .call _ .begin operation
  have authors : ∀ shifted ∈ configured.record.taken, shifted.1 = .processor .driver := by decide +kernel
  have only : configured.record.OnlyDriver := fun _ _ taken _ => authors _ taken
  have latest : configured.board.dac ∈ configured.record.seen :=
    (driven.upholds assembled rfl).latest
  have enabled : configured.board.dac.outputDisabled = false := by decide +kernel
  exact ⟨assembled, only, latest, enabled,
    enabled_output_expects_coding assembled made driven only _ latest enabled⟩

end InstrumentBus.Board
