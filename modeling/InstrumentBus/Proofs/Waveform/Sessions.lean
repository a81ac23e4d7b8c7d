import InstrumentBus.Proofs.Ad5791.Frame
import InstrumentBus.Proofs.Waveform.Rig

/-!
# Sessions and what they shift

A ledger follows the sessions of a controller along the accesses to it: with which frame a session was
armed, which sample the player put in the place of that frame while the session was open, and what the
session shifted in the end. The invariant is `Faithful`: what the controller has still to shift is the
frame of the open session. It is kept by every access that is fair (`Faithful.access`): a master that
writes a frame does so while no session is open. The player is not fair in this sense, and so the ledger
has a place for what it does.
-/

namespace InstrumentBus.Waveform

open Spi (Controller)

/-- A session as its users left it. -/
structure Session where
  /-- The frame in the controller when the session was armed. -/
  armed : Word
  /-- The frame that the player put in its place since. -/
  replaced : Option Word
deriving DecidableEq, Repr

/-- The frame that a session is to shift. -/
def Session.frame (s : Session) : Word :=
  s.replaced.getD s.armed

/-- The open session of a controller, and those that ended, each with the frame that it shifted. -/
structure Ledger where
  session : Option Session
  ended : List (Session × Word)
deriving DecidableEq, Repr

namespace Ledger

/-- The ledger of a controller that nobody used. -/
def empty : Ledger :=
  { session := none, ended := [] }

/-- The ledger after the shift of some frames. -/
def close (l : Ledger) : List Word → Ledger
  | [] => l
  | frame :: _ =>
    { session := none, ended := l.ended ++ (l.session.map fun s => (s, frame)).toList }

/-- The ledger after the player put a frame into the controller. -/
def replace (l : Ledger) (frame : Word) : Ledger :=
  { l with session := l.session.map fun s => { s with replaced := some frame } }

/-- The ledger with a session that opens if the controller was armed. -/
def begin (l : Ledger) (c : Controller Ad5791.Chip) : Ledger :=
  if c.transfer = .idle ∧ c.armed = true then
    { l with session := some { armed := c.frame, replaced := none } }
  else l

/-- The ledger after an access to the rig `r` that leaves the controller `after`. -/
def note (l : Ledger) (r : Rig) (after : Controller Ad5791.Chip) : Ledger :=
  let shifted := l.close r.controller.due
  let loaded := if r.clock.Loads then shifted.replace (Player.sampleFrame r.clock.heard) else shifted
  loaded.begin after

/-! ## Faithful ledgers -/

/-- A ledger knows what its controller has still to shift; the frames of the sessions that ended are those
that the converter took, from `chip` on; and these sessions shifted what they were to. -/
structure Faithful (chip : Ad5791.Chip) (l : Ledger) (c : Controller Ad5791.Chip) : Prop where
  pending : c.leftOver = (l.session.map Session.frame).toList
  ended : ∀ s frame, (s, frame) ∈ l.ended → frame = s.frame
  taken : c.device = SerialDevice.feed chip (l.ended.map Prod.snd)

variable {l : Ledger} {chip : Ad5791.Chip} {c : Controller Ad5791.Chip} {r : Rig} {cycles : Nat}

theorem faithful_reset (chip : Ad5791.Chip) (cycles : Nat) :
    Faithful chip empty (.reset chip Ad5791.frameWidth cycles) := by
  refine ⟨?_, fun s frame listed => absurd listed List.not_mem_nil, rfl⟩
  have low : (Controller.reset chip Ad5791.frameWidth cycles).armed = false := rfl
  have idle : (Controller.reset chip Ad5791.frameWidth cycles).transfer = .idle := rfl
  rw [Controller.leftOver, idle, low]
  rfl

/-- A session ends in the tick that shifts its frame, and in no other. -/
theorem Faithful.close (faithful : Faithful chip l c) : Faithful chip (l.close c.due) c.tick := by
  obtain ⟨pending, ended, taken⟩ := faithful
  have split := c.due_append_leftOver_tick
  have fed := c.device_tick
  rw [pending] at split
  rw [taken] at fed
  rcases c.due_cases with due | due
  · rw [due] at split fed ⊢
    exact ⟨split, ended, fed⟩
  · rw [due] at split fed ⊢
    cases session : l.session with
    | none =>
      rw [session] at split
      cases split
    | some s =>
      rw [session] at split
      obtain ⟨frame, rest⟩ := List.cons.inj split
      have listed : (l.close [c.frame]).ended = l.ended ++ [(s, c.frame)] := by
        rw [Ledger.close, session]
        rfl
      refine ⟨rest, fun s' frame' present => ?_, ?_⟩
      · rw [listed] at present
        rcases List.mem_append.1 present with earlier | last
        · exact ended s' frame' earlier
        · obtain ⟨rfl, rfl⟩ := Prod.mk.inj (List.mem_singleton.1 last)
          exact frame
      · rw [fed, listed, List.map_append]
        exact (List.foldl_append).symm

/-- A ledger that knows of all but a session that opens just now is faithful once it knows of that. -/
theorem faithful_begin
    (pending : ¬(c.transfer = .idle ∧ c.armed = true) →
      c.leftOver = (l.session.map Session.frame).toList)
    (ended : ∀ s frame, (s, frame) ∈ l.ended → frame = s.frame)
    (taken : c.device = SerialDevice.feed chip (l.ended.map Prod.snd)) : Faithful chip (l.begin c) c := by
  unfold begin
  split
  · next opens =>
    refine ⟨?_, ended, taken⟩
    rw [Controller.leftOver, opens.1, opens.2]
    rfl
  · next closed => exact ⟨pending closed, ended, taken⟩

/-- The player replaces the frame of an open session where it copies a sample, and nowhere else. -/
theorem Faithful.move (sound : r.Sound cycles) (faithful : Faithful chip l r.controller)
    (fresh : r.controller.transfer = .idle → r.controller.armed = false) :
    Faithful chip ((if r.Loads then l.replace (Player.sampleFrame r.heard) else l).begin r.move.controller)
      r.move.controller := by
  obtain ⟨pending, ended, taken⟩ := faithful
  rcases sound.controller_move with ⟨loads, left⟩ | ⟨-, phase, -, idle, left⟩ | ⟨other, -, left⟩ |
    ⟨other, left⟩
  · rw [if_pos loads, left]
    refine faithful_begin (fun _ => ?_) ended taken
    have transfer : (r.controller.put Controller.toSlave (Player.sampleFrame r.heard)).transfer =
        r.controller.transfer := rfl
    have frame : (r.controller.put Controller.toSlave (Player.sampleFrame r.heard)).frame =
        Player.sampleFrame r.heard :=
      (sound.controller.frame_put_toSlave _).trans (Ad5791.writeFrame_and_frameMask .dac r.heard)
    rw [Controller.leftOver] at pending
    rw [Controller.leftOver, transfer, sound.controller.armed_put_toSlave, frame]
    have replaced : ((l.replace (Player.sampleFrame r.heard)).session.map Session.frame).toList =
        (l.session.map fun _ => Player.sampleFrame r.heard).toList := by
      rw [replace, Option.map_map]
      rfl
    rw [replaced]
    -- whether a session is open is the same as before, and its frame is the new one
    cases session : l.session with
    | none =>
      rw [session] at pending
      cases stage : r.controller.transfer with
      | idle => rw [fresh stage]; rfl
      | busy left => rw [stage] at pending; cases pending
      | done => rfl
    | some s =>
      rw [session] at pending
      cases stage : r.controller.transfer with
      | idle => rw [stage, fresh stage] at pending; cases pending
      | busy left => rfl
      | done => rw [stage] at pending; cases pending
  · have other : ¬r.Loads := fun loads => Phase.noConfusion (phase.symm.trans loads.2.1)
    have raised : (r.controller.put Controller.arm 1).armed = true := by
      rw [sound.controller.armed_put_arm]
      decide
    rw [if_neg other, left]
    exact faithful_begin (fun closed => absurd ⟨idle, raised⟩ closed) ended taken
  · rw [if_neg other, left]
    refine faithful_begin (fun _ => ?_) ended taken
    rw [sound.controller.leftOver_release fresh, pending]
  · rw [if_neg other, left]
    exact faithful_begin (fun _ => pending) ended taken

end Ledger

/-- An event that is fair to an open session: it is no step and no transaction in the name of the player,
and who writes a frame does so while no session is open. -/
def Rig.Event.Fair (r : Rig) : Rig.Event → Prop
  | .tick => False
  | .dac master req =>
    master ≠ r.dac.master ∧ (master = r.dac.switch.active →
      (∃ data lanes, req = .write (Layout.offset Controller.toSlave) data lanes) →
        r.controller.leftOver = [])
  | _ => True

namespace Ledger

variable {l : Ledger} {chip : Ad5791.Chip} {r : Rig} {cycles : Nat}

/-- Along fair accesses a ledger stays faithful. -/
theorem Faithful.access (sound : r.Sound cycles) (faithful : Faithful chip l r.controller)
    (e : Option Rig.Event) (fair : ∀ event, e = some event → event.Fair r.tick) :
    Faithful chip (l.note r (r.tick.stepIf e).controller) (r.tick.stepIf e).controller := by
  have clocked : Faithful chip (l.close r.controller.due) r.clock.controller := faithful.close
  have fresh : r.clock.controller.transfer = .idle → r.clock.controller.armed = false :=
    fun idle => Controller.armed_of_tick_idle (c := r.controller) idle
  have moved := clocked.move sound.clock fresh
  by_cases reaches : ∃ master req, e = some (.dac master req) ∧ master = r.tick.dac.switch.active
  · -- who reaches the controller keeps the player away from it, so there is just the transaction
    obtain ⟨master, req, rfl, connected⟩ := reaches
    obtain ⟨other, allowed⟩ := fair _ rfl
    have apart : ¬r.HasDac := fun here =>
      other (connected.trans (((Rig.hasDac_tick r).2 here).symm))
    have left : (r.tick.stepIf (some (.dac master req))).controller =
        (r.controller.tick.transact req).2 := by
      show (r.tick.dac.switch.transact master req).2.device = _
      rw [connected, BusSwitch.transact_of_active]
      show (r.tick.controller.transact req).2 = _
      rw [Rig.controller_tick_of_apart apart]
    have away : ¬r.clock.Loads := fun loads => apart loads.2.2
    rw [left, note, if_neg away]
    refine faithful_begin (fun closed => ?_) clocked.ended clocked.taken
    rw [← clocked.pending]
    show (r.controller.tick.transact req).2.leftOver = r.controller.tick.leftOver
    have transfer : (r.controller.tick.transact req).2.transfer = r.controller.tick.transfer := rfl
    rw [Controller.leftOver, Controller.leftOver, transfer]
    cases stage : r.controller.tick.transfer with
    | idle =>
      have low : (r.controller.tick.transact req).2.armed = false :=
        Bool.eq_false_iff.2 fun high => closed ⟨stage, high⟩
      have before : r.controller.tick.armed = false := fresh stage
      rw [low, before]
      rfl
    | busy left =>
      have busy : r.tick.controller.leftOver ≠ [] := by
        rw [Rig.controller_tick_of_apart apart, Controller.leftOver, stage]
        exact List.cons_ne_nil _ _
      rw [Controller.frame_transact]
      intro data lanes same
      exact busy (allowed connected ⟨data, lanes, same⟩)
    | done => rfl
  · have left : (r.tick.stepIf e).controller = r.tick.controller := by
      cases e with
      | none => rfl
      | some event =>
        cases event with
        | tick => exact (fair _ rfl).elim
        | configure req => rfl
        | ram master req => rfl
        | dac master req =>
          have other : master ≠ r.tick.dac.switch.active := fun same =>
            reaches ⟨master, req, rfl, same⟩
          exact congrArg (fun answered => answered.2.device)
            (BusSwitch.transact_of_ne_active other req)
        | selectRam req => rfl
        | selectDac req => exact BusSwitch.device_transactControl r.tick.dac.switch req
    rw [left]
    exact moved

end Ledger

end InstrumentBus.Waveform
