import InstrumentBus.Proofs.Board.Player
import InstrumentBus.Proofs.Board.Rig
import InstrumentBus.Proofs.Waveform.Standstill

/-!
# Who opened the session of a frame

A frame that reaches the DAC belongs to a session that the player or a processor opened, by raising `arm`
while the controller was idle. `Traced` follows the frames with the openers of their sessions. A player at a
standstill opens none (`Silent`): of the frames that follow at most one is not a processor's, that of a
session which was open before.
-/

namespace InstrumentBus.Board

open Waveform (Player Rig)

variable {c : Config} {b : Board}

/-! ## The DAC in one event -/

/-- Nothing happens to the DAC while the board does not move on. -/
theorem Reachable.dac0_of_not_moves (reach : Reachable c b) {e : Event} (rests : b.moves e = false) :
    (b.step e).dac0 = b.dac0 := by
  cases e with
  | tick => cases rests
  | access side op =>
    show (b.perform side op).2.dac0 = b.dac0
    rcases reach.perform_answers side op with ⟨-, same⟩ | ⟨aligned, region, present, inside, -⟩
    · rw [same]
    · rw [reach.moves_of_mem aligned present inside] at rests
      cases rests
  | sample raw => rfl
  | core activity => rfl

/-- No transaction reaches the DAC itself. -/
theorem Block.chip_stepIf (block : Block) (side : Side) (req : Request) (r : Rig) :
    (r.stepIf (block.rigEvent? side req)).chip = r.chip := by
  have dac (master : Nat) : (r.step (.dac master req)).chip = r.chip :=
    BusSwitch.View.keeps_device
      (P := fun k : Spi.Controller Ad5791.Chip => k.device = r.chip) (fun _ _ same => same)
      (.mk master r.dac.switch) req rfl
  have select : (r.step (.selectDac req)).chip = r.chip :=
    congrArg Spi.Controller.device (BusSwitch.device_transactControl r.dac.switch req)
  cases side with
  | supervisor => cases block <;> first | rfl | exact dac _ | exact select
  | coprocessor => cases block <;> first | rfl | exact dac _

/-- The DAC takes the frame that is due, and nothing else. -/
theorem Reachable.dac_of_moves (reach : Reachable c b) {e : Event} (moves : b.moves e = true) :
    (b.step e).dac = SerialDevice.feed b.dac b.dac0.device.due := by
  cases e with
  | tick =>
    show b.tick.rig.chip = _
    rw [rig_tick]
    exact Rig.chip_tick b.rig
  | access side op =>
    show (b.perform side op).2.rig.chip = _
    rcases reach.perform_cases side op with
      ⟨skewed, -⟩ | ⟨-, outside, -⟩ | ⟨-, region, -, -, answered, result, outcome⟩
    · rw [moves_of_not_aligned side skewed] at moves
      cases moves
    · rw [reach.moves_of_outside outside] at moves
      cases moves
    · rw [outcome, rig_transact? result, Block.chip_stepIf, rig_tick]
      exact Rig.chip_tick b.rig
  | sample raw => cases moves
  | core activity => cases moves

/-! ## Frames and their openers -/

/-- Who opened a session of the DAC's controller. -/
inductive Opener where
  /-- Somebody, before the frames were followed. -/
  | earlier
  | player
  | processor
deriving DecidableEq, Repr

/-- A board with the frames that its DAC took. -/
structure Traced where
  board : Board
  /-- Who opened the session whose frame is still to be shifted, if there is one. -/
  opener : Opener
  /-- The frames that the DAC took, each with the opener of its session. -/
  taken : List (Opener × Word)

namespace Traced

/-- A board whose frames are followed from now on. -/
def start (b : Board) : Traced :=
  { board := b, opener := .earlier, taken := [] }

/-- What an event does. If the board moves on, the controller moves first, then the player, which may open
a session; a processor that makes an access may open one last. -/
def observe (t : Traced) (e : Event) : Traced :=
  let now := t.board.dac0.device
  let after := (t.board.step e).dac0.device
  let clocked := if t.board.moves e then now.tick else now
  let played := if t.board.moves e then t.board.tick.dac0.device else now
  { board := t.board.step e
    opener :=
      if played.leftOver = [] ∧ after.leftOver ≠ [] then .processor
      else if clocked.leftOver = [] ∧ played.leftOver ≠ [] then .player
      else t.opener
    taken := t.taken ++ if t.board.moves e then now.due.map (t.opener, ·) else [] }

/-- The board after several events, with the frames that its DAC took. -/
def run (t : Traced) (events : List Event) : Traced :=
  events.foldl observe t

theorem board_run (t : Traced) (events : List Event) : (t.run events).board = t.board.run events := by
  induction events generalizing t with
  | nil => rfl
  | cons e events ih => exact ih (t.observe e)

variable {t : Traced}

/-- The frames are those that the DAC took, from `chip` on. -/
structure Follows (c : Config) (chip : Ad5791.Chip) (t : Traced) : Prop where
  reach : Reachable c t.board
  taken : t.board.dac = SerialDevice.feed chip (t.taken.map Prod.snd)

theorem Follows.observe {chip : Ad5791.Chip} (follows : Follows c chip t) (e : Event) :
    Follows c chip (t.observe e) := by
  obtain ⟨reach, taken⟩ := follows
  refine ⟨.step e reach, ?_⟩
  cases moves : t.board.moves e with
  | true =>
    have frames : (t.observe e).taken.map Prod.snd =
        t.taken.map Prod.snd ++ t.board.dac0.device.due := by
      simp [Traced.observe, moves, Function.comp_def]
    rw [frames, SerialDevice.feed, List.foldl_append]
    exact (reach.dac_of_moves moves).trans (congrArg (SerialDevice.feed · _) taken)
  | false =>
    have frames : (t.observe e).taken = t.taken := by
      simp [Traced.observe, moves]
    rw [frames, ← taken]
    exact congrArg (fun s => s.device.device) (reach.dac0_of_not_moves moves)

theorem Follows.run {chip : Ad5791.Chip} (follows : Follows c chip t) (events : List Event) :
    Follows c chip (t.run events) := by
  induction events generalizing t with
  | nil => exact follows
  | cons e events ih => exact ih (follows.observe e)

end Traced

/-! ## A player that opens no session -/

/-- An event in which the supervisor does not write `run`. -/
def Event.SparesRun : Event → Prop
  | .access .supervisor op =>
    op.isWrite = true → op.addr.wordBase ≠ playerRegion.origin + Layout.offset Player.run
  | _ => True

/-- A transaction that does not write `run` leaves a player at a standstill. -/
theorem Block.still_stepIf {block : Block} {side : Side} {req : Request} {r : Rig}
    (beside : side = .supervisor → block = .wf0 →
      ∀ data lanes, req ≠ .write (Layout.offset Player.run) data lanes)
    (still : r.player.Still) : (r.stepIf (block.rigEvent? side req)).player.Still := by
  cases side with
  | supervisor =>
    cases block with
    | wf0 => exact still.transact (beside rfl rfl)
    | _ => exact still
  | coprocessor => cases block <;> exact still

/-- A player at a standstill stays so, whatever happens to the board but that `run` is written. -/
theorem Reachable.still_step (reach : Reachable c b) {e : Event} (spares : e.SparesRun)
    (still : b.wf0.Still) : (b.step e).wf0.Still := by
  have ticked : b.rig.tick.player.Still := still.tick b.rig.ram b.rig.clock.dac
  cases e with
  | tick =>
    show b.tick.rig.player.Still
    rw [rig_tick]
    exact ticked
  | access side op =>
    show (b.perform side op).2.rig.player.Still
    rcases reach.rig_perform side op with ⟨-, same⟩ | ⟨region, present, inside, -, after⟩
    · rw [same]
      exact still
    · rw [after]
      refine Block.still_stepIf (fun supervisor player data lanes writes => ?_) ticked
      subst supervisor
      obtain ⟨isWrite, place⟩ := reach.wordBase_of_write present inside writes
      have origin : region.origin = playerRegion.origin := by
        have listed := reach.mem_map.1 present
        simp only [regionsOf, supervisorRegions, List.mem_cons, List.not_mem_nil, or_false] at listed
        rcases listed with rfl | rfl | rfl | rfl | rfl | rfl | rfl | rfl | rfl | rfl | rfl | rfl | rfl <;>
          first | rfl | cases player
      rw [origin] at place
      exact spares isWrite place
  | sample raw => exact still
  | core activity => exact still

namespace Traced

variable {t : Traced}

/-- The player is at a standstill, and opened none of the sessions whose frames were followed or are still
to be shifted. At most one of these sessions was open when the frames were first followed. -/
structure Silent (c : Config) (t : Traced) : Prop where
  reach : Reachable c t.board
  still : t.board.wf0.Still
  opener : t.opener ≠ .player
  taken : ∀ frame ∈ t.taken, frame.1 ≠ .player
  earlier : (t.taken.map Prod.fst).count .earlier +
    (if t.opener = .earlier then t.board.dac0.device.leftOver.length else 0) ≤ 1

theorem silent_start (reach : Reachable c b) (still : b.wf0.Still) : Silent c (start b) := by
  refine ⟨reach, still, Opener.noConfusion, (fun _ none => nomatch none), ?_⟩
  show 0 + b.dac0.device.leftOver.length ≤ 1
  exact (Nat.zero_add _).trans_le b.dac0.device.length_leftOver_le

/-- While the board moves on, a player at a standstill leaves the controller to itself. -/
theorem Silent.played (silent : Silent c t) :
    t.board.tick.dac0.device = t.board.dac0.device.tick := by
  have ticked : t.board.tick.rig.controller = t.board.rig.controller.tick := by
    rw [rig_tick]
    exact Rig.controller_tick_of_still silent.still
  exact ticked

/-- The session of an earlier opener has its frame shifted once. -/
theorem Silent.earlier_moves (silent : Silent c t) (after : Spi.Controller Ad5791.Chip) :
    ((t.taken ++ t.board.dac0.device.due.map (t.opener, ·)).map Prod.fst).count .earlier +
      (if (if t.board.dac0.device.tick.leftOver = [] ∧ after.leftOver ≠ [] then Opener.processor
        else t.opener) = .earlier then after.leftOver.length else 0) ≤ 1 := by
  have earlier := silent.earlier
  have split := congrArg List.length t.board.dac0.device.due_append_leftOver_tick
  rw [List.length_append] at split
  have tagged : ((t.board.dac0.device.due.map (t.opener, ·)).map Prod.fst).count .earlier =
      if t.opener = .earlier then t.board.dac0.device.due.length else 0 := by
    simp [Function.comp_def, List.count_replicate]
  rw [List.map_append, List.count_append, tagged]
  have one := after.length_leftOver_le
  by_cases opener : t.opener = .earlier
  · rw [if_pos opener] at earlier ⊢
    by_cases opens : t.board.dac0.device.tick.leftOver = [] ∧ after.leftOver ≠ []
    · rw [if_pos opens, if_neg Opener.noConfusion]
      omega
    · have rest : after.leftOver.length ≤ t.board.dac0.device.tick.leftOver.length := by
        by_cases none : t.board.dac0.device.tick.leftOver = []
        · have closed : after.leftOver = [] := by_contra fun some => opens ⟨none, some⟩
          rw [closed, none]
        · exact one.trans (List.length_pos_iff.2 none)
      rw [if_neg opens, if_pos opener]
      omega
  · have other : (if t.board.dac0.device.tick.leftOver = [] ∧ after.leftOver ≠ [] then Opener.processor
        else t.opener) ≠ .earlier := by
      split
      · exact Opener.noConfusion
      · exact opener
    rw [if_neg opener] at earlier ⊢
    rw [if_neg other]
    exact earlier

theorem Silent.observe (silent : Silent c t) {e : Event} (spares : e.SparesRun) :
    Silent c (t.observe e) := by
  have reach : Reachable c (t.board.step e) := .step e silent.reach
  have still : (t.board.step e).wf0.Still := silent.reach.still_step spares silent.still
  cases moves : t.board.moves e with
  | false =>
    have same : t.observe e = { t with board := t.board.step e } := by
      simp [Traced.observe, moves, silent.reach.dac0_of_not_moves moves]
    rw [same]
    refine ⟨reach, still, silent.opener, silent.taken, ?_⟩
    show _ + (if t.opener = .earlier then (t.board.step e).dac0.device.leftOver.length else 0) ≤ 1
    rw [silent.reach.dac0_of_not_moves moves]
    exact silent.earlier
  | true =>
    have moved : t.observe e =
        { board := t.board.step e
          opener := if t.board.dac0.device.tick.leftOver = [] ∧
            (t.board.step e).dac0.device.leftOver ≠ [] then .processor else t.opener
          taken := t.taken ++ t.board.dac0.device.due.map (t.opener, ·) } := by
      simp [Traced.observe, moves, silent.played]
    rw [moved]
    refine ⟨reach, still, ?_, fun frame shifted => ?_, ?_⟩
    · dsimp only
      split
      · exact Opener.noConfusion
      · exact silent.opener
    · rcases List.mem_append.1 shifted with before | due
      · exact silent.taken frame before
      · obtain ⟨w, -, rfl⟩ := List.mem_map.1 due
        exact silent.opener
    · exact silent.earlier_moves _

theorem Silent.run (silent : Silent c t) {events : List Event} (spare : ∀ e ∈ events, e.SparesRun) :
    Silent c (t.run events) := by
  induction events generalizing t with
  | nil => exact silent
  | cons e events ih =>
    exact ih (silent.observe (spare e (.head _))) fun later listed => spare later (.tail _ listed)

end Traced

end InstrumentBus.Board
