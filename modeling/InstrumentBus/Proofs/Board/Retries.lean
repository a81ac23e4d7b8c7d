import InstrumentBus.Proofs.Board.Calls
import InstrumentBus.Proofs.ControlLoop.Leftover

/-!
# Calls after calls that gave up

The block answers within one step, so on a board only a call without any poll gives up. It leaves its order
with the block, and as no call releases the handshake before it starts, the next call with a poll collects the
answer to that order instead of its own, which is never carried out. After that call the two ends are in step
again. So what a call comes to depends on the calls before it only through the order that they left over
(`call_collects_leftover`), and a call that finds none does what it was asked to.
-/

namespace InstrumentBus

open ControlLoop (Command Engine Order Recorded Store Value)

/-! ## Histories of calls -/

namespace LoopDriver

variable {τ : Type} [Transport τ]

/-- A use of the command block through some driver. The drivers differ in the bound on their waits. -/
inductive Use where
  | call (polls : Nat) (o : Order)
  /-- Ask whether the loop runs. -/
  | watch
deriving DecidableEq, Repr

/-- The link after a use. -/
def use (d : LoopDriver) (l : Link τ) : Use → Link τ
  | .call polls o => (((d.withPollLimit polls).carryOut o).perform l).2
  | .watch => (d.isRunning.perform l).2

/-- The link after several uses, one after the other. -/
def after (d : LoopDriver) (l : Link τ) (past : List Use) : Link τ :=
  past.foldl d.use l

/-- The order that is left over after a use, given the one that was left over before. -/
def Use.leaves (left : Option Order) : Use → Option Order
  | .call 0 o => some (left.getD o)
  | .call (_ + 1) _ => none
  | .watch => left

/-- The order that nobody collected: that of the first call without polls since the last call with some. -/
def leftOver (past : List Use) : Option Order :=
  past.foldl Use.leaves none

end LoopDriver

open LoopDriver (Use leftOver)

namespace Board

open InstrumentBus.Action (Meets)
open ControlLoop.Recorded (Follows Rests Ready Answered Asked)

variable {c : Config} {b : Board} {i : Nat} {f : Field} {s : Store} {done : List Order} {values : List Value}
  {left : Option Order}

/-! ## One call -/

/-- What a call finds the block with: it rests, or it was asked for an order that nobody collected. -/
def Found (s : Store) (done : List Order) (values : List Value) : Option Order → Recorded → Prop
  | none => Rests s done values
  | some o => Asked s done values o

/-- A block that was asked before answers in the first step, and keeps its answer while the inputs and the
start of another call are written. -/
theorem meets_overwrite (o : Order) (found : Engine.layout.fields[i]? = some f)
    (writable : f.access = .readWrite) (inside : i < 4) {w : Word} (whole : w &&& widthMask f.width = w)
    (held : i = Engine.start → w = 1) :
    Meets (Stands c (Asked s done values o)) ((refOf loopRegion i f).set w)
      (fun _ => Stands c (Asked s done values o)) fun _ _ => False := by
  have granted : f.access.writableBy .supervisor = true := by
    rw [writable]
    rfl
  refine meets_loopSet found writable w (fun _ asked => .inr asked.tick) fun _ asked => ?_
  rw [whole]
  exact .inr (asked.tick.put inside found granted fun start => whole.trans (held start))

/-- Whatever a call is for, it starts the block with the order that is left over, if there is one. -/
theorem meets_place_of_found (o : Order) :
    Meets (Stands c (Found s done values left)) (loopDriver.place o)
      (fun _ => Stands c (Asked s done values (left.getD o))) fun _ _ => False := by
  cases left with
  | none => exact meets_place o
  | some before =>
    have input (i : Nat) (inside : i < 3) {w : Word} (start : i = Engine.start) : w = 1 :=
      absurd start (Nat.ne_of_lt inside)
    refine (meets_overwrite (f := ⟨"word_in_hi", 32, .readWrite⟩) before rfl rfl (by decide)
      (and_widthMask_word _) (input Engine.inHigh (by decide))).bind fun _ => ?_
    refine (meets_overwrite (f := ⟨"word_in_lo", 32, .readWrite⟩) before rfl rfl (by decide)
      (and_widthMask_word _) (input Engine.inLow (by decide))).bind fun _ => ?_
    refine (meets_overwrite (f := ⟨"cmd", 8, .readWrite⟩) before rfl rfl (by decide)
      o.opcode_and_widthMask (input Engine.opcode (by decide))).bind fun _ => ?_
    exact meets_overwrite before start_field rfl (by decide) (by decide) fun _ => rfl

/-- Without polls, a call gives up as soon as the block is started. -/
theorem meets_call_without_polls (o : Order) :
    Meets (Link.Live (Stands c (Found s done values left))) ((loopDriver.withPollLimit 0).carryOut o)
      (fun _ _ => False)
      fun e l => e = .timeout "finish_cmd" 0 ∧ Link.Live (Stands c (Asked s done values (left.getD o))) l := by
  rw [LoopDriver.carryOut_eq]
  have gives : Meets (Stands c (Asked s done values (left.getD o)))
      (loopDriver.withPollLimit 0).collect (fun _ _ => False)
      fun e t => e = .timeout "finish_cmd" 0 ∧ Stands c (Asked s done values (left.getD o)) t :=
    .of_perform fun t asked => .inr ⟨_, t, rfl, rfl, asked⟩
  refine ((meets_place_of_found o).unfailing.bind fun _ => gives).locked.mono (fun _ found => found)
    (fun _ _ impossible => impossible.2) fun e l met => ⟨met.2.1, met.1, met.2.2⟩

/-- With polls, a call collects the answer to the order that is left over, or else to its own. -/
theorem meets_call (o : Order) {polls : Nat} (some_polls : 0 < polls) :
    Meets (Link.Live (Stands c (Found s done values left))) ((loopDriver.withPollLimit polls).carryOut o)
      (fun v => Link.Live (Stands c (Ready s (done ++ [left.getD o]) (values ++ [v]) [])))
      fun _ _ => False := by
  rw [LoopDriver.carryOut_eq]
  apply Meets.locked_unfailing
  exact (meets_place_of_found o).bind fun _ => meets_collect _ some_polls

theorem meets_watch : Meets (Link.Live (Stands c (Found s done values left))) loopDriver.isRunning
    (fun _ => Link.Live (Stands c (Found s done values left))) fun _ _ => False := by
  have steady (r : Recorded) (found : Found s done values left r) : Found s done values left r.tick := by
    cases left with
    | none => exact found.tick.toRests
    | some o => exact .inr found.tick
  apply Meets.locked_unfailing
  refine (meets_loopGet (f := ⟨"in_loop", 1, .readOnly⟩) rfl (Q := fun _ => Found s done values left) steady
    steady).bind fun _ => ?_
  exact Action.meets_pure fun _ stands => stands

/-! ## Histories -/

variable {l : Link Overseen}

/-- Every use leaves the block as it says. -/
theorem found_use (u : Use) (found : Link.Live (Stands c (Found s done values left)) l) :
    ∃ done values, Link.Live (Stands c (Found s done values (u.leaves left))) (loopDriver.use l u) := by
  cases u with
  | call polls o =>
    cases polls with
    | zero =>
      rcases outcome : ((loopDriver.withPollLimit 0).carryOut o).perform l with ⟨e | v, after⟩
      · have asked := ((meets_call_without_polls o).error found outcome).2
        exact ⟨done, values, by rw [LoopDriver.use, outcome]; exact asked⟩
      · exact ((meets_call_without_polls o).ok found outcome).elim
    | succ polls =>
      obtain ⟨v, after, outcome, live, stands⟩ := (meets_call o (Nat.succ_pos polls)).succeeds found
      refine ⟨done ++ [left.getD o], values ++ [v], ?_⟩
      rw [LoopDriver.use, outcome]
      exact ⟨live, stands.reach, stands.spared, stands.holds.toRests⟩
  | watch =>
    obtain ⟨_, after, outcome, kept⟩ := meets_watch.succeeds found
    refine ⟨done, values, ?_⟩
    rw [LoopDriver.use, outcome]
    exact kept

theorem found_after (past : List Use) (found : Link.Live (Stands c (Found s done values left)) l) :
    ∃ done values,
      Link.Live (Stands c (Found s done values (past.foldl Use.leaves left))) (loopDriver.after l past) := by
  induction past generalizing l done values left with
  | nil => exact ⟨done, values, found⟩
  | cons u past ih =>
    obtain ⟨done, values, next⟩ := found_use u found
    exact ih next

/-! ## What a call comes to -/

/-- From one state of the board to another the order `o` was carried out, if it was not before, and `v` is
its answer. Nothing else happened to the parameters but to the count. -/
structure Attended.Delivers (t : Overseen) (o : Order) (v : Value) (u : Overseen) : Prop where
  written : ∀ command w, o = .write command w → v = w
  shown : o.command ≠ .cycles → v = u.board.cl.parameter o.command
  held : ∀ command, command ≠ .cycles →
    u.board.cl.parameter command = Store.carryOut t.board.cl.parameter o command

theorem delivers_call (o : Order) {polls : Nat} (some_polls : 0 < polls) {t : Overseen}
    (found : Stands c (Found s done values left) t) :
    ∃ v u, ((loopDriver.withPollLimit polls).carryOut o).perform (.connect t) = (.ok v, .connect u) ∧
      t.Delivers (left.getD o) v u := by
  obtain ⟨v, ⟨health, u⟩, outcome, live, ended⟩ :=
    (meets_call o some_polls).succeeds (Link.live_connect found)
  obtain rfl : health = .live := live
  have before : Follows s done values t.recorded ∨ ∃ earlier,
      Follows s (done ++ [left.getD o]) earlier t.recorded := by
    cases left with
    | none => exact .inl found.holds.toFollows
    | some before => exact found.holds.imp And.left fun answered => ⟨_, answered.toFollows⟩
  obtain ⟨answer, alike⟩ : (left.getD o ≠ .read .cycles → v = Store.answer t.board.cl.parameter (left.getD o)) ∧
      Store.Alike u.board.cl.parameter (Store.carryOut t.board.cl.parameter (left.getD o)) := by
    rcases before with follows | ⟨earlier, follows⟩
    · exact Follows.served (.inl follows) ended.holds.toFollows
    · exact Follows.served (.inr follows) ended.holds.toFollows
  refine ⟨v, u, outcome, fun command w writes => ?_, fun other => ?_, alike⟩
  · rw [answer (by rw [writes]; nofun), writes, Store.answer_write]
  · rw [alike _ other]
    exact answer fun counts => other (by rw [counts]; rfl)

theorem gives_up_call (o : Order) {t : Overseen} (found : Stands c (Found s done values left) t) :
    ∃ u, ((loopDriver.withPollLimit 0).carryOut o).perform (.connect t) =
        (.error (.timeout "finish_cmd" 0), .connect u) ∧
      Stands c (Found s done values (some (left.getD o))) u := by
  rcases outcome : ((loopDriver.withPollLimit 0).carryOut o).perform (.connect t) with ⟨e | v, ⟨health, u⟩⟩
  · obtain ⟨rfl, live, asked⟩ := (meets_call_without_polls o).error (Link.live_connect found) outcome
    obtain rfl : health = .live := live
    exact ⟨u, rfl, asked⟩
  · exact ((meets_call_without_polls o).ok (Link.live_connect found) outcome).elim

/-- A block whose handshake is released is found with nothing left over. -/
theorem Reachable.found (reach : Reachable c b) (released : b.cl.registers.value Engine.start = 0)
    {ahead : List (List Event)} (spare : ∀ events ∈ ahead, ∀ e ∈ events, e.Spares c .cl) :
    Stands c (Found b.cl.parameter [] [] none) (⟨b, ahead, []⟩ : Overseen) := by
  have follows : Follows b.cl.parameter [] [] ⟨b.cl, []⟩ := ⟨reach.fits_cl, rfl, rfl, rfl⟩
  exact ⟨reach, spare, follows, released⟩

/-- The supervisor uses the command block through drivers with any bounds on their waits, and others do
whatever they like in between but reach the block. A call without polls gives up. A call with polls always
succeeds, with the answer to the order that the calls before it left over and not to its own, which is lost;
only where none was left over is it its own order that is carried out and answered. -/
theorem call_collects_leftover (reach : Reachable c b) (released : b.cl.registers.value Engine.start = 0) :
    ∃ d, LoopDriver.ofManifest (b.manifest .supervisor) "cl" = .ok d ∧
      ∀ (past : List Use) (ahead : List (List Event)), (∀ events ∈ ahead, ∀ e ∈ events, e.Spares c .cl) →
        ∃ t : Overseen, d.after (.connect ⟨b, ahead, []⟩) past = .connect t ∧
          ∀ o, (∃ u : Overseen, ((d.withPollLimit 0).carryOut o).perform (.connect t) =
              (.error (.timeout "finish_cmd" 0), .connect u)) ∧
            ∀ polls, 0 < polls → ∃ (v : Value) (u : Overseen),
              ((d.withPollLimit polls).carryOut o).perform (.connect t) = (.ok v, .connect u) ∧
              t.Delivers ((leftOver past).getD o) v u := by
  refine ⟨loopDriver, reach.ofManifest_loop, fun past ahead spare => ?_⟩
  obtain ⟨done, values, live, found⟩ := found_after past (Link.live_connect (reach.found released spare))
  rcases ended : loopDriver.after (.connect (⟨b, ahead, []⟩ : Overseen)) past with ⟨health, t⟩
  rw [ended] at live found
  obtain rfl : health = .live := live
  refine ⟨t, rfl, fun o => ⟨?_, fun polls some_polls => delivers_call o some_polls found⟩⟩
  obtain ⟨u, outcome, -⟩ := gives_up_call o found
  exact ⟨u, outcome⟩

/-- Once the order that was left over is collected, a write is carried out again. -/
theorem write_after_collected_leftover : Reachable (.small 4) (small 4) ∧
    ∃ d, LoopDriver.ofManifest ((small 4).manifest .supervisor) "cl" = .ok d ∧
      ∃ t u : Overseen,
        d.after (.connect ⟨small 4, [[.tick]], []⟩) [.call 0 (.write .setpoint 5), .watch, .call 1 (.read .delay)] =
          .connect t ∧
        ((d.withPollLimit 1).carryOut (.write .integral 7)).perform (.connect t) = (.ok 7, .connect u) ∧
        u.board.cl.parameter .integral = 7 := by
  have reach : Reachable (.small 4) (small 4) := .assembled (assemble_small 4)
  have spare : ∀ events ∈ [[Event.tick]], ∀ e ∈ events, e.Spares (.small 4) .cl := by
    intro events present e happens
    obtain rfl : events = [.tick] := List.mem_singleton.1 present
    obtain rfl : e = .tick := List.mem_singleton.1 happens
    trivial
  obtain ⟨d, named, calls⟩ := call_collects_leftover reach rfl
  obtain ⟨t, ended, next⟩ :=
    calls [.call 0 (.write .setpoint 5), .watch, .call 1 (.read .delay)] _ spare
  obtain ⟨v, u, outcome, delivers⟩ := (next (.write .integral 7)).2 1 Nat.one_pos
  obtain rfl : v = 7 := delivers.written .integral 7 rfl
  exact ⟨reach, d, named, t, u, ended, outcome, (delivers.shown (by decide)).symm⟩

/-- A write of the setpoint gives up, and the next write, of the integral gain, is lost: it gives the setpoint
for its result, and the gain stays what it was. -/
theorem write_lost_after_timeout : Reachable (.small 4) (small 4) ∧
    ∃ d, LoopDriver.ofManifest ((small 4).manifest .supervisor) "cl" = .ok d ∧
      ∃ t u : Overseen,
        ((d.withPollLimit 0).carryOut (.write .setpoint 5)).perform (.connect ⟨small 4, [], []⟩) =
          (.error (.timeout "finish_cmd" 0), .connect t) ∧
        ((d.withPollLimit 1).carryOut (.write .integral 7)).perform (.connect t) = (.ok 5, .connect u) ∧
        u.board.cl.parameter .integral = 0 := by
  have reach : Reachable (.small 4) (small 4) := .assembled (assemble_small 4)
  have found : Stands (.small 4) (Found (small 4).cl.parameter [] [] none) (⟨small 4, [], []⟩ : Overseen) :=
    reach.found rfl fun _ none => nomatch none
  obtain ⟨t, first, asked⟩ := gives_up_call (.write .setpoint 5) found
  obtain ⟨v, u, second, delivers⟩ := delivers_call (.write .integral 7) Nat.one_pos asked
  obtain rfl : v = 5 := delivers.written .setpoint 5 rfl
  have kept : t.board.cl.parameter .integral = 0 := by
    rcases asked.holds with ⟨follows, -⟩ | answered
    · exact follows.alike .integral (by decide)
    · exact answered.toFollows.alike .integral (by decide)
  exact ⟨reach, loopDriver, reach.ofManifest_loop, t, u, first, second,
    (delivers.held .integral (by decide)).trans kept⟩

end Board

end InstrumentBus
