import InstrumentBus.Proofs.Word.Window
import InstrumentBus.Proofs.Board.Retries
import InstrumentBus.Proofs.ControlLoop.Gain

/-!
# Gains of the control loop

A gain passes through a decimal text, a fixed-point number of 128 bits, the 64 bits of a parameter and the two
halves of these on the bus. Nothing is lost on the way but what the text has beyond 43 binary places
(`gains_are_exact`): the gains that are set are the gains that are got, whatever others do in between that
does not reach the command block.
-/

namespace InstrumentBus.Board

open ControlLoop (Gain Order Store)
open ControlLoop.Recorded (Rests)
open FixedPoint (Numeral)

variable {c : Config} {b : Board}

/-! ## Calls and their answers -/

section Calls

variable {s : Store} {done : List Order} {l : Link Overseen} {limit : Nat}

/-- The handshake of the command block is released behind a live link, and the block carried out the orders
`done` since it held `s`. -/
def LoopAtRest (c : Config) (s : Store) (done : List Order) (l : Link Overseen) : Prop :=
  ∃ values, Link.Live (Stands c (Rests s done values)) l

/-- An order is answered from the parameters that the orders before it made, unless it asks for the count. -/
theorem LoopAtRest.performs_order (rest : LoopAtRest c s done l) (polls : 0 < limit) {o : Order}
    (other : o ≠ .read .cycles) :
    ∃ after, ((loopDriver.withPollLimit limit).carryOut o).perform l =
        (.ok ((s.carryOutAll done).answer o), after) ∧ LoopAtRest c s (done ++ [o]) after := by
  obtain ⟨values, before⟩ := rest
  obtain ⟨v, after, performed, live, stands⟩ := (meets_carryOut o polls).succeeds before
  have answer : v = (s.carryOutAll done).answer o :=
    Store.answer_of_answers stands.holds.carriedOut stands.holds.answered other
  rw [← answer]
  exact ⟨after, performed, _, live, stands.reach, stands.spared, stands.holds.toRests⟩

theorem LoopAtRest.exists_connect (rest : LoopAtRest c s done l) : ∃ t, l = .connect t := by
  obtain ⟨_, live, -⟩ := rest
  obtain ⟨health, t⟩ := l
  obtain rfl : health = .live := live
  exact ⟨t, rfl⟩

/-- Both gains are set. -/
theorem LoopAtRest.performs_setGains (rest : LoopAtRest c s done l) (polls : 0 < limit) (p i : Gain) :
    ∃ after, ((loopDriver.withPollLimit limit).setGains p i).perform l = (.ok (), after) ∧
      LoopAtRest c s (done ++ [.write .proportional p.bits] ++ [.write .integral i.bits]) after := by
  obtain ⟨middle, first, rest⟩ := rest.performs_order polls (o := .write .proportional p.bits) nofun
  obtain ⟨after, second, rest⟩ := rest.performs_order polls (o := .write .integral i.bits) nofun
  refine ⟨after, ?_, rest⟩
  exact (Action.perform_bind_of_ok first _).trans (Action.perform_bind_of_ok second _)

/-- The gains that are got are those that the orders before left. -/
theorem LoopAtRest.performs_gains (rest : LoopAtRest c s done l) (polls : 0 < limit) :
    ∃ after, (loopDriver.withPollLimit limit).gains.perform l =
        (.ok (⟨s.carryOutAll done .proportional⟩, ⟨s.carryOutAll done .integral⟩), after) ∧
      LoopAtRest c s (done ++ [.read .proportional] ++ [.read .integral]) after := by
  obtain ⟨middle, first, rest⟩ := rest.performs_order polls (o := .read .proportional) (by decide)
  obtain ⟨after, second, rest⟩ := rest.performs_order polls (o := .read .integral) (by decide)
  rw [Store.carryOutAll_concat] at second
  refine ⟨after, ?_, rest⟩
  exact (Action.perform_bind_of_ok first _).trans (Action.perform_bind_of_ok second _)

/-- The gains that are set are the gains that are got next. -/
theorem LoopAtRest.gains_come_back {t : Overseen} (rest : LoopAtRest c s done (.connect t)) (polls : 0 < limit)
    (p i : Gain) :
    ∃ middle after : Overseen,
      ((loopDriver.withPollLimit limit).setGains p i).perform (.connect t) = (.ok (), .connect middle) ∧
      (loopDriver.withPollLimit limit).gains.perform (.connect middle) = (.ok (p, i), .connect after) := by
  obtain ⟨_, assigned, rest⟩ := rest.performs_setGains polls p i
  obtain ⟨middle, rfl⟩ := rest.exists_connect
  obtain ⟨_, got, rest⟩ := rest.performs_gains polls
  obtain ⟨after, rfl⟩ := rest.exists_connect
  have left : s.carryOutAll (done ++ [.write .proportional p.bits] ++ [.write .integral i.bits]) =
      ((s.carryOutAll done).set .proportional p.bits).set .integral i.bits := by
    rw [Store.carryOutAll_concat, Store.carryOutAll_concat]
    rfl
  rw [left] at got
  exact ⟨middle, after, assigned, got⟩

end Calls

/-- A block whose handshake is released is at rest. -/
theorem Reachable.loopAtRest (reach : Reachable c b)
    (released : b.cl.registers.value ControlLoop.Engine.start = 0) {ahead : List (List Event)}
    (spare : ∀ events ∈ ahead, ∀ e ∈ events, e.Spares c .cl) :
    LoopAtRest c b.cl.parameter [] (.connect (⟨b, ahead, []⟩ : Overseen)) :=
  ⟨[], Link.live_connect (reach.found released spare)⟩

/-- On the board itself, too, the gains that are set are the gains that are got next. -/
theorem Reachable.gains_come_back (reach : Reachable c b)
    (released : b.cl.registers.value ControlLoop.Engine.start = 0) {limit : Nat} (polls : 0 < limit)
    (p i : Gain) :
    ∃ middle after : Board,
      ((loopDriver.withPollLimit limit).setGains p i).perform (.connect (View.mk .supervisor b)) =
        (.ok (), .connect (View.mk .supervisor middle)) ∧
      (loopDriver.withPollLimit limit).gains.perform (.connect (View.mk .supervisor middle)) =
        (.ok (p, i), .connect (View.mk .supervisor after)) := by
  have rest := reach.loopAtRest released (fun events none => absurd none List.not_mem_nil)
  obtain ⟨_, _, assigned, got⟩ := rest.gains_come_back polls p i
  obtain ⟨middle, rfl, first⟩ := Alone.performs (t := ⟨b, []⟩)
    (Alone.mirrors_attended.setGains _ p i) (Alone.mirrors_view.setGains _ p i) assigned
  obtain ⟨after, rfl, second⟩ := Alone.performs
    (Alone.mirrors_attended.gains _) (Alone.mirrors_view.gains _) got
  exact ⟨middle.board, after.board, first, second⟩

/-- A gain is read from a text exactly if the number of the text, with 43 binary places, takes 64 bits, and it is
this number, the text's truncated toward zero; a number that takes more is out of range. The text of a gain is
read as the gain. And on a board whose command block is released the gains that are set are the gains that are
got, also where others use the board in between but do not reach the block. -/
theorem gains_are_exact :
    (∀ (text : String) (g : Gain), Gain.ofText text = .ok g ↔
      ∃ v, FixedPoint.ofText text 43 = .ok v ∧ -2 ^ 63 ≤ v ∧ v < 2 ^ 63 ∧ g.bits.toInt = v) ∧
    (∀ (text : String) (v : Int), FixedPoint.ofText text 43 = .ok v → ¬(-2 ^ 63 ≤ v ∧ v < 2 ^ 63) →
      Gain.ofText text = .error (.outOfRange text)) ∧
    (∀ (text : String) (g : Gain), Gain.ofText text = .ok g →
      ∃ (t : List Char) (n : Numeral), Text.Trimmed text.toList t ∧ n.Spells t ∧
        g.bits.toInt = n.signum * ⌊n.magnitude * 2 ^ 43⌋₊) ∧
    (∀ g : Gain, ∃ text, g.toText = .ok text ∧ Gain.ofText text = .ok g) ∧
    ∀ (c : Config) (b : Board), Reachable c b → b.cl.registers.value ControlLoop.Engine.start = 0 →
      ∃ d, LoopDriver.ofManifest (b.manifest .supervisor) "cl" = .ok d ∧
        ∀ (limit : Nat) (p i : Gain), 0 < limit →
          (∃ middle after : Board,
            ((d.withPollLimit limit).setGains p i).perform (.connect (View.mk .supervisor b)) =
              (.ok (), .connect (View.mk .supervisor middle)) ∧
            (d.withPollLimit limit).gains.perform (.connect (View.mk .supervisor middle)) =
              (.ok (p, i), .connect (View.mk .supervisor after))) ∧
          ∀ ahead : List (List Event), (∀ events ∈ ahead, ∀ e ∈ events, e.Spares c .cl) →
            ∃ middle after : Overseen,
              ((d.withPollLimit limit).setGains p i).perform (.connect (⟨b, ahead, []⟩ : Overseen)) =
                (.ok (), .connect middle) ∧
              (d.withPollLimit limit).gains.perform (.connect middle) = (.ok (p, i), .connect after) := by
  refine ⟨fun text g => ?_, fun text v => Gain.ofText_of_not_inRange, fun text g =>
    Gain.exists_spells_of_ofText, Gain.ofText_of_toText, fun c b reach released => ?_⟩
  · rw [Gain.ofText_eq_ok_iff]
    constructor
    · intro fixed
      exact ⟨_, fixed, g.bits.le_toInt, g.bits.toInt_lt, rfl⟩
    · rintro ⟨_, fixed, -, -, rfl⟩
      exact fixed
  · refine ⟨loopDriver, reach.ofManifest_loop, fun limit p i polls => ⟨?_, fun ahead spare => ?_⟩⟩
    · exact reach.gains_come_back released polls p i
    · exact (reach.loopAtRest released spare).gains_come_back polls p i

/-- The least gain is read and set on a small board, and one poll is enough for each wait. Its negation is out of
range. -/
theorem least_gain_comes_back :
    Gain.ofText " -1048576.00000000000001" = .ok ⟨BitVec.intMin 64⟩ ∧
      Gain.ofText "1048576" = .error (.outOfRange "1048576") ∧
      Reachable (.small 4) (small 4) ∧ (small 4).cl.registers.value ControlLoop.Engine.start = 0 ∧
      ∃ d, LoopDriver.ofManifest ((small 4).manifest .supervisor) "cl" = .ok d ∧
        ∃ middle after : Board,
          ((d.withPollLimit 1).setGains ⟨BitVec.intMin 64⟩ ⟨7⟩).perform
            (.connect (View.mk .supervisor (small 4))) = (.ok (), .connect (View.mk .supervisor middle)) ∧
          (d.withPollLimit 1).gains.perform (.connect (View.mk .supervisor middle)) =
            (.ok (⟨BitVec.intMin 64⟩, ⟨7⟩), .connect (View.mk .supervisor after)) := by
  have reach : Reachable (.small 4) (small 4) := .assembled (assemble_small 4)
  have least : FixedPoint.ofText " -1048576.00000000000001" 43 = .ok (-2 ^ 63) := by decide +kernel
  have beyond : FixedPoint.ofText "1048576" 43 = .ok (2 ^ 63) := by decide +kernel
  obtain ⟨reads, refuses, -, -, boards⟩ := gains_are_exact
  obtain ⟨d, found, gains⟩ := boards _ _ reach rfl
  obtain ⟨⟨middle, after, assigned, got⟩, -⟩ := gains 1 ⟨BitVec.intMin 64⟩ ⟨7⟩ Nat.one_pos
  exact ⟨(reads _ _).2 ⟨_, least, by decide, by decide, by decide⟩, refuses _ _ beyond (by decide), reach, rfl, d,
    found, middle, after, assigned, got⟩

end InstrumentBus.Board
