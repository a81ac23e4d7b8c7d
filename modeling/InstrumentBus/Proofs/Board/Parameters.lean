import InstrumentBus.Proofs.Board.Registers
import InstrumentBus.Proofs.Driver.Register

/-!
# The parameters of the control loop

Both processors reach the control loop's parameters, each through an address map of its own, and a driver
of either side checks a write before it makes one. `parameters_written_and_read_alike` says that the driver
and the register file of the board never disagree about such a write, and what a driver reads is what the
register file holds.
-/

namespace InstrumentBus.Board

open AddressMap

variable {c : Config} {b : Board} {side : Side} {i : Nat} {f : Field}

/-- Where a processor sees the parameters. -/
def paramsOrigin : Side → Addr
  | .supervisor => 0x7000
  | .coprocessor => 0x100000

/-- The region of the parameters, as a processor sees it. -/
def paramsRegion (side : Side) : AddressMap.Region Block :=
  .ofLayout "cl_params" (paramsOrigin side) paramsLayout .clParams

theorem Reachable.holds_params (reach : Reachable c b) (side : Side)
    (found : paramsLayout.fields[i]? = some f) :
    HoldsRegister (b.map side) (paramsRegion side) paramsLayout i f := by
  refine ⟨?_, rfl, found⟩
  rw [reach.mem_map]
  cases side with
  | supervisor => simp [regionsOf, supervisorRegions, paramsRegion, paramsOrigin]
  | coprocessor => simp [regionsOf, coprocessorRegions, paramsRegion, paramsOrigin]

/-- Either processor reaches the parameters as itself. -/
theorem transact?_clParams (b : Board) (side : Side) (req : Request) :
    b.transact? side .clParams req =
      some ((b.clParams.transactFrom side req).map id fun r => { b with clParams := r }) := by
  cases side with
  | supervisor => rfl
  | coprocessor => rfl

/-- The board moves one step on before the transaction, and that leaves the parameters alone. -/
theorem Reachable.carries_params (reach : Reachable c b) (side : Side)
    (found : paramsLayout.fields[i]? = some f) :
    Transport.Carries (View.mk side b) (paramsOrigin side + Layout.offset i) side b.clParams
      (Layout.offset i) fun r => View.mk side { b.tick with clParams := r } := by
  have here := reach.holds_params side found
  constructor
  · obtain ⟨answered, result, outcome⟩ := reach.readWord_register here
    rw [show (paramsRegion side).owner = .clParams from rfl, transact?_clParams] at result
    cases result
    exact outcome
  · intro w
    obtain ⟨answered, result, outcome⟩ := reach.writeWord_register here w
    rw [show (paramsRegion side).owner = .clParams from rfl, transact?_clParams] at result
    cases result
    exact outcome

theorem fits_params (r : RegisterFile paramsLayout) : r.Fits :=
  RegisterFile.fits_of_wide (by decide) r

/-- A processor resolves every parameter from its own manifest. Its driver sets the parameter just if the
register file grants the write, leaves what the write leaves, refuses for the same reason and then without
any access, and gets what the register file reads. The same holds of every register of every register file
with any history, on every transport that carries its accesses there: the two checks and the two masks
agree. -/
theorem parameters_written_and_read_alike (reach : Reachable c b) :
    (∀ (side : Side) (i : Nat) (f : Field), paramsLayout.fields[i]? = some f →
      ∃ ref, RegisterRef.resolve (b.manifest side) "cl_params" f.name = .ok ref ∧
        (ref.onSide side).ActsOn (View.mk side b) b.clParams (Layout.offset i) fun r =>
          View.mk side { b.tick with clParams := r }) ∧
    ∀ (layout : Layout) (history : List RegisterFile.Op) (ref : RegisterRef) (offset : Addr)
      (i : Nat) (f : Field), ref.Describes layout offset i f →
      ref.AgreesWith ((RegisterFile.zero layout).run history) offset ∧
      ∀ (τ : Type) [Transport τ] (t : τ) (around : RegisterFile layout → τ),
        Transport.Carries t ref.addr ref.side ((RegisterFile.zero layout).run history) offset
          around →
        ref.ActsOn t ((RegisterFile.zero layout).run history) offset around := by
  constructor
  · intro side i f found
    refine ⟨_, reach.resolve_register (reach.holds_params side found), ?_⟩
    have sound : paramsLayout.Sound := by decide
    have inside : i < paramsLayout.count := (Array.getElem?_eq_some_iff.1 found).1
    exact (reach.carries_params side found).actsOn
      ⟨sound.indexAt?_offset inside, found, rfl, rfl⟩ (fits_params b.clParams)
  · intro layout history ref offset i f describes
    have fits := RegisterFile.run_fits layout history
    exact ⟨RegisterRef.agreesWith_of_describes describes fits,
      fun τ _ t around carries => carries.actsOn describes fits⟩

/-- On the usual board at reset a driver of the supervisor sets the setpoint; one of the co-processor is
refused on any transport, and acts on the position instead. A register of 8 bits that the hardware drove
with 300 is checked alike too. -/
theorem only_supervisor_sets_setpoint : ∃ b, Reachable .standard b ∧
    (∃ ref after, RegisterRef.resolve (b.manifest .supervisor) "cl_params" "setpt" = .ok ref ∧
      b.clParams.write (Layout.offset 3) 7 .supervisor = .ok after ∧
      ((ref.onSide .supervisor).set 7).perform (View.mk .supervisor b) =
        (.ok (), View.mk .supervisor { b.tick with clParams := after })) ∧
    (∃ ref e, RegisterRef.resolve (b.manifest .coprocessor) "cl_params" "setpt" = .ok ref ∧
      ∀ (τ : Type) [Transport τ] (t : τ), ((ref.onSide .coprocessor).set 7).perform t =
        (.error e, t)) ∧
    (RegisterRef.mk "cl_params.zpos" 0x100014 32 (.ownedBy .coprocessor) .coprocessor).ActsOn
      (View.mk .coprocessor b) (RegisterFile.zero paramsLayout) (Layout.offset 5)
      (fun r => View.mk .coprocessor { b.tick with clParams := r }) ∧
    (RegisterRef.mk "bank.gain" 0 8 .readWrite .coprocessor).AgreesWith
      ((RegisterFile.zero ⟨#[⟨"gain", 8, .readWrite⟩]⟩).run [.drive 0 300]) 0 := by
  obtain ⟨b, assembled⟩ := assemble_standard
  have reach : Reachable .standard b := .assembled assembled
  obtain ⟨parameters, registers⟩ := parameters_written_and_read_alike reach
  have setpoint : paramsLayout.fields[3]? = some ⟨"setpt", 32, .ownedBy .supervisor⟩ := rfl
  have position : paramsLayout.fields[5]? = some ⟨"zpos", 32, .ownedBy .coprocessor⟩ := rfl
  have leads : paramsLayout.indexAt? (Layout.offset 3) = some 3 := by decide
  refine ⟨b, reach, ?_, ?_, ?_, ?_⟩
  · obtain ⟨ref, resolved, acts⟩ := parameters .supervisor 3 _ setpoint
    have granted : (Access.ownedBy .supervisor).writableBy .supervisor = true := by decide
    obtain ⟨after, written, -⟩ := b.clParams.write_eq_ok leads setpoint 7 granted
    exact ⟨ref, after, resolved, written, acts.set_granted 7 after written⟩
  · obtain ⟨ref, resolved, acts⟩ := parameters .coprocessor 3 _ setpoint
    have refused : (Access.ownedBy .supervisor).writableBy .coprocessor = false := by decide
    obtain ⟨e, -, performed⟩ :=
      acts.set_refused 7 _ (b.clParams.write_eq_error leads setpoint 7 refused)
    exact ⟨ref, e, resolved, performed⟩
  · obtain ⟨-, carried⟩ := registers paramsLayout []
      (RegisterRef.mk "cl_params.zpos" 0x100014 32 (.ownedBy .coprocessor) .coprocessor)
      (Layout.offset 5) 5 _ ⟨by decide, position, rfl, rfl⟩
    have atReset : b.clParams = RegisterFile.zero paramsLayout := by
      obtain ⟨_, _, _, _, _, rfl⟩ := assemble_eq_ok_iff.1 assembled
      rfl
    have carries := reach.carries_params .coprocessor position
    rw [atReset] at carries
    exact carried Board.View (View.mk .coprocessor b) _ carries
  · obtain ⟨agrees, -⟩ := registers ⟨#[⟨"gain", 8, .readWrite⟩]⟩ [.drive 0 300]
      (RegisterRef.mk "bank.gain" 0 8 .readWrite .coprocessor) 0 0 ⟨"gain", 8, .readWrite⟩
      ⟨by decide, rfl, rfl, rfl⟩
    exact agrees

end InstrumentBus.Board
