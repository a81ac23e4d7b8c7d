import InstrumentBus.Proofs.Word.Window
import InstrumentBus.Driver.Core
import InstrumentBus.Proofs.Board.Reach
import InstrumentBus.Proofs.Driver.Refusal
import InstrumentBus.Proofs.Driver.Transcript

/-!
# Loading a program on any transport

Whatever a transport answers, the accesses of a load come in one order: the core is asked whether it runs, it is
held in reset, the RAM is taken for the supervisor and confirmed, every byte is written once and read back once.
The load ends at the first access that fails or that delivers what it should not, so there is one case for each
place where it can end (`Stops`), and what its success and its errors mean is read off these cases
(`load_accounts_for_every_byte`).
-/

namespace InstrumentBus.CoreDriver

open Probe (Event Transcribes Faults transcribes_ofExcept transcribes_pure transcribes_throw)

variable {τ : Type} [Transport τ] {d : CoreDriver} {program : List Byte} {force : Bool} {e : DriverError}
  {events earlier later opening : List Event}

/-! ## Bytes in turn -/

/-- The address of a byte of a program that is stored from `origin` on. -/
def cell (origin : Addr) (i : Nat) : Addr :=
  origin + BitVec.ofNat 32 i

/-- Writes of bytes from an address on, all of which succeed. -/
def written (origin : Addr) (bytes : List Byte) : List Event :=
  bytes.mapIdx fun i b => .writeByte (cell origin i) b (.ok ())

/-- Reads of bytes from an address on, all of which deliver the bytes. -/
def confirmed (origin : Addr) (bytes : List Byte) : List Event :=
  bytes.mapIdx fun i b => .readByte (cell origin i) (.ok b)

theorem cell_zero (origin : Addr) : cell origin 0 = origin :=
  BitVec.add_zero origin

theorem cell_succ (origin : Addr) (i : Nat) : cell origin (i + 1) = cell (origin + 1) i := by
  rw [cell, cell, BitVec.ofNat_add]
  bv_omega

theorem toNat_cell {origin : Addr} {size i : Nat} (within : origin.toNat + size ≤ 2 ^ 32) (inside : i < size) :
    (cell origin i).toNat = origin.toNat + i :=
  Addr.toNat_add_ofNat within inside

theorem written_cons (origin : Addr) (b : Byte) (bytes : List Byte) :
    written origin (b :: bytes) = .writeByte origin b (.ok ()) :: written (origin + 1) bytes := by
  simp only [written, List.mapIdx_cons, cell_zero, cell_succ]

theorem confirmed_cons (origin : Addr) (b : Byte) (bytes : List Byte) :
    confirmed origin (b :: bytes) = .readByte origin (.ok b) :: confirmed (origin + 1) bytes := by
  simp only [confirmed, List.mapIdx_cons, cell_zero, cell_succ]

/-- Bytes are written in turn, up to the first write that fails. -/
theorem transcribes_writeBytes (origin : Addr) (bytes : List Byte) :
    Transcribes (τ := τ) (writeBytes origin bytes) (writeBytes origin bytes)
      (fun _ events => events = written origin bytes)
      fun e events => ∃ before b rest fault, bytes = before ++ b :: rest ∧ e = .fault fault ∧
        events = written origin before ++ [.writeByte (cell origin before.length) b (.error fault)] := by
  induction bytes generalizing origin with
  | nil => exact transcribes_pure rfl
  | cons b bytes ih =>
    refine ((Probe.transcribes_writeByte origin b).mono (fun _ _ made => made) ?_).bind fun _ _ first => ?_
    · rintro e events ⟨fault, rfl, rfl⟩
      exact ⟨[], b, bytes, fault, rfl, rfl, by rw [List.length_nil, cell_zero]; rfl⟩
    · subst first
      refine (ih (origin + 1)).mono ?_ ?_
      · rintro _ _ rfl
        rw [written_cons]
        rfl
      · rintro e _ ⟨before, b', rest, fault, rfl, rfl, rfl⟩
        refine ⟨b :: before, b', rest, fault, rfl, rfl, ?_⟩
        rw [written_cons, List.length_cons, cell_succ]
        rfl

/-- How a comparison ends at a byte: the read fails, or it delivers another byte. -/
inductive Differs (addr : Addr) (b : Byte) : DriverError → Except Fault Byte → Prop
  | fault (fault : Fault) : Differs addr b (.fault fault) (.error fault)
  | mismatch {read : Byte} : read ≠ b → Differs addr b (.verifyFailed addr b read) (.ok read)

/-- Bytes are compared in turn, up to the first that cannot be read or that differs. -/
theorem transcribes_verifyBytes (origin : Addr) (bytes : List Byte) :
    Transcribes (τ := τ) (verifyBytes origin bytes) (verifyBytes origin bytes)
      (fun _ events => events = confirmed origin bytes)
      fun e events => ∃ before b rest outcome, bytes = before ++ b :: rest ∧
        Differs (cell origin before.length) b e outcome ∧
        events = confirmed origin before ++ [.readByte (cell origin before.length) outcome] := by
  induction bytes generalizing origin with
  | nil => exact transcribes_pure rfl
  | cons b bytes ih =>
    have first {e : DriverError} {outcome : Except Fault Byte} (differs : Differs origin b e outcome) :
        ∃ before b' rest outcome', b :: bytes = before ++ b' :: rest ∧
          Differs (cell origin before.length) b' e outcome' ∧
          [.readByte origin outcome] =
            confirmed origin before ++ [.readByte (cell origin before.length) outcome'] := by
      refine ⟨[], b, bytes, outcome, rfl, ?_, ?_⟩
      · rwa [List.length_nil, cell_zero]
      · rw [List.length_nil, cell_zero]
        rfl
    refine ((Probe.transcribes_readByte origin).mono (fun _ _ made => made) ?_).bind fun read _ made => ?_
    · rintro e events ⟨fault, rfl, rfl⟩
      exact first (.fault fault)
    · subst made
      split
      · next same =>
        subst same
        refine (ih (origin + 1)).mono ?_ ?_
        · rintro _ _ rfl
          rw [confirmed_cons]
          rfl
        · rintro e _ ⟨before, b', rest, outcome, rfl, differs, rfl⟩
          refine ⟨read :: before, b', rest, outcome, rfl, ?_, ?_⟩
          · rwa [List.length_cons, cell_succ]
          · rw [confirmed_cons, List.length_cons, cell_succ]
            rfl
      · next other => exact transcribes_throw (first (.mismatch other))

/-! ## Before the first byte -/

/-- What a load does before it writes the first byte: it reads words, and it writes zero to `enable` and to the
selection in front of the RAM. -/
def Prepares (d : CoreDriver) : Event → Prop
  | .readWord _ _ => True
  | .writeWord addr w _ => w = 0 ∧ (addr = d.enableBit.addr ∨ addr = d.ram.selection.addr)
  | _ => False

/-- The core is put in reset, and the RAM is taken for the supervisor and confirmed. -/
inductive Takes (d : CoreDriver) : List Event → Prop
  | intro {w : Word} : (w &&& widthMask d.ram.selection.width).toNat = supervisorIndex →
    Takes d [.writeWord d.enableBit.addr 0 (.ok ()), .writeWord d.ram.selection.addr 0 (.ok ()),
      .readWord d.ram.selection.addr (.ok w)]

/-- What comes before the first byte: unless the load is forced, the core is found at rest; then the RAM is
taken. -/
inductive Opening (d : CoreDriver) : Bool → List Event → Prop
  | forced {events : List Event} : Takes d events → Opening d true events
  | asked {v : Word} {events : List Event} : v &&& widthMask d.enableBit.width ≠ 1 → Takes d events →
    Opening d false (.readWord d.enableBit.addr (.ok v) :: events)

/-- A load ends before it writes the first byte. -/
structure EndsEarly (d : CoreDriver) (e : DriverError) (events : List Event) : Prop where
  prepares : ∀ event ∈ events, d.Prepares event
  other : ∀ addr expected read, e ≠ .verifyFailed addr expected read

theorem Takes.prepares (takes : d.Takes events) : ∀ event ∈ events, d.Prepares event := by
  cases takes with
  | intro _ => simp [Prepares]

theorem Opening.prepares (begins : d.Opening force opening) : ∀ event ∈ opening, d.Prepares event := by
  cases begins with
  | forced takes => exact takes.prepares
  | asked _ takes => exact List.forall_mem_cons.2 ⟨trivial, takes.prepares⟩

theorem EndsEarly.append (ends : d.EndsEarly e later) (prepares : ∀ event ∈ earlier, d.Prepares event) :
    d.EndsEarly e (earlier ++ later) :=
  ⟨fun event present => (List.mem_append.1 present).elim (prepares event) (ends.prepares event), ends.other⟩

/-- A read of a word that fails ends the load early. -/
theorem endsEarly_of_faults {addr : Addr} (faults : Faults (.readWord addr) e events) :
    d.EndsEarly e events := by
  obtain ⟨fault, rfl, rfl⟩ := faults
  exact ⟨List.forall_mem_singleton.2 trivial, fun _ _ _ same => nomatch same⟩

/-- A write of zero to one of the two registers of the opening. -/
theorem transcribes_clear {ref : RegisterRef}
    (place : ref.addr = d.enableBit.addr ∨ ref.addr = d.ram.selection.addr) :
    Transcribes (τ := τ) (ref.set 0) (ref.set 0) (fun _ events => events = [.writeWord ref.addr 0 (.ok ())])
      d.EndsEarly := by
  have zero : (0 : Word) &&& widthMask ref.width = 0 := BitVec.zero_and
  refine (Probe.transcribes_set ref 0).mono (fun _ _ made => zero ▸ made) ?_
  rintro e events (⟨refused, rfl⟩ | ⟨fault, rfl, rfl⟩)
  · refine ⟨(fun _ none => nomatch none), fun addr expected read same => ?_⟩
    subst same
    unfold RegisterRef.checkWritable at refused
    split at refused
    · cases refused
    · split at refused <;> cases refused
  · exact ⟨List.forall_mem_singleton.2 ⟨zero, place⟩, fun _ _ _ same => nomatch same⟩

/-- The RAM is taken for the supervisor and confirmed, or the load ends there. -/
theorem transcribes_connect :
    Transcribes (τ := τ) (d.ram.connect supervisorIndex) (d.ram.connect supervisorIndex)
      (fun _ events => ∃ w, (w &&& widthMask d.ram.selection.width).toNat = supervisorIndex ∧
        events = [.writeWord d.ram.selection.addr 0 (.ok ()), .readWord d.ram.selection.addr (.ok w)])
      d.EndsEarly := by
  have prepares : ∀ event ∈ [Event.writeWord d.ram.selection.addr 0 (.ok ())], d.Prepares event :=
    List.forall_mem_singleton.2 ⟨rfl, .inr rfl⟩
  unfold Arbiter.connect
  rw [if_neg (by decide)]
  refine (transcribes_clear (.inr rfl)).bind fun _ _ made => ?_
  subst made
  have reads : Transcribes (τ := τ) d.ram.owner d.ram.owner
      (fun owner events => ∃ w, owner = (w &&& widthMask d.ram.selection.width).toNat ∧
        events = [.readWord d.ram.selection.addr (.ok w)]) d.EndsEarly := by
    refine ((Probe.transcribes_get d.ram.selection).mono (fun _ _ made => made)
      fun _ _ => endsEarly_of_faults).bind fun _ _ made => transcribes_pure ?_
    obtain ⟨w, rfl, rfl⟩ := made
    exact ⟨w, rfl, rfl⟩
  refine (reads.mono (fun _ _ made => made) fun _ _ ends => ends.append prepares).bind fun owner _ made => ?_
  obtain ⟨w, rfl, rfl⟩ := made
  split
  · next connected => exact transcribes_pure ⟨w, connected, rfl⟩
  · refine transcribes_throw ⟨fun event present => ?_, fun _ _ _ same => nomatch same⟩
    rcases List.mem_append.1 present with first | second
    · exact prepares event first
    · exact List.mem_singleton.1 second ▸ trivial

/-! ## Whole loads -/

/-- A load that succeeds: after the opening every byte is written once, and then every byte is read back. -/
def Succeeds (d : CoreDriver) (program : List Byte) (force : Bool) (events : List Event) : Prop :=
  ∃ opening, d.Opening force opening ∧
    events = opening ++ written d.ramOrigin program ++ confirmed d.ramOrigin program

/-- The places at which a load can stop: in the opening, at a write of a byte that fails, or at the first byte
that cannot be read back or that differs. -/
inductive Stops (d : CoreDriver) (program : List Byte) (force : Bool) : DriverError → List Event → Prop
  | early {e : DriverError} {events : List Event} : d.EndsEarly e events → Stops d program force e events
  | writing {opening : List Event} {before rest : List Byte} {b : Byte} {fault : Fault} :
    d.Opening force opening → program = before ++ b :: rest →
    Stops d program force (.fault fault) (opening ++ (written d.ramOrigin before ++
      [.writeByte (cell d.ramOrigin before.length) b (.error fault)]))
  | comparing {opening : List Event} {before rest : List Byte} {b : Byte} {e : DriverError}
    {outcome : Except Fault Byte} :
    d.Opening force opening → program = before ++ b :: rest →
    Differs (cell d.ramOrigin before.length) b e outcome →
    Stops d program force e (opening ++ (written d.ramOrigin program ++ (confirmed d.ramOrigin before ++
      [.readByte (cell d.ramOrigin before.length) outcome])))

/-- What a load does to a core that does not run: it takes the RAM, writes the program and compares it. -/
def fill (d : CoreDriver) (program : List Byte) : Action τ Unit := do
  d.enableBit.set 0
  let _ ← d.ram.connect supervisorIndex
  writeBytes d.ramOrigin program
  verifyBytes d.ramOrigin program

theorem load_of_fits (fits : program.length ≤ d.ramSize) (force : Bool) :
    (d.load program force : Action (Link τ) Unit) = Link.locked (
      if force = true then d.fill program
      else d.enableBit.reads 1 >>= fun running =>
        if running = true then throw (.running d.name) else d.fill program) := by
  unfold load
  rw [if_neg (Nat.not_lt.2 fits)]
  cases force with
  | true => rfl
  | false =>
    -- a load that refuses a running core does not get to the rest
    have refuses (running : Bool) : (if running = true then throw (.running d.name) >>= fun (_ : Unit) => d.fill program
        else d.fill program : Action τ Unit) = if running = true then throw (.running d.name) else d.fill program := by
      cases running <;> rfl
    exact congrArg Link.locked (congrArg (d.enableBit.reads 1 >>= ·) (funext refuses))

theorem transcribes_fill {asked : List Event} (opens : ∀ events, d.Takes events → d.Opening force (asked ++ events))
    (prepares : ∀ event ∈ asked, d.Prepares event) :
    Transcribes (τ := τ) (d.fill program) (d.fill program)
      (fun _ events => d.Succeeds program force (asked ++ events))
      fun e events => Stops d program force e (asked ++ events) := by
  refine ((transcribes_clear (.inl rfl)).mono (fun _ _ made => made) fun _ _ ends =>
    .early (ends.append prepares)).bind fun _ _ made => ?_
  subst made
  have cleared : d.Prepares (.writeWord d.enableBit.addr 0 (.ok ())) := ⟨rfl, .inl rfl⟩
  refine (transcribes_connect.mono (fun _ _ made => made) fun e events ends => ?_).bind fun g _ made => ?_
  · refine .early ((ends.append (List.forall_mem_singleton.2 cleared)).append prepares)
  obtain ⟨w, connected, rfl⟩ := made
  have begins := opens _ (.intro connected)
  refine ((transcribes_writeBytes d.ramOrigin program).mono (fun _ _ made => made) ?_).bind fun _ _ made => ?_
  · rintro e _ ⟨before, b, rest, fault, parts, rfl, rfl⟩
    have stops : Stops d program force (.fault fault) _ := .writing begins parts
    rw [List.append_assoc] at stops
    exact stops
  · subst made
    refine (transcribes_verifyBytes d.ramOrigin program).mono ?_ ?_
    · rintro _ _ rfl
      refine ⟨_, begins, ?_⟩
      simp only [List.append_assoc]
      rfl
    · rintro e _ ⟨before, b, rest, outcome, parts, differs, rfl⟩
      have stops := Stops.comparing begins parts differs
      rw [List.append_assoc] at stops
      exact stops

/-- A load of a program that fits, under the lock. -/
theorem transcribes_load (force : Bool) :
    Transcribes (τ := τ)
      (if force = true then d.fill program
        else d.enableBit.reads 1 >>= fun running =>
          if running = true then throw (.running d.name) else d.fill program)
      (if force = true then d.fill program
        else d.enableBit.reads 1 >>= fun running =>
          if running = true then throw (.running d.name) else d.fill program)
      (fun _ events => d.Succeeds program force events) (Stops d program force) := by
  cases force with
  | true => exact transcribes_fill (fun _ => .forced) (List.forall_mem_nil _)
  | false =>
    have asks : Transcribes (τ := τ) (d.enableBit.reads 1) (d.enableBit.reads 1)
        (fun running events => ∃ v, running = (v &&& widthMask d.enableBit.width == 1) ∧
          events = [.readWord d.enableBit.addr (.ok v)])
        (Stops d program false) := by
      refine ((Probe.transcribes_get d.enableBit).mono (fun _ _ made => made)
        fun _ _ faults => .early (endsEarly_of_faults faults)).bind fun _ _ made => transcribes_pure ?_
      obtain ⟨v, rfl, rfl⟩ := made
      exact ⟨v, rfl, rfl⟩
    refine asks.bind fun running _ made => ?_
    obtain ⟨v, rfl, rfl⟩ := made
    split
    · refine transcribes_throw (.early ⟨List.forall_mem_singleton.2 trivial, fun _ _ _ same => nomatch same⟩)
    · next rests =>
      have reset : v &&& widthMask d.enableBit.width ≠ 1 := fun runs => rests (beq_iff_eq.2 runs)
      exact transcribes_fill (fun _ => .asked reset) (List.forall_mem_singleton.2 trivial)

/-- An access that moves a byte of the program between the driver and the RAM. -/
def Moves (d : CoreDriver) (program : List Byte) : Event → Prop
  | .writeByte addr b _ => ∃ i : Nat, program[i]? = some b ∧ addr = cell d.ramOrigin i
  | .readByte addr _ => ∃ i < program.length, addr = cell d.ramOrigin i
  | _ => False

/-- What the result of a load and the accesses that it made say about each other. -/
structure Accounts (d : CoreDriver) (program : List Byte) (force : Bool) (result : Except DriverError Unit)
    (record : List Event) : Prop where
  /-- A load that succeeds wrote every byte once, in order, and then read every byte back. -/
  loaded : result = .ok () → d.Succeeds program force record
  /-- A load that fails to verify wrote every byte, read back those before the one that it names, and found
  another byte there. -/
  differed : ∀ addr expected read, result = .error (.verifyFailed addr expected read) →
    ∃ opening before rest, d.Opening force opening ∧ program = before ++ expected :: rest ∧
      addr = cell d.ramOrigin before.length ∧ read ≠ expected ∧
      record = opening ++ (written d.ramOrigin program ++ (confirmed d.ramOrigin before ++
        [.readByte addr (.ok read)]))
  /-- Words are written to `enable` and to the selection only, and these are zero. -/
  words : ∀ addr w outcome, .writeWord addr w outcome ∈ record →
    w = 0 ∧ (addr = d.enableBit.addr ∨ addr = d.ram.selection.addr)
  /-- A byte that is written is a byte of the program, in its place, and the opening comes before it. -/
  bytes : ∀ earlier addr b outcome later, record = earlier ++ .writeByte addr b outcome :: later →
    (∃ i : Nat, program[i]? = some b ∧ addr = cell d.ramOrigin i) ∧
      ∃ opening, d.Opening force opening ∧ opening <+: earlier

/-- The accesses of a load: some that prepare it, or an opening and then accesses that move the program. -/
def Parts (d : CoreDriver) (program : List Byte) (force : Bool) (record : List Event) : Prop :=
  (∀ event ∈ record, d.Prepares event) ∨
    ∃ opening moved, d.Opening force opening ∧ record = opening ++ moved ∧ ∀ event ∈ moved, d.Moves program event

theorem moves_written {before rest : List Byte} (parts : program = before ++ rest) :
    ∀ event ∈ written d.ramOrigin before, d.Moves program event := by
  intro event present
  obtain ⟨i, inside, rfl⟩ := List.mem_mapIdx.1 present
  refine ⟨i, ?_, rfl⟩
  rw [parts, List.getElem?_append_left inside, List.getElem?_eq_getElem inside]

theorem moves_confirmed {before rest : List Byte} (parts : program = before ++ rest) :
    ∀ event ∈ confirmed d.ramOrigin before, d.Moves program event := by
  intro event present
  obtain ⟨i, inside, rfl⟩ := List.mem_mapIdx.1 present
  refine ⟨i, ?_, rfl⟩
  rw [parts, List.length_append]
  omega

theorem Succeeds.parts (succeeds : d.Succeeds program force events) : d.Parts program force events := by
  obtain ⟨opening, begins, rfl⟩ := succeeds
  have whole : program = program ++ [] := (List.append_nil program).symm
  refine .inr ⟨opening, _, begins, List.append_assoc .., fun event present => ?_⟩
  exact (List.mem_append.1 present).elim (moves_written whole event) (moves_confirmed whole event)

theorem Stops.parts (stops : Stops d program force e events) : d.Parts program force events := by
  have here {before rest : List Byte} {b : Byte} (parts : program = before ++ b :: rest) :
      program[before.length]? = some b ∧ before.length < program.length := by
    subst parts
    simp
  cases stops with
  | early ends => exact .inl ends.prepares
  | writing begins parts =>
    refine .inr ⟨_, _, begins, rfl, fun event present => ?_⟩
    rcases List.mem_append.1 present with first | last
    · exact moves_written parts event first
    · rw [List.mem_singleton.1 last]
      exact ⟨_, (here parts).1, rfl⟩
  | comparing begins parts differs =>
    have whole : program = program ++ [] := (List.append_nil program).symm
    refine .inr ⟨_, _, begins, rfl, fun event present => ?_⟩
    rcases List.mem_append.1 present with first | later
    · exact moves_written whole event first
    rcases List.mem_append.1 later with second | last
    · exact moves_confirmed parts event second
    · rw [List.mem_singleton.1 last]
      exact ⟨_, (here parts).2, rfl⟩

/-- Only zeros are written as words, and no byte is written before the opening is made. -/
theorem Parts.accounts {result : Except DriverError Unit} {record : List Event}
    (parts : d.Parts program force record) (loaded : result = .ok () → d.Succeeds program force record)
    (failed : ∀ e, result = .error e → Stops d program force e record) :
    d.Accounts program force result record := by
  refine ⟨loaded, fun addr expected read mismatch => ?_, fun addr w outcome present => ?_, ?_⟩
  · cases failed _ mismatch with
    | early ends => exact absurd rfl (ends.other addr expected read)
    | comparing begins here differs =>
      cases differs with
      | mismatch other => exact ⟨_, _, _, begins, here, rfl, other, rfl⟩
  · rcases parts with prepares | ⟨opening, moved, begins, rfl, moves⟩
    · exact prepares _ present
    · rcases List.mem_append.1 present with first | second
      · exact begins.prepares _ first
      · exact (moves _ second).elim
  · intro earlier addr b outcome later split
    rcases parts with prepares | ⟨opening, moved, begins, rfl, moves⟩
    · refine (prepares (.writeByte addr b outcome) ?_).elim
      rw [split]
      simp
    · rcases List.append_eq_append_iff.1 split with ⟨between, rfl, rest⟩ | ⟨between, rfl, rest⟩
      · refine ⟨moves (.writeByte addr b outcome) ?_, opening, begins, List.prefix_append ..⟩
        rw [rest]
        simp
      · cases between with
        | nil =>
          refine ⟨moves (.writeByte addr b outcome) ?_, _, begins, by simp⟩
          rw [← List.nil_append moved, ← rest]
          exact .head _
        | cons event between =>
          obtain ⟨rfl, -⟩ := List.cons.inj rest
          exact (begins.prepares (.writeByte addr b outcome) (by simp)).elim

/-- A core that runs is found by one read, which ends the load. -/
theorem perform_load_of_running (fits : program.length ≤ d.ramSize) {t after : τ} {w : Word}
    (asked : Transport.readWord t d.enableBit.addr = (.ok w, after))
    (runs : w &&& widthMask d.enableBit.width = 1) :
    (d.load program false).perform (.connect t) = (.error (.running d.name), .connect after) := by
  have enabled : (d.enableBit.reads 1).perform t = (.ok true, after) := by
    refine (Action.perform_bind_of_ok (RegisterRef.perform_get_of_readWord asked) _).trans ?_
    rw [runs]
    rfl
  rw [load_of_fits fits, Link.perform_locked]
  exact congrArg (Prod.map id Link.connect) (Action.perform_bind_of_ok enabled _)

theorem accounts_load (fits : program.length ≤ d.ramSize) (force : Bool) (t : τ) :
    ∃ (result : Except DriverError Unit) (p : Probe τ),
      (d.load program force).perform (.connect (Probe.attach t)) = (result, .connect p) ∧
      (d.load program force).perform (.connect t) = (result, .connect p.bus) ∧
      d.Accounts program force result p.record := by
  obtain ⟨p, events, -, record, ends⟩ := transcribes_load force (Probe.attach t) (Probe.watches_attach t)
  obtain rfl : p.record = events := record
  rw [load_of_fits fits, load_of_fits fits, Link.perform_locked, Link.perform_locked]
  rcases ends with ⟨_, watched, bare, succeeds⟩ | ⟨e, watched, bare, stops⟩
  · refine ⟨.ok (), p, congrArg (Prod.map id Link.connect) watched, congrArg (Prod.map id Link.connect) bare,
      succeeds.parts.accounts (fun _ => succeeds) fun _ impossible => ?_⟩
    cases impossible
  · refine ⟨.error e, p, congrArg (Prod.map id Link.connect) watched, congrArg (Prod.map id Link.connect) bare,
      stops.parts.accounts (fun impossible => ?_) fun _ same => ?_⟩
    · cases impossible
    · cases same
      exact stops

/-- A program that is too long is refused without any access, whatever became of the link. A core that runs is
left alone after the one read that finds it. Any other load makes its accesses in one order, which a probe in
between sees without a change to it: if the load succeeds, every byte was written once to its place and read
back there; if it fails to verify, it names the first byte that differs; and however it ends, no byte is written
before the core was put in reset and the RAM confirmed for the supervisor, and no word but zero at all. -/
theorem load_accounts_for_every_byte (d : CoreDriver) (within : d.ramOrigin.toNat + d.ramSize ≤ 2 ^ 32)
    (program : List Byte) :
    (d.ramSize < program.length → ∀ (force : Bool) (l : Link τ),
      (d.load program force).perform l = (.error (.tooLarge program.length d.ramSize), l)) ∧
    (program.length ≤ d.ramSize →
      (∀ i < program.length, (cell d.ramOrigin i).toNat = d.ramOrigin.toNat + i) ∧
      (∀ (t after : τ) (w : Word), Transport.readWord t d.enableBit.addr = (.ok w, after) →
        w &&& widthMask d.enableBit.width = 1 →
        (d.load program false).perform (.connect t) = (.error (.running d.name), .connect after) ∧
        ∃ p : Probe τ, (d.load program false).perform (.connect (Probe.attach t)) =
            (.error (.running d.name), .connect p) ∧
          p.record = [.readWord d.enableBit.addr (.ok w)]) ∧
      ∀ (force : Bool) (t : τ), ∃ (result : Except DriverError Unit) (p : Probe τ),
        (d.load program force).perform (.connect (Probe.attach t)) = (result, .connect p) ∧
        (d.load program force).perform (.connect t) = (result, .connect p.bus) ∧
        d.Accounts program force result p.record) := by
  refine ⟨fun long force l => ?_, fun fits => ⟨fun i inside => ?_, fun t after w asked runs => ?_,
    accounts_load fits⟩⟩
  · rw [load, if_pos long]
    rfl
  · exact toNat_cell within (Nat.lt_of_lt_of_le inside fits)
  · let p : Probe τ := { Probe.attach after with events := [.readWord d.enableBit.addr (.ok w)] }
    have probed : Transport.readWord (Probe.attach t) d.enableBit.addr = (.ok w, p) := by
      rw [Probe.readWord_attach, asked]
    exact ⟨perform_load_of_running fits asked runs, p, perform_load_of_running fits probed runs, rfl⟩

/-- On a small board a program of one byte is loaded with one write and one read of it, and one of five bytes
is refused. -/
theorem one_byte_on_small_board :
    let bit : RegisterRef := ⟨"pico0.enable", 0x5000, 1, .readWrite, .supervisor⟩
    let selection : RegisterRef := ⟨"pico0_ram_pi.master_select", 0x220C, 1, .readWrite, .supervisor⟩
    let d : CoreDriver := ⟨"pico0", ⟨0, "pico0_ram", selection⟩, 0x6000, 4, 1, bit, bit, bit, bit, bit, bit, []⟩
    let t := Board.View.mk .supervisor (Board.small 4)
    d.ramOrigin.toNat + d.ramSize ≤ 2 ^ 32 ∧
      (d.load [1, 2, 3, 4, 5] true).perform (.connect t) = (.error (.tooLarge 5 4), .connect t) ∧
      ∃ (p : Probe Board.View) (opening : List Event),
        (d.load [7] false).perform (.connect (Probe.attach t)) = (.ok (), .connect p) ∧
        d.Opening false opening ∧
        p.record = opening ++ [.writeByte 0x6000 7 (.ok ()), .readByte 0x6000 (.ok 7)] := by
  intro bit selection d t
  have within : d.ramOrigin.toNat + d.ramSize ≤ 2 ^ 32 := by decide
  obtain ⟨-, loads⟩ := load_accounts_for_every_byte (τ := Board.View) d within [7]
  obtain ⟨result, p, watched, bare, accounts⟩ := (loads (by decide)).2.2 false t
  have succeeds : ((d.load [7] false).perform (.connect t)).1 = .ok () := by decide +kernel
  obtain rfl : result = .ok () := by rw [← succeeds, bare]
  obtain ⟨opening, begins, record⟩ := accounts.loaded rfl
  refine ⟨within, (load_accounts_for_every_byte d within [1, 2, 3, 4, 5]).1 (by decide) true _,
    p, opening, watched, begins, ?_⟩
  rw [record, List.append_assoc]
  rfl

end InstrumentBus.CoreDriver
