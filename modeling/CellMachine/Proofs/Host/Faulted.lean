import CellMachine.Peripheral.Console
import CellMachine.Proofs.Faults
import CellMachine.Proofs.Host.Runs
import CellMachine.Proofs.Host.Turns

/-!
# Executions that end with an error

`Host.fault_is_precise`: an execution that reports an error has left the pools as the instructions
before the failing one did, if the host functions leave the pools and the control block alone and no
other run is under way. Streams, gates and the time may change in every call.

`Execution.Completes` lets the host answer as it likes. What a host does answer depends on where it
stands, and every call moves it on; `Host.Completes` follows the host along with the execution, and
the reply to each call is what that host gives (`Host.replies`).
-/

namespace CellMachine

open Processor

/-- An effect that touches neither pools nor control blocks. -/
def Effect.Gentle : Effect → Prop
  | .deed (.print _ _) | .sleep _ | .wait _ => True
  | .deed _ => False

namespace Host

variable {h h' h'' : Host} {p : Nat} {q : Process}

/-- A process whose host functions are gentle, on a host without other runs under way. -/
structure Undisturbed (h : Host) (p : Nat) (q : Process) : Prop where
  process : h.processes[p]? = some q
  idle : ∀ (r : Nat) run, h.runs[r]? = some run → run.activity = .finished
  gentle : ∀ m parts, q.machine = some m → h.machines[m]?.bind (·.parts) = some parts →
    ∀ id f, parts.firmware.function? id = some f →
      ∀ args, ∀ e ∈ (f ⟨q.id, args⟩).effects, e.Gentle

/-- Only time, streams and gates may differ. -/
structure Idles (h h' : Host) : Prop where
  store : h'.store = h.store
  machines : h'.machines = h.machines
  processes : h'.processes = h.processes
  runs : h'.runs = h.runs
  now : h.now ≤ h'.now

theorem Idles.refl (h : Host) : Idles h h := ⟨rfl, rfl, rfl, rfl, Nat.le_refl _⟩

theorem Idles.trans (hi : Idles h h') (hi' : Idles h' h'') : Idles h h'' :=
  ⟨hi'.store.trans hi.store, hi'.machines.trans hi.machines, hi'.processes.trans hi.processes,
    hi'.runs.trans hi.runs, Nat.le_trans hi.now hi'.now⟩

theorem Idles.bind {α β : Type} {work : HostM α} {rest : α → HostM β}
    (hwork : Idles h (after work h))
    (hrest : ∀ a h', work.run h = .ok a h' → Idles h' (after (rest a) h')) :
    Idles h (after (work >>= rest) h) :=
  after_bind_rel Idles.trans hwork hrest

theorem Undisturbed.idles (hu : Undisturbed h p q) (hi : Idles h h') : Undisturbed h' p q :=
  ⟨hi.processes ▸ hu.process, hi.runs ▸ hu.idle, hi.machines ▸ hu.gentle⟩

theorem Undisturbed.during (hu : Undisturbed h p q) (s : Store) (now : Nat) :
    Undisturbed (h.during s now) p q :=
  ⟨hu.process, hu.idle, hu.gentle⟩

theorem Undisturbed.withControl (hu : Undisturbed h p q) (c : Control) :
    Undisturbed (h.withControl p c) p { q with control := c } :=
  ⟨process_withControl hu.process c, hu.idle, hu.gentle⟩

/-! ## What goes on meanwhile -/

/-- Runs that are over do nothing. -/
theorem round_of_idle (hidle : ∀ (r : Nat) run, h.runs[r]? = some run → run.activity = .finished)
    (n : Nat) : (round n).run h = .ok false h := by
  have hslice (r : Nat) : (slice r).run h = .ok false h := by
    rw [slice, run_bind_ok (EStateM.run_get h)]
    cases hrun : h.runs[r]? with
    | none => rfl
    | some run =>
      dsimp only
      rw [hidle r run hrun]
      rfl
  induction n with
  | zero => rfl
  | succ n ih =>
    rw [round, run_bind_ok ih, run_bind_ok (hslice n)]
    rfl

theorem idles_later (h : Host) (t : Nat) : Idles h { h with now := max h.now t } :=
  ⟨rfl, rfl, rfl, rfl, Nat.le_max_left ..⟩

theorem idles_waitUntil (hidle : ∀ (r : Nat) run, h.runs[r]? = some run → run.activity = .finished)
    (enough : Host → Bool) (deadline : Option Nat) (fuel : Nat) :
    Idles h (after (waitUntil enough deadline fuel) h) := by
  induction fuel generalizing h with
  | zero => exact .refl h
  | succ fuel ih =>
    rw [waitUntil, after_get_bind]
    split
    · exact .refl h
    · split
      · exact .refl h
      · rw [after_bind, round_of_idle hidle]
        dsimp only
        rw [if_neg Bool.false_ne_true, after_get_bind]
        split
        · exact (idles_later h _).trans (ih hidle)
        · exact (idles_later h _).trans (ih hidle)
        · exact idles_later h _
        · exact .refl h

/-- Changing streams or gates. -/
theorem Idles.of_same (hstore : h'.store = h.store) (hmachines : h'.machines = h.machines)
    (hprocesses : h'.processes = h.processes) (hruns : h'.runs = h.runs) (hnow : h'.now = h.now) :
    Idles h h' :=
  ⟨hstore, hmachines, hprocesses, hruns, Nat.le_of_eq hnow.symm⟩

theorem idles_print (h : Host) (stream : Nat) (text : String) :
    Idles h (after (print stream text) h) := by
  rw [print, after_get_bind]
  split
  · exact .refl h
  · split
    · exact .refl h
    · exact .of_same rfl rfl rfl rfl rfl

theorem idles_arrive (h : Host) (gate : Nat) : Idles h (after (arrive gate) h) := by
  rw [arrive, after_get_bind]
  split
  · exact .refl h
  · exact .of_same rfl rfl rfl rfl rfl

theorem idles_effect (hu : Undisturbed h p q) (fuel : Nat) {e : Effect} (he : e.Gentle) :
    Idles h (after (effect p fuel e) h) := by
  cases e with
  | deed d =>
    cases d with
    | print stream text => exact idles_print h stream text
    | _ => exact he.elim
  | sleep ms =>
    rw [effect, after_get_bind]
    apply Idles.bind (idles_waitUntil hu.idle ..)
    intro _ h₁ _
    exact .refl h₁
  | wait gate =>
    rw [effect]
    apply Idles.bind (idles_arrive h gate)
    intro ticket h₁ _
    rw [after_get_bind]
    split <;> exact .refl h₁

theorem idles_effects (hu : Undisturbed h p q) (fuel : Nat) {es : List Effect}
    (hes : ∀ e ∈ es, e.Gentle) : Idles h (after (effects p fuel es) h) := by
  induction es generalizing h with
  | nil => exact .refl h
  | cons e es ih =>
    have he := idles_effect hu fuel (hes e List.mem_cons_self)
    apply Idles.bind he
    intro _ h₁ hrun
    rw [after_of_ok hrun] at he
    exact ih (hu.idles he) fun e he => hes e (List.mem_cons_of_mem _ he)

/-- What a gentle host function is found to do. -/
theorem gentle_reaction (hu : Undisturbed h p q) {id : FunctionId} {args : List Cell}
    {r : Reaction} (hrun : (reaction p id args).run h = .ok r h') :
    h' = h ∧ ∀ e ∈ r.effects, e.Gentle := by
  have hsame : h' = h := by
    have hreads := reads_reaction p id args h
    rwa [after_of_ok hrun] at hreads
  refine ⟨hsame, ?_⟩
  rw [reaction, run_bind_ok (process_run hu.process)] at hrun
  cases hm : q.machine with
  | none =>
    rw [hm] at hrun
    cases hrun
  | some m =>
    rw [hm] at hrun
    dsimp only at hrun
    cases hparts : parts? h m with
    | none =>
      have hrefused : (parts m).run h = .error (.error .disposed) h := by rw [parts_run, hparts]
      rw [run_bind_error hrefused] at hrun
      cases hrun
    | some found =>
      have hfound : (parts m).run h = .ok found h := by rw [parts_run, hparts]
      rw [run_bind_ok hfound] at hrun
      cases hf : found.firmware.function? id with
      | none =>
        rw [hf] at hrun
        cases hrun
      | some f =>
        rw [hf] at hrun
        cases hrun
        refine hu.gentle m found hm ?_ id f hf args
        unfold parts? at hparts
        split at hparts
        · exact hparts
        · cases hparts

/-- **A call of a gentle host function** leaves the pools and the control blocks alone. -/
theorem idles_call (hu : Undisturbed h p q) (fuel : Nat) (id : FunctionId) (args : List Cell) :
    Idles h (after (call p fuel id args) h) := by
  rw [call]
  apply Idles.bind
  · rw [reads_reaction p id args h]
    exact .refl h
  · intro r h₁ hrun
    obtain ⟨rfl, heffects⟩ := gentle_reaction hu hrun
    rw [react]
    apply Idles.bind (idles_effects hu fuel heffects)
    intro _ h₂ _
    rw [reads_replied r.reply h₂]
    exact .refl h₂

/-! ## One instruction on a host -/

/-- What the host functions answer if process `p` calls them in its next turn. -/
def replies (h : Host) (p fuel : Nat) (id : FunctionId) (args : List Cell) : Reply :=
  match (call p fuel id args).run (h.during h.store (h.now + turnTime)) with
  | .ok value _ => .value value
  | .error (.error e) _ => .refuse e
  | .error .crash _ => .crash

/-- The host when the next turn of an execution is over but for what the turn writes: time has
passed, and the host function was called if there is a call. -/
def passed (h : Host) (p fuel : Nat) (g : Segments) (x : Execution) (frame : Frame) : Host :=
  match turn g x.control x.now x.store frame with
  | .calling id args _ _ => after (call p fuel id args) (h.during h.store (h.now + turnTime))
  | _ => h.during h.store (h.now + turnTime)

/-- The next instruction of an execution. The host answers as it does where it stands, and the
instruction takes as long as the host does. -/
def stepped (h : Host) (p fuel : Nat) (g : Segments) (x : Execution) (frame : Frame) : Execution :=
  x.step (h.replies p fuel) g ((h.passed p fuel g x frame).now - h.now)

/-- `Completes p g h x k h' y`: from `x`, with the host at `h`, process `p` completed `k`
instructions, which led to `y` and the host to `h'`. Each got the replies that the host gives where
it stood before it, and left the host where the next one found it. -/
inductive Completes (p : Nat) (g : Segments) (h : Host) (x : Execution) :
    Nat → Host → Execution → Prop
  | refl : Completes p g h x 0 h x
  | step {k : Nat} {h' : Host} {y z : Execution} {frame : Frame} (fuel : Nat) :
    Completes p g h x k h' y → y.status = .running frame → z = h'.stepped p fuel g y frame →
    z.Goes → Completes p g h x (k + 1) ((h'.passed p fuel g y frame).during z.store z.now) z

/-- The next instruction fails with `e`, or the look before it does: nothing was written, and the
execution leaves the host at `h'`, with the process faulted. -/
structure FailsAt (p fuel : Nat) (g : Segments) (h : Host) (x : Execution) (frame : Frame)
    (e : Error) (h' : Host) : Prop where
  running : x.status = .running frame
  blames : x.Blames (h.replies p fuel) g frame e
  ended : (h.stepped p fuel g x frame).status = .ended (.error e)
  kept : (h.stepped p fuel g x frame).store = x.store
  left : h' = (h.passed p fuel g x frame).withControl p
    (x.control.leave .faulted (h.passed p fuel g x frame).now)
  store : h'.store = x.store
  faulted : ∃ q, h'.processes[p]? = some q ∧ q.control.state = .faulted

section
variable {g : Segments} {x y : Execution} {frame : Frame} {id : FunctionId} {args : List Cell}
  {k fuel : Nat}

/-- What the host answers is one of the answers it might give. -/
theorem Completes.completes (hcompletes : Completes p g h x k h' y) : x.Completes g k y := by
  induction hcompletes with
  | refl => exact .refl
  | step fuel _ _ hstep hgoes ih =>
    subst hstep
    exact ih.step _ _ hgoes

theorem replies_of_ok {value : Cell}
    (hrun : (call p fuel id args).run (h.during h.store (h.now + turnTime)) = .ok value h') :
    h.replies p fuel id args = .value value := by
  rw [replies, hrun]

theorem replies_of_error {e : Error} (hrun :
    (call p fuel id args).run (h.during h.store (h.now + turnTime)) = .error (.error e) h') :
    h.replies p fuel id args = .refuse e := by
  rw [replies, hrun]

theorem idles_passed (hu : Undisturbed h p q) (fuel : Nat) (g : Segments) (x : Execution)
    (frame : Frame) : Idles h (h.passed p fuel g x frame) := by
  have hduring : Idles h (h.during h.store (h.now + turnTime)) :=
    ⟨rfl, rfl, rfl, rfl, Nat.le_add_right ..⟩
  unfold passed
  split
  · exact hduring.trans (idles_call (hu.during ..) fuel _ _)
  · exact hduring

end

/-! ## The run of an execution -/

/-- The run that began at `x`, on the host `h₀`, has completed instructions, and the host stands
where they left it. -/
structure Keeps (h₀ : Host) (x : Execution) (p : Nat) (q : Process) (h : Host) (y : Execution) :
    Prop where
  completes : ∃ k, Completes p q.segments h₀ x k h y
  store : y.store = h.store
  now : y.now = h.now
  control : y.control = q.control
  undisturbed : Undisturbed h p q

/-- The run ends with the error in the next instruction, or in the look before it. -/
def Fails (h₀ : Host) (x : Execution) (p : Nat) (q : Process) :
    EStateM.Result Fault Host Unit → Prop
  | .error (.error e) h' => ∃ h y frame fuel, Keeps h₀ x p q h y ∧ y.status = .running frame ∧
    (h.stepped p fuel q.segments y frame).status = .ended (.error e) ∧
    h' = h.passed p fuel q.segments y frame
  | _ => True

section
variable {h₀ h₁ : Host} {x y : Execution} {frame : Frame} {t : Turn}

/-- The turn that the host takes is that of the next instruction. -/
theorem Keeps.turn (hk : Keeps h₀ x p q h y) (frame : Frame) :
    turn q.segments y.control y.now y.store frame =
      turn q.segments q.control h.now h.store frame := by
  rw [hk.control, hk.now, hk.store]

/-- The next instruction, if the host takes the turn `t`. -/
theorem Keeps.stepped (hk : Keeps h₀ x p q h y) (hframe : y.status = .running frame)
    (hturn : Processor.turn q.segments q.control h.now h.store frame = t) (fuel : Nat) :
    (h.stepped p fuel q.segments y frame).status =
        (t.answered (h.replies p fuel) q.control q.segments h.store).1 ∧
      (h.stepped p fuel q.segments y frame).store =
        (t.answered (h.replies p fuel) q.control q.segments h.store).2 ∧
      (h.stepped p fuel q.segments y frame).now = (h.passed p fuel q.segments y frame).now := by
  have hlater := (idles_passed hk.undisturbed fuel q.segments y frame).now
  rw [Host.stepped, Execution.step_of_running _ hframe, hk.turn, hturn, hk.store, hk.now,
    hk.control]
  exact ⟨rfl, rfl, Nat.add_sub_of_le hlater⟩

/-- The next instruction is completed, and its call leaves the host at `h₁`. -/
theorem Keeps.next {next : Frame} {s : Store} (hk : Keeps h₀ x p q h y)
    (hframe : y.status = .running frame)
    (hturn : Processor.turn q.segments q.control h.now h.store frame = t) (fuel : Nat)
    (hpassed : h.passed p fuel q.segments y frame = h₁)
    (hanswered : t.answered (h.replies p fuel) q.control q.segments h.store = (.running next, s)) :
    ∃ z, Keeps h₀ x p q (h₁.during s h₁.now) z ∧ z.status = .running next := by
  obtain ⟨k, hcompletes⟩ := hk.completes
  obtain ⟨hstatus, hstore, hnow⟩ := hk.stepped hframe hturn fuel
  rw [hanswered] at hstatus hstore
  rw [hpassed] at hnow
  have hgoes : (h.stepped p fuel q.segments y frame).Goes := ⟨next, hstatus⟩
  have hstep := hcompletes.step fuel hframe rfl hgoes
  rw [hpassed, hstore, hnow] at hstep
  have hu := hk.undisturbed.idles (idles_passed hk.undisturbed fuel q.segments y frame)
  rw [hpassed] at hu
  exact ⟨_, ⟨⟨k + 1, hstep⟩, hstore, hnow, (Execution.control_step hgoes).trans hk.control,
    hu.during ..⟩, hstatus⟩

theorem Keeps.fails {e : Error} (hk : Keeps h₀ x p q h y) (hframe : y.status = .running frame)
    (hturn : Processor.turn q.segments q.control h.now h.store frame = t) (fuel : Nat)
    (hpassed : h.passed p fuel q.segments y frame = h₁)
    (hanswered : (t.answered (h.replies p fuel) q.control q.segments h.store).1 =
      .ended (.error e)) : Fails h₀ x p q (.error (.error e) h₁) := by
  have hstatus := (hk.stepped hframe hturn fuel).1
  exact ⟨h, y, frame, fuel, hk, hframe, hstatus.trans hanswered, hpassed.symm⟩

theorem governs_keeps (h₀ : Host) (x : Execution) (p : Nat) (q : Process) :
    Governs p (fun h frame => ∃ y, Keeps h₀ x p q h y ∧ y.status = .running frame)
      (Fails h₀ x p q) where
  known := by
    intro h frame hinv
    obtain ⟨y, hk, -⟩ := hinv
    exact ⟨q, hk.undisturbed.process⟩
  crash := by
    intro h
    trivial
  round := by
    intro h frame went h' hinv hrun
    obtain ⟨y, hk, hframe⟩ := hinv
    cases (round_of_idle hk.undisturbed.idle h.runs.size).symm.trans hrun
    exact ⟨y, hk, hframe⟩
  ended := by
    intro h q' frame result hinv hq hturn
    obtain ⟨y, hk, hframe⟩ := hinv
    obtain rfl := Option.some.inj (hk.undisturbed.process.symm.trans hq)
    cases result with
    | ok _ => trivial
    | error e =>
      refine hk.fails hframe hturn 0 ?_ rfl
      rw [passed, hk.turn, hturn]
  next := by
    intro h q' frame next write hinv hq hturn
    obtain ⟨y, hk, hframe⟩ := hinv
    obtain rfl := Option.some.inj (hk.undisturbed.process.symm.trans hq)
    have hpassed : h.passed p 0 q.segments y frame = h.during h.store (h.now + turnTime) := by
      rw [passed, hk.turn, hturn]
    refine hk.next hframe hturn 0 hpassed ?_
    cases write <;> rfl
  refused := by
    intro h q' frame id args result next e h' fuel hinv hq hturn hrun
    obtain ⟨y, hk, hframe⟩ := hinv
    obtain rfl := Option.some.inj (hk.undisturbed.process.symm.trans hq)
    refine hk.fails hframe hturn fuel ?_ ?_
    · rw [passed, hk.turn, hturn]
      exact after_of_error hrun
    · rw [Turn.answered, replies_of_error hrun]
  answered := by
    intro h q' frame id args result next value h' fuel hinv hq hturn hrun
    obtain ⟨y, hk, hframe⟩ := hinv
    obtain rfl := Option.some.inj (hk.undisturbed.process.symm.trans hq)
    have hpassed : h.passed p fuel q.segments y frame = h' := by
      rw [passed, hk.turn, hturn]
      exact after_of_ok hrun
    have hidles := idles_passed hk.undisturbed fuel q.segments y frame
    rw [hpassed] at hidles
    have hstore : h'.store = h.store := hidles.store
    have hreply := replies_of_ok hrun
    refine ⟨q, (hk.undisturbed.idles hidles).process, ?_⟩
    cases hresume : resume q.segments q.control next result value with
    | ended result =>
      cases result with
      | ok _ => trivial
      | error e =>
        refine hk.fails hframe hturn fuel hpassed ?_
        rw [Turn.answered, hreply]
        dsimp only
        rw [hresume]
        rfl
    | next frame write =>
      refine hk.next hframe hturn fuel hpassed ?_
      rw [Turn.answered, hreply, hstore]
      dsimp only
      rw [hresume]
      cases write <;> rfl
    | calling _ _ _ _ => trivial

/-- **Faults are precise.** If an execution of a ready process reports an error, it completed some
instructions, which led to `x` and the host to `h₁`, each with the replies that the host gave; and
the next one failed: the pools hold what the completed ones left, and the process is faulted. What
failed is not the fetching of an instruction, for whatever instructions are completed, with whatever
replies, the program counter is inside the program or at its end before each. -/
theorem fault_is_precise (hu : Undisturbed h p q) (hready : q.control.state = .ready)
    (hlive : q.control.disposed = false) {fuel : Nat} {e : Error}
    (hrun : (execute p fuel).run h = .error (.error e) h') :
    ∃ control, q.control.start q.id h.now = .ok control ∧
      (∃ k h₁ x frame fuel', Completes p q.segments (h.withControl p control)
        { store := h.store, control, now := h.now } k h₁ x ∧
        FailsAt p fuel' q.segments h₁ x frame e h') ∧
      ∀ k x frame,
        Execution.Completes q.segments { store := h.store, control, now := h.now } k x →
        x.status = .running frame → frame.pc ≤ q.segments.program.length := by
  obtain ⟨control, hstart⟩ : ∃ control, q.control.start q.id h.now = .ok control := by
    rw [Control.start, hlive, Control.enterRunning, hready]
    exact ⟨_, rfl⟩
  refine ⟨control, hstart, ?_, fun k x frame hcompletes => hcompletes.pc_le rfl⟩
  have hstarted : (start p).run h = .ok () (h.withControl p control) := by
    rw [start_run hu.process, hstart]
  rw [execute, run_bind_ok (process_run hu.process), if_pos hready, run_bind_ok hstarted] at hrun
  have hu' := hu.withControl control
  have hkeeps : Keeps (h.withControl p control) { store := h.store, control, now := h.now } p
      { q with control } (h.withControl p control) { store := h.store, control, now := h.now } :=
    ⟨⟨0, .refl⟩, rfl, rfl, rfl, hu'⟩
  have hfails := (governs_keeps _ _ p { q with control }).dispatch fuel ⟨_, hkeeps, rfl⟩
  cases hdispatch : (dispatch p fuel {}).run (h.withControl p control) with
  | ok _ h₂ =>
    rw [run_bind_ok (attempt_run_ok hdispatch)] at hrun
    cases hrun
  | error fault h₂ =>
    rw [hdispatch] at hfails
    rw [run_bind_ok (attempt_run_error hdispatch)] at hrun
    cases fault with
    | crash => cases hrun
    | error e' =>
      obtain ⟨h₁, x, frame, fuel', hk, hframe, hended, rfl⟩ := hfails
      obtain ⟨k, hcompletes⟩ := hk.completes
      have hidles := idles_passed hk.undisturbed fuel' q.segments x frame
      have hprocess := (hk.undisturbed.idles hidles).process
      dsimp only at hrun
      rw [run_bind_ok (fault_run hprocess)] at hrun
      cases hrun
      obtain ⟨hblames, hkept, -⟩ := Execution.step_of_error hframe hended
      refine ⟨k, h₁, x, frame, fuel', hcompletes, hframe, hblames, hended, hkept, ?_,
        hidles.store.trans hk.store.symm, ?_⟩
      · rw [hk.control]
      · refine ⟨_, process_withControl hprocess _, ?_⟩
        have hrunning : control.state = .running := running_of_start hstart
        show (control.leave .faulted _).state = .faulted
        rw [Control.leave, if_pos hrunning]

end

/-- A machine with one process, whose program prints a register and then finds no register for the
result. -/
def misdirected : Host where
  store := ⟨#[#[.ofInstruction (.make .movl 0 0 0 7), .ofInstruction (.make .callp 0 1 5 0)],
    #[Cell.zero]]⟩
  streams := #[{}]
  machines :=
    let print := Console.line 0 Console.wholeText
    let firmware : Firmware := ⟨[⟨"console", .console, ⟨1, [("print", 0)], [(0, print)]⟩⟩]⟩
    #[{ parts := some ⟨.separate, ⟨1, 1, 1⟩, firmware, .table []⟩ }]
  processes := #[
    { id := 0
      segments := ⟨⟨⟨0, 0, 2⟩, ⟨1, 0, 1⟩, ⟨1, 0, 1⟩, ⟨1, 0, 1⟩⟩, ⟨1, 0, 1⟩⟩
      machine := some 0 }]

theorem fault_is_precise_misdirected :
    ∃ q e h' control k h₁ x frame fuel, Undisturbed misdirected 0 q ∧
      (execute 0 1).run misdirected = .error (.error e) h' ∧
      Completes 0 q.segments (misdirected.withControl 0 control)
        { store := misdirected.store, control, now := misdirected.now } k h₁ x ∧
      FailsAt 0 fuel q.segments h₁ x frame e h' ∧ frame.pc ≤ q.segments.program.length := by
  have hcheck : (match (execute 0 1).run misdirected with
      | .error (.error _) _ => true
      | _ => false) = true := by
    decide +kernel
  have hu : ∃ q, Undisturbed misdirected 0 q ∧ q.control = {} := by
    refine ⟨_, ⟨rfl, ?_, ?_⟩, rfl⟩
    · intro r run hrun
      cases hrun
    · intro m parts hm hparts id f hf args e he
      cases hm
      cases hparts
      obtain ⟨i, hi, hf⟩ := Option.bind_eq_some_iff.1 hf
      obtain rfl := List.mem_singleton.1 (List.mem_of_getElem? hi)
      rw [Registry.function?, List.lookup_cons, List.lookup_nil] at hf
      split at hf <;> cases hf
      cases List.mem_singleton.1 he
      trivial
  obtain ⟨q, hu, hcontrol⟩ := hu
  split at hcheck
  · rename_i e h' hrun
    obtain ⟨control, -, ⟨k, h₁, x, frame, fuel, hcompletes, hfails⟩, hpc⟩ :=
      fault_is_precise hu (by rw [hcontrol]) (by rw [hcontrol]) hrun
    exact ⟨q, e, h', control, k, h₁, x, frame, fuel, hu, hrun, hcompletes, hfails,
      hpc k x frame hcompletes.completes hfails.running⟩
  · cases hcheck

end Host

end CellMachine
