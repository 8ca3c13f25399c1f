import CellMachine.Host.Call
import CellMachine.Proofs.Process.Parties
import CellMachine.Proofs.Processor

/-!
# Executions, one instruction at a time

An `Execution` is a run of a process from instruction to instruction: where it stands, its pools and
control block, the time, and the host calls it has made so far. `Execution.step` is one instruction
that takes `d` nanoseconds, and `Execution.run` is `k` of them.

* `Host.execute_eq`: executing a process on the caller's thread is a run in which every instruction
  takes `turnTime`, if host functions answer at once and nothing else is going on.

`Host.execute` takes its turns in bursts, and a burst ends in the middle of a run; `Host.pursue` is
what is left of one, so that the proof goes turn by turn.
-/

namespace CellMachine

open Processor

namespace Processor

/-- The host call of a turn, if it makes one. -/
def Turn.asks : Turn → List (FunctionId × List Cell)
  | .calling function args _ _ => [(function, args)]
  | _ => []

/-- The control block of a process after an instruction: one whose run is over leaves it. -/
def Status.leave (control : Control) (now : Nat) : Status → Control
  | .ended (.ok _) => control.leave .stopped now
  | .ended (.error _) => control.leave .faulted now
  | _ => control

/-- What whoever executes a process learns of a run that is over. -/
def Status.report : Status → Except Fault Unit
  | .ended (.ok _) => .ok ()
  | .ended (.error e) => .error (.error e)
  | _ => .error .crash

end Processor

/-- A process as it is being executed. -/
structure Execution where
  status : Status := .running {}
  store : Store
  control : Control
  now : Nat
  /-- The host calls so far, with their arguments. -/
  calls : List (FunctionId × List Cell) := []

namespace Execution

/-- One instruction that takes `d` nanoseconds. -/
def step (host : FunctionId → List Cell → Reply) (g : Segments) (d : Nat) (x : Execution) :
    Execution :=
  match x.status with
  | .running frame =>
    let turn := turn g x.control x.now x.store frame
    let (status, store) := turn.answered host x.control g x.store
    { status, store
      control := status.leave x.control (x.now + d)
      now := x.now + d
      calls := x.calls ++ turn.asks }
  | _ => x

/-- `k` instructions, of which the one after `i` others takes `d i` nanoseconds. -/
def run (host : FunctionId → List Cell → Reply) (g : Segments) (d : Nat → Nat) :
    (k : Nat) → Execution → Execution
  | 0, x => x
  | k + 1, x => (run host g d k x).step host g (d k)

/-- Whether the run goes on. -/
def Goes (x : Execution) : Prop := ∃ frame, x.status = .running frame

instance (x : Execution) : Decidable x.Goes :=
  match h : x.status with
  | .running frame => isTrue ⟨frame, h⟩
  | .ended _ => isFalse fun ⟨_, hgoes⟩ => Status.noConfusion (h.symm.trans hgoes)
  | .crashed => isFalse fun ⟨_, hgoes⟩ => Status.noConfusion (h.symm.trans hgoes)

section
variable {host : FunctionId → List Cell → Reply} {g : Segments} {x : Execution} {frame : Frame}

theorem step_of_running (d : Nat) (h : x.status = .running frame) :
    x.step host g d =
      let turn := turn g x.control x.now x.store frame
      let after := turn.answered host x.control g x.store
      ⟨after.1, after.2, after.1.leave x.control (x.now + d), x.now + d,
        x.calls ++ turn.asks⟩ := by
  rw [step, h]

theorem step_of_not_goes (d : Nat) (h : ¬ x.Goes) : x.step host g d = x := by
  rw [step]
  match hx : x.status with
  | .running frame => exact absurd ⟨frame, hx⟩ h
  | .ended _ | .crashed => rfl

theorem run_succ (d k : Nat) :
    run host g (fun _ => d) (k + 1) x = run host g (fun _ => d) k (x.step host g d) := by
  induction k with
  | zero => rfl
  | succ k ih =>
    rw [run, ih]
    rfl

theorem run_of_not_goes (d k : Nat) (h : ¬ x.Goes) : run host g (fun _ => d) k x = x := by
  induction k with
  | zero => rfl
  | succ k ih => rw [run, ih, step_of_not_goes d h]

/-- The control block is left once, when the run is over. -/
theorem control_run (d : Nat → Nat) (k : Nat) (h : x.Goes) :
    (run host g d k x).control =
      (run host g d k x).status.leave x.control (run host g d k x).now := by
  induction k with
  | zero =>
    obtain ⟨frame, hframe⟩ := h
    rw [run, hframe]
    rfl
  | succ k ih =>
    rw [run]
    by_cases hgoes : (run host g d k x).Goes
    · obtain ⟨frame, hframe⟩ := hgoes
      rw [hframe] at ih
      rw [step_of_running _ hframe]
      dsimp only
      rw [ih]
      rfl
    · rw [step_of_not_goes _ hgoes, ih]

end

end Execution

namespace Host

/-! ## Turn by turn -/

/-- What is left of an execution with `n` turns to go in its burst. -/
def pursue (p fuel n : Nat) (frame : Frame) : HostM Unit := do
  match ← burst p n frame with
  | .ended result => accept result
  | .tired frame =>
    let _ ← round (← get).runs.size
    dispatch p fuel frame
  | .calling function args result frame =>
    let value ← call p fuel function args
    let q ← process p
    match resume q.segments q.control frame result value with
    | .ended result => accept result
    | .next frame (some a) =>
      modifyStore a.apply
      dispatch p fuel frame
    | .next frame none => dispatch p fuel frame
    | .calling _ _ _ frame => dispatch p fuel frame

theorem dispatch_succ (p fuel : Nat) (frame : Frame) :
    dispatch p (fuel + 1) frame = pursue p fuel burstLength frame :=
  rfl

/-- The host at another time and with other pools. -/
def during (h : Host) (s : Store) (now : Nat) : Host := { h with store := s, now }

/-- The result that is reported of a run that is over. -/
def reported (h : Host) (status : Status) : EStateM.Result Fault Host Unit :=
  match status.report with
  | .ok _ => .ok () h
  | .error e => .error e h

section
variable {h : Host} {p : Nat} {q : Process}

theorem accept_run (result : Except Error Unit) :
    (accept result).run h = h.reported (.ended result) := by
  cases result <;> rfl

/-- How the dispatch loop goes on with the answer of a host call. -/
def proceed (p fuel : Nat) (frame : Frame) (result : Nat) (value : Cell) : HostM Unit := do
  let q ← process p
  match resume q.segments q.control frame result value with
  | .ended result => accept result
  | .next frame (some a) =>
    modifyStore a.apply
    dispatch p fuel frame
  | .next frame none => dispatch p fuel frame
  | .calling _ _ _ frame => dispatch p fuel frame

theorem burst_run (hq : h.processes[p]? = some q) (n : Nat) (frame : Frame) :
    (burst p n frame).run h =
      let (pause, s, now) := Processor.burst q.segments q.control n h.now h.store frame
      .ok pause (h.during s now) :=
  run_bind_ok (process_run hq) _

theorem pursue_run_tired (hq : h.processes[p]? = some q) (fuel : Nat) (frame : Frame) :
    (pursue p fuel 0 frame).run h =
      (round h.runs.size >>= fun _ => dispatch p fuel frame).run h := by
  have hburst : (burst p 0 frame).run h = .ok (.tired frame) h := burst_run hq 0 frame
  rw [pursue, run_bind_ok hburst]
  rfl

theorem pursue_run_turn (hq : h.processes[p]? = some q) (fuel n : Nat) (frame : Frame) :
    (pursue p fuel (n + 1) frame).run h =
      match turn q.segments q.control h.now h.store frame with
      | .ended result => (h.during h.store (h.now + turnTime)).reported (.ended result)
      | .next next write =>
        (pursue p fuel n next).run
          (h.during ((Turn.next next write).land h.store).2 (h.now + turnTime))
      | .calling id args result next =>
        (call p fuel id args >>= proceed p fuel next result).run
          (h.during h.store (h.now + turnTime)) := by
  have hburst := burst_run hq (n + 1) frame
  match hturn : turn q.segments q.control h.now h.store frame with
  | .ended result =>
    simp only [Processor.burst, hturn] at hburst
    rw [pursue, run_bind_ok hburst]
    exact accept_run result
  | .next next write =>
    have hq' : (h.during ((Turn.next next write).land h.store).2
        (h.now + turnTime)).processes[p]? = some q := hq
    have hrest := burst_run hq' n next
    dsimp only
    cases write with
    | none =>
      simp only [Processor.burst, hturn] at hburst
      rw [pursue, run_bind_ok hburst, pursue, run_bind_ok hrest]
      rfl
    | some a =>
      simp only [Processor.burst, hturn] at hburst
      rw [pursue, run_bind_ok hburst, pursue, run_bind_ok hrest]
      rfl
  | .calling id args result next =>
    simp only [Processor.burst, hturn] at hburst
    rw [pursue, run_bind_ok hburst]
    rfl

end

/-- The host functions of a process answer at once, and nothing else is going on. -/
structure Attends (h : Host) (p : Nat) (q : Process) (host : FunctionId → List Cell → Reply) :
    Prop where
  process : h.processes[p]? = some q
  idle : h.runs = #[]
  answers : ∃ m parts, q.machine = some m ∧ parts? h m = some parts ∧ ∀ id args,
    match parts.firmware.function? id with
    | some f => f ⟨q.id, args⟩ = ⟨[], host id args⟩
    | none => host id args = .refuse (.unknownFunction id.raw.toInt)

section
variable {h : Host} {p : Nat} {q : Process} {host : FunctionId → List Cell → Reply}

theorem Attends.during (ha : h.Attends p q host) (s : Store) (now : Nat) :
    (h.during s now).Attends p q host :=
  ⟨ha.process, ha.idle, ha.answers⟩

theorem pursue_run_zero (ha : h.Attends p q host) (fuel : Nat) (frame : Frame) :
    (pursue p fuel 0 frame).run h = (dispatch p fuel frame).run h := by
  have hround : (round h.runs.size).run h = .ok false h := by
    rw [ha.idle]
    rfl
  rw [pursue_run_tired ha.process, run_bind_ok hround]

theorem replied_run (reply : Reply) :
    (replied reply).run h =
      match reply with
      | .value c => .ok c h
      | .refuse e => .error (.error e) h
      | .crash => .error .crash h := by
  cases reply <;> rfl

theorem call_run (ha : h.Attends p q host) (fuel : Nat) (id : FunctionId) (args : List Cell) :
    (call p fuel id args).run h = (replied (host id args)).run h := by
  obtain ⟨m, parts, hm, hparts, hanswers⟩ := ha.answers
  have hfound : (Host.parts m).run h = .ok parts h := by
    rw [Host.parts, run_bind_ok (EStateM.run_get h), hparts]
    rfl
  have hanswer := hanswers id args
  cases hf : parts.firmware.function? id with
  | none =>
    have hreaction : (reaction p id args).run h =
        .error (.error (.unknownFunction id.raw.toInt)) h := by
      rw [reaction, run_bind_ok (process_run ha.process), hm]
      dsimp only
      rw [run_bind_ok hfound, hf]
      rfl
    rw [hf] at hanswer
    rw [call, run_bind_error hreaction, hanswer]
    rfl
  | some f =>
    rw [hf] at hanswer
    have hreaction : (reaction p id args).run h = .ok ⟨[], host id args⟩ h := by
      rw [← hanswer, reaction, run_bind_ok (process_run ha.process), hm]
      dsimp only
      rw [run_bind_ok hfound, hf]
      rfl
    rw [call, run_bind_ok hreaction]
    rfl

/-- A turn of a burst: the run goes on where the turn leads, in the same burst or in a new one, or
it is over. -/
theorem pursue_run_succ (ha : h.Attends p q host) (fuel n : Nat) (frame : Frame)
    {after : Status × Store}
    (hafter : after = (turn q.segments q.control h.now h.store frame).answered host q.control
      q.segments h.store) :
    (∃ next, after.1 = .running next ∧
      ((pursue p fuel (n + 1) frame).run h =
          (pursue p fuel n next).run (h.during after.2 (h.now + turnTime)) ∨
        (pursue p fuel (n + 1) frame).run h =
          (dispatch p fuel next).run (h.during after.2 (h.now + turnTime)))) ∨
    (∀ next, after.1 ≠ .running next) ∧
      (pursue p fuel (n + 1) frame).run h =
        (h.during after.2 (h.now + turnTime)).reported after.1 := by
  rw [pursue_run_turn ha.process]
  cases ht : turn q.segments q.control h.now h.store frame with
  | ended result =>
    rw [ht] at hafter
    subst hafter
    exact .inr ⟨fun _ he => (by cases he), rfl⟩
  | next next write =>
    rw [ht] at hafter
    subst hafter
    refine .inl ⟨next, ?_, .inl rfl⟩
    cases write <;> rfl
  | calling id args result next =>
    rw [ht] at hafter
    subst hafter
    have ha' := ha.during h.store (h.now + turnTime)
    have hcall := (call_run ha' fuel id args).trans (replied_run _)
    simp only [Turn.answered]
    cases hhost : host id args with
    | refuse e =>
      rw [hhost] at hcall
      exact .inr ⟨fun _ he => (by cases he), run_bind_error hcall _⟩
    | crash =>
      rw [hhost] at hcall
      exact .inr ⟨fun _ he => (by cases he), run_bind_error hcall _⟩
    | value c =>
      rw [hhost] at hcall
      rw [run_bind_ok hcall, proceed, run_bind_ok (process_run ha'.process)]
      dsimp only
      cases resume q.segments q.control next result c with
      | ended result => exact .inr ⟨fun _ he => (by cases he), accept_run result⟩
      | next next write => cases write <;> exact .inl ⟨next, rfl, .inr rfl⟩
      | calling _ _ _ next => exact .inl ⟨next, rfl, .inr rfl⟩

/-- **What is left of an execution is a run.** If it is over after `k` more instructions, then with
as much fuel it comes to the same end. -/
theorem pursue_run (ha : h.Attends p q host) {k fuel : Nat} (n : Nat) {frame : Frame}
    {calls : List (FunctionId × List Cell)} {y : Execution}
    (hy : y = .run host q.segments (fun _ => turnTime) k
      ⟨.running frame, h.store, q.control, h.now, calls⟩)
    (hover : ¬ y.Goes) (hfuel : k ≤ fuel) :
    (pursue p fuel (n + 1) frame).run h = (h.during y.store y.now).reported y.status := by
  induction k generalizing h frame n fuel calls with
  | zero =>
    subst hy
    exact absurd ⟨frame, rfl⟩ hover
  | succ k ih =>
    rw [Execution.run_succ, Execution.step_of_running turnTime rfl] at hy
    dsimp only at hy
    generalize hafter : (turn q.segments q.control h.now h.store frame).answered host q.control
      q.segments h.store = after at hy
    have ha' := ha.during after.2 (h.now + turnTime)
    rcases pursue_run_succ ha fuel n frame hafter.symm with ⟨next, hnext, hrun⟩ | ⟨hnext, hrun⟩
    · rw [hnext] at hy
      -- a new burst takes one of the fuel, and the turn has made up for it
      have hdispatch : (dispatch p fuel next).run (h.during after.2 (h.now + turnTime)) =
          (h.during y.store y.now).reported y.status := by
        obtain ⟨fuel, rfl⟩ : ∃ f, fuel = f + 1 := ⟨fuel - 1, by omega⟩
        rw [dispatch_succ]
        exact ih ha' (burstLength - 1) hy (by omega)
      rcases hrun with hrun | hrun
      · rw [hrun]
        cases n with
        | zero => rw [pursue_run_zero ha', hdispatch]
        | succ n => exact ih ha' n hy (by omega)
      · rw [hrun, hdispatch]
    · rw [hrun, hy, Execution.run_of_not_goes]
      rintro ⟨next, hstatus⟩
      exact hnext next hstatus

theorem Attends.withControl (ha : h.Attends p q host) (c : Control) :
    (h.withControl p c).Attends p { q with control := c } host := by
  obtain ⟨m, parts, hm, hparts, hanswers⟩ := ha.answers
  refine ⟨process_withControl ha.process c, ha.idle, m, parts, hm, ?_, hanswers⟩
  rw [← hparts]
  simp [parts?, isPresent, Host.withControl, ha.idle]

theorem attempt_run_ok {work : HostM Unit} {h' : Host} (hw : work.run h = .ok () h') :
    (attempt work).run h = .ok (.ok ()) h' := by
  have hw' : work h = .ok () h' := hw
  simp only [EStateM.run, attempt, hw']

theorem attempt_run_error {work : HostM Unit} {h' : Host} {e : Fault}
    (hw : work.run h = .error e h') : (attempt work).run h = .ok (.error e) h' := by
  have hw' : work h = .error e h' := hw
  simp only [EStateM.run, attempt, hw']

theorem stop_run (hq : h.processes[p]? = some q) :
    (stop p).run h = .ok () (h.withControl p (q.control.leave .stopped h.now)) := by
  rw [stop, run_bind_ok (EStateM.run_get h), modifyControl_run hq]

theorem fault_run (hq : h.processes[p]? = some q) :
    (fault p).run h = .ok () (h.withControl p (q.control.leave .faulted h.now)) := by
  rw [fault, run_bind_ok (EStateM.run_get h), modifyControl_run hq]

theorem state_of_start {c c' : Control} {id : Int} {now : Nat} (h : c.start id now = .ok c') :
    c.state = .ready := by
  unfold Control.start Control.enterRunning at h
  split at h
  · cases h
  · split at h
    · rename_i hentered
      split at hentered
      · assumption
      · cases hentered
    · cases h

/-- **Executing a process is a run of it**, from the start on: whoever executes it on his own thread
learns how the run ended, and leaves the pools, the time and the control block as the run does. -/
theorem execute_eq (ha : h.Attends p q host) {control : Control}
    (hstart : q.control.start q.id h.now = .ok control) {k fuel : Nat} {y : Execution}
    (hy : y = .run host q.segments (fun _ => turnTime) k
      { store := h.store, control, now := h.now })
    (hover : ¬ y.Goes) (hfuel : k < fuel) :
    (execute p fuel).run h =
      ((h.withControl p y.control).during y.store y.now).reported y.status := by
  obtain ⟨fuel, rfl⟩ : ∃ f, fuel = f + 1 := ⟨fuel - 1, by omega⟩
  have hstarted : (start p).run h = .ok () (h.withControl p control) := by
    rw [start_run ha.process, hstart]
  have ha' := ha.withControl control
  have hdispatch : (dispatch p (fuel + 1) {}).run (h.withControl p control) =
      ((h.withControl p control).during y.store y.now).reported y.status := by
    rw [dispatch_succ]
    exact pursue_run ha' (burstLength - 1) hy hover (by omega)
  have hleft : y.control = y.status.leave control y.now := by
    rw [hy]
    exact Execution.control_run _ k ⟨_, rfl⟩
  have hagain (c : Control) : ((h.withControl p control).during y.store y.now).withControl p c =
      (h.withControl p c).during y.store y.now :=
    congrArg (Host.during · y.store y.now) (withControl_withControl control c)
  have hq := (ha'.during y.store y.now).process
  rw [execute, run_bind_ok (process_run ha.process), if_pos (state_of_start hstart),
    run_bind_ok hstarted]
  match hstatus : y.status with
  | .running frame => exact absurd ⟨frame, hstatus⟩ hover
  | .ended (.ok _) =>
    rw [hstatus] at hdispatch hleft
    rw [run_bind_ok (attempt_run_ok hdispatch)]
    dsimp only
    rw [stop_run hq, hagain, hleft]
    rfl
  | .ended (.error e) =>
    rw [hstatus] at hdispatch hleft
    rw [run_bind_ok (attempt_run_error hdispatch)]
    dsimp only
    rw [run_bind_ok (fault_run hq), hagain, hleft]
    rfl
  | .crashed =>
    rw [hstatus] at hdispatch hleft
    rw [run_bind_ok (attempt_run_error hdispatch), hleft]
    rfl

end

end Host

end CellMachine
