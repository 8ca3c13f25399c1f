import CellMachine.Peripheral.Probe
import CellMachine.Proofs.Host.Runs

/-!
# Executing a process that has ended

The dispatch loop looks at the state of a process before every 64th instruction and after a host
call, but not before the first one. So an execution that begins after the end goes on until it meets
its first look: it makes up to 63 instructions, or fewer and one host call.

* `Host.execute_after_end`: what such an execution does, whatever the program and the host functions
  are and whatever else is going on. It leaves the control block as it is.
* `Host.executing_alters_another`: its instructions are real. A process that was disposed of writes
  to a process that was carved from the same cells later.

The frame counts the instructions up to the next look, which bounds the run; that the process does
not come back to life during the host call is what `Host.Evolves` says.
-/

namespace CellMachine

open Processor

namespace Processor

variable {g : Segments} {c : Control} {s : Store} {frame next : Frame}

/-- The first look ends the run of a process that has ended. -/
theorem turn_of_ended (hended : c.Ended) (now : Nat) :
    turn g c now s frame =
      if frame.budget - 1 = 0 then .ended (.ok ()) else fetch g s frame.pc (frame.budget - 1) := by
  rw [turn, if_pos hended.ne_running]

theorem budget_fetch {pc budget : Nat} {write : Option Assignment}
    (h : fetch g s pc budget = .next next write) : next.budget = budget := by
  unfold fetch at h
  split at h
  · cases h
  · split at h <;> cases h <;> rfl

/-- The answer of the host comes to nothing when the process has ended. -/
theorem resume_of_ended (hended : c.Ended) (result : Nat) (value : Cell) :
    resume g c frame result value = .ended (.ok ()) :=
  if_pos hended.ne_running

/-- A turn that leads on goes one instruction nearer to the look. -/
theorem budget_turn (hended : c.Ended) {now : Nat} {write : Option Assignment}
    (h : turn g c now s frame = .next next write) :
    next.budget + 1 = frame.budget ∧ 0 < next.budget := by
  rw [turn_of_ended hended] at h
  split at h
  · cases h
  · have hbudget := budget_fetch h
    omega

theorem leave_of_ended (hended : c.Ended) (now : Nat) (status : Status) :
    status.leave c now = c := by
  cases status with
  | running frame => rfl
  | crashed => rfl
  | ended result => cases result <;> exact hended.leave _ now

end Processor

namespace Execution

variable {reply : FunctionId → List Cell → Reply} {g : Segments} {c : Control} {x : Execution}
  {s : Store} {now : Nat} {frame : Frame} {calls : List (FunctionId × List Cell)}

/-- **One instruction after the end** leads on, or to the end of the run, or to a host call whose
answer comes to nothing. -/
theorem step_of_ended (reply : FunctionId → List Cell → Reply) (g : Segments)
    (hended : x.control.Ended) (d : Nat) (hrunning : x.status = .running frame) :
    (∃ next write, turn g x.control x.now x.store frame = .next next write ∧
      x.step reply g d =
        ⟨.running next, ((Turn.next next write).land x.store).2, x.control, x.now + d, x.calls⟩) ∨
    (∃ result, turn g x.control x.now x.store frame = .ended result ∧
      x.step reply g d = ⟨.ended result, x.store, x.control, x.now + d, x.calls⟩) ∨
    ∃ id args result next status,
      turn g x.control x.now x.store frame = .calling id args result next ∧
      (∀ frame, status ≠ .running frame) ∧
      x.step reply g d = ⟨status, x.store, x.control, x.now + d, x.calls ++ [(id, args)]⟩ := by
  have hstep : x.step reply g d = _ := step_of_running d hrunning
  simp only [leave_of_ended hended] at hstep
  cases hturn : turn g x.control x.now x.store frame with
  | next next write =>
    simp only [hturn, Turn.asks, Turn.answered, List.append_nil] at hstep
    refine .inl ⟨next, write, rfl, hstep.trans ?_⟩
    cases write <;> rfl
  | ended result =>
    simp only [hturn, Turn.asks, Turn.answered, List.append_nil] at hstep
    exact .inr (.inl ⟨result, rfl, hstep⟩)
  | calling id args result next =>
    simp only [hturn, Turn.asks, Turn.answered] at hstep
    refine .inr (.inr ⟨id, args, result, next, ?_⟩)
    cases hreply : reply id args with
    | value value =>
      simp only [hreply, resume_of_ended hended] at hstep
      exact ⟨.ended (.ok ()), rfl, by simp, hstep⟩
    | refuse e =>
      simp only [hreply] at hstep
      exact ⟨.ended (.error e), rfl, by simp, hstep⟩
    | crash =>
      simp only [hreply] at hstep
      exact ⟨.crashed, rfl, by simp, hstep⟩

theorem control_run_of_ended (hended : c.Ended) (d : Nat → Nat) (k : Nat) :
    (run reply g d k ⟨.running frame, s, c, now, calls⟩).control = c := by
  rw [control_run d k ⟨frame, rfl⟩]
  exact leave_of_ended hended ..

/-- The instructions made and those up to the look add up. -/
theorem budget_run (hended : c.Ended) (d : Nat → Nat) (k : Nat)
    (hgoes : (run reply g d k ⟨.running {}, s, c, now, calls⟩).status = .running frame) :
    frame.budget + k = interval ∧ 0 < frame.budget := by
  induction k generalizing frame with
  | zero =>
    cases hgoes
    decide
  | succ k ih =>
    have hcontrol : (run reply g d k ⟨.running {}, s, c, now, calls⟩).control = c :=
      control_run_of_ended hended d k
    rw [run] at hgoes
    -- Of the earlier instructions only the last control block and the last frame count.
    generalize run reply g d k ⟨.running {}, s, c, now, calls⟩ = x at ih hcontrol hgoes
    subst hcontrol
    by_cases hx : x.Goes
    · obtain ⟨before, hbefore⟩ := hx
      have hadd := ih hbefore
      rcases step_of_ended reply g hended (d k) hbefore with
        ⟨next, write, hturn, hstep⟩ | ⟨result, -, hstep⟩ | ⟨_, _, _, _, status, -, hover, hstep⟩
      · rw [hstep] at hgoes
        cases hgoes
        have hspent := budget_turn hended hturn
        omega
      · rw [hstep] at hgoes
        cases hgoes
      · rw [hstep] at hgoes
        exact absurd hgoes (hover frame)
    · rw [step_of_not_goes (d k) hx] at hgoes
      exact absurd ⟨frame, hgoes⟩ hx

/-- The first look comes after 63 instructions at the latest, and it finds the end. -/
theorem over_of_ended (hended : c.Ended) (d : Nat → Nat) :
    ¬ (run reply g d interval ⟨.running {}, s, c, now, calls⟩).Goes := by
  rintro ⟨frame, hgoes⟩
  have hbudget := budget_run hended d interval hgoes
  omega

/-- The 64th turn makes no instruction. -/
theorem last_turn_of_ended (hended : c.Ended) (d : Nat → Nat) {x y : Execution}
    (hx : x = run reply g d 63 ⟨.running {}, s, c, now, calls⟩)
    (hy : y = run reply g d interval ⟨.running {}, s, c, now, calls⟩) :
    y.store = x.store ∧ y.calls = x.calls := by
  have hstep : y = x.step reply g (d 63) := by rw [hy, hx, interval, run]
  have hcontrol : x.control = c := by
    rw [hx]
    exact control_run_of_ended hended d 63
  subst hcontrol
  by_cases hgoes : x.Goes
  · obtain ⟨frame, hframe⟩ := hgoes
    obtain ⟨hbudget, -⟩ := budget_run hended d 63 (hx ▸ hframe)
    have hlook : frame.budget - 1 = 0 := by
      rw [interval] at hbudget
      omega
    have hturn : turn g x.control x.now x.store frame = .ended (.ok ()) := by
      rw [turn_of_ended hended, if_pos hlook]
    rw [hstep, step_of_running (d 63) hframe, hturn]
    exact ⟨rfl, List.append_nil _⟩
  · rw [hstep, step_of_not_goes (d 63) hgoes]
    exact ⟨rfl, rfl⟩

/-- A burst after the end, turn by turn. -/
theorem burst_of_ended (hended : c.Ended) (n : Nat) {y : Execution}
    (hy : y = run reply g (fun _ => turnTime) n ⟨.running frame, s, c, now, calls⟩) :
    (∃ next, burst g c n now s frame = (.tired next, y.store, y.now) ∧ y.Goes) ∨
    (∃ result, burst g c n now s frame = (.ended result, y.store, y.now) ∧
      y.status = .ended result ∧ y.calls = calls) ∨
    ∃ id args result next,
      burst g c n now s frame = (.calling id args result next, y.store, y.now) ∧
      y.calls = calls ++ [(id, args)] := by
  induction n generalizing frame s now with
  | zero =>
    subst hy
    exact .inl ⟨frame, rfl, frame, rfl⟩
  | succ n ih =>
    rw [run_succ] at hy
    rcases step_of_ended reply g (x := ⟨.running frame, s, c, now, calls⟩) hended turnTime rfl with
      ⟨next, write, hturn, hstep⟩ | ⟨result, hturn, hstep⟩ |
        ⟨id, args, result, next, status, hturn, hover, hstep⟩
    · rw [hstep] at hy
      cases write with
      | none =>
        rw [burst, hturn]
        exact ih hy
      | some a =>
        rw [burst, hturn]
        exact ih hy
    · have hnot : ¬ (⟨.ended result, s, c, now + turnTime, calls⟩ : Execution).Goes := by
        rintro ⟨frame, hframe⟩
        cases hframe
      rw [hstep, run_of_not_goes turnTime n hnot] at hy
      subst hy
      refine .inr (.inl ⟨result, ?_, rfl, rfl⟩)
      rw [burst, hturn]
    · have hnot : ¬ (⟨status, s, c, now + turnTime, calls ++ [(id, args)]⟩ : Execution).Goes := by
        rintro ⟨frame, hframe⟩
        exact hover frame hframe
      rw [hstep, run_of_not_goes turnTime n hnot] at hy
      subst hy
      refine .inr (.inr ⟨id, args, result, next, ?_, rfl⟩)
      rw [burst, hturn]

/-- Instructions write to windows of their own. -/
theorem agree_run (d : Nat → Nat) (k : Nat) (x : Execution) {w : Window}
    (hw : ∀ v ∈ g.windows, ∀ pool i, w.Has pool i → ¬ v.Has pool i) :
    Store.Agree w x.store (run reply g d k x).store := by
  induction k with
  | zero => exact .refl w x.store
  | succ k ih =>
    rw [run]
    generalize run reply g d k x = y at ih ⊢
    by_cases hgoes : y.Goes
    · obtain ⟨frame, hframe⟩ := hgoes
      obtain ⟨v, hv, htouches⟩ :=
        instruct_touches reply y.control y.now g (.running frame, y.store)
      rw [step_of_running (d k) hframe]
      exact ih.trans (htouches.agree (hw v hv))
    · rw [step_of_not_goes (d k) hgoes]
      exact ih

end Execution

namespace Host

variable {h : Host} {p : Nat} {q : Process}

/-- What `k` instructions make of a process and its pools as they stand. -/
def executed (h : Host) (q : Process) (reply : FunctionId → List Cell → Reply) (k : Nat) :
    Execution :=
  .run reply q.segments (fun _ => turnTime) k
    { store := h.store, control := q.control, now := h.now }

/-- The end of a process that has ended changes nothing. -/
theorem stop_ended (hq : h.processes[p]? = some q) (hended : q.control.Ended) :
    (stop p).run h = .ok () h := by
  rw [stop_run hq, hended.leave, withControl_self hq]

theorem fault_ended (hq : h.processes[p]? = some q) (hended : q.control.Ended) :
    (fault p).run h = .ok () h := by
  rw [fault_run hq, hended.leave, withControl_self hq]

/-- What an execution reports is what its dispatch loop comes to, if the process has ended by
then. -/
theorem execute_of_dispatch {fuel : Nat} (hq : h.processes[p]? = some q) (hended : q.control.Ended)
    (hlater : ∃ q', (after (dispatch p fuel {}) h).processes[p]? = some q' ∧ q'.control.Ended) :
    (execute p fuel).run h = (dispatch p fuel {}).run h := by
  obtain ⟨q', hq', hended'⟩ := hlater
  rw [execute, run_bind_ok (process_run hq), if_neg hended.ne_ready]
  cases hdispatch : (dispatch p fuel {}).run h with
  | ok _ h' =>
    rw [after_of_ok hdispatch] at hq'
    rw [run_bind_ok (attempt_run_ok hdispatch)]
    exact stop_ended hq' hended'
  | error e h' =>
    rw [after_of_error hdispatch] at hq'
    rw [run_bind_ok (attempt_run_error hdispatch)]
    cases e with
    | error e =>
      dsimp only
      rw [run_bind_ok (fault_ended hq' hended')]
      rfl
    | crash => rfl

theorem executed_of_over {reply : FunctionId → List Cell → Reply} {k : Nat}
    (hover : ¬ (h.executed q reply k).Goes) (j : Nat) :
    h.executed q reply (k + j) = h.executed q reply k := by
  induction j with
  | zero => rfl
  | succ j ih =>
    show (h.executed q reply (k + j)).step reply q.segments turnTime = _
    rw [ih, Execution.step_of_not_goes turnTime hover]

theorem burst_run_of {n now : Nat} {frame : Frame} {pause : Pause} {s : Store}
    (hq : h.processes[p]? = some q)
    (hburst : Processor.burst q.segments q.control n h.now h.store frame = (pause, s, now)) :
    (burst p n frame).run h = .ok pause (h.during s now) := by
  rw [burst_run hq, hburst]

/-- The dispatch loop after the end, with a host call if the run comes to one. -/
theorem dispatch_after_end (hq : h.processes[p]? = some q) (hended : q.control.Ended)
    (fuel : Nat) (reply : FunctionId → List Cell → Reply) {y : Execution}
    (hy : y = h.executed q reply interval) :
    y.calls.length ≤ 1 ∧ (dispatch p (fuel + 1) {}).run h =
      match y.calls with
      | [] => (h.during y.store y.now).reported y.status
      | (id, args) :: _ => (discard (call p fuel id args)).run (h.during y.store y.now) := by
  have hover : ¬ y.Goes := by
    rw [hy]
    exact Execution.over_of_ended hended _
  have hlong : y = h.executed q reply burstLength := by
    rw [hy] at hover ⊢
    exact (executed_of_over hover (burstLength - interval)).symm
  rcases Execution.burst_of_ended hended burstLength hlong with
    ⟨next, -, hgoes⟩ | ⟨result, hburst, hstatus, hcalls⟩ | ⟨id, args, result, next, hburst, hcalls⟩
  · exact absurd hgoes hover
  · rw [hcalls]
    refine ⟨Nat.zero_le 1, ?_⟩
    rw [dispatch, run_bind_ok (burst_run_of hq hburst), hstatus]
    exact accept_run result
  · rw [hcalls]
    refine ⟨Nat.le_refl 1, ?_⟩
    rw [dispatch, run_bind_ok (burst_run_of hq hburst)]
    show _ = (call p fuel id args >>= fun _ => pure ()).run (h.during y.store y.now)
    -- Other runs may go on during the call, but none of them brings the process back.
    have hevolves := evolves_call (h.during y.store y.now) p fuel id args
    match hcall : (call p fuel id args).run (h.during y.store y.now) with
    | .ok value h' =>
      rw [after_of_ok hcall] at hevolves
      obtain ⟨q', hq', hgrows⟩ := hevolves.process p q hq
      dsimp only
      rw [run_bind_ok hcall, run_bind_ok hcall, run_bind_ok (process_run hq'),
        resume_of_ended (hgrows.control.ended hended)]
      rfl
    | .error e h' =>
      dsimp only
      rw [run_bind_error hcall, run_bind_error hcall]

/-- **Executing a process that has ended.** It makes at most 63 instructions, which write to its own
windows only and leave the control block, and calls at most one host function, as the last thing. A
failure of the call is reported; its answer is dropped, so what `reply` says does not matter. -/
theorem execute_after_end (hq : h.processes[p]? = some q) (hended : q.control.Ended)
    (fuel : Nat) (reply : FunctionId → List Cell → Reply) {x y : Execution}
    (hx : x = h.executed q reply 63) (hy : y = h.executed q reply interval) :
    ¬ y.Goes ∧ y.store = x.store ∧ y.calls = x.calls ∧ y.control = q.control ∧
    (∀ w, (∀ v ∈ q.segments.windows, ∀ pool i, w.Has pool i → ¬ v.Has pool i) →
      Store.Agree w h.store y.store) ∧
    y.calls.length ≤ 1 ∧
    (execute p (fuel + 1)).run h =
      match y.calls with
      | [] => (h.during y.store y.now).reported y.status
      | (id, args) :: _ => (discard (call p fuel id args)).run (h.during y.store y.now) := by
  have hlater : ∃ q', (after (dispatch p (fuel + 1) {}) h).processes[p]? = some q' ∧
      q'.control.Ended := by
    obtain ⟨q', hq', hgrows⟩ := (evolves_dispatch h p (fuel + 1) {}).process p q hq
    exact ⟨q', hq', hgrows.control.ended hended⟩
  obtain ⟨hstore, hcalls⟩ := Execution.last_turn_of_ended hended _ hx hy
  obtain ⟨hone, hdispatch⟩ := dispatch_after_end hq hended fuel reply hy
  refine ⟨?_, hstore, hcalls, ?_, ?_, hone, (execute_of_dispatch hq hended hlater).trans hdispatch⟩
  · rw [hy]
    exact Execution.over_of_ended hended _
  · rw [hy]
    exact Execution.control_run_of_ended hended _ interval
  · intro w hw
    rw [hy]
    exact Execution.agree_run (fun _ => turnTime) interval
      { store := h.store, control := q.control, now := h.now } hw

/-- The host with two processes of one script, of which the second was carved after the first was
disposed of, in a pool that has room for one. -/
def reused : Host :=
  let image : Image := ⟨[.make .movl 0 0 0 1, .make .halt 0 0 0 0], []⟩
  history {} (Event.furnish Probe.noop ++
    [.createProcess 0 image, .dispose 0, .createProcess 0 image])

theorem execute_after_end_reused :
    ∃ (q : Process) (y : Execution), reused.processes[0]? = some q ∧ q.control.Ended ∧
      y.calls = [] ∧ Store.Agree ⟨0, 0, 1⟩ reused.store y.store ∧
      (execute 0 1).run reused = (reused.during y.store y.now).reported y.status := by
  have hcheck : (reused.processes[0]?.any fun q => decide q.control.Ended &&
      q.segments.windows.all (fun v => 0 < v.offset) &&
      (reused.executed q (fun _ _ => .crash) interval).calls.isEmpty) = true := by
    decide +kernel
  obtain ⟨q, hq, hrest⟩ := (Option.any_eq_true _ _).1 hcheck
  simp only [Bool.and_eq_true, decide_eq_true_eq, List.all_eq_true, List.isEmpty_iff] at hrest
  obtain ⟨⟨hended, hwindows⟩, hcalls⟩ := hrest
  obtain ⟨-, -, -, -, hagree, -, hrun⟩ :=
    execute_after_end hq hended 0 (fun _ _ => .crash) rfl rfl
  rw [hcalls] at hrun
  refine ⟨q, _, hq, hended, hcalls, hagree ⟨0, 0, 1⟩ ?_, hrun⟩
  -- The first cell of the pool belongs to its records.
  rintro v hv pool i ⟨-, -, hlt⟩ ⟨-, hle, -⟩
  have hoffset := hwindows v hv
  dsimp only at hlt
  omega

/-- Executing a process that was disposed of changes a register of a process that was carved from
the same cells later. -/
theorem executing_alters_another :
    ∃ h q q', Arises h ∧ h.processes[0]? = some q ∧ q.control.disposed = true ∧
      q.control.state = .stopped ∧ h.processes[1]? = some q' ∧ q'.control.state = .ready ∧
      (after (execute 0 1) h).store.read q'.segments.registers ≠
        h.store.read q'.segments.registers := by
  have hfirst : (reused.processes[0]?.any fun q => q.control.disposed &&
      q.control.state = .stopped) = true := by
    decide +kernel
  have hsecond : (reused.processes[1]?.any fun q => q.control.state = .ready &&
      (after (execute 0 1) reused).store.read q.segments.registers ≠
        reused.store.read q.segments.registers) = true := by
    decide +kernel
  obtain ⟨q, hq, hdisposed⟩ := (Option.any_eq_true _ _).1 hfirst
  obtain ⟨q', hq', hready⟩ := (Option.any_eq_true _ _).1 hsecond
  simp only [Bool.and_eq_true, decide_eq_true_eq] at hdisposed hready
  exact ⟨reused, q, q', Arises.empty.history _, hq, hdisposed.1, hdisposed.2, hq', hready.1,
    hready.2⟩

end Host

end CellMachine
