import CellMachine.Peripheral.Probe
import CellMachine.Proofs.Host.Runs

/-!
# What a finished run leaves behind

A run is over as soon as its thread is, however that came about. A thread that returns has ended its
process and lowered the flag of its run before; a thread that crashes in a host function has done
neither.

* `Host.finished_unless_crashed`: after a run whose thread returned, the process has come to its end
  and disposing of it hands its segments over. After a crash the process is as it was, so one that
  was running still is, and disposing of it hands nothing over while its run is counted as under
  way.
-/

namespace CellMachine.Host

variable {h : Host} {p m : Nat} {q : Process} {parts : Parts}

/-! ## Disposing of a process that is settled -/

theorem machine_withControl (h : Host) (p i : Nat) (c : Control) :
    (h.withControl p c).processes[i]?.bind (·.machine) = h.processes[i]?.bind (·.machine) := by
  rw [withControl, Array.getElem?_modify]
  split
  · cases h.processes[i]? <;> rfl
  · rfl

/-- Whether a machine is there does not depend on control blocks. -/
theorem parts?_withControl (h : Host) (p m : Nat) (c : Control) :
    parts? (h.withControl p c) m = parts? h m := by
  have hpresent : isPresent (h.withControl p c) m = isPresent h m := by
    simp only [isPresent, machine_withControl]
    rfl
  rw [parts?, parts?, hpresent]
  rfl

theorem after_handOver (hm : q.machine = some m) (hp : parts? h m = some parts) :
    after (handOver q) h =
      h.withAllocator m (after (Carver.release q.segments) (parts.allocator, h.store)) := by
  have hmemory : after (withMemory m fun _ => Carver.release q.segments) h =
      h.withAllocator m (after (Carver.release q.segments) (parts.allocator, h.store)) := by
    rw [after, withMemory_run hp, after, EStateM.run]
    cases Carver.release q.segments (parts.allocator, h.store) <;> rfl
  rw [handOver, hm]
  dsimp only
  rw [after_bind, EStateM.run_get]
  dsimp only
  rw [hp]
  dsimp only
  obtain ⟨x, hx⟩ := attempt_run (withMemory m fun _ => Carver.release q.segments) h
  rw [after_bind, hx, ← hmemory]
  dsimp only
  split <;> rfl

/-- Disposing of a process whose run is over, for the first time, hands its segments over. -/
theorem dispose_settled (hb : h.Booked) (hq : h.processes[p]? = some q)
    (hsettled : q.control.Settled) (hdisposed : q.control.disposed = false)
    (hm : q.machine = some m) (hp : parts? h m = some parts) :
    after (dispose p) h =
      (h.withControl p (q.control.close h.now).swapReleased.2).withAllocator m
        (after (Carver.release q.segments) (parts.allocator, h.store)) := by
  -- By the books, only a process that was disposed of has given its segments back.
  have hreleased : ¬ (q.control.close h.now).released = true := by
    intro hreleased
    exact absurd (hdisposed.symm.trans (hb.released p q hq hreleased)) nofun
  have hactive : ¬ q.control.runActive = true := by
    rw [hsettled.idle]
    exact nofun
  have hrun := dispose_alone hq
  rw [Process.alone_disposing h.now 0, if_neg (Bool.eq_false_iff.1 hdisposed), if_neg hactive,
    Process.alone_releasing h.now 0, if_neg hreleased, settle_run hq] at hrun
  rw [after_congr hrun]
  exact after_handOver hm ((parts?_withControl ..).trans hp)

/-! ## Crashes -/

section
variable {r : Nat} {run : BackgroundRun} {s : Service}

/-- The crash of a host function ends the run and nothing else. -/
theorem slice_crash (hrun : h.runs[r]? = some run) (hserving : run.activity = .serving s)
    (heffects : s.effects = []) (hreply : s.reply = .crash)
    (hq : h.processes[run.process]? = some q) (hheld : q.held = true) :
    after (slice r) h = { h with
      runs := h.runs.modify r fun run =>
        { run with activity := .finished, job := run.job.finish .crashed } } := by
  have hcollect : (collect run.process).run h = .ok () h := by
    rw [collect, run_bind_ok (process_run hq), hheld]
    rfl
  have hattempt := attempt_run_ok hcollect
  have hserve : (serve r run.process s).run h = (collapse r run.process).run h := by
    rw [serve, heffects]
    dsimp only
    rw [hreply]
    rfl
  rw [slice, after_bind, EStateM.run_get]
  dsimp only
  rw [hrun]
  dsimp only
  rw [hserving]
  dsimp only
  rw [after_bind, hserve, collapse, run_bind_ok hattempt]
  rfl

/-- Disposing of a process whose run is counted as under way hands nothing over. -/
theorem dispose_active (hq : h.processes[p]? = some q) (hactive : q.control.runActive = true)
    (hdisposed : q.control.disposed = false) :
    after (dispose p) h = h.withControl p (q.control.close h.now) := by
  have hrun := dispose_alone hq
  rw [Process.alone_disposing h.now 0, if_neg (Bool.eq_false_iff.1 hdisposed), if_pos hactive,
    settle_run hq] at hrun
  exact after_of_ok hrun

theorem dispose_active_memory (hq : h.processes[p]? = some q) (hactive : q.control.runActive = true)
    (hdisposed : q.control.disposed = false) :
    (after (dispose p) h).machines = h.machines ∧ (after (dispose p) h).store = h.store := by
  rw [dispose_active hq hactive hdisposed]
  exact ⟨rfl, rfl⟩

/-- **A finished run leaves a finished process, unless its thread crashed.** The first part is about
every host that some history leads to, so it also speaks of everything after the run; the second is
about the slice in which a host function crashes. -/
theorem finished_unless_crashed (ha : Arises h) (hrun : h.runs[r]? = some run) :
    (isDone r h = true → run.job.lost = false →
      ∃ q, h.processes[run.process]? = some q ∧ q.control.Ended ∧
        (q.control.disposed = true → q.control.released = true) ∧
        (q.control.disposed = false → ∀ m parts, q.machine = some m → parts? h m = some parts →
          after (dispose run.process) h =
            (h.withControl run.process (q.control.close h.now).swapReleased.2).withAllocator m
              (after (Carver.release q.segments) (parts.allocator, h.store)))) ∧
    (∀ s q, run.activity = .serving s → s.effects = [] → s.reply = .crash →
      h.processes[run.process]? = some q → q.held = true →
      isDone r (after (slice r) h) = true ∧
        (after (slice r) h).processes[run.process]? = some q ∧
        (q.control.runActive = true → q.control.disposed = false →
          after (dispose run.process) (after (slice r) h) =
            (after (slice r) h).withControl run.process (q.control.close h.now))) := by
  constructor
  · intro hdone hkept
    rw [isDone, hrun] at hdone
    obtain ⟨q, hq, -, hsettled⟩ := ha.booked.run r run hrun
    have hsettled := hsettled hdone hkept
    refine ⟨q, hq, hsettled.ended, hsettled.released, ?_⟩
    intro hdisposed m parts hm hp
    exact dispose_settled ha.booked hq hsettled hdisposed hm hp
  · intro s q hserving heffects hreply hq hheld
    rw [slice_crash hrun hserving heffects hreply hq hheld]
    refine ⟨?_, hq, dispose_active hq⟩
    rw [isDone, Array.getElem?_modify, if_pos rfl, hrun]
    rfl

end

/-- The host with a process that calls `f` and halts, after `n` slices of its run. -/
def trial (f : HostFunction) (n : Nat) : Host :=
  history {} (Event.furnish f ++
    [.createProcess 0 ⟨[.make .callp 0 0 0 0, .make .halt 0 0 0 0], []⟩, .run 0] ++
    List.replicate n (.slice 0))

theorem arises_trial (f : HostFunction) (n : Nat) : Arises (trial f n) := Arises.empty.history _

theorem finished_unless_crashed_trial :
    (∃ q parts, isDone 0 (trial Probe.noop 3) = true ∧
      (trial Probe.noop 3).processes[0]? = some q ∧ q.control.Ended ∧
      parts? (trial Probe.noop 3) 0 = some parts ∧
      after (dispose 0) (trial Probe.noop 3) =
        ((trial Probe.noop 3).withControl 0
          (q.control.close (trial Probe.noop 3).now).swapReleased.2).withAllocator 0
            (after (Carver.release q.segments) (parts.allocator, (trial Probe.noop 3).store))) ∧
    (∃ q, q.control.state = .running ∧ isDone 0 (after (slice 0) (trial Probe.crash 1)) = true ∧
      (after (slice 0) (trial Probe.crash 1)).processes[0]? = some q ∧
      after (dispose 0) (after (slice 0) (trial Probe.crash 1)) =
        (after (slice 0) (trial Probe.crash 1)).withControl 0
          (q.control.close (trial Probe.crash 1).now)) := by
  constructor
  · have hruns : ((trial Probe.noop 3).runs[0]?.any fun run =>
        run.process = 0 && !run.job.lost) = true := by
      decide +kernel
    have hprocesses : ((trial Probe.noop 3).processes[0]?.all fun q =>
        q.machine = some 0 && !q.control.disposed) = true := by
      decide +kernel
    have hparts : (parts? (trial Probe.noop 3) 0).isSome = true := by decide +kernel
    have hdone : isDone 0 (trial Probe.noop 3) = true := by decide +kernel
    obtain ⟨run, hrun, hkept⟩ := (Option.any_eq_true _ _).1 hruns
    obtain ⟨hzero, hkept⟩ : run.process = 0 ∧ run.job.lost = false := by simpa using hkept
    obtain ⟨q, hq, hended, -, hdispose⟩ :=
      (finished_unless_crashed (arises_trial ..) hrun).1 hdone hkept
    rw [hzero] at hq hdispose
    obtain ⟨hm, hdisposed⟩ : q.machine = some 0 ∧ q.control.disposed = false := by
      simpa [hq] using hprocesses
    obtain ⟨parts, hp⟩ := Option.isSome_iff_exists.1 hparts
    exact ⟨q, parts, hdone, hq, hended, hp, hdispose hdisposed 0 parts hm hp⟩
  · have hruns : ((trial Probe.crash 1).runs[0]?.any fun run => run.process = 0 &&
        match run.activity with
        | .serving s => s.effects = [] && s.reply = .crash
        | _ => false) = true := by
      decide +kernel
    have hprocesses : ((trial Probe.crash 1).processes[0]?.any fun q => q.held &&
        q.control.state = .running && q.control.runActive && !q.control.disposed) = true := by
      decide +kernel
    obtain ⟨run, hrun, hserving⟩ := (Option.any_eq_true _ _).1 hruns
    obtain ⟨q, hq, hcontrol⟩ := (Option.any_eq_true _ _).1 hprocesses
    simp only [Bool.and_eq_true, decide_eq_true_eq, Bool.not_eq_true'] at hserving hcontrol
    obtain ⟨⟨⟨hheld, hstate⟩, hactive⟩, hdisposed⟩ := hcontrol
    obtain ⟨hzero, hserving⟩ := hserving
    split at hserving
    · rename_i s hactivity
      simp only [Bool.and_eq_true, decide_eq_true_eq] at hserving
      obtain ⟨hdone, hsame, hdispose⟩ := (finished_unless_crashed (arises_trial ..) hrun).2 s q
        hactivity hserving.1 hserving.2 (hzero ▸ hq) hheld
      rw [hzero] at hsame hdispose
      exact ⟨q, hstate, hdone, hsame, hdispose hactive hdisposed⟩
    · cases hserving

/-- After the crash of a host function, a run that is over has left a running process on a live
machine, and disposing of it gives no window back. -/
theorem finished_but_running :
    ∃ h r run q parts, Arises h ∧ h.runs[r]? = some run ∧ isDone r h = true ∧
      h.processes[run.process]? = some q ∧ q.control.state = .running ∧ q.machine = some 0 ∧
      parts? h 0 = some parts ∧ (after (dispose run.process) h).machines = h.machines ∧
      (after (dispose run.process) h).store = h.store := by
  have hruns : ((trial Probe.crash 2).runs[0]?.any fun run => run.process = 0) = true := by
    decide +kernel
  have hprocesses : ((trial Probe.crash 2).processes[0]?.any fun q => q.machine = some 0 &&
      q.control.state = .running && q.control.runActive && !q.control.disposed) = true := by
    decide +kernel
  have hparts : (parts? (trial Probe.crash 2) 0).isSome = true := by decide +kernel
  have hdone : isDone 0 (trial Probe.crash 2) = true := by decide +kernel
  obtain ⟨run, hrun, hzero⟩ := (Option.any_eq_true _ _).1 hruns
  obtain ⟨q, hq, hcontrol⟩ := (Option.any_eq_true _ _).1 hprocesses
  obtain ⟨parts, hp⟩ := Option.isSome_iff_exists.1 hparts
  simp only [Bool.and_eq_true, decide_eq_true_eq, Bool.not_eq_true'] at hzero hcontrol
  obtain ⟨⟨⟨hm, hstate⟩, hactive⟩, hdisposed⟩ := hcontrol
  have hq' : (trial Probe.crash 2).processes[run.process]? = some q := by
    rw [hzero]
    exact hq
  exact ⟨_, 0, run, q, parts, arises_trial .., hrun, hdone, hq', hstate, hm, hp,
    dispose_active_memory hq' hactive hdisposed⟩

end CellMachine.Host
