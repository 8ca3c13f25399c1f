import CellMachine.Host.Schedule
import CellMachine.Proofs.Allocator.Records
import Mathlib.Logic.Function.Basic

/-!
# The parties to a process

Callers and run threads share one control block and take turns access by access. A party is known
by where it stands: its `Place` is the access it makes next. `access` is that access, and `Step`
lets any party go on.

* `Host.run_alone`, `Host.dispose_alone`, `Host.finishRun_alone`, `Host.stop_alone`,
  `Host.fault_alone`: what the host does in one go is the accesses of one party that nobody
  interrupts, and it hands the segments over exactly when that party does.

Only the flag of the background run is a lock that a party keeps from one access to the next: the
end of a run reads the disposed flag under it.
-/

namespace CellMachine.Process

/-! ## Places -/

/-- Who makes a call: a caller from outside, or the thread of a background run. -/
inductive Who where
  | caller
  | thread
  deriving DecidableEq

/-- What a process is started for. -/
inductive Purpose where
  | run
  | start
  | execute (who : Who)
  deriving DecidableEq

/-- How a process that was running ends. -/
inductive Ending where
  | stopped
  | faulted
  deriving DecidableEq

/-- The state it ends in. -/
def Ending.state : Ending → ProcessState
  | stopped => .stopped
  | faulted => .faulted

/-- Where a party stands, which says what it does next. -/
inductive Place where
  /-- A thread not spawned so far. -/
  | unborn
  /-- A caller between calls. -/
  | idle
  /-- A thread that returned. -/
  | gone
  /-- A thread that a host function crashed. -/
  | lost
  /-- Raises the flag of the background run. -/
  | raising
  /-- Starting, reads the disposed flag. -/
  | checking (why : Purpose)
  /-- Starting, takes a ready process to running. -/
  | entering (why : Purpose)
  /-- Spawns the thread. -/
  | spawning
  /-- The thread could not be spawned; faults the process. -/
  | unspawned
  /-- Executing, reads the state first. -/
  | looking (who : Who)
  /-- In the dispatch loop. -/
  | dispatching (who : Who)
  /-- Takes a running process to its end. -/
  | leaving (ending : Ending) (who : Who)
  /-- The run is over or failed; lowers its flag and keeps the lock of it. -/
  | lowering (who : Who)
  /-- Reads the disposed flag and gives up the lock. -/
  | holding (who : Who)
  /-- Sets the released flag. -/
  | releasing (who : Who)
  /-- Hands the segments over. -/
  | handing (who : Who)
  /-- Sets the disposed flag. -/
  | disposing
  /-- Disposing, makes the process stopped. -/
  | stopping
  /-- Disposing, stops the clock. -/
  | clocking
  /-- Disposing, reads the flag of the background run. -/
  | deciding
  deriving DecidableEq

/-- Where a party stands after its last access. -/
def Who.done : Who → Place
  | caller => .idle
  | thread => .gone

/-- Where a party stands once it has executed the process. -/
def Who.executed : Who → Place
  | caller => .idle
  | thread => .lowering .thread

/-- Where a party stands when a host function crashed. -/
def Who.crashed : Who → Place
  | caller => .idle
  | thread => .lost

/-- Where a party stands whose start was refused. -/
def Purpose.refused : Purpose → Place
  | run => .lowering .caller
  | start => .idle
  | execute who => who.executed

/-- Where a party stands that started the process. -/
def Purpose.started : Purpose → Place
  | run => .spawning
  | start => .idle
  | execute who => .dispatching who

/-- What a caller may call. -/
inductive Call where
  | run
  | start
  | stop
  | fault
  | execute
  | dispose
  deriving DecidableEq

/-- Where a call begins. -/
def Call.entry : Call → Place
  | run => .raising
  | start => .checking .start
  | stop => .leaving .stopped .caller
  | fault => .leaving .faulted .caller
  | execute => .looking .caller
  | dispose => .disposing

/-! ## Accesses -/

/-- What the parties share: the control block, and how often the segments were handed over. -/
structure Shared where
  control : Control
  handed : Nat := 0

/-- The access a party makes where it stands, and where it stands then. Spawning and dispatching end
when they end, see `Step`. -/
def access (now : Nat) (s : Shared) : Place → Shared × Place
  | .raising => ({ s with control := s.control.raiseActive }, .checking .run)
  | .checking why => (s, if s.control.disposed then why.refused else .entering why)
  | .entering why =>
    match s.control.enterRunning now with
    | .ok c => ({ s with control := c }, why.started)
    | .error _ => (s, why.refused)
  | .unspawned => ({ s with control := s.control.leave .faulted now }, .lowering .caller)
  | .looking who =>
    (s, if s.control.state = .ready then .checking (.execute who) else .dispatching who)
  | .leaving ending who =>
    ({ s with control := s.control.leave ending.state now }, who.executed)
  | .lowering who => ({ s with control := s.control.lowerActive }, .holding who)
  | .holding who => (s, if s.control.disposed then .releasing who else who.done)
  | .releasing who =>
    let (before, c) := s.control.swapReleased
    ({ s with control := c }, if before then who.done else .handing who)
  | .handing who => ({ s with handed := s.handed + 1 }, who.done)
  | .disposing =>
    let (before, c) := s.control.swapDisposed
    ({ s with control := c }, if before then .idle else .stopping)
  | .stopping => ({ s with control := s.control.writeStopped }, .clocking)
  | .clocking => ({ s with control := s.control.stopClock now }, .deciding)
  | .deciding => (s, if s.control.runActive then .idle else .releasing .caller)
  | place => (s, place)

/-- `n` accesses of one party in a row, at one time. -/
def alone (now : Nat) : (n : Nat) → Shared → Place → Shared × Place
  | 0, s, place => (s, place)
  | n + 1, s, place =>
    let (s, place) := access now s place
    alone now n s place

/-! ## Steps -/

/-- The access is one to the flag of the background run. -/
@[simp]
def Place.UsesFlag : Place → Prop
  | .raising | .lowering _ | .deciding => True
  | _ => False

/-- A process with all its parties. -/
structure Parties where
  shared : Shared
  place : Nat → Place

namespace Parties

/-- A new process. No call has been made and no thread spawned; there is no end of either. -/
def fresh (watchdogMs : Nat) : Parties where
  shared := { control := { watchdogMs } }
  place i := if i % 2 = 0 then .idle else .unborn

/-- The control block. -/
def control (s : Parties) : Control := s.shared.control

/-- How often the segments were handed over. -/
def handed (s : Parties) : Nat := s.shared.handed

/-- The state after a party made an access. -/
def put (s : Parties) (i : Nat) (next : Shared × Place) : Parties :=
  ⟨next.1, Function.update s.place i next.2⟩

/-- The state after a party went to another place. -/
def send (s : Parties) (i : Nat) (place : Place) : Parties := s.put i (s.shared, place)

section
variable (s : Parties) (i : Nat) (next : Shared × Place)

@[simp] theorem handed_put : (s.put i next).handed = next.1.handed := rfl

@[simp] theorem shared_put : (s.put i next).shared = next.1 := rfl

@[simp] theorem place_put_self : (s.put i next).place i = next.2 := Function.update_self ..

theorem place_put_ne {k : Nat} (h : k ≠ i) : (s.put i next).place k = s.place k :=
  Function.update_of_ne h ..

theorem put_put (last : Shared × Place) : (s.put i next).put i last = s.put i last := by
  simp only [put, Function.update_idem]

end

/-- No party keeps the lock of the flag. -/
def Free (s : Parties) : Prop := ∀ i who, s.place i ≠ .holding who

/-- One party goes on. -/
inductive Step (s : Parties) (i : Nat) : Parties → Prop where
  /-- Makes its next access. One to the flag waits for the lock. -/
  | access (now : Nat) (free : (s.place i).UsesFlag → s.Free) :
    Step s i (s.put i (access now s.shared (s.place i)))
  | call (c : Call) (idle : s.place i = .idle) : Step s i (s.send i c.entry)
  /-- A run spawns its thread, and returns. -/
  | spawn (j : Nat) (here : s.place i = .spawning) (unborn : s.place j = .unborn) :
    Step s i ((s.send i .idle).send j (.looking .thread))
  /-- There is no thread to be had. -/
  | refuse (here : s.place i = .spawning) : Step s i (s.send i .unspawned)
  /-- The dispatch loop ends, normally or with an error. -/
  | finish (who : Who) (ending : Ending) (here : s.place i = .dispatching who) :
    Step s i (s.send i (.leaving ending who))
  /-- A host function crashes. -/
  | crash (who : Who) (here : s.place i = .dispatching who) : Step s i (s.send i who.crashed)

/-- One state leads to another. -/
inductive Leads : Parties → Parties → Prop where
  | refl (s : Parties) : Leads s s
  | step {s t u : Parties} {i : Nat} (h : Leads s t) (hi : Step t i u) : Leads s u

theorem Leads.trans {s t u : Parties} (h : Leads s t) (h' : Leads t u) : Leads s u := by
  induction h' with
  | refl => exact h
  | step _ hi ih => exact .step ih hi

variable {s : Parties} {i : Nat}

theorem Free.put (hs : s.Free) {next : Shared × Place} (hq : ∀ who, next.2 ≠ .holding who) :
    (s.put i next).Free := by
  intro k
  by_cases hki : k = i
  · subst hki
    simpa using hq
  · rw [place_put_ne _ _ _ hki]
    exact hs k

end Parties

/-! ## A party alone -/

section
variable (now n : Nat) (s : Shared) (who : Who)

/-- A party may go on alone unless another one keeps the lock. -/
theorem Parties.leads_alone {s : Parties} {i : Nat}
    (hs : ∀ k, k ≠ i → ∀ who, s.place k ≠ .holding who) :
    Leads s (s.put i (alone now n s.shared (s.place i))) := by
  induction n generalizing s with
  | zero =>
    have hsame : s.put i (s.shared, s.place i) = s := by
      simp only [put, Function.update_eq_self]
    rw [alone, hsame]
    exact .refl s
  | succ n ih =>
    have hfree : (s.place i).UsesFlag → s.Free := by
      intro hi k who hk
      by_cases hki : k = i
      · subst hki
        simp [hk] at hi
      · exact hs k hki who hk
    have hrest := ih (s := s.put i (access now s.shared (s.place i))) fun k hki who => by
      rw [place_put_ne _ _ _ hki]
      exact hs k hki who
    rw [shared_put, place_put_self, put_put] at hrest
    exact (Leads.step (.refl s) (.access now hfree)).trans hrest

theorem Parties.leads_call {s : Parties} {i : Nat}
    (hs : ∀ k, k ≠ i → ∀ who, s.place k ≠ .holding who) (hi : s.place i = .idle) (c : Call) :
    Leads s (s.put i (alone now n s.shared c.entry)) := by
  have hrest := leads_alone now n (s := s.send i c.entry) (i := i) fun k hki who => by
    rw [send, place_put_ne _ _ _ hki]
    exact hs k hki who
  rw [send, shared_put, place_put_self, put_put] at hrest
  exact (Leads.step (.refl s) (.call c hi)).trans hrest

theorem alone_of_rest {place : Place} (h : access now s place = (s, place)) :
    alone now n s place = (s, place) := by
  induction n with
  | zero => rfl
  | succ n ih => simp only [alone, h, ih]

theorem alone_done : alone now n s who.done = (s, who.done) := by
  cases who <;> exact alone_of_rest now n s rfl

theorem alone_releasing :
    alone now (n + 2) s (.releasing who) =
      if s.control.released then (s, who.done)
      else (⟨s.control.swapReleased.2, s.handed + 1⟩, who.done) := by
  show alone now (n + 1) { s with control := s.control.swapReleased.2 }
    (if s.control.released then who.done else .handing who) = _
  by_cases hr : s.control.released = true
  · have hsame : s.control.swapReleased.2 = s.control := by
      rw [Control.swapReleased, ← hr]
    rw [if_pos hr, if_pos hr, alone_done, hsame]
  · rw [if_neg hr, if_neg hr]
    exact alone_done now n _ who

theorem alone_lowering :
    alone now (n + 4) s (.lowering who) =
      if s.control.disposed then
        alone now (n + 2) { s with control := s.control.lowerActive } (.releasing who)
      else ({ s with control := s.control.lowerActive }, who.done) := by
  show alone now (n + 2) { s with control := s.control.lowerActive }
    (if s.control.disposed then .releasing who else who.done) = _
  by_cases hd : s.control.disposed = true
  · rw [if_pos hd, if_pos hd]
  · rw [if_neg hd, if_neg hd, alone_done]

theorem alone_lowering_snd : (alone now (n + 4) s (.lowering who)).2 = who.done := by
  rw [alone_lowering, alone_releasing]
  split
  · split <;> rfl
  · rfl

theorem alone_disposing :
    alone now (n + 6) s .disposing =
      if s.control.disposed then (s, .idle)
      else if s.control.runActive then ({ s with control := s.control.close now }, .idle)
      else alone now (n + 2) { s with control := s.control.close now } (.releasing .caller) := by
  show alone now (n + 5) { s with control := s.control.swapDisposed.2 }
    (if s.control.disposed then .idle else .stopping) = _
  by_cases hd : s.control.disposed = true
  · have hsame : s.control.swapDisposed.2 = s.control := by
      rw [Control.swapDisposed, ← hd]
    rw [if_pos hd, if_pos hd, hsame]
    exact alone_of_rest now _ s rfl
  · rw [if_neg hd, if_neg hd]
    show alone now (n + 2) { s with control := s.control.close now }
      (if s.control.runActive then .idle else .releasing .caller) = _
    by_cases ha : s.control.runActive = true
    · rw [if_pos ha, if_pos ha]
      exact alone_of_rest now _ _ rfl
    · rw [if_neg ha, if_neg ha]

theorem alone_lowering_add :
    alone now (n + 5) s (.lowering who) = alone now (n + 4) s (.lowering who) := by
  rw [alone_lowering, alone_releasing, alone_lowering, alone_releasing]

theorem alone_raising (id : Int) :
    alone now (n + 7) s .raising =
      match s.control.raiseActive.start id now with
      | .ok c => ({ s with control := c }, .spawning)
      | .error _ =>
        alone now (n + 4) { s with control := s.control.raiseActive } (.lowering .caller) := by
  show alone now (n + 5) { s with control := s.control.raiseActive }
    (if s.control.disposed then .lowering .caller else .entering .run) = _
  unfold Control.start
  by_cases hd : s.control.disposed = true
  · have hd' : s.control.raiseActive.disposed = true := hd
    rw [if_pos hd, if_pos hd', alone_lowering_add]
  · have hd' : ¬ s.control.raiseActive.disposed = true := hd
    rw [if_neg hd, if_neg hd', alone]
    simp only [access]
    cases s.control.raiseActive.enterRunning now with
    | ok c => exact alone_of_rest now _ _ rfl
    | error state => rfl

end

end CellMachine.Process

namespace CellMachine

/-! ## What the host does in one go -/

namespace Host

/-- The host with another control block for a process. -/
def withControl (h : Host) (p : Nat) (c : Control) : Host :=
  { h with processes := h.processes.modify p fun q => { q with control := c } }

/-- Hands the segments of a process over to its machine, if it is still there. -/
def handOver (q : Process) : HostM Unit := do
  match q.machine with
  | none => pure ()
  | some m =>
    match parts? (← get) m with
    | none => pure ()
    | some _ =>
      match ← attempt (withMemory m fun _ => Carver.release q.segments) with
      | .error .crash => throw .crash
      | _ => pure ()

/-- The host after a process was left in a control block, and its segments handed over if so. -/
def settle (p : Nat) (q : Process) (s : Process.Shared) : HostM Unit := do
  modifyControl p fun _ => s.control
  if s.handed ≠ 0 then handOver q

variable {h : Host} {p : Nat} {q : Process}

theorem modify_congr {xs : Array Process} {f g : Process → Process} (hq : xs[p]? = some q)
    (hfg : f q = g q) : xs.modify p f = xs.modify p g := by
  apply Array.ext_getElem?
  intro i
  rw [Array.getElem?_modify, Array.getElem?_modify]
  by_cases hi : p = i
  · subst hi
    simp [hq, hfg]
  · simp [hi]

theorem withControl_self (hq : h.processes[p]? = some q) : h.withControl p q.control = h := by
  have hsame : h.processes.modify p id = h.processes := by
    apply Array.ext_getElem?
    intro i
    simp [Array.getElem?_modify]
  rw [withControl, modify_congr (f := fun r => { r with control := q.control }) (g := id) hq rfl,
    hsame]

theorem withControl_withControl (c c' : Control) :
    (h.withControl p c).withControl p c' = h.withControl p c' := by
  have hsame : (h.processes.modify p fun r => { r with control := c }).modify p
      (fun r => { r with control := c' }) =
        h.processes.modify p fun r => { r with control := c' } := by
    apply Array.ext_getElem?
    intro i
    simp only [Array.getElem?_modify]
    split <;> simp [Function.comp_def]
  simp only [withControl, hsame]

theorem process_withControl (hq : h.processes[p]? = some q) (c : Control) :
    (h.withControl p c).processes[p]? = some { q with control := c } := by
  simp [withControl, Array.getElem?_modify, hq]

theorem modifyControl_run (hq : h.processes[p]? = some q) (f : Control → Control) :
    (modifyControl p f).run h = .ok () (h.withControl p (f q.control)) := by
  rw [withControl, ← modify_congr (f := fun r => { r with control := f r.control }) hq rfl]
  rfl

theorem process_run (hq : h.processes[p]? = some q) : (process p).run h = .ok q h := by
  rw [process, run_bind_ok (EStateM.run_get h), hq]
  rfl

theorem settle_run (hq : h.processes[p]? = some q) (s : Process.Shared) :
    (settle p q s).run h =
      if s.handed = 0 then .ok () (h.withControl p s.control)
      else (handOver q).run (h.withControl p s.control) := by
  rw [settle, run_bind_ok (modifyControl_run hq _)]
  by_cases hs : s.handed = 0
  · rw [if_neg (not_not_intro hs), if_pos hs]
    rfl
  · rw [if_pos hs, if_neg hs]

theorem settle_withControl (hq : h.processes[p]? = some q) (c : Control) (s : Process.Shared) :
    (settle p { q with control := c } s).run (h.withControl p c) = (settle p q s).run h := by
  rw [settle_run hq, settle_run (process_withControl hq c), withControl_withControl]
  rfl

theorem releaseSegments_alone (hq : h.processes[p]? = some q) (now : Nat) (who : Process.Who) :
    (releaseSegments p).run h =
      (settle p q (Process.alone now 2 ⟨q.control, 0⟩ (.releasing who)).1).run h := by
  rw [releaseSegments, run_bind_ok (process_run hq), settle_run hq, Process.alone_releasing now 0]
  by_cases hr : q.control.released = true
  · simp [Control.swapReleased, hr, withControl_self hq]
  · simp only [Control.swapReleased, hr, Bool.false_eq_true, if_false, Nat.zero_add,
      Nat.one_ne_zero]
    rw [run_bind_ok (modifyControl_run hq _)]
    rfl

theorem finishRun_alone (hq : h.processes[p]? = some q) (now : Nat) (who : Process.Who) :
    (finishRun p).run h =
      (settle p q (Process.alone now 4 ⟨q.control, 0⟩ (.lowering who)).1).run h := by
  have hq' := process_withControl hq q.control.lowerActive
  rw [finishRun, run_bind_ok (modifyControl_run hq _), run_bind_ok (process_run hq'),
    Process.alone_lowering now 0]
  by_cases hd : q.control.disposed = true
  · have hd' : q.control.lowerActive.disposed = true := hd
    rw [if_pos hd, if_pos hd', releaseSegments_alone hq' now who, settle_withControl hq]
  · have hd' : ¬ q.control.lowerActive.disposed = true := hd
    rw [if_neg hd, if_neg hd', settle_run hq]
    rfl

theorem dispose_alone (hq : h.processes[p]? = some q) :
    (dispose p).run h =
      (settle p q (Process.alone h.now 6 ⟨q.control, 0⟩ .disposing).1).run h := by
  have hq' := process_withControl hq (q.control.close h.now)
  rw [dispose, run_bind_ok (process_run hq), Process.alone_disposing h.now 0]
  by_cases hd : q.control.disposed = true
  · rw [if_pos hd, if_pos hd, settle_run hq, if_pos rfl, withControl_self hq]
    rfl
  · rw [if_neg hd, if_neg hd, run_bind_ok (EStateM.run_get h), run_bind_ok (modifyControl_run hq _)]
    by_cases ha : q.control.runActive = true
    · rw [if_pos ha, if_pos ha, settle_run hq]
      rfl
    · rw [if_neg ha, if_neg ha, releaseSegments_alone hq' h.now .caller, settle_withControl hq]

theorem stop_alone (hq : h.processes[p]? = some q) (who : Process.Who) :
    (stop p).run h =
      (settle p q (Process.alone h.now 1 ⟨q.control, 0⟩ (.leaving .stopped who)).1).run h := by
  rw [settle_run hq, stop, run_bind_ok (EStateM.run_get h), modifyControl_run hq]
  rfl

theorem fault_alone (hq : h.processes[p]? = some q) (who : Process.Who) :
    (fault p).run h =
      (settle p q (Process.alone h.now 1 ⟨q.control, 0⟩ (.leaving .faulted who)).1).run h := by
  rw [settle_run hq, fault, run_bind_ok (EStateM.run_get h), modifyControl_run hq]
  rfl

theorem start_run (hq : h.processes[p]? = some q) :
    (start p).run h =
      match q.control.start q.id h.now with
      | .ok c => .ok () (h.withControl p c)
      | .error e => .error (.error e) h := by
  rw [start, run_bind_ok (process_run hq), run_bind_ok (EStateM.run_get h)]
  cases q.control.start q.id h.now with
  | ok c => rw [accept, pure_bind, modifyControl_run hq]
  | error e => rfl

theorem attempt_start_run (hq : h.processes[p]? = some q) :
    (attempt (start p)).run h =
      match q.control.start q.id h.now with
      | .ok c => .ok (.ok ()) (h.withControl p c)
      | .error e => .ok (.error (.error e)) h := by
  have hstart : start p h = _ := start_run hq
  show attempt (start p) h = _
  rw [attempt, hstart]
  cases q.control.start q.id h.now <;> rfl

/-- One more run of a process. -/
def addRun (p : Nat) (q : Process) : HostM Nat := do
  let h ← get
  set { h with
    runs := h.runs.push
      { process := p, job := { name := "burrow-process-" ++ Int.repr q.id } } }
  pure h.runs.size

/-- **Running alone** is the accesses of a run up to the moment it spawns its thread, or to the end
of the run that was refused. -/
theorem run_alone {m : Nat} {parts : Parts} (hq : h.processes[p]? = some q)
    (hm : q.machine = some m) (hp : parts? h m = some parts) :
    ∃ e, (run p).run h = (do
      let (s, place) := Process.alone h.now 7 ⟨q.control, 0⟩ .raising
      settle p q s
      if place = .spawning then addRun p q else throw e : HostM Nat).run h := by
  have hq' := process_withControl hq q.control.raiseActive
  have hparts : (Host.parts m).run h = .ok parts h := by
    rw [Host.parts, run_bind_ok (EStateM.run_get h), hp]
    rfl
  have hattempt := attempt_start_run hq'
  rw [show (h.withControl p q.control.raiseActive).now = h.now from rfl] at hattempt
  rw [Process.alone_raising h.now 0 _ q.id, run, run_bind_ok (process_run hq), hm,
    run_bind_ok hparts, run_bind_ok (modifyControl_run hq _)]
  cases hc : q.control.raiseActive.start q.id h.now with
  | ok c =>
    simp only [hc, withControl_withControl] at hattempt
    have hsettle : (settle p q ⟨c, 0⟩).run h = .ok () (h.withControl p c) := by
      rw [settle_run hq, if_pos rfl]
    refine ⟨.crash, ?_⟩
    simp only
    rw [run_bind_ok hattempt, run_bind_ok hsettle]
    rfl
  | error e =>
    simp only [hc] at hattempt
    -- The failed run is finished before the refusal is passed on.
    have hfinish := finishRun_alone hq' h.now .caller
    rw [settle_withControl hq] at hfinish
    have hplace : (Process.alone h.now 4 ⟨q.control.raiseActive, 0⟩ (.lowering .caller)).2 ≠
        .spawning := by
      rw [Process.alone_lowering_snd h.now 0]
      exact nofun
    refine ⟨.error e, ?_⟩
    simp only
    rw [run_bind_ok hattempt]
    simp only
    rw [EStateM.run_bind, EStateM.run_bind, hfinish, if_neg hplace]
    rfl

end Host

end CellMachine
