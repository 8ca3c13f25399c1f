import CellMachine.Proofs.Host.Evolution

/-!
# Background runs and what is left of them

The thread of a run ends its process, lowers the flag of the run and only then is over; all that is
known of it afterwards stands in its job. Everything anybody can do to a host is an `Event`.

* `Host.evolves_event`: no event undoes what lasts, nor does it spoil the books.
-/

namespace CellMachine.Host

variable {h : Host} {p r : Nat} {q : Process}

/-! ## The end of a run -/

/-- Run `r` is one of process `p`. -/
def RunOf (h : Host) (r p : Nat) : Prop := ∃ run, h.runs[r]? = some run ∧ run.process = p

theorem Tends.runOf {h' : Host} (ht : Tends h h') (hr : h.RunOf r p) : h'.RunOf r p := by
  rw [RunOf, ht.runs]
  exact hr

/-- Changing a run keeps the books if the run is over only where its process is settled. -/
theorem Booked.modifyRun (hb : h.Booked) {f : BackgroundRun → BackgroundRun}
    (hf : ∀ run, h.runs[r]? = some run → (f run).process = run.process ∧
      ((f run).job.done = true → (f run).job.lost = false →
        run.job.done = true ∧ run.job.lost = false ∨
          ∃ q, h.processes[run.process]? = some q ∧ q.control.Settled)) :
    (after (modifyRun r f) h).Booked := by
  refine ⟨hb.released, fun i run' hrun' => ?_⟩
  have hmodify : (h.runs.modify r f)[i]? = some run' := hrun'
  rw [Array.getElem?_modify] at hmodify
  by_cases hi : r = i
  · subst hi
    rw [if_pos rfl] at hmodify
    obtain ⟨run, hrun, rfl⟩ := Option.map_eq_some_iff.1 hmodify
    obtain ⟨hprocess, hover⟩ := hf run hrun
    obtain ⟨q, hq, hready, hsettled⟩ := hb.run r run hrun
    refine ⟨q, hprocess ▸ hq, hready, fun hdone hkept => ?_⟩
    rcases hover hdone hkept with ⟨hdone, hkept⟩ | ⟨q', hq', hsettled'⟩
    · exact hsettled hdone hkept
    · obtain rfl := Option.some.inj (hq.symm.trans hq')
      exact hsettled'
  · rw [if_neg hi] at hmodify
    exact hb.run i run' hmodify

theorem evolves_modifyRun {f : BackgroundRun → BackgroundRun}
    (hf : ∀ run, h.runs[r]? = some run → (f run).process = run.process ∧
      ((f run).job.done = true → (f run).job.lost = false →
        run.job.done = true ∧ run.job.lost = false)) :
    Evolves h (after (modifyRun r f) h) where
  process _ q hq := ⟨q, hq, .refl q⟩
  booked hb := hb.modifyRun fun run hrun =>
    ⟨(hf run hrun).1, fun hdone hkept => .inl ((hf run hrun).2 hdone hkept)⟩

/-- Where a run stands is nothing the books know of. -/
theorem evolves_activity (h : Host) (r : Nat) (activity : Activity) :
    Evolves h (after (modifyRun r fun run => { run with activity }) h) :=
  evolves_modifyRun fun _ _ => ⟨rfl, fun hdone hkept => ⟨hdone, hkept⟩⟩

/-- The process is left in the block it was settled with, or in one after that. -/
theorem settle_process (hq : h.processes[p]? = some q) (s : Process.Shared) :
    ∃ q', (after (settle p q s) h).processes[p]? = some q' ∧ s.control.Follows q'.control := by
  have hq' := process_withControl hq s.control
  have hrun := settle_run hq s
  by_cases hhanded : s.handed = 0
  · rw [if_pos hhanded] at hrun
    rw [after_of_ok hrun]
    exact ⟨_, hq', .refl _⟩
  · rw [if_neg hhanded] at hrun
    rw [after_congr hrun]
    obtain ⟨q'', hq'', hgrows⟩ := (tends_handOver (h.withControl p s.control) q).process p _ hq'
    exact ⟨q'', hq'', hgrows.control⟩

/-- A process that has ended is settled by the end of its run, even if its segments are refused. -/
theorem settled_finishRun (hq : h.processes[p]? = some q) (hended : q.control.Ended) :
    ∃ q', (after (finishRun p) h).processes[p]? = some q' ∧ q'.control.Settled := by
  rw [after_congr (finishRun_alone hq h.now .thread)]
  obtain ⟨q', hq', hfollows⟩ := settle_process hq _
  exact ⟨q', hq', hfollows.settled (Control.settled_lowering h.now q.control .thread hended)⟩

/-- What a thread does when it is over: it lowers the flag and lets go of the process. -/
def depart (p : Nat) : HostM Unit := do
  finishRun p
  collect p

theorem tends_depart (h : Host) (p : Nat) : Tends h (after (depart p) h) :=
  Tends.bind (tends_finishRun h p) fun _ h' _ => tends_collect h' p

theorem settled_depart (hq : h.processes[p]? = some q) (hended : q.control.Ended) :
    ∃ q', (after (depart p) h).processes[p]? = some q' ∧ q'.control.Settled := by
  obtain ⟨q', hq', hsettled⟩ := settled_finishRun hq hended
  rw [depart, after_bind]
  match hrun : (finishRun p).run h with
  | .error e h' =>
    rw [after_of_error hrun] at hq'
    exact ⟨q', hq', hsettled⟩
  | .ok _ h' =>
    rw [after_of_ok hrun] at hq'
    obtain ⟨q'', hq'', hgrows⟩ := (tends_collect h' p).process p q' hq'
    exact ⟨q'', hq'', hgrows.control.settled hsettled⟩

/-- The process of a run comes to its end. -/
def leave (p : Nat) : Except Error Unit → HostM Unit
  | .ok _ => stop p
  | .error _ => fault p

theorem tends_leave (h : Host) (p : Nat) (result : Except Error Unit) :
    Tends h (after (leave p result) h) := by
  cases result with
  | ok _ => exact tends_stop h p
  | error _ => exact tends_fault h p

theorem ended_leave (hq : h.processes[p]? = some q) (hready : q.control.state ≠ .ready)
    (result : Except Error Unit) :
    ∃ q', (after (leave p result) h).processes[p]? = some q' ∧ q'.control.Ended := by
  have hended : ∀ ending : Process.Ending, (q.control.leave ending.state h.now).Ended := by
    intro ending
    unfold Control.leave
    split
    · cases ending
      · exact .inl rfl
      · exact .inr rfl
    · match hstate : q.control.state with
      | .stopped => exact .inl hstate
      | .faulted => exact .inr hstate
      | .ready => exact absurd hstate hready
      | .running => contradiction
  cases result with
  | ok _ =>
    rw [leave, after_of_ok (stop_run hq)]
    exact ⟨_, process_withControl hq _, hended .stopped⟩
  | error _ =>
    rw [leave, after_of_ok (fault_run hq)]
    exact ⟨_, process_withControl hq _, hended .faulted⟩

theorem conclude_eq (r p : Nat) (result : Except Error Unit) :
    conclude r p result = (do
      leave p result
      match ← attempt (depart p) with
      | .ok _ => modifyRun r fun run =>
        { run with activity := .finished, job := run.job.finish (.returned result) }
      | .error _ => modifyRun r fun run =>
        { run with activity := .finished, job := run.job.finish .crashed }) := by
  cases result <;> rfl

theorem leave_run (h : Host) (p : Nat) (result : Except Error Unit) :
    (leave p result).run h = .ok () (after (leave p result) h) := by
  cases result <;> rfl

theorem evolves_conclude (hr : h.RunOf r p) (result : Except Error Unit) :
    Evolves h (after (conclude r p result) h) := by
  let h₁ := after (leave p result) h
  let h₂ := after (depart p) h₁
  have htends : Tends h h₂ := (tends_leave h p result).trans (tends_depart h₁ p)
  -- Whether or not the thread gets through, its process is settled when it is marked as over.
  have hover : ∀ ending, Evolves h (after (modifyRun r fun run =>
      { run with activity := .finished, job := run.job.finish ending }) h₂) := by
    intro ending
    refine ⟨htends.process, fun hb => ?_⟩
    obtain ⟨run, hrun, rfl⟩ := hr
    obtain ⟨q, hq, hready, -⟩ := hb.run r run hrun
    obtain ⟨q₁, hq₁, hended⟩ := ended_leave hq hready result
    obtain ⟨q₂, hq₂, hsettled⟩ := settled_depart hq₁ hended
    refine (htends.evolves.booked hb).modifyRun fun run' hrun' => ⟨rfl, fun _ _ => .inr ?_⟩
    rw [htends.runs, hrun] at hrun'
    obtain rfl := Option.some.inj hrun'
    exact ⟨q₂, hq₂, hsettled⟩
  obtain ⟨x, hx⟩ := attempt_run (depart p) h₁
  rw [conclude_eq, after_bind, leave_run]
  dsimp only
  rw [after_bind, hx]
  cases x with
  | ok _ => exact hover (.returned result)
  | error _ => exact hover .crashed

theorem evolves_collapse (h : Host) (r p : Nat) : Evolves h (after (collapse r p) h) := by
  refine Tends.bind_evolves ?_ fun _ h' _ => evolves_modifyRun fun run _ => ⟨rfl, nofun⟩
  rw [after_attempt]
  exact tends_collect h p

theorem evolves_faulted (hr : h.RunOf r p) (e : Fault) :
    Evolves h (after (faulted r p e) h) := by
  cases e with
  | error e => exact evolves_conclude hr (.error e)
  | crash => exact evolves_collapse h r p

/-! ## Slices -/

theorem evolves_turned (hr : h.RunOf r p) (turn : Processor.Turn) :
    Evolves h (after (turned r p turn) h) := by
  cases turn with
  | ended result => exact evolves_conclude hr result
  | next frame write =>
    cases write with
    | some a => exact Tends.bind_evolves (.of_same rfl rfl) fun _ h' _ => evolves_activity h' r _
    | none => exact evolves_activity h r _
  | calling _ _ _ frame => exact evolves_activity h r _

theorem evolves_advance (hr : h.RunOf r p) (frame : Processor.Frame) :
    Evolves h (after (advance r p frame) h) := by
  refine Tends.bind_evolves (tends_burst h p _ frame) fun pause h₁ ht => ?_
  have hr₁ := ht.runOf hr
  cases pause with
  | ended result => exact evolves_conclude hr₁ result
  | tired frame => exact evolves_activity h₁ r _
  | calling function args result frame =>
    refine Tends.bind_evolves ?_ fun x h₂ ht' => ?_
    · rw [after_attempt]
      exact (reads_reaction p function args).tends h₁
    · cases x with
      | error e => exact evolves_faulted (ht'.runOf hr₁) e
      | ok reaction => exact evolves_activity h₂ r _

theorem evolves_serve (hr : h.RunOf r p) (s : Service) :
    Evolves h (after (serve r p s) h) := by
  rw [serve]
  match s.effects with
  | [] =>
    refine Tends.bind_evolves ?_ fun x h₁ ht => ?_
    · rw [after_attempt]
      exact (reads_replied s.reply).tends h
    · have hr₁ := ht.runOf hr
      cases x with
      | error e => exact evolves_faulted hr₁ e
      | ok value =>
        exact Tends.bind_evolves ((reads_process p).tends h₁) fun q h₂ ht' =>
          evolves_turned (ht'.runOf hr₁) _
  | .sleep ms :: rest =>
    exact Tends.bind_evolves (reads_get.tends h) fun _ h₁ _ => evolves_activity h₁ r _
  | .wait gate :: rest =>
    exact Tends.bind_evolves (tends_arrive h gate) fun ticket h₁ _ => evolves_activity h₁ r _
  | .deed d :: rest =>
    refine Tends.bind_evolves ?_ fun x h₁ ht => ?_
    · rw [after_attempt]
      exact tends_carryOut h p d
    · cases x with
      | error e => exact evolves_faulted (ht.runOf hr) e
      | ok _ => exact evolves_activity h₁ r _

theorem evolves_slice (h : Host) (r : Nat) : Evolves h (after (slice r) h) := by
  have hthen : ∀ {work : HostM Unit}, Evolves h (after work h) →
      Evolves h (after (work >>= fun _ => pure true) h) := fun hwork =>
    Evolves.bind hwork fun _ h' _ => .refl h'
  rw [slice, after_get_bind]
  cases hrun : h.runs[r]? with
  | none => exact .refl h
  | some run =>
    have hr : h.RunOf r run.process := ⟨run, hrun, rfl⟩
    dsimp only
    cases run.activity with
    | finished => exact .refl h
    | executing frame => exact hthen (evolves_advance hr frame)
    | serving s => exact hthen (evolves_serve hr s)
    | sleeping wakeAt s =>
      refine Tends.bind_evolves (reads_get.tends h) fun h' h₁ _ => ?_
      split
      · exact Evolves.bind (evolves_activity h₁ r _) fun _ h₂ _ => .refl h₂
      · exact .refl h₁
    | waiting gate ticket s =>
      refine Tends.bind_evolves (reads_get.tends h) fun h' h₁ _ => ?_
      split
      · exact Evolves.bind (evolves_activity h₁ r _) fun _ h₂ _ => .refl h₂
      · exact .refl h₁

theorem evolves_round (h : Host) (n : Nat) : Evolves h (after (round n) h) := by
  induction n generalizing h with
  | zero => exact .refl h
  | succ n ih =>
    exact Evolves.bind (ih h) fun _ h₁ _ =>
      Evolves.bind (evolves_slice h₁ n) fun _ h₂ _ => .refl h₂

theorem evolves_waitUntil (h : Host) (enough : Host → Bool) (deadline : Option Nat) (fuel : Nat) :
    Evolves h (after (waitUntil enough deadline fuel) h) := by
  induction fuel generalizing h with
  | zero => exact .refl h
  | succ fuel ih =>
    refine Tends.bind_evolves (reads_get.tends h) fun h' h₁ _ => ?_
    split
    · exact .refl h₁
    · split
      · exact .refl h₁
      · refine Evolves.bind (evolves_round h₁ _) fun went h₂ _ => ?_
        split
        · exact ih h₂
        · refine Tends.bind_evolves (reads_get.tends h₂) fun h' h₃ _ => ?_
          split
          · exact Tends.bind_evolves (.of_same rfl rfl) fun _ h₄ _ => ih h₄
          · exact Tends.bind_evolves (.of_same rfl rfl) fun _ h₄ _ => ih h₄
          · exact Tends.bind_evolves (.of_same rfl rfl) fun _ h₄ _ => .refl h₄
          · exact .refl h₃

/-- A join takes the result and nothing else. -/
theorem join_snd (j : Job) : j.join.2.done = j.done ∧ j.join.2.lost = j.lost := by
  unfold Job.join
  split <;> exact ⟨rfl, rfl⟩

theorem evolves_join (h : Host) (r fuel : Nat) : Evolves h (after (join r fuel) h) := by
  refine Evolves.bind (evolves_waitUntil h ..) fun _ h₁ _ => ?_
  refine Evolves.bind (Evolves.refl h₁) fun now h₂ hget => ?_
  obtain ⟨rfl, rfl⟩ : now = h₁ ∧ h₂ = h₁ := by
    cases hget
    exact ⟨rfl, rfl⟩
  match hrun : h₂.runs[r]? with
  | none => exact .refl h₂
  | some run =>
    have hjoin := join_snd run.job
    refine Evolves.bind (evolves_modifyRun (f := fun run' => { run' with job := run.job.join.2 })
      fun run' hrun' => ?_) fun _ h₃ _ => ((reads_accept _).tends h₃).evolves
    obtain rfl := Option.some.inj (hrun.symm.trans hrun')
    exact ⟨rfl, fun hdone hkept => ⟨hjoin.1 ▸ hdone, hjoin.2 ▸ hkept⟩⟩

theorem evolves_joinFor (h : Host) (r ms fuel : Nat) :
    Evolves h (after (joinFor r ms fuel) h) :=
  Tends.bind_evolves (reads_get.tends h) fun _ h₁ _ => evolves_waitUntil h₁ ..

theorem evolves_awaitArrival (h : Host) (gate ms fuel : Nat) :
    Evolves h (after (awaitArrival gate ms fuel) h) := by
  refine Tends.bind_evolves (reads_get.tends h) fun _ h₁ _ => ?_
  refine Evolves.bind (evolves_waitUntil h₁ ..) fun arrived h₂ _ => ?_
  split
  · exact Tends.bind_evolves (.of_same rfl rfl) fun _ h₃ _ => .refl h₃
  · exact .refl h₂

/-! ## Calls and execution -/

theorem evolves_effect (h : Host) (p fuel : Nat) (e : Effect) :
    Evolves h (after (effect p fuel e) h) := by
  cases e with
  | deed d => exact (tends_carryOut h p d).evolves
  | sleep ms =>
    refine Tends.bind_evolves (reads_get.tends h) fun _ h₁ _ => ?_
    exact Evolves.bind (evolves_waitUntil h₁ ..) fun _ h₂ _ => .refl h₂
  | wait gate =>
    refine Tends.bind_evolves (tends_arrive h gate) fun ticket h₁ _ => ?_
    refine Tends.bind_evolves (reads_get.tends h₁) fun _ h₂ _ => ?_
    split <;> exact .refl h₂

theorem evolves_effects (h : Host) (p fuel : Nat) (es : List Effect) :
    Evolves h (after (effects p fuel es) h) := by
  induction es generalizing h with
  | nil => exact .refl h
  | cons e es ih => exact Evolves.bind (evolves_effect h p fuel e) fun _ h₁ _ => ih h₁

theorem evolves_call (h : Host) (p fuel : Nat) (id : FunctionId) (args : List Cell) :
    Evolves h (after (call p fuel id args) h) := by
  refine Tends.bind_evolves ((reads_reaction p id args).tends h) fun reaction h₁ _ => ?_
  exact Evolves.bind (evolves_effects h₁ p fuel _) fun _ h₂ _ =>
    ((reads_replied _).tends h₂).evolves

theorem evolves_callThrough (h : Host) (m p fuel : Nat) (id : FunctionId) (args : List Cell) :
    Evolves h (after (callThrough m p fuel id args) h) := by
  refine Tends.bind_evolves ((reads_ensureAlive m).tends h) fun _ h₁ _ => ?_
  refine Tends.bind_evolves ((reads_process p).tends h₁) fun q h₂ _ => ?_
  split
  · exact .refl h₂
  · exact evolves_call h₂ p fuel id args

theorem evolves_dispatch (h : Host) (p fuel : Nat) (frame : Processor.Frame) :
    Evolves h (after (dispatch p fuel frame) h) := by
  induction fuel generalizing h frame with
  | zero => exact .refl h
  | succ fuel ih =>
    refine Tends.bind_evolves (tends_burst h p _ frame) fun pause h₁ _ => ?_
    cases pause with
    | ended result => exact ((reads_accept result).tends h₁).evolves
    | tired frame =>
      refine Tends.bind_evolves (reads_get.tends h₁) fun _ h₂ _ => ?_
      exact Evolves.bind (evolves_round h₂ _) fun _ h₃ _ => ih h₃ frame
    | calling function args result frame =>
      refine Evolves.bind (evolves_call h₁ p fuel function args) fun value h₂ _ => ?_
      refine Tends.bind_evolves ((reads_process p).tends h₂) fun q h₃ _ => ?_
      split
      · exact ((reads_accept _).tends h₃).evolves
      · exact Tends.bind_evolves (.of_same rfl rfl) fun _ h₄ _ => ih h₄ _
      · exact ih h₃ _
      · exact ih h₃ _

/-- A process that was started carries out its instructions and ends or is faulted. -/
theorem evolves_dispatched (h : Host) (p fuel : Nat) :
    Evolves h (after (do
      match ← attempt (dispatch p fuel {}) with
      | .ok _ => stop p
      | .error (.error e) =>
        fault p
        refuse e
      | .error .crash => throw .crash : HostM Unit) h) := by
  refine Evolves.bind ?_ fun x h₁ _ => ?_
  · rw [after_attempt]
    exact evolves_dispatch h p fuel {}
  · split
    · exact (tends_stop h₁ p).evolves
    · exact Tends.bind_evolves (tends_fault h₁ p) fun _ h₂ _ => .refl h₂
    · exact .refl h₁

theorem evolves_execute (h : Host) (p fuel : Nat) : Evolves h (after (execute p fuel) h) := by
  refine Tends.bind_evolves ((reads_process p).tends h) fun q h₁ _ => ?_
  split
  · exact Tends.bind_evolves (tends_start h₁ p) fun _ h₂ _ => evolves_dispatched h₂ p fuel
  · exact evolves_dispatched h₁ p fuel

/-! ## New processes and new runs -/

/-- A new process is not in the books. -/
theorem evolves_push {h' : Host} {q : Process} (hprocesses : h'.processes = h.processes.push q)
    (hruns : h'.runs = h.runs) (hq : q.control.released = false) : Evolves h h' := by
  have hkept : ∀ (p : Nat) q', h.processes[p]? = some q' → h'.processes[p]? = some q' := by
    intro p q' hq'
    obtain ⟨hlt, -⟩ := Array.getElem?_eq_some_iff.1 hq'
    rw [hprocesses, Array.getElem?_push_lt hlt, ← hq', Array.getElem?_eq_getElem hlt]
  refine ⟨fun p q' hq' => ⟨q', hkept p q' hq', .refl q'⟩, fun hb => ⟨fun p q' hq' => ?_, ?_⟩⟩
  · rw [hprocesses, Array.getElem?_push] at hq'
    split at hq'
    · obtain rfl := Option.some.inj hq'
      exact fun hreleased => absurd (hq.symm.trans hreleased) nofun
    · exact hb.released p q' hq'
  · intro r run hrun
    obtain ⟨q', hq', hrest⟩ := hb.run r run (hruns ▸ hrun)
    exact ⟨q', hkept _ q' hq', hrest⟩

theorem evolves_createProcess (h : Host) (m : Nat) (image : Image) :
    Evolves h (after (createProcess m image) h) := by
  refine Tends.bind_evolves ((reads_ensureAlive m).tends h) fun _ h₁ _ => ?_
  refine Tends.bind_evolves (tends_withMemory h₁ m _) fun segments h₂ _ => ?_
  refine Tends.bind_evolves (reads_get.tends h₂) fun _ h₃ _ => ?_
  refine Tends.bind_evolves ((reads_machine m).tends h₃) fun machine h₄ _ => ?_
  exact Evolves.bind (evolves_push rfl rfl rfl) fun _ h₅ _ => .refl h₅

theorem evolves_loadProcess (h : Host) (m : Nat) (name : String) :
    Evolves h (after (loadProcess m name) h) := by
  refine Tends.bind_evolves ((reads_ensureAlive m).tends h) fun _ h₁ _ => ?_
  refine Tends.bind_evolves ((reads_parts m).tends h₁) fun parts h₂ _ => ?_
  refine Tends.bind_evolves ((reads_accept _).tends h₂) fun bytes h₃ _ => ?_
  refine Tends.bind_evolves ((reads_accept _).tends h₃) fun image h₄ _ => ?_
  exact evolves_createProcess h₄ m image

theorem evolves_addDetached (h : Host) (id : Int) (segments : Segments) :
    Evolves h (after (addDetached id segments) h) :=
  evolves_push rfl rfl rfl

theorem tends_buildAllocator (h : Host) (b : Blueprint) : Tends h (after (buildAllocator b) h) := by
  unfold after EStateM.run buildAllocator
  dsimp only
  split <;> rename_i heq <;> split at heq <;> cases heq <;> exact .of_same rfl rfl

/-- A check before further work. -/
theorem tends_unless {α : Type} {c : Prop} [Decidable c] {e : Error} {rest : Unit → HostM α}
    (hrest : Tends h (after (rest ()) h)) :
    Tends h (after (if c then refuse e >>= rest else rest ()) h) := by
  split
  · exact .refl h
  · exact hrest

theorem tends_build (h : Host) (b : Blueprint) : Tends h (after (build b) h) := by
  unfold build
  refine tends_unless (tends_unless ?_)
  refine Tends.bind (tends_buildAllocator h b) fun allocator h₁ _ => ?_
  exact tends_unless (tends_unless (.of_same rfl rfl))

theorem evolves_addRun (hq : h.processes[p]? = some q) (hready : q.control.state ≠ .ready)
    (q' : Process) : Evolves h (after (addRun p q') h) := by
  refine ⟨fun _ q hq => ⟨q, hq, .refl q⟩, fun hb => ⟨hb.released, fun r run hrun => ?_⟩⟩
  have hpush : (h.runs.push { process := p, job := { name := _ } })[r]? = some run := hrun
  rw [Array.getElem?_push] at hpush
  split at hpush
  · obtain rfl := Option.some.inj hpush
    exact ⟨q, hq, hready, nofun⟩
  · exact hb.run r run hpush

theorem running_of_start {c c' : Control} {id : Int} {now : Nat} (h : c.start id now = .ok c') :
    c'.state = .running := by
  unfold Control.start Control.enterRunning at h
  split at h
  · cases h
  · split at h
    · rename_i hentered
      cases h
      split at hentered
      · cases hentered
        rfl
      · cases hentered
    · cases h

/-- A run that comes to spawn its thread has started the process. -/
theorem state_of_spawning (now : Nat) (c : Control) (number : Int)
    (hplace : (Process.alone now 7 ⟨c, 0⟩ .raising).2 = .spawning) :
    (Process.alone now 7 ⟨c, 0⟩ .raising).1.control.state ≠ .ready := by
  rw [Process.alone_raising now 0 _ number] at hplace ⊢
  match hstart : c.raiseActive.start number now with
  | .ok c' =>
    have hrunning : c'.state = .running := running_of_start hstart
    exact fun hready => nomatch hrunning.symm.trans hready
  | .error _ =>
    rw [hstart] at hplace
    dsimp only at hplace
    rw [Process.alone_lowering_snd now 0] at hplace
    cases hplace

theorem evolves_run (h : Host) (p : Nat) : Evolves h (after (run p) h) := by
  cases hq : h.processes[p]? with
  | none =>
    rw [run, after_process_bind, hq]
    exact .refl h
  | some q =>
    cases hm : q.machine with
    | none =>
      rw [run, after_process_bind, hq]
      dsimp only
      rw [hm]
      exact .refl h
    | some m =>
      cases hp : parts? h m with
      | none =>
        have hparts : (parts m).run h = .error (.error .disposed) h := by rw [parts_run, hp]
        rw [run, after_process_bind, hq]
        dsimp only
        rw [hm]
        dsimp only
        rw [after_bind, hparts]
        exact .refl h
      | some parts =>
        obtain ⟨e, hrun⟩ := run_alone hq hm hp
        have hfollows := Control.Follows.raising h.now q.control q.id
        have hstarted := state_of_spawning h.now q.control q.id
        rw [after_congr hrun]
        -- Where the party stands in the end is all that counts from here on.
        generalize Process.alone h.now 7 ⟨q.control, 0⟩ .raising = alone at hfollows hstarted ⊢
        obtain ⟨s, place⟩ := alone
        refine Evolves.bind (tends_settle hq hfollows).evolves fun _ h₁ hsettle => ?_
        split
        · rename_i hplace
          obtain ⟨q₁, hq₁, hlater⟩ := settle_process hq s
          rw [after_of_ok hsettle] at hq₁
          exact evolves_addRun hq₁ (fun hready => hstarted hplace (hlater.ready hready)) q
        · exact .refl h₁

/-! ## Everything that happens -/

/-- Sets the limit of the runs of a process, in milliseconds. -/
def limit (p ms : Nat) : HostM Unit := modifyControl p fun c => { c with watchdogMs := ms }

/-- What may happen on a host. -/
inductive Event where
  | pass (nanoseconds : Nat)
  | addStream (broken : Bool)
  | addGate
  | addPool (cells : Array Cell)
  /-- The embedding program writes to the pools. -/
  | edit (f : Store → Store)
  | build (b : Blueprint)
  | createProcess (m : Nat) (image : Image)
  | loadProcess (m : Nat) (name : String)
  | addDetached (id : Int) (segments : Segments)
  | limit (p ms : Nat)
  | start (p : Nat)
  | stop (p : Nat)
  | fault (p : Nat)
  | dispose (p : Nat)
  | letGo (p : Nat)
  | run (p : Nat)
  /-- The thread of a run goes on. -/
  | slice (r : Nat)
  | join (r fuel : Nat)
  | joinFor (r ms fuel : Nat)
  | awaitArrival (gate ms fuel : Nat)
  | openGate (gate : Nat)
  | callThrough (m p fuel : Nat) (id : FunctionId) (args : List Cell)
  | execute (p fuel : Nat)
  | disposeMachine (m : Nat)
  | dropMachine (m : Nat)

/-- The work of an event; nobody looks at its result. -/
def Event.work : Event → HostM Unit
  | pass nanoseconds => Host.pass nanoseconds
  | addStream broken => discard (Host.addStream broken)
  | addGate => discard Host.addGate
  | addPool cells => discard (Host.addPool cells)
  | edit f => modifyStore f
  | build b => discard (Host.build b)
  | createProcess m image => discard (Host.createProcess m image)
  | loadProcess m name => discard (Host.loadProcess m name)
  | addDetached id segments => discard (Host.addDetached id segments)
  | limit p ms => Host.limit p ms
  | start p => Host.start p
  | stop p => Host.stop p
  | fault p => Host.fault p
  | dispose p => Host.dispose p
  | letGo p => Host.letGo p
  | run p => discard (Host.run p)
  | slice r => discard (Host.slice r)
  | join r fuel => Host.join r fuel
  | joinFor r ms fuel => discard (Host.joinFor r ms fuel)
  | awaitArrival gate ms fuel => discard (Host.awaitArrival gate ms fuel)
  | openGate gate => Host.openGate gate
  | callThrough m p fuel id args => discard (Host.callThrough m p fuel id args)
  | execute p fuel => Host.execute p fuel
  | disposeMachine m => Host.disposeMachine m
  | dropMachine m => Host.dropMachine m

theorem after_discard {α : Type} (work : HostM α) (h : Host) :
    after (discard work) h = after work h := by
  show after (work >>= fun _ => pure ()) h = _
  rw [after_bind, after]
  cases work.run h <;> rfl

/-- **No event undoes what lasts**, whether it succeeds, is refused or crashes. -/
theorem evolves_event (h : Host) (e : Event) : Evolves h (after e.work h) := by
  have hsame : ∀ {h' : Host}, h'.processes = h.processes → h'.runs = h.runs → Evolves h h' :=
    fun hprocesses hruns => (Tends.of_same hprocesses hruns).evolves
  cases e <;> simp only [Event.work, after_discard]
  case pass => exact hsame rfl rfl
  case addStream => exact hsame rfl rfl
  case addGate => exact hsame rfl rfl
  case addPool => exact hsame rfl rfl
  case edit => exact hsame rfl rfl
  case openGate => exact hsame rfl rfl
  case build b => exact (tends_build h b).evolves
  case createProcess m image => exact evolves_createProcess h m image
  case loadProcess m name => exact evolves_loadProcess h m name
  case addDetached id segments => exact evolves_addDetached h id segments
  case limit p ms =>
    have hfollows : ∀ c : Control, c.Follows { c with watchdogMs := ms } :=
      fun _ => .of_same rfl rfl rfl rfl
    exact (tends_modifyControl h p hfollows).evolves
  case start p => exact (tends_start h p).evolves
  case stop p => exact (tends_stop h p).evolves
  case fault p => exact (tends_fault h p).evolves
  case dispose p => exact (tends_dispose h p).evolves
  case letGo p => exact (tends_letGo h p).evolves
  case run p => exact evolves_run h p
  case slice r => exact evolves_slice h r
  case join r fuel => exact evolves_join h r fuel
  case joinFor r ms fuel => exact evolves_joinFor h r ms fuel
  case awaitArrival gate ms fuel => exact evolves_awaitArrival h gate ms fuel
  case callThrough m p fuel id args => exact evolves_callThrough h m p fuel id args
  case execute p fuel => exact evolves_execute h p fuel
  case disposeMachine m => exact (tends_disposeMachine h m).evolves
  case dropMachine m => exact (tends_dropMachine h m).evolves

/-- A host that some history leads to. -/
inductive Arises : Host → Prop
  | empty : Arises {}
  | event {h : Host} (e : Event) : Arises h → Arises (after e.work h)

theorem Arises.booked {h : Host} (ha : Arises h) : h.Booked := by
  induction ha with
  | empty =>
    constructor
    · intro p q hq
      cases hq.symm.trans Array.getElem?_empty
    · intro r run hrun
      cases hrun.symm.trans Array.getElem?_empty
  | event e _ ih => exact (evolves_event _ e).booked ih

/-- The host after events, in order. -/
def history (h : Host) (events : List Event) : Host := events.foldl (fun h e => after e.work h) h

theorem Arises.history {h : Host} (ha : Arises h) (events : List Event) :
    Arises (h.history events) := by
  induction events generalizing h with
  | nil => exact ha
  | cons e events ih => exact ih (ha.event e)

/-- A machine with 17 cells, room for one small process, and `f` for its only host function. -/
def Event.furnish (f : HostFunction) : List Event :=
  [.addPool (Array.replicate 17 Cell.zero),
    .build
      { config := { heapCells := 1, stackCells := 1, registerCount := 1 }
        memory := .pool 0
        firmware := .ofPeripherals [⟨"host", .probe, [("f", f)]⟩]
        storage := .table [] }]

end CellMachine.Host
