import CellMachine.Host.Assembly
import CellMachine.Proofs.Execution

/-!
# What lasts on the host

Much may happen on a host before somebody looks at a process again: calls, slices of other runs,
disposals, new machines. This module says what none of it undoes.

* `Control.Follows`: what any piece of work does to a control block. A process that has ended stays
  so, and one whose run is over as well (`Control.Settled`) keeps nothing back when it is disposed
  of.
* `Host.Tends`: work on control blocks, which leaves the runs alone.
* `Host.Evolves`: any work. Besides, it keeps the books (`Host.Booked`): a run whose thread returned
  has left its process settled.

Both relations are preorders and hold of a refusal and of a crash as they do of success, so each
operation is taken apart at its binds. Disposing, finishing a run and starting one pass through
blocks that follow nothing; they are judged as a whole, by what a party does alone.
-/

namespace CellMachine

/-- What work leaves behind, whether it succeeds or not. -/
def after {ε σ α : Type} (work : EStateM ε σ α) (s : σ) : σ :=
  match work.run s with
  | .ok _ s' => s'
  | .error _ s' => s'

/-! ## Control blocks -/

namespace Control

/-- The process has come to its end. -/
def Ended (c : Control) : Prop := c.state = .stopped ∨ c.state = .faulted

instance (c : Control) : Decidable c.Ended := inferInstanceAs (Decidable (_ ∨ _))

/-- The process has come to its end and no run of it is counted as under way; if it was disposed of,
its segments went back. -/
structure Settled (c : Control) : Prop where
  ended : c.Ended
  idle : c.runActive = false
  released : c.disposed = true → c.released = true

/-- A control block that may come after another. -/
structure Follows (c c' : Control) : Prop where
  ready : c'.state = .ready → c.state = .ready
  ended : c.Ended → c'.Ended
  settled : c.Settled → c'.Settled
  sound : (c.released = true → c.disposed = true) → c'.released = true → c'.disposed = true

theorem Ended.ne_ready {c : Control} (h : c.Ended) : c.state ≠ .ready := by
  intro hready
  rcases h with h | h <;> cases hready.symm.trans h

theorem Ended.ne_running {c : Control} (h : c.Ended) : c.state ≠ .running := by
  intro hrunning
  rcases h with h | h <;> cases hrunning.symm.trans h

theorem Ended.leave {c : Control} (h : c.Ended) (next : ProcessState) (now : Nat) :
    c.leave next now = c :=
  if_neg h.ne_running

namespace Follows

variable {c c' c'' : Control}

theorem refl (c : Control) : Follows c c := ⟨id, id, id, id⟩

theorem trans (h : Follows c c') (h' : Follows c' c'') : Follows c c'' :=
  ⟨h.ready ∘ h'.ready, h'.ended ∘ h.ended, h'.settled ∘ h.settled, h'.sound ∘ h.sound⟩

/-- Work that changes neither the state nor a flag. -/
theorem of_same (hstate : c'.state = c.state) (hactive : c'.runActive = c.runActive)
    (hdisposed : c'.disposed = c.disposed) (hreleased : c'.released = c.released) :
    Follows c c' := by
  refine ⟨?_, ?_, fun h => ⟨?_, ?_, ?_⟩, ?_⟩
  · rw [hstate]
    exact id
  · rw [Ended, Ended, hstate]
    exact id
  · rw [Ended, hstate]
    exact h.ended
  · exact hactive.trans h.idle
  · rw [hdisposed, hreleased]
    exact h.released
  · rw [hdisposed, hreleased]
    exact id

theorem leave (c : Control) (ending : Process.Ending) (now : Nat) :
    Follows c (c.leave ending.state now) := by
  unfold Control.leave
  split
  · rename_i hrunning
    have hnot : ¬ c.Ended := fun h => h.ne_running hrunning
    refine ⟨fun hready => ?_, fun h => absurd h hnot, fun h => absurd h.ended hnot, id⟩
    cases ending <;> cases hready
  · exact refl c

theorem start {id : Int} {now : Nat} (h : c.start id now = .ok c') : Follows c c' := by
  unfold Control.start Control.enterRunning at h
  split at h
  · cases h
  · split at h
    · rename_i hentered
      split at hentered
      · rename_i hready
        cases h
        cases hentered
        have hnot : ¬ c.Ended := fun hended => hended.ne_ready hready
        exact ⟨nofun, fun h => absurd h hnot, fun h => absurd h.ended hnot, fun h => h⟩
      · cases hentered
    · cases h

end Follows

/-! ### A party alone -/

section
variable (now : Nat) (c : Control) (who : Process.Who)

theorem settled_swapReleased (hended : c.Ended) (hidle : c.runActive = false) :
    c.swapReleased.2.Settled :=
  ⟨hended, hidle, fun _ => rfl⟩

theorem Follows.releasing (hdisposed : c.disposed = true) :
    Follows c (Process.alone now 2 ⟨c, 0⟩ (.releasing who)).1.control := by
  rw [Process.alone_releasing now 0]
  split
  · exact .refl c
  · exact ⟨id, id, fun h => settled_swapReleased c h.ended h.idle, fun _ _ => hdisposed⟩

/-- The end of a run settles a process that has come to its own. -/
theorem settled_lowering (hended : c.Ended) :
    (Process.alone now 4 ⟨c, 0⟩ (.lowering who)).1.control.Settled := by
  rw [Process.alone_lowering now 0]
  split
  · rw [Process.alone_releasing now 0]
    split
    · rename_i hreleased
      exact ⟨hended, rfl, fun _ => hreleased⟩
    · exact settled_swapReleased c.lowerActive hended rfl
  · rename_i hdisposed
    exact ⟨hended, rfl, fun h => absurd h hdisposed⟩

theorem Follows.lowerActive : Follows c c.lowerActive :=
  ⟨id, id, fun h => ⟨h.ended, rfl, h.released⟩, id⟩

theorem Follows.lowering : Follows c (Process.alone now 4 ⟨c, 0⟩ (.lowering who)).1.control := by
  rw [Process.alone_lowering now 0]
  split
  · rename_i hdisposed
    exact (Follows.lowerActive c).trans (.releasing now c.lowerActive who hdisposed)
  · exact .lowerActive c

theorem Follows.disposing : Follows c (Process.alone now 6 ⟨c, 0⟩ .disposing).1.control := by
  have hended : (c.close now).Ended := .inl rfl
  rw [Process.alone_disposing now 0]
  split
  · exact .refl c
  · split
    · rename_i hactive
      refine ⟨nofun, fun _ => hended, fun h => ?_, fun _ _ => rfl⟩
      exact absurd (hactive.symm.trans h.idle) nofun
    · rename_i hactive
      have hidle : (c.close now).runActive = false := Bool.eq_false_iff.2 hactive
      have hreleasing := Follows.releasing now (c.close now) .caller rfl
      refine ⟨fun hready => ?_, fun _ => hreleasing.ended hended, fun _ => ?_,
        fun _ => hreleasing.sound fun _ => rfl⟩
      · exact absurd (hreleasing.ready hready) hended.ne_ready
      · rw [Process.alone_releasing now 0]
        split
        · rename_i hreleased
          exact ⟨hended, hidle, fun _ => hreleased⟩
        · exact settled_swapReleased (c.close now) hended hidle

/-- A run raises its flag first. One that is not refused found the process ready, and one that is
refused lowers it again. -/
theorem Follows.raising (number : Int) :
    Follows c (Process.alone now 7 ⟨c, 0⟩ .raising).1.control := by
  rw [Process.alone_raising now 0 _ number]
  match hstart : c.raiseActive.start number now with
  | .ok c' =>
    have hready : c.raiseActive.state = .ready := Host.state_of_start hstart
    have hnot : ¬ c.Ended := fun h => h.ne_ready hready
    exact ⟨fun _ => hready, fun h => absurd h hnot, fun h => absurd h.ended hnot,
      (Follows.start hstart).sound⟩
  | .error _ =>
    -- A settled block is not settled while the flag is up, but the refused run lowers it again.
    have hlowering := Follows.lowering now c.raiseActive .caller
    exact ⟨hlowering.ready, hlowering.ended,
      fun h => settled_lowering now c.raiseActive .caller h.ended, hlowering.sound⟩

end

end Control

namespace Host

/-! ## Hosts -/

/-- A process that may come after another. -/
structure Grows (q q' : Process) : Prop where
  segments : q'.segments = q.segments
  machine : q'.machine = q.machine
  control : q.control.Follows q'.control

/-- What work on control blocks does to the host. -/
structure Tends (h h' : Host) : Prop where
  runs : h'.runs = h.runs
  size : h'.processes.size = h.processes.size
  process : ∀ (p : Nat) q, h.processes[p]? = some q → ∃ q', h'.processes[p]? = some q' ∧ Grows q q'

/-- The books of the host: segments went back only from a process that was disposed of, and a run
whose thread returned has left its process settled. -/
structure Booked (h : Host) : Prop where
  released : ∀ (p : Nat) q, h.processes[p]? = some q →
    q.control.released = true → q.control.disposed = true
  run : ∀ (r : Nat) run, h.runs[r]? = some run → ∃ q, h.processes[run.process]? = some q ∧
    q.control.state ≠ .ready ∧ (run.job.done = true → run.job.lost = false → q.control.Settled)

/-- What any work does to the host. -/
structure Evolves (h h' : Host) : Prop where
  process : ∀ (p : Nat) q, h.processes[p]? = some q → ∃ q', h'.processes[p]? = some q' ∧ Grows q q'
  booked : h.Booked → h'.Booked

variable {α β : Type} {h h' h'' : Host} {p : Nat} {q : Process}

theorem Grows.refl (q : Process) : Grows q q := ⟨rfl, rfl, .refl _⟩

theorem Grows.trans {q' q'' : Process} (hq : Grows q q') (hq' : Grows q' q'') : Grows q q'' :=
  ⟨hq'.segments.trans hq.segments, hq'.machine.trans hq.machine, hq.control.trans hq'.control⟩

theorem Tends.of_same (hprocesses : h'.processes = h.processes) (hruns : h'.runs = h.runs) :
    Tends h h' :=
  ⟨hruns, congrArg Array.size hprocesses, fun _ q hq => ⟨q, hprocesses ▸ hq, .refl q⟩⟩

theorem Tends.refl (h : Host) : Tends h h := .of_same rfl rfl

theorem Tends.trans (ht : Tends h h') (ht' : Tends h' h'') : Tends h h'' := by
  refine ⟨ht'.runs.trans ht.runs, ht'.size.trans ht.size, fun p q hq => ?_⟩
  obtain ⟨q', hq', hgrows⟩ := ht.process p q hq
  obtain ⟨q'', hq'', hgrows'⟩ := ht'.process p q' hq'
  exact ⟨q'', hq'', hgrows.trans hgrows'⟩

/-- Every process after the work was there before. -/
theorem Tends.exists_before (ht : Tends h h') {q' : Process} (hq' : h'.processes[p]? = some q') :
    ∃ q, h.processes[p]? = some q ∧ Grows q q' := by
  obtain ⟨hlt, -⟩ := Array.getElem?_eq_some_iff.1 hq'
  obtain ⟨q, hq⟩ : ∃ q, h.processes[p]? = some q := ⟨_, Array.getElem?_eq_getElem (ht.size ▸ hlt)⟩
  obtain ⟨q'', hq'', hgrows⟩ := ht.process p q hq
  obtain rfl := Option.some.inj (hq''.symm.trans hq')
  exact ⟨_, hq, hgrows⟩

theorem Tends.evolves (ht : Tends h h') : Evolves h h' where
  process := ht.process
  booked hb := by
    refine ⟨fun p q' hq' => ?_, fun r run hrun => ?_⟩
    · obtain ⟨q, hq, hgrows⟩ := ht.exists_before hq'
      exact hgrows.control.sound (hb.released p q hq)
    · obtain ⟨q, hq, hready, hsettled⟩ := hb.run r run (ht.runs ▸ hrun)
      obtain ⟨q', hq', hgrows⟩ := ht.process _ q hq
      exact ⟨q', hq', fun hready' => hready (hgrows.control.ready hready'),
        fun hdone hkept => hgrows.control.settled (hsettled hdone hkept)⟩

theorem Evolves.refl (h : Host) : Evolves h h := (Tends.refl h).evolves

theorem Evolves.trans (he : Evolves h h') (he' : Evolves h' h'') : Evolves h h'' := by
  refine ⟨fun p q hq => ?_, he'.booked ∘ he.booked⟩
  obtain ⟨q', hq', hgrows⟩ := he.process p q hq
  obtain ⟨q'', hq'', hgrows'⟩ := he'.process p q' hq'
  exact ⟨q'', hq'', hgrows.trans hgrows'⟩

/-! ## Work put together -/

section
variable {work : HostM α} {rest : α → HostM β}

theorem after_bind (work : HostM α) (rest : α → HostM β) (h : Host) :
    after (work >>= rest) h =
      match work.run h with
      | .ok a h' => after (rest a) h'
      | .error _ h' => h' := by
  rw [after, EStateM.run_bind]
  cases work.run h <;> rfl

theorem after_get_bind (rest : Host → HostM β) (h : Host) :
    after (get >>= rest) h = after (rest h) h :=
  rfl

theorem after_of_ok {a : α} (hwork : work.run h = .ok a h') : after work h = h' := by
  rw [after, hwork]

theorem after_of_error {e : Fault} (hwork : work.run h = .error e h') : after work h = h' := by
  rw [after, hwork]

theorem after_congr {work' : HostM α} (hwork : work.run h = work'.run h') :
    after work h = after work' h' := by
  rw [after, after, hwork]

theorem after_attempt (work : HostM α) (h : Host) : after (attempt work) h = after work h := by
  unfold after EStateM.run attempt
  cases work h <;> rfl

theorem attempt_run (work : HostM α) (h : Host) :
    ∃ x, (attempt work).run h = .ok x (after work h) := by
  unfold after EStateM.run attempt
  cases work h with
  | ok a h' => exact ⟨.ok a, rfl⟩
  | error e h' => exact ⟨.error e, rfl⟩

/-- What holds of each of two pieces of work holds of both together. -/
theorem after_bind_rel {R : Host → Host → Prop} (htrans : ∀ {h h' h''}, R h h' → R h' h'' → R h h'')
    (hwork : R h (after work h))
    (hrest : ∀ a h', work.run h = .ok a h' → R h' (after (rest a) h')) :
    R h (after (work >>= rest) h) := by
  rw [after_bind]
  rw [after] at hwork
  match hrun : work.run h with
  | .ok a h' =>
    rw [hrun] at hwork
    exact htrans hwork (hrest a h' hrun)
  | .error e h' =>
    rw [hrun] at hwork
    exact hwork

theorem Tends.bind (hwork : Tends h (after work h))
    (hrest : ∀ a h', work.run h = .ok a h' → Tends h' (after (rest a) h')) :
    Tends h (after (work >>= rest) h) :=
  after_bind_rel Tends.trans hwork hrest

theorem Evolves.bind (hwork : Evolves h (after work h))
    (hrest : ∀ a h', work.run h = .ok a h' → Evolves h' (after (rest a) h')) :
    Evolves h (after (work >>= rest) h) :=
  after_bind_rel Evolves.trans hwork hrest

end

theorem Tends.bind_evolves {work : HostM α} {rest : α → HostM β} (hwork : Tends h (after work h))
    (hrest : ∀ a h', Tends h h' → Evolves h' (after (rest a) h')) :
    Evolves h (after (work >>= rest) h) :=
  Evolves.bind hwork.evolves fun a h' hrun => hrest a h' (after_of_ok hrun ▸ hwork)

/-- Work that only looks. -/
def Reads (work : HostM α) : Prop := ∀ h, after work h = h

theorem Reads.tends {work : HostM α} (hwork : Reads work) (h : Host) : Tends h (after work h) := by
  rw [hwork h]
  exact .refl h

theorem reads_pure (a : α) : Reads (pure a : HostM α) := fun _ => rfl

theorem reads_throw (e : Fault) : Reads (throw e : HostM α) := fun _ => rfl

theorem reads_accept (x : Except Error α) : Reads (accept x) := by
  intro h
  cases x <;> rfl

theorem reads_bind {work : HostM α} {rest : α → HostM β} (hwork : Reads work)
    (hrest : ∀ a, Reads (rest a)) : Reads (work >>= rest) := by
  intro h
  apply after_bind_rel (R := fun h h' => h' = h)
  · intro h₁ h₂ h₃ h₁₂ h₂₃
    exact h₂₃.trans h₁₂
  · exact hwork h
  · intro a h' _
    exact hrest a h'

theorem reads_get : Reads (get : HostM Host) := fun _ => rfl

theorem reads_process (p : Nat) : Reads (process p) := by
  refine reads_bind reads_get fun h => ?_
  split
  · exact reads_pure _
  · exact reads_throw _

theorem reads_machine (m : Nat) : Reads (machine m) := by
  refine reads_bind reads_get fun h => ?_
  split
  · exact reads_pure _
  · exact reads_throw _

theorem reads_parts (m : Nat) : Reads (parts m) := by
  refine reads_bind reads_get fun h => ?_
  split
  · exact reads_pure _
  · exact reads_throw _

theorem reads_ensureAlive (m : Nat) : Reads (ensureAlive m) := by
  refine reads_bind (reads_machine m) fun machine => ?_
  split
  · exact reads_throw _
  · exact reads_pure _

theorem reads_replied (reply : Reply) : Reads (replied reply) := by
  intro h
  cases reply <;> rfl

theorem reads_reaction (p : Nat) (id : FunctionId) (args : List Cell) :
    Reads (reaction p id args) := by
  refine reads_bind (reads_process p) fun q => ?_
  split
  · exact reads_throw _
  · refine reads_bind (reads_parts _) fun parts => ?_
    split
    · exact reads_throw _
    · exact reads_pure _

theorem parts_run (h : Host) (m : Nat) :
    (parts m).run h =
      match parts? h m with
      | some parts => .ok parts h
      | none => .error (.error .disposed) h := by
  rw [parts, run_bind_ok (EStateM.run_get h)]
  cases parts? h m <;> rfl

theorem after_process_bind (p : Nat) (rest : Process → HostM β) (h : Host) :
    after (process p >>= rest) h =
      match h.processes[p]? with
      | some q => after (rest q) h
      | none => h := by
  match hq : h.processes[p]? with
  | some q => rw [after_bind, process_run hq]
  | none =>
    have hrun : (process p).run h = .error .crash h := by
      rw [process, run_bind_ok (EStateM.run_get h), hq]
      rfl
    rw [after_bind, hrun]

/-! ## Work on control blocks -/

theorem tends_modify {f : Process → Process} (hf : ∀ q, h.processes[p]? = some q → Grows q (f q)) :
    Tends h { h with processes := h.processes.modify p f } := by
  refine ⟨rfl, Array.size_modify .., fun i q hq => ?_⟩
  rw [Array.getElem?_modify]
  by_cases hi : p = i
  · subst hi
    rw [if_pos rfl, hq]
    exact ⟨f q, rfl, hf q hq⟩
  · rw [if_neg hi]
    exact ⟨q, hq, .refl q⟩

theorem tends_withControl (hq : h.processes[p]? = some q) {c : Control}
    (hc : q.control.Follows c) : Tends h (h.withControl p c) := by
  refine tends_modify fun q' hq' => ?_
  obtain rfl := Option.some.inj (hq.symm.trans hq')
  exact ⟨rfl, rfl, hc⟩

theorem tends_modifyControl (h : Host) (p : Nat) {f : Control → Control}
    (hf : ∀ c : Control, c.Follows (f c)) : Tends h (after (modifyControl p f) h) :=
  tends_modify fun q _ => ⟨rfl, rfl, hf q.control⟩

theorem tends_stop (h : Host) (p : Nat) : Tends h (after (stop p) h) :=
  tends_modifyControl h p fun c => .leave c .stopped h.now

theorem tends_fault (h : Host) (p : Nat) : Tends h (after (fault p) h) :=
  tends_modifyControl h p fun c => .leave c .faulted h.now

theorem tends_start (h : Host) (p : Nat) : Tends h (after (start p) h) := by
  cases hq : h.processes[p]? with
  | none =>
    rw [start, after_process_bind, hq]
    exact .refl h
  | some q =>
    rw [after, start_run hq]
    cases hstart : q.control.start q.id h.now with
    | ok c => exact tends_withControl hq (.start hstart)
    | error _ => exact .refl h

/-- The host with other windows for a machine and other pools. -/
def withAllocator (h : Host) (m : Nat) (x : Allocator × Store) : Host :=
  { h with
    store := x.2
    machines := h.machines.modify m fun machine =>
      { machine with parts := machine.parts.map fun parts => { parts with allocator := x.1 } } }

theorem withMemory_run {m : Nat} {parts : Parts} (hp : parts? h m = some parts)
    (work : Layout → Allocator.AllocM α) :
    (withMemory m work).run h =
      match work parts.layout (parts.allocator, h.store) with
      | .ok a x => .ok a (h.withAllocator m x)
      | .error e x => .error e (h.withAllocator m x) := by
  have hparts : (Host.parts m).run h = .ok parts h := by rw [parts_run, hp]
  refine (run_bind_ok hparts _).trans ?_
  unfold EStateM.run
  dsimp only
  match work parts.layout (parts.allocator, h.store) with
  | .ok a x => rfl
  | .error e x => rfl

theorem tends_withMemory (h : Host) (m : Nat) (work : Layout → Allocator.AllocM α) :
    Tends h (after (withMemory m work) h) := by
  match hp : parts? h m with
  | none =>
    have hparts : (parts m).run h = .error (.error .disposed) h := by rw [parts_run, hp]
    have hrun : (withMemory m work).run h = .error (.error .disposed) h := run_bind_error hparts _
    rw [after_of_error hrun]
    exact .refl h
  | some parts =>
    rw [after, withMemory_run hp]
    match work parts.layout (parts.allocator, h.store) with
    | .ok a x => exact .of_same rfl rfl
    | .error e x => exact .of_same rfl rfl

theorem tends_handOver (h : Host) (q : Process) : Tends h (after (handOver q) h) := by
  unfold handOver
  split
  · exact .refl h
  · refine Tends.bind (reads_get.tends h) fun _ h' _ => ?_
    split
    · exact .refl h'
    · refine Tends.bind ?_ fun result h'' _ => ?_
      · rw [after_attempt]
        exact tends_withMemory h' ..
      · split <;> exact .refl h''

theorem tends_settle (hq : h.processes[p]? = some q) {s : Process.Shared}
    (hs : q.control.Follows s.control) : Tends h (after (settle p q s) h) := by
  have hrun := settle_run hq s
  by_cases hhanded : s.handed = 0
  · rw [if_pos hhanded] at hrun
    rw [after_of_ok hrun]
    exact tends_withControl hq hs
  · rw [if_neg hhanded] at hrun
    rw [after_congr hrun]
    exact (tends_withControl hq hs).trans (tends_handOver _ q)

theorem tends_dispose (h : Host) (p : Nat) : Tends h (after (dispose p) h) := by
  match hq : h.processes[p]? with
  | none =>
    rw [dispose, after_process_bind, hq]
    exact .refl h
  | some q =>
    rw [after_congr (dispose_alone hq)]
    exact tends_settle hq (.disposing h.now q.control)

theorem tends_finishRun (h : Host) (p : Nat) : Tends h (after (finishRun p) h) := by
  refine Tends.bind (tends_modifyControl h p .lowerActive) fun _ h' _ => ?_
  rw [after_process_bind]
  split
  · rename_i q hq
    split
    · rename_i hdisposed
      rw [after_congr (releaseSegments_alone hq 0 .thread)]
      exact tends_settle hq (.releasing 0 q.control .thread hdisposed)
    · exact .refl h'
  · exact .refl h'

theorem tends_collect (h : Host) (p : Nat) : Tends h (after (collect p) h) := by
  refine Tends.bind ((reads_process p).tends h) fun q h' _ => ?_
  split
  · exact tends_dispose h' p
  · exact .refl h'

theorem tends_letGo (h : Host) (p : Nat) : Tends h (after (letGo p) h) := by
  refine Tends.bind ?_ fun _ h' _ => ?_
  · exact tends_modify fun q _ => ⟨rfl, rfl, .refl _⟩
  · refine Tends.bind (reads_get.tends h') fun _ h'' _ => ?_
    split
    · exact tends_collect h'' p
    · exact .refl h''

theorem tends_disposeAll (h : Host) (ps : List Nat) : Tends h (after (disposeAll ps) h) := by
  induction ps generalizing h with
  | nil => exact .refl h
  | cons p ps ih => exact Tends.bind (tends_dispose h p) fun _ h' _ => ih h'

theorem tends_disposeMachine (h : Host) (m : Nat) : Tends h (after (disposeMachine m) h) := by
  refine Tends.bind ((reads_machine m).tends h) fun machine h' _ => ?_
  split
  · exact .refl h'
  · refine Tends.bind (.of_same rfl rfl) fun _ h₁ _ => ?_
    exact Tends.bind (tends_disposeAll h₁ _) fun _ _ _ => .of_same rfl rfl

theorem tends_dropMachine (h : Host) (m : Nat) : Tends h (after (dropMachine m) h) :=
  Tends.bind (tends_disposeMachine h m) fun _ _ _ => .of_same rfl rfl

/-! ## Deeds and turns -/

theorem tends_print (h : Host) (stream : Nat) (text : String) :
    Tends h (after (print stream text) h) := by
  refine Tends.bind (reads_get.tends h) fun _ h' _ => ?_
  split
  · exact .refl h'
  · split
    · exact .refl h'
    · exact .of_same rfl rfl

theorem tends_arrive (h : Host) (gate : Nat) : Tends h (after (arrive gate) h) := by
  refine Tends.bind (reads_get.tends h) fun _ h' _ => ?_
  split
  · exact .refl h'
  · exact .of_same rfl rfl

theorem tends_carryOut (h : Host) (p : Nat) (d : Deed) : Tends h (after (carryOut p d) h) := by
  cases d with
  | print stream text => exact tends_print h stream text
  | write address value =>
    refine Tends.bind ((reads_process p).tends h) fun q h₁ _ => ?_
    refine Tends.bind ((reads_accept _).tends h₁) fun target h₂ _ => ?_
    exact Tends.bind ((reads_accept _).tends h₂) fun _ _ _ => .of_same rfl rfl
  | dispose => exact tends_dispose h p
  | stop => exact tends_stop h p
  | fault => exact tends_fault h p
  | disposeMachine =>
    refine Tends.bind ((reads_process p).tends h) fun q h' _ => ?_
    split
    · exact tends_disposeMachine h' _
    · exact .refl h'

theorem tends_burst (h : Host) (p turns : Nat) (frame : Processor.Frame) :
    Tends h (after (burst p turns frame) h) :=
  Tends.bind ((reads_process p).tends h) fun _ _ _ => .of_same rfl rfl

end Host

end CellMachine
