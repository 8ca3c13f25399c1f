import CellMachine.Proofs.Host.Evolution

/-!
# The dispatch loop on any host

`Host.dispatch` takes its turns in bursts, lets other runs go on between two of them and calls the
host in the middle of one. `Host.Governs` is what has to be known of a single turn, a single round
of the other runs and a single call; from that, `Host.Governs.dispatch` tells what the whole loop
comes to, whatever the host functions do.
-/

namespace CellMachine

open Processor

namespace Host

variable {h : Host} {p : Nat} {q : Process} {frame : Frame}

/-- The host has answered, and the loop goes on from there. -/
theorem proceed_run {Inv : Host → Frame → Prop} {Post : EStateM.Result Fault Host Unit → Prop}
    {fuel result : Nat} {value : Cell}
    (hrest : ∀ {h frame}, Inv h frame → Post ((dispatch p fuel frame).run h))
    (hq : h.processes[p]? = some q)
    (hresume : match resume q.segments q.control frame result value with
      | .ended result => Post (h.reported (.ended result))
      | .next frame write => Inv (h.during ((Turn.next frame write).land h.store).2 h.now) frame
      | .calling .. => True) :
    Post ((proceed p fuel frame result value).run h) := by
  rw [proceed, run_bind_ok (process_run hq)]
  cases hturn : resume q.segments q.control frame result value with
  | ended result =>
    rw [hturn] at hresume
    dsimp only
    rw [accept_run]
    exact hresume
  | next frame write =>
    rw [hturn] at hresume
    cases write with
    | none => exact hrest hresume
    | some a => exact hrest hresume
  | calling _ _ _ frame => exact absurd hturn resume_ne_calling

/-! ## Other runs -/

/-- Work that fails by crashing only. -/
def Unrefused {α : Type} (work : HostM α) : Prop :=
  ∀ h e h', work.run h = .error e h' → e = .crash

section
variable {α β : Type}

theorem Unrefused.bind {work : HostM α} {rest : α → HostM β} (hwork : Unrefused work)
    (hrest : ∀ a, Unrefused (rest a)) : Unrefused (work >>= rest) := by
  intro h e h' hrun
  cases hfirst : work.run h with
  | ok a h₁ =>
    rw [run_bind_ok hfirst] at hrun
    exact hrest a h₁ e h' hrun
  | error e₁ h₁ =>
    rw [run_bind_error hfirst] at hrun
    cases hrun
    exact hwork h e h' hfirst

theorem unrefused_crash : Unrefused (throw .crash : HostM α) := by
  intro h e h' hrun
  cases hrun
  rfl

/-- Work that always succeeds. -/
theorem unrefused_of_ok {work : HostM α} (hok : ∀ h, ∃ a h', work.run h = .ok a h') :
    Unrefused work := by
  intro h e h' hrun
  obtain ⟨a, h₁, hrun'⟩ := hok h
  cases hrun'.symm.trans hrun

theorem unrefused_attempt (work : HostM α) : Unrefused (attempt work) :=
  unrefused_of_ok fun h =>
    have ⟨x, hrun⟩ := attempt_run work h
    ⟨x, _, hrun⟩

theorem unrefused_modify (f : Host → Host) : Unrefused (modify f) :=
  unrefused_of_ok fun _ => ⟨_, _, rfl⟩

theorem unrefused_get : Unrefused (get : HostM Host) := unrefused_of_ok fun _ => ⟨_, _, rfl⟩

theorem unrefused_pure (a : α) : Unrefused (pure a : HostM α) :=
  unrefused_of_ok fun _ => ⟨_, _, rfl⟩

end

theorem unrefused_process (p : Nat) : Unrefused (process p) := by
  refine unrefused_get.bind fun h => ?_
  split
  · exact unrefused_pure _
  · exact unrefused_crash

/-- A process ends, and its run is concluded. -/
theorem unrefused_conclude (r p : Nat) (result : Except Error Unit) :
    Unrefused (conclude r p result) := by
  have hstop : Unrefused (stop p) := unrefused_get.bind fun _ => unrefused_modify _
  have hfault : Unrefused (fault p) := unrefused_get.bind fun _ => unrefused_modify _
  cases result with
  | ok _ =>
    refine hstop.bind fun _ => (unrefused_attempt _).bind fun x => ?_
    split <;> exact unrefused_modify _
  | error _ =>
    refine hfault.bind fun _ => (unrefused_attempt _).bind fun x => ?_
    split <;> exact unrefused_modify _

theorem unrefused_faulted (r p : Nat) (e : Fault) : Unrefused (faulted r p e) := by
  cases e with
  | error e => exact unrefused_conclude r p (.error e)
  | crash => exact (unrefused_attempt _).bind fun _ => unrefused_modify _

theorem unrefused_modifyStore (f : Store → Store) : Unrefused (modifyStore f) :=
  unrefused_of_ok fun _ => ⟨_, _, rfl⟩

theorem unrefused_turned (r p : Nat) (t : Turn) : Unrefused (turned r p t) := by
  cases t with
  | ended result => exact unrefused_conclude r p result
  | next frame write =>
    cases write with
    | none => exact (unrefused_pure _).bind fun _ => unrefused_modify _
    | some a => exact (unrefused_modifyStore _).bind fun _ => unrefused_modify _
  | calling _ _ _ frame => exact unrefused_modify _

theorem unrefused_burst (p n : Nat) (frame : Frame) : Unrefused (burst p n frame) :=
  (unrefused_process p).bind fun _ => unrefused_of_ok fun _ => ⟨_, _, rfl⟩

theorem unrefused_advance (r p : Nat) (frame : Frame) : Unrefused (advance r p frame) := by
  refine (unrefused_burst p _ frame).bind fun pause => ?_
  cases pause with
  | ended result => exact unrefused_conclude r p result
  | tired frame => exact unrefused_modify _
  | calling id args result frame =>
    refine (unrefused_attempt _).bind fun x => ?_
    cases x with
    | error e => exact unrefused_faulted r p e
    | ok reaction => exact unrefused_modify _

theorem unrefused_arrive (gate : Nat) : Unrefused (arrive gate) := by
  refine unrefused_get.bind fun h => ?_
  split
  · exact unrefused_crash
  · exact (unrefused_modify _).bind fun _ => unrefused_pure _

theorem unrefused_serve (r p : Nat) (s : Service) : Unrefused (serve r p s) := by
  obtain ⟨effects, reply, frame, result⟩ := s
  cases effects with
  | nil =>
    refine (unrefused_attempt _).bind fun x => ?_
    cases x with
    | error e => exact unrefused_faulted r p e
    | ok value => exact (unrefused_process p).bind fun q => unrefused_turned r p _
  | cons effect rest =>
    cases effect with
    | sleep ms => exact unrefused_get.bind fun _ => unrefused_modify _
    | wait gate => exact (unrefused_arrive gate).bind fun _ => unrefused_modify _
    | deed d =>
      refine (unrefused_attempt _).bind fun x => ?_
      cases x with
      | error e => exact unrefused_faulted r p e
      | ok _ => exact unrefused_modify _

theorem unrefused_slice (r : Nat) : Unrefused (slice r) := by
  refine unrefused_get.bind fun h => ?_
  split
  · exact unrefused_pure _
  · rename_i run _
    split
    · exact unrefused_pure _
    · exact (unrefused_advance r _ _).bind fun _ => unrefused_pure _
    · exact (unrefused_serve r _ _).bind fun _ => unrefused_pure _
    · refine unrefused_get.bind fun h => ?_
      split
      · exact (unrefused_modify _).bind fun _ => unrefused_pure _
      · exact unrefused_pure _
    · refine unrefused_get.bind fun h => ?_
      split
      · exact (unrefused_modify _).bind fun _ => unrefused_pure _
      · exact unrefused_pure _

/-- Other runs refuse nothing to the one that lets them go on. -/
theorem unrefused_round (n : Nat) : Unrefused (round n) := by
  induction n with
  | zero => exact unrefused_pure _
  | succ n ih => exact ih.bind fun _ => (unrefused_slice n).bind fun _ => unrefused_pure _

/-! ## The loop as a whole -/

/-- What is kept while the loop goes on (`Inv`) and what holds when it is over (`Post`), one field
for each thing that can happen next. -/
structure Governs (p : Nat) (Inv : Host → Frame → Prop)
    (Post : EStateM.Result Fault Host Unit → Prop) : Prop where
  known : ∀ {h frame}, Inv h frame → ∃ q, h.processes[p]? = some q
  /-- A crash, or a loop that was not given time to end. -/
  crash : ∀ h, Post (.error .crash h)
  /-- The other runs get a slice each. -/
  round : ∀ {h frame went h'}, Inv h frame → (round h.runs.size).run h = .ok went h' → Inv h' frame
  ended : ∀ {h q frame result}, Inv h frame → h.processes[p]? = some q →
    turn q.segments q.control h.now h.store frame = .ended result →
    Post ((h.during h.store (h.now + turnTime)).reported (.ended result))
  next : ∀ {h q frame next write}, Inv h frame → h.processes[p]? = some q →
    turn q.segments q.control h.now h.store frame = .next next write →
    Inv (h.during ((Turn.next next write).land h.store).2 (h.now + turnTime)) next
  /-- The host refuses a call. -/
  refused : ∀ {h q frame id args result next e h'} (fuel : Nat), Inv h frame →
    h.processes[p]? = some q →
    turn q.segments q.control h.now h.store frame = .calling id args result next →
    (call p fuel id args).run (h.during h.store (h.now + turnTime)) = .error (.error e) h' →
    Post (.error (.error e) h')
  /-- The host answers a call. -/
  answered : ∀ {h q frame id args result next value h'} (fuel : Nat), Inv h frame →
    h.processes[p]? = some q →
    turn q.segments q.control h.now h.store frame = .calling id args result next →
    (call p fuel id args).run (h.during h.store (h.now + turnTime)) = .ok value h' →
    ∃ q', h'.processes[p]? = some q' ∧
      match resume q'.segments q'.control next result value with
      | .ended result => Post (h'.reported (.ended result))
      | .next frame write => Inv (h'.during ((Turn.next frame write).land h'.store).2 h'.now) frame
      | .calling .. => True

namespace Governs

variable {Inv : Host → Frame → Prop} {Post : EStateM.Result Fault Host Unit → Prop}

/-- What is left of a burst with `n` turns to go. -/
theorem pursue (hgoverns : Governs p Inv Post) {fuel : Nat}
    (hrest : ∀ {h frame}, Inv h frame → Post ((dispatch p fuel frame).run h)) (n : Nat)
    (hinv : Inv h frame) : Post ((Host.pursue p fuel n frame).run h) := by
  induction n generalizing h frame with
  | zero =>
    obtain ⟨q, hq⟩ := hgoverns.known hinv
    rw [pursue_run_tired hq]
    cases hrun : (Host.round h.runs.size).run h with
    | ok went h' =>
      rw [run_bind_ok hrun]
      exact hrest (hgoverns.round hinv hrun)
    | error e h' =>
      obtain rfl := unrefused_round _ h e h' hrun
      rw [run_bind_error hrun]
      exact hgoverns.crash h'
  | succ n ih =>
    obtain ⟨q, hq⟩ := hgoverns.known hinv
    rw [pursue_run_turn hq]
    match hturn : turn q.segments q.control h.now h.store frame with
    | .ended result => exact hgoverns.ended hinv hq hturn
    | .next next write => exact ih (hgoverns.next hinv hq hturn)
    | .calling id args result next =>
      dsimp only
      cases hrun : (Host.call p fuel id args).run (h.during h.store (h.now + turnTime)) with
      | ok value h' =>
        obtain ⟨q', hq', hresume⟩ := hgoverns.answered fuel hinv hq hturn hrun
        rw [run_bind_ok hrun]
        exact proceed_run hrest hq' hresume
      | error e h' =>
        rw [run_bind_error hrun]
        cases e with
        | error e => exact hgoverns.refused fuel hinv hq hturn hrun
        | crash => exact hgoverns.crash h'

/-- **What a turn, a round and a call keep, the loop keeps**, and it ends as one of them does. -/
theorem dispatch (hgoverns : Governs p Inv Post) (fuel : Nat) (hinv : Inv h frame) :
    Post ((dispatch p fuel frame).run h) := by
  induction fuel generalizing h frame with
  | zero => exact hgoverns.crash h
  | succ fuel ih =>
    rw [dispatch_succ]
    exact hgoverns.pursue ih burstLength hinv

end Governs

end Host

end CellMachine
