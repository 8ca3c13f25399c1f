import CellMachine.Proofs.Host.AfterEnd

/-!
# The dispatch loop, access by access

While a process is being executed, other parties may change its control block at any moment: between
two instructions, in the middle of a look at it, or during a host call. A `Dispatch` is an execution
cut at each of these points, `Dispatch.act` is one access of the thread that executes, and
`Dispatch.Leads` lets the other parties in between any two of them.

The loop counts the instructions up to its next look, and the count survives branches. From the end
of the process on, `Stage.allowance` is what is left of that count: every instruction begun takes
one of it (`Leads.within`), every access of the thread brings it nearer to the look (`Leads.steps`),
and the look finds the process ended. `Ending` lists the ways in which the dispatch may end then,
and `Noticed` is all that is known of it.
-/

namespace CellMachine

open Processor

/-! ## Accesses -/

/-- How a dispatch ends. -/
inductive Verdict where
  | normal
  /-- An instruction failed, or the host call it made. -/
  | failed (e : Error)
  /-- The process ran for too long. -/
  | late (e : Error)
  deriving DecidableEq

/-- What whoever dispatched learns. -/
def Verdict.result : Verdict → Except Error Unit
  | normal => .ok ()
  | failed e => .error e
  | late e => .error e

/-- Where the thread of a dispatch stands, which says what it does next. -/
inductive Stage where
  /-- Counts, and reads the state if a look is due. -/
  | ahead (frame : Frame)
  /-- Found the process running; reads its clock. -/
  | timing (pc : Nat)
  /-- Fetches an instruction and carries it out, up to its host call. -/
  | fetching (pc budget : Nat)
  /-- Waits for the host. -/
  | calling (result : Nat) (frame : Frame)
  /-- Has the value of the host; reads the state. -/
  | answered (value : Cell) (result : Nat) (frame : Frame)
  /-- Writes the value to the result register. -/
  | storing (value : Cell) (result : Nat) (frame : Frame)
  | concluded (verdict : Verdict)
  /-- The thread did not survive a host call. -/
  | crashed
  deriving DecidableEq

/-- A process while its program is being dispatched. -/
structure Dispatch where
  stage : Stage := .ahead {}
  store : Store
  control : Control
  now : Nat
  /-- How many instructions were begun. -/
  begun : Nat := 0
  /-- The host calls that were started. -/
  calls : List (FunctionId × List Cell) := []
  /-- The results of host calls that were written. -/
  results : List Assignment := []

namespace Dispatch

/-- The instruction at `pc`, up to its host call. -/
def begin (x : Dispatch) (g : Segments) (pc budget : Nat) : Dispatch :=
  let begun := if pc < g.program.length then x.begun + 1 else x.begun
  match fetch g x.store pc budget with
  | .ended (.ok _) => { x with stage := .concluded .normal, begun }
  | .ended (.error e) => { x with stage := .concluded (.failed e), begun }
  | .next frame none => { x with stage := .ahead frame, begun }
  | .next frame (some a) => { x with stage := .ahead frame, store := a.apply x.store, begun }
  | .calling id args result frame =>
    { x with stage := .calling result frame, calls := x.calls ++ [(id, args)], begun }

/-- One access of the thread. If it waits for the host, `reply` is the answer. -/
def act (x : Dispatch) (g : Segments) (reply : Reply) : Dispatch :=
  match x.stage with
  | .ahead frame =>
    if frame.budget - 1 = 0 then
      if x.control.state ≠ .running then { x with stage := .concluded .normal }
      else { x with stage := .timing frame.pc }
    else { x with stage := .fetching frame.pc (frame.budget - 1) }
  | .timing pc =>
    if x.control.expired x.now then
      { x with stage := .concluded (.late (x.control.watchdogError x.now)) }
    else { x with stage := .fetching pc interval }
  | .fetching pc budget => x.begin g pc budget
  | .calling result frame =>
    match reply with
    | .value value => { x with stage := .answered value result frame }
    | .refuse e => { x with stage := .concluded (.failed e) }
    | .crash => { x with stage := .crashed }
  | .answered value result frame =>
    if x.control.state ≠ .running then { x with stage := .concluded .normal }
    else { x with stage := .storing value result frame }
  | .storing value result frame =>
    match assignment g.registers result value with
    | .ok a =>
      { x with stage := .ahead frame, store := a.apply x.store, results := x.results ++ [a] }
    | .error e => { x with stage := .concluded (.failed e) }
  | .concluded _ | .crashed => x

/-- `n` accesses of the thread that nobody interrupts. -/
def acts (x : Dispatch) (g : Segments) (reply : Reply) : (n : Nat) → Dispatch
  | 0 => x
  | n + 1 => (x.acts g reply n).act g reply

/-- `x.Leads g n y`: from `x` the thread comes to `y` with `n` accesses, and meanwhile the other
parties do as they like. -/
inductive Leads (g : Segments) (x : Dispatch) : Nat → Dispatch → Prop
  | refl : Leads g x 0 x
  /-- The thread goes on. -/
  | act {n : Nat} {y : Dispatch} (reply : Reply) : Leads g x n y → Leads g x (n + 1) (y.act g reply)
  /-- Any party makes an access to the control block, wherever it stands. -/
  | access {n : Nat} {y : Dispatch} (now : Nat) (place : Process.Place) : Leads g x n y →
    Leads g x n { y with control := (Process.access now ⟨y.control, 0⟩ place).1.control }
  /-- A whole piece of work gets done; cells change and time passes. -/
  | work {n : Nat} {y : Dispatch} {c : Control} (store : Store) (now : Nat) : Leads g x n y →
    y.control.Follows c → Leads g x n { y with store, control := c, now }

/-- The next access is by an instruction that fails. -/
inductive Fails (g : Segments) (reply : Reply) (x : Dispatch) : Error → Prop
  /-- Reading an operand, reaching a cell or taking a branch. -/
  | carrying {pc budget : Nat} {e : Error} : x.stage = .fetching pc budget → pc < g.program.length →
    decide g x.store pc = .error e → Fails g reply x e
  /-- The host refuses. -/
  | refused {result : Nat} {frame : Frame} {e : Error} : x.stage = .calling result frame →
    reply = .refuse e → Fails g reply x e
  /-- There is no such result register. -/
  | storing {value : Cell} {result : Nat} {frame : Frame} {e : Error} :
    x.stage = .storing value result frame → assignment g.registers result value = .error e →
    Fails g reply x e

/-- From `x` to `y` no instruction was begun, no host call started and no result written. -/
structure Quiet (x y : Dispatch) : Prop where
  begun : y.begun = x.begun
  calls : y.calls = x.calls
  results : y.results = x.results

/-- How a dispatch that stood at `x` when its process ended has come to its verdict at `y`. -/
inductive Ending (g : Segments) (x y : Dispatch) : Verdict → Prop
  /-- It was over by then. -/
  | before {verdict : Verdict} : x.stage = .concluded verdict → Ending g x y verdict
  | normal : Ending g x y .normal
  /-- An instruction has failed since. -/
  | failed {j k : Nat} {z : Dispatch} {reply : Reply} {e : Error} : x.Leads g j z →
    z.Fails g reply e → (z.act g reply).Leads g k y → Ending g x y (.failed e)
  /-- The process ended in the middle of a look, between the read that found it running and that of
  its clock. The next access found it late, and nothing else was done. -/
  | late {pc k : Nat} {z : Dispatch} {reply : Reply} : x.stage = .timing pc → x.Leads g 0 z →
    z.control.expired z.now = true → (z.act g reply).Leads g k y → x.Quiet y →
    Ending g x y (.late (z.control.watchdogError z.now))

end Dispatch

/-! ## What is left of a dispatch -/

namespace Stage

/-- The instructions that may still be begun when the process has ended. -/
def allowance : Stage → Nat
  | .ahead frame => frame.budget - 1
  | .timing _ => interval
  | .fetching _ budget => budget
  | .storing _ _ frame => frame.budget - 1
  | .calling .. | .answered .. | .concluded _ | .crashed => 0

/-- The accesses the thread still makes, when the process has ended, before it comes to its end. -/
def steps : Stage → Nat
  | .ahead frame => 2 * frame.budget
  | .timing _ => 2 * interval + 2
  | .fetching _ budget => 2 * budget + 1
  | .calling .. => 2
  | .answered .. => 1
  | .storing _ _ frame => 2 * frame.budget + 1
  | .concluded _ | .crashed => 0

/-- The host calls that may still be started when the process has ended. -/
def asks : Stage → Nat
  | .ahead _ | .timing _ | .fetching .. | .storing .. => 1
  | .calling .. | .answered .. | .concluded _ | .crashed => 0

/-- The count up to the next look is one the loop can have. -/
def Bounded : Stage → Prop
  | .ahead frame | .calling _ frame | .answered _ _ frame | .storing _ _ frame =>
    0 < frame.budget ∧ frame.budget ≤ interval
  | .fetching _ budget => 0 < budget ∧ budget ≤ interval
  | .timing _ | .concluded _ | .crashed => True

/-- The thread does nothing any more. -/
def IsOver (stage : Stage) : Prop := stage = .crashed ∨ ∃ verdict, stage = .concluded verdict

variable {stage : Stage}

end Stage

namespace Dispatch

variable {g : Segments} {x y z : Dispatch} {m n pc budget : Nat}

/-! ## One access -/

section
variable (g) (x) (pc) (budget)

theorem control_begin : (x.begin g pc budget).control = x.control := by
  unfold begin
  dsimp only
  split <;> rfl

theorem begun_begin : (x.begin g pc budget).begun ≤ x.begun + 1 := by
  have hbegun : (x.begin g pc budget).begun =
      if pc < g.program.length then x.begun + 1 else x.begun := by
    unfold begin
    dsimp only
    split <;> rfl
  rw [hbegun]
  split <;> omega

/-- An instruction ends the dispatch, or leads to the next one with the count as it is, or waits for
the host. -/
theorem begin_cases :
    ((∃ verdict, (x.begin g pc budget).stage = .concluded verdict) ∧
      (x.begin g pc budget).calls = x.calls) ∨
    (∃ next, (x.begin g pc budget).stage = .ahead next ∧ next.budget = budget ∧
      (x.begin g pc budget).calls = x.calls) ∨
    ∃ result next call, (x.begin g pc budget).stage = .calling result next ∧
      next.budget = budget ∧ (x.begin g pc budget).calls = x.calls ++ [call] := by
  unfold begin
  dsimp only
  cases hfetch : fetch g x.store pc budget with
  | ended result =>
    apply Or.inl
    cases result with
    | ok _ => exact ⟨⟨.normal, rfl⟩, rfl⟩
    | error e => exact ⟨⟨.failed e, rfl⟩, rfl⟩
  | next frame write =>
    apply Or.inr
    apply Or.inl
    cases write with
    | none => exact ⟨frame, rfl, budget_fetch hfetch, rfl⟩
    | some a => exact ⟨frame, rfl, budget_fetch hfetch, rfl⟩
  | calling id args result frame =>
    obtain ⟨-, -, rfl⟩ := fetch_eq_calling hfetch
    apply Or.inr
    apply Or.inr
    exact ⟨result, _, (id, args), rfl, rfl, rfl⟩

end

/-- The thread leaves the control block alone. -/
theorem control_act (x : Dispatch) (g : Segments) (reply : Reply) :
    (x.act g reply).control = x.control := by
  unfold act
  split
  · split
    · split <;> rfl
    · rfl
  · split <;> rfl
  · exact control_begin g x _ _
  · split <;> rfl
  · split <;> rfl
  · split <;> rfl
  · rfl
  · rfl

theorem bounded_begin (hbounded : 0 < budget ∧ budget ≤ interval) :
    (x.begin g pc budget).stage.Bounded := by
  rcases begin_cases g x pc budget with
    ⟨⟨verdict, hstage⟩, -⟩ | ⟨next, hstage, rfl, -⟩ | ⟨result, next, call, hstage, rfl, -⟩
  · rw [hstage]
    trivial
  · rw [hstage]
    exact hbounded
  · rw [hstage]
    exact hbounded

theorem bounded_act (reply : Reply) (hbounded : x.stage.Bounded) :
    (x.act g reply).stage.Bounded := by
  unfold act
  cases hstage : x.stage with
  | ahead frame =>
    rw [hstage] at hbounded
    dsimp only
    split
    · split <;> trivial
    · show 0 < frame.budget - 1 ∧ frame.budget - 1 ≤ interval
      have := hbounded.2
      omega
  | timing pc =>
    dsimp only
    split
    · trivial
    · show 0 < interval ∧ interval ≤ interval
      decide
  | fetching pc budget =>
    rw [hstage] at hbounded
    exact bounded_begin hbounded
  | calling result frame =>
    rw [hstage] at hbounded
    dsimp only
    split
    · exact hbounded
    · trivial
    · trivial
  | answered value result frame =>
    rw [hstage] at hbounded
    dsimp only
    split
    · trivial
    · exact hbounded
  | storing value result frame =>
    rw [hstage] at hbounded
    dsimp only
    split
    · exact hbounded
    · trivial
  | concluded verdict =>
    dsimp only
    rw [hstage]
    trivial
  | crashed =>
    dsimp only
    rw [hstage]
    trivial

/-! ## After the end -/

/-- What an execution may have come to since `x`, at which the process had ended: what was begun and
started since is off what was left then. -/
structure Within (x y : Dispatch) : Prop where
  begun : y.begun + y.stage.allowance ≤ x.begun + x.stage.allowance
  calls : y.calls.length + y.stage.asks ≤ x.calls.length + x.stage.asks

theorem Within.refl (x : Dispatch) : Within x x := ⟨Nat.le_refl _, Nat.le_refl _⟩

theorem Within.trans (hxy : Within x y) (hyz : Within y z) : Within x z :=
  ⟨Nat.le_trans hyz.begun hxy.begun, Nat.le_trans hyz.calls hxy.calls⟩

/-- An access that begins nothing. -/
theorem Within.of_same (hbegun : y.begun = x.begun) (hcalls : y.calls = x.calls)
    (hallowance : y.stage.allowance ≤ x.stage.allowance) (hasks : y.stage.asks ≤ x.stage.asks) :
    Within x y := by
  refine ⟨?_, ?_⟩
  · omega
  · rw [hcalls]
    omega

theorem within_begin (hstage : x.stage = .fetching pc budget) (hbudget : 0 < budget) :
    Within x (x.begin g pc budget) ∧ (x.begin g pc budget).stage.steps < x.stage.steps := by
  have hbegun := begun_begin g x pc budget
  rcases begin_cases g x pc budget with
    ⟨⟨verdict, hnext⟩, hcalls⟩ | ⟨next, hnext, rfl, hcalls⟩ |
      ⟨result, next, call, hnext, rfl, hcalls⟩
  · refine ⟨⟨?_, ?_⟩, ?_⟩ <;> simp only [hstage, hnext, hcalls] <;>
      simp only [Stage.allowance, Stage.asks, Stage.steps] <;> omega
  · refine ⟨⟨?_, ?_⟩, ?_⟩ <;> simp only [hstage, hnext, hcalls] <;>
      simp only [Stage.allowance, Stage.asks, Stage.steps] <;> omega
  · refine ⟨⟨?_, ?_⟩, ?_⟩ <;> simp only [hstage, hnext, hcalls, List.length_append] <;>
      simp only [Stage.allowance, Stage.asks, Stage.steps, List.length_singleton] <;> omega

/-- **One access after the end** takes what it begins from what is left, and brings the thread
nearer to its end. -/
theorem act_of_ended (reply : Reply) (hended : x.control.Ended) (hbounded : x.stage.Bounded) :
    Within x (x.act g reply) ∧
      (x.stage.IsOver ∨ (x.act g reply).stage.steps < x.stage.steps) := by
  unfold act
  cases hstage : x.stage with
  | ahead frame =>
    rw [hstage] at hbounded
    have hpos : 0 < frame.budget := hbounded.1
    dsimp only
    by_cases hlook : frame.budget - 1 = 0
    · rw [if_pos hlook, if_pos hended.ne_running]
      refine ⟨.of_same rfl rfl ?_ ?_, .inr ?_⟩
      · exact Nat.zero_le _
      · exact Nat.zero_le _
      · simp only [Stage.steps]
        omega
    · rw [if_neg hlook]
      refine ⟨.of_same rfl rfl ?_ ?_, .inr ?_⟩
      · simp [hstage, Stage.allowance]
      · simp [hstage, Stage.asks]
      · simp only [Stage.steps]
        omega
  | timing pc =>
    dsimp only
    split
    · refine ⟨.of_same rfl rfl (Nat.zero_le _) (Nat.zero_le _), .inr ?_⟩
      simp [Stage.steps]
    · refine ⟨.of_same rfl rfl ?_ ?_, .inr ?_⟩
      · simp [hstage, Stage.allowance]
      · simp [hstage, Stage.asks]
      · simp [Stage.steps]
  | fetching pc budget =>
    rw [hstage] at hbounded
    have hbegin := within_begin (g := g) hstage hbounded.1
    rw [hstage] at hbegin
    exact ⟨hbegin.1, .inr hbegin.2⟩
  | calling result frame =>
    dsimp only
    refine ⟨?_, .inr ?_⟩
    · cases reply <;> exact .of_same rfl rfl (Nat.zero_le _) (Nat.zero_le _)
    · cases reply <;> simp [Stage.steps]
  | answered value result frame =>
    dsimp only
    rw [if_pos hended.ne_running]
    exact ⟨.of_same rfl rfl (Nat.zero_le _) (Nat.zero_le _), .inr Nat.one_pos⟩
  | storing value result frame =>
    dsimp only
    refine ⟨?_, .inr ?_⟩
    · split
      · exact .of_same rfl rfl (by simp [hstage, Stage.allowance]) (by simp [hstage, Stage.asks])
      · exact .of_same rfl rfl (Nat.zero_le _) (Nat.zero_le _)
    · split <;> simp [Stage.steps]
  | concluded verdict => exact ⟨.refl x, .inl (.inr ⟨verdict, rfl⟩)⟩
  | crashed => exact ⟨.refl x, .inl (.inl rfl)⟩

theorem act_of_isOver {reply : Reply} (hover : x.stage.IsOver) : x.act g reply = x := by
  unfold act
  rcases hover with hstage | ⟨verdict, hstage⟩ <;> rw [hstage]

/-- A look at the clock that finds the process late. -/
theorem act_of_late (reply : Reply) (hstage : x.stage = .timing pc)
    (hlate : x.control.expired x.now = true) :
    x.act g reply = { x with stage := .concluded (.late (x.control.watchdogError x.now)) } := by
  rw [act, hstage]
  exact if_pos hlate

/-- No look finds a process running that has ended. -/
theorem act_ne_timing (reply : Reply) (hended : x.control.Ended) (pc : Nat) :
    (x.act g reply).stage ≠ .timing pc := by
  unfold act
  cases hstage : x.stage with
  | ahead frame =>
    dsimp only
    rw [if_pos hended.ne_running]
    split <;> (intro h; cases h)
  | timing pc =>
    dsimp only
    split <;> (intro h; cases h)
  | fetching pc' budget =>
    dsimp only
    intro h
    rcases begin_cases g x pc' budget with
      ⟨⟨verdict, hnext⟩, -⟩ | ⟨next, hnext, -⟩ | ⟨result, next, call, hnext, -⟩ <;>
    cases hnext.symm.trans h
  | calling result frame => cases reply <;> (intro h; cases h)
  | answered value result frame =>
    dsimp only
    split <;> (intro h; cases h)
  | storing value result frame =>
    dsimp only
    split <;> (intro h; cases h)
  | concluded verdict =>
    intro h
    cases hstage.symm.trans h
  | crashed =>
    intro h
    cases hstage.symm.trans h

theorem over_begin {pc budget : Nat} {verdict : Verdict} (hstage : x.stage = .fetching pc budget)
    (reply : Reply) (hover : (x.begin g pc budget).stage = .concluded verdict) :
    verdict = .normal ∨ ∃ e, verdict = .failed e ∧ x.Fails g reply e := by
  unfold begin at hover
  dsimp only at hover
  cases hfetch : fetch g x.store pc budget with
  | ended result =>
    rw [hfetch] at hover
    cases result with
    | ok _ =>
      cases hover
      exact .inl rfl
    | error e =>
      cases hover
      have herror := fetch_eq_error hfetch
      exact .inr ⟨e, rfl, .carrying hstage herror.1 herror.2⟩
  | next frame write =>
    rw [hfetch] at hover
    cases write <;> cases hover
  | calling id args result frame =>
    rw [hfetch] at hover
    cases hover

/-- A dispatch ends at a look, at the end of the program, or with an instruction that fails. -/
theorem over_act {reply : Reply} {verdict : Verdict}
    (hover : (x.act g reply).stage = .concluded verdict) :
    x.stage = .concluded verdict ∨ verdict = .normal ∨
      (∃ pc, x.stage = .timing pc ∧ x.control.expired x.now = true ∧
        verdict = .late (x.control.watchdogError x.now)) ∨
      ∃ e, verdict = .failed e ∧ x.Fails g reply e := by
  unfold act at hover
  cases hstage : x.stage with
  | ahead frame =>
    rw [hstage] at hover
    dsimp only at hover
    split at hover
    · split at hover <;> cases hover
      exact .inr (.inl rfl)
    · cases hover
  | timing pc =>
    rw [hstage] at hover
    dsimp only at hover
    split at hover
    · rename_i hlate
      cases hover
      exact .inr (.inr (.inl ⟨pc, rfl, hlate, rfl⟩))
    · cases hover
  | fetching pc budget =>
    rw [hstage] at hover
    rcases over_begin hstage reply hover with hnormal | hfails
    · exact .inr (.inl hnormal)
    · exact .inr (.inr (.inr hfails))
  | calling result frame =>
    rw [hstage] at hover
    cases reply with
    | value value => cases hover
    | refuse e =>
      cases hover
      exact .inr (.inr (.inr ⟨e, rfl, .refused hstage rfl⟩))
    | crash => cases hover
  | answered value result frame =>
    rw [hstage] at hover
    dsimp only at hover
    split at hover <;> cases hover
    exact .inr (.inl rfl)
  | storing value result frame =>
    rw [hstage] at hover
    dsimp only at hover
    split at hover
    · cases hover
    · rename_i e hassign
      cases hover
      exact .inr (.inr (.inr ⟨e, rfl, .storing hstage hassign⟩))
  | concluded verdict' =>
    rw [hstage] at hover
    exact .inl (hstage.symm.trans hover)
  | crashed =>
    rw [hstage] at hover
    cases hstage.symm.trans hover

/-- The thread crashes in a host call only. -/
theorem crashed_act {reply : Reply} (hcrashed : (x.act g reply).stage = .crashed) :
    x.stage = .crashed ∨ (∃ result frame, x.stage = .calling result frame) ∧ reply = .crash := by
  cases hstage : x.stage with
  | calling result frame =>
    rw [act, hstage] at hcrashed
    cases reply with
    | crash => exact .inr ⟨⟨result, frame, rfl⟩, rfl⟩
    | _ => cases hcrashed
  | crashed => exact .inl rfl
  | fetching pc budget =>
    rw [act, hstage] at hcrashed
    rcases begin_cases g x pc budget with
      ⟨⟨verdict, hnext⟩, -⟩ | ⟨next, hnext, -⟩ | ⟨result, next, call, hnext, -⟩ <;>
    cases hnext.symm.trans hcrashed
  | concluded verdict =>
    rw [act, hstage] at hcrashed
    cases hstage.symm.trans hcrashed
  | ahead frame =>
    rw [act, hstage] at hcrashed
    dsimp only at hcrashed
    split at hcrashed
    · split at hcrashed <;> cases hcrashed
    · cases hcrashed
  | _ =>
    rw [act, hstage] at hcrashed
    dsimp only at hcrashed
    split at hcrashed <;> cases hcrashed

/-- No access of any party brings a process back that has ended. -/
theorem ended_access {s : Process.Shared} (now : Nat) (place : Process.Place)
    (h : s.control.Ended) : (Process.access now s place).1.control.Ended := by
  cases place with
  | entering why =>
    have hentered : s.control.enterRunning now = .error s.control.state := if_neg h.ne_ready
    rw [Process.access, hentered]
    exact h
  | unspawned =>
    rw [Process.access, h.leave]
    exact h
  | leaving ending who =>
    rw [Process.access, h.leave]
    exact h
  | stopping => exact .inl rfl
  | _ => exact h

theorem Leads.trans (hxy : x.Leads g m y) (hyz : y.Leads g n z) : x.Leads g (m + n) z := by
  induction hyz with
  | refl => exact hxy
  | act reply _ ih => exact ih.act reply
  | access now place _ ih => exact ih.access now place
  | work store now _ hfollows ih => exact ih.work store now hfollows

theorem Quiet.refl (x : Dispatch) : Quiet x x := ⟨rfl, rfl, rfl⟩

theorem Quiet.trans (hxy : Quiet x y) (hyz : Quiet y z) : Quiet x z :=
  ⟨hyz.begun.trans hxy.begun, hyz.calls.trans hxy.calls, hyz.results.trans hxy.results⟩

/-- A dispatch that is over stays as it ended. -/
theorem Ending.later {verdict : Verdict} (hending : x.Ending g y verdict) (hleads : y.Leads g n z)
    (hquiet : y.Quiet z) : x.Ending g z verdict := by
  cases hending with
  | before hstage => exact .before hstage
  | normal => exact .normal
  | failed hbefore hfails hafter => exact .failed hbefore hfails (hafter.trans hleads)
  | late hstage hbefore hlate hafter hbetween =>
    exact .late hstage hbefore hlate (hafter.trans hleads) (hbetween.trans hquiet)

namespace Leads

theorem acts (x : Dispatch) (g : Segments) (reply : Reply) (n : Nat) :
    x.Leads g n (x.acts g reply n) := by
  induction n with
  | zero => exact .refl
  | succ n ih => exact ih.act reply

/-- Somebody else stops the process. -/
theorem stopped (hleads : x.Leads g n y) :
    x.Leads g n { y with control := y.control.writeStopped } :=
  hleads.access 0 .stopping

theorem ended (hleads : x.Leads g n y) (hended : x.control.Ended) : y.control.Ended := by
  induction hleads with
  | refl => exact hended
  | act reply _ ih =>
    rw [control_act]
    exact ih
  | access now place _ ih => exact ended_access now place ih
  | work store now _ hfollows ih => exact hfollows.ended ih

theorem bounded (hleads : x.Leads g n y) (hbounded : x.stage.Bounded) : y.stage.Bounded := by
  induction hleads with
  | refl => exact hbounded
  | act reply _ ih => exact bounded_act reply ih
  | access now place _ ih => exact ih
  | work store now _ hfollows ih => exact ih

/-- What is begun after the end was left then. -/
theorem within (hleads : x.Leads g n y) (hended : x.control.Ended) (hbounded : x.stage.Bounded) :
    Within x y := by
  induction hleads with
  | refl => exact .refl x
  | act reply hleads ih =>
    exact ih.trans (act_of_ended reply (hleads.ended hended) (hleads.bounded hbounded)).1
  | access now place _ ih => exact ⟨ih.begun, ih.calls⟩
  | work store now _ hfollows ih => exact ⟨ih.begun, ih.calls⟩

/-- The accesses made after the end were left then. -/
theorem steps (hleads : x.Leads g n y) (hended : x.control.Ended) (hbounded : x.stage.Bounded) :
    y.stage.IsOver ∨ n + y.stage.steps ≤ x.stage.steps := by
  induction hleads with
  | refl => exact .inr (by omega)
  | @act n y reply hleads ih =>
    rcases ih with hover | hsteps
    · rw [act_of_isOver hover]
      exact .inl hover
    · have hact := act_of_ended (g := g) reply (hleads.ended hended) (hleads.bounded hbounded)
      rcases hact.2 with hover | hlt
      · rw [act_of_isOver hover]
        exact .inl hover
      · exact .inr (by omega)
  | access now place _ ih => exact ih
  | work store now _ hfollows ih => exact ih

/-- **The answer of a host call comes to nothing** if the process has ended while it was made: no
result is written and no instruction follows. -/
theorem silent (hleads : x.Leads g n y) (hended : x.control.Ended) (hasks : x.stage.asks = 0) :
    y.stage.asks = 0 ∧ x.Quiet y := by
  induction hleads with
  | refl => exact ⟨hasks, .refl x⟩
  | @act n y reply hleads ih =>
    have hnow := hleads.ended hended
    unfold Dispatch.act
    cases hstage : y.stage with
    | ahead _ | timing _ | fetching _ _ | storing _ _ _ =>
      rw [hstage] at ih
      cases ih.1
    | calling result frame => cases reply <;> exact ⟨rfl, ih.2.trans ⟨rfl, rfl, rfl⟩⟩
    | answered value result frame =>
      dsimp only
      rw [if_pos hnow.ne_running]
      exact ⟨rfl, ih.2.trans ⟨rfl, rfl, rfl⟩⟩
    | concluded verdict => exact ih
    | crashed => exact ih
  | access now place _ ih => exact ⟨ih.1, ih.2.trans ⟨rfl, rfl, rfl⟩⟩
  | work store now _ hfollows ih => exact ⟨ih.1, ih.2.trans ⟨rfl, rfl, rfl⟩⟩

/-- No look finds the process running any more. A thread that has done so made no access since. -/
theorem timing (hleads : x.Leads g n y) (hended : x.control.Ended) {pc : Nat}
    (hstage : y.stage = .timing pc) : n = 0 ∧ x.stage = .timing pc ∧ x.Quiet y := by
  induction hleads with
  | refl => exact ⟨rfl, hstage, .refl x⟩
  | act reply hleads ih => exact absurd hstage (act_ne_timing reply (hleads.ended hended) pc)
  | access now place _ ih =>
    obtain ⟨hnone, htiming, hquiet⟩ := ih hstage
    exact ⟨hnone, htiming, hquiet.trans ⟨rfl, rfl, rfl⟩⟩
  | work store now _ hfollows ih =>
    obtain ⟨hnone, htiming, hquiet⟩ := ih hstage
    exact ⟨hnone, htiming, hquiet.trans ⟨rfl, rfl, rfl⟩⟩

/-- **How a dispatch ends that goes on after the end of its process**: normally or with an
instruction that fails, unless the process ended in the middle of a look. -/
theorem ending (hleads : x.Leads g n y) (hended : x.control.Ended) {verdict : Verdict}
    (hover : y.stage = .concluded verdict) : x.Ending g y verdict := by
  induction hleads with
  | refl => exact .before hover
  | @act n y reply hleads ih =>
    rcases over_act hover with hbefore | rfl | ⟨pc, hstage, hlate, rfl⟩ | ⟨e, rfl, hfails⟩
    · rw [act_of_isOver (.inr ⟨verdict, hbefore⟩)]
      exact ih hbefore
    · exact .normal
    · obtain ⟨rfl, htiming, hquiet⟩ := hleads.timing hended hstage
      refine .late htiming hleads hlate .refl (hquiet.trans ?_)
      rw [act_of_late reply hstage hlate]
      exact ⟨rfl, rfl, rfl⟩
    · exact .failed hleads hfails .refl
  | access now place _ ih => exact (ih hover).later (.access now place .refl) ⟨rfl, rfl, rfl⟩
  | work store now _ hfollows ih =>
    exact (ih hover).later (.work store now .refl hfollows) ⟨rfl, rfl, rfl⟩

/-- A thread that crashed did so in a host call. -/
theorem crashed (hleads : x.Leads g n y) (hcrashed : y.stage = .crashed) :
    x.stage = .crashed ∨ ∃ j k z, x.Leads g j z ∧
      (∃ result frame, z.stage = .calling result frame) ∧ (z.act g .crash).Leads g k y := by
  induction hleads with
  | refl => exact .inl hcrashed
  | @act n y reply hleads ih =>
    rcases crashed_act hcrashed with hbefore | ⟨hcalling, rfl⟩
    · rw [act_of_isOver (.inl hbefore)]
      exact ih hbefore
    · exact .inr ⟨n, 0, y, hleads, hcalling, .refl⟩
  | access now place _ ih =>
    rcases ih hcrashed with hbefore | ⟨j, k, z, hz, hcalling, hy⟩
    · exact .inl hbefore
    · exact .inr ⟨j, k, z, hz, hcalling, hy.access now place⟩
  | work store now _ hfollows ih =>
    rcases ih hcrashed with hbefore | ⟨j, k, z, hz, hcalling, hy⟩
    · exact .inl hbefore
    · exact .inr ⟨j, k, z, hz, hcalling, hy.work store now hfollows⟩

end Leads

end Dispatch

end CellMachine
