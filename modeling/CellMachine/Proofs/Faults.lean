import CellMachine.Proofs.Codec
import CellMachine.Proofs.Execution

/-!
# Faults

An instruction reads all it needs before it writes, so one that fails has written nothing. This
module says so of whole runs, in which the host may answer as it likes and every instruction may
take any time.

* `Execution.Completes`: `k` instructions that were completed, one after the other.
* `Execution.Blames`: what ends a run with an error. Fetching an instruction is not among it, since
  the program counter never leaves the program (`Execution.Completes.pc_le`): a branch is taken only
  to an instruction or to the end, whatever cell the branch was read from.
* `Execution.step_of_error`: the instruction that ends the run with an error leaves the store.
-/

namespace CellMachine

open Processor

namespace Processor

variable {g : Segments} {s : Store} {pc : Nat}

theorem branchTarget_le {target : Int32} (h : branchTarget g target = .ok pc) :
    pc ≤ g.program.length := by
  unfold branchTarget at h
  split at h
  · rename_i htarget
    cases h
    exact htarget.2
  · cases h

/-- An instruction of the program leads to another one or to the end. -/
theorem perform_goto_le {i : Instruction} {next : Nat} (hpc : pc < g.program.length)
    (h : perform g s pc i = .ok (.goto next)) : next ≤ g.program.length := by
  unfold perform at h
  cases hop : i.opcode? with
  | none =>
    rw [hop] at h
    cases h
  | some op =>
    rw [hop] at h
    cases op with
    | halt => cases h
    | nop =>
      cases h
      exact hpc
    | br =>
      obtain ⟨target, htarget, h⟩ := Codec.bind_eq_ok.1 h
      cases h
      exact branchTarget_le htarget
    | bnz =>
      obtain ⟨c, -, h⟩ := Codec.bind_eq_ok.1 h
      split at h
      · cases h
        exact hpc
      · obtain ⟨target, htarget, h⟩ := Codec.bind_eq_ok.1 h
        cases h
        exact branchTarget_le htarget
    | movl | callp =>
      obtain ⟨_, -, h⟩ := Codec.bind_eq_ok.1 h
      cases h
    | mov =>
      obtain ⟨_, -, h⟩ := Codec.bind_eq_ok.1 h
      obtain ⟨_, -, h⟩ := Codec.bind_eq_ok.1 h
      cases h
    | add | sub | ldr =>
      obtain ⟨_, -, h⟩ := Codec.bind_eq_ok.1 h
      obtain ⟨_, -, h⟩ := Codec.bind_eq_ok.1 h
      obtain ⟨_, -, h⟩ := Codec.bind_eq_ok.1 h
      cases h
    | str =>
      obtain ⟨_, -, h⟩ := Codec.bind_eq_ok.1 h
      obtain ⟨_, -, h⟩ := Codec.bind_eq_ok.1 h
      obtain ⟨_, -, h⟩ := Codec.bind_eq_ok.1 h
      obtain ⟨_, -, h⟩ := Codec.bind_eq_ok.1 h
      cases h

/-- A look that is due may end the run; otherwise a turn is an instruction. -/
theorem turn_cases (g : Segments) (c : Control) (now : Nat) (s : Store) (frame : Frame) :
    turn g c now s frame = .ended (.ok ()) ∨
    (frame.budget - 1 = 0 ∧ c.expired now = true ∧
      turn g c now s frame = .ended (.error (c.watchdogError now))) ∨
    turn g c now s frame = fetch g s frame.pc frame.spend := by
  unfold turn Frame.spend
  by_cases hlook : frame.budget - 1 = 0
  · rw [if_pos hlook, if_pos hlook]
    by_cases hstate : c.state ≠ .running
    · rw [if_pos hstate]
      exact .inl rfl
    · rw [if_neg hstate]
      by_cases hlate : c.expired now = true
      · rw [if_pos hlate]
        exact .inr (.inl ⟨hlook, hlate, rfl⟩)
      · rw [if_neg hlate]
        exact .inr (.inr rfl)
  · rw [if_neg hlook, if_neg hlook]
    exact .inr (.inr rfl)

/-- A turn that leads on leaves the program counter inside the program, or at its end. -/
theorem pc_fetch_le {budget : Nat} {next : Frame} {write : Option Assignment}
    (h : fetch g s pc budget = .next next write) : next.pc ≤ g.program.length := by
  unfold fetch at h
  split at h
  · cases h
  · rename_i hend
    have hpc : pc < g.program.length := Nat.not_le.1 hend
    split at h
    · cases h
    · cases h
    · rename_i target hdecide
      cases h
      rw [decide, Store.get_of_lt hpc] at hdecide
      exact perform_goto_le hpc hdecide
    · cases h
      exact hpc
    · cases h

end Processor

namespace Execution

/-! ## Instructions that were completed -/

/-- `x.Completes g k y`: from `x`, `k` instructions were completed and led to `y`. What the host
answers and how long an instruction takes may differ from one to the next. -/
inductive Completes (g : Segments) (x : Execution) : Nat → Execution → Prop
  | refl : Completes g x 0 x
  | step {k : Nat} {y : Execution} (reply : FunctionId → List Cell → Reply) (d : Nat) :
    Completes g x k y → (y.step reply g d).Goes → Completes g x (k + 1) (y.step reply g d)

/-- What ends a run with an error where `x` stands. In all cases but the first an instruction was
fetched. -/
inductive Blames (reply : FunctionId → List Cell → Reply) (g : Segments) (x : Execution)
    (frame : Frame) : Error → Prop
  /-- The look before the next instruction finds that the process ran for too long. -/
  | watchdog : frame.budget - 1 = 0 → x.control.expired x.now = true →
    Blames reply g x frame (x.control.watchdogError x.now)
  /-- The instruction is none, or it cannot read an operand or reach what it names. -/
  | instruction {c : Cell} {e : Error} : x.store.get g.program frame.pc = .ok c →
    perform g x.store frame.pc c.instruction = .error e → Blames reply g x frame e
  /-- The host refuses the call of the instruction. -/
  | refused {c : Cell} {id : FunctionId} {args : List Cell} {result : Nat} {e : Error} :
    x.store.get g.program frame.pc = .ok c →
    perform g x.store frame.pc c.instruction = .ok (.call id args result) →
    reply id args = .refuse e → Blames reply g x frame e
  /-- The host answered, but there is no register for the result. -/
  | result {c value : Cell} {id : FunctionId} {args : List Cell} {result : Nat} {e : Error} :
    x.store.get g.program frame.pc = .ok c →
    perform g x.store frame.pc c.instruction = .ok (.call id args result) →
    reply id args = .value value → assignment g.registers result value = .error e →
    Blames reply g x frame e

section
variable {reply : FunctionId → List Cell → Reply} {g : Segments} {x y : Execution} {k d : Nat}
  {frame : Frame}

/-- A run that goes on went on before. -/
theorem goes_of_step (hgoes : (x.step reply g d).Goes) : x.Goes := by
  apply Classical.byContradiction
  intro hnot
  rw [step_of_not_goes d hnot] at hgoes
  exact hnot hgoes

/-- A run that goes on leaves the control block alone. -/
theorem control_step (hgoes : (x.step reply g d).Goes) :
    (x.step reply g d).control = x.control := by
  obtain ⟨frame, hframe⟩ := goes_of_step hgoes
  obtain ⟨next, hnext⟩ := hgoes
  rw [step_of_running d hframe] at hnext ⊢
  dsimp only at hnext ⊢
  rw [hnext]
  rfl

theorem pc_step_le {next : Frame} (hnext : (x.step reply g d).status = .running next) :
    next.pc ≤ g.program.length := by
  obtain ⟨frame, hframe⟩ := goes_of_step ⟨next, hnext⟩
  rw [step_of_running d hframe] at hnext
  dsimp only at hnext
  rcases turn_cases g x.control x.now x.store frame with hturn | ⟨-, -, hturn⟩ | hturn
  · rw [hturn] at hnext
    cases hnext
  · rw [hturn] at hnext
    cases hnext
  · rw [hturn] at hnext
    cases hfetch : fetch g x.store frame.pc frame.spend with
    | ended result =>
      rw [hfetch] at hnext
      cases hnext
    | next frame' write =>
      rw [hfetch] at hnext
      cases write <;> cases hnext <;> exact pc_fetch_le hfetch
    | calling id args result frame' =>
      obtain ⟨hpc, -, rfl⟩ := fetch_eq_calling hfetch
      rw [hfetch, Turn.answered] at hnext
      cases hreply : reply id args with
      | value value =>
        rw [hreply] at hnext
        dsimp only at hnext
        cases hresume : resume g x.control ⟨frame.pc + 1, frame.spend⟩ result value with
        | ended _ =>
          rw [hresume] at hnext
          cases hnext
        | next frame' write =>
          obtain rfl := resume_eq_next hresume
          rw [hresume] at hnext
          cases write <;> cases hnext <;> exact hpc
        | calling _ _ _ _ => exact absurd hresume resume_ne_calling
      | refuse e =>
        rw [hreply] at hnext
        cases hnext
      | crash =>
        rw [hreply] at hnext
        cases hnext

/-- The turn of an instruction that fails. -/
theorem answered_of_error {e : Error} {spend : Nat}
    (herror : ((fetch g x.store frame.pc spend).answered reply x.control g x.store).1 =
      .ended (.error e)) :
    x.Blames reply g frame e ∧
      ((fetch g x.store frame.pc spend).answered reply x.control g x.store).2 = x.store := by
  cases hfetch : fetch g x.store frame.pc spend with
  | ended result =>
    rw [hfetch] at herror
    cases herror
    obtain ⟨hpc, hdecide⟩ := fetch_eq_error hfetch
    rw [Processor.decide, Store.get_of_lt hpc] at hdecide
    exact ⟨.instruction (Store.get_of_lt hpc) hdecide, rfl⟩
  | next next write =>
    rw [hfetch] at herror
    cases write <;> cases herror
  | calling id args result next =>
    obtain ⟨hpc, hdecide, -⟩ := fetch_eq_calling hfetch
    rw [Processor.decide, Store.get_of_lt hpc] at hdecide
    rw [hfetch, Turn.answered] at herror
    rw [Turn.answered]
    cases hreply : reply id args with
    | value value =>
      rw [hreply] at herror
      dsimp only at herror ⊢
      cases hresume : resume g x.control next result value with
      | ended result =>
        rw [hresume] at herror
        cases herror
        exact ⟨.result (Store.get_of_lt hpc) hdecide hreply (resume_eq_error hresume), rfl⟩
      | next next write =>
        rw [hresume] at herror
        cases write <;> cases herror
      | calling _ _ _ _ => exact absurd hresume resume_ne_calling
    | refuse e' =>
      rw [hreply] at herror
      cases herror
      exact ⟨.refused (Store.get_of_lt hpc) hdecide hreply, rfl⟩
    | crash =>
      rw [hreply] at herror
      cases herror

/-- **An instruction that fails has changed no cell**, and neither has a look that finds the process
late. The run ends as faulted. -/
theorem step_of_error {e : Error} (hframe : x.status = .running frame)
    (herror : (x.step reply g d).status = .ended (.error e)) :
    x.Blames reply g frame e ∧ (x.step reply g d).store = x.store ∧
      (x.step reply g d).control = x.control.leave .faulted (x.now + d) := by
  rw [step_of_running d hframe] at herror ⊢
  dsimp only at herror ⊢
  rw [herror]
  rcases turn_cases g x.control x.now x.store frame with hturn | ⟨hlook, hlate, hturn⟩ | hturn
  · rw [hturn] at herror
    cases herror
  · rw [hturn] at herror ⊢
    cases herror
    exact ⟨.watchdog hlook hlate, rfl, rfl⟩
  · rw [hturn] at herror ⊢
    obtain ⟨hblames, hstore⟩ := answered_of_error herror
    exact ⟨hblames, hstore, rfl⟩

/-- **The program counter never leaves the program.** Before every fetch it is at an instruction or
at the end, whatever branches were taken and whatever was written to the program. -/
theorem Completes.pc_le (h : x.Completes g k y) (hx : x.status = .running {})
    (hframe : y.status = .running frame) : frame.pc ≤ g.program.length := by
  cases h with
  | refl =>
    cases hx.symm.trans hframe
    exact Nat.zero_le _
  | step reply d _ hgoes => exact pc_step_le hframe

end

end Execution

end CellMachine
