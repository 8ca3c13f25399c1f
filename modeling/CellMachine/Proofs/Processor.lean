import CellMachine.Peripheral.Reaction
import CellMachine.Processor
import CellMachine.Proofs.Store

/-!
# One instruction

`Processor.instruct` is one instruction of a process, its host call included, for a host that only
answers. Two facts about it carry everything that is said of processes side by side:

* `instruct_touches`: it writes at most one cell, and that in a window of its own;
* `instruct_mirrors`: it sees nothing but the cells of its own windows. Two processes whose windows
  hold the same cells, wherever these are, do the same with them (`Mirrors`).

`Matches` compares two computations that may fail; the comparison of two instructions
(`perform_mirrors`) goes through the operations one by one.
-/

namespace CellMachine

/-! ## Comparing computations -/

/-- Two computations fail alike, or give results that are related. -/
inductive Matches {α β : Type} (R : α → β → Prop) : Except Error α → Except Error β → Prop
  | ok {a : α} {b : β} : R a b → Matches R (.ok a) (.ok b)
  | error (e : Error) : Matches R (.error e) (.error e)

namespace Matches

variable {α β γ δ : Type} {R : α → β → Prop} {S : γ → δ → Prop} {x : Except Error α}
  {y : Except Error β}

theorem bind {f : α → Except Error γ} {k : β → Except Error δ} (h : Matches R x y)
    (hf : ∀ a b, R a b → Matches S (f a) (k b)) : Matches S (x >>= f) (y >>= k) := by
  cases h with
  | ok hab => exact hf _ _ hab
  | error e => exact .error e

/-- The same computation on both sides, with its result. -/
theorem same {f : α → Except Error γ} {k : α → Except Error δ} (x : Except Error α)
    (hf : ∀ a, Matches S (f a) (k a)) : Matches S (x >>= f) (x >>= k) := by
  cases x with
  | ok a => exact hf a
  | error e => exact .error e

end Matches

/-! ## Windows side by side -/

/-- The windows of one process in their places in another. -/
def Twins (g g' : Segments) (w w' : Window) : Prop :=
  ∃ k : Nat, g.windows[k]? = some w ∧ g'.windows[k]? = some w'

/-- Two processes have the same cells, each in its own windows. -/
structure Mirrors (g : Segments) (s : Store) (g' : Segments) (s' : Store) : Prop where
  length : ∀ w w', Twins g g' w w' → w.length = w'.length
  get : ∀ w w', Twins g g' w w' → ∀ i, s.get w i = s'.get w' i

theorem Twins.registers (g g' : Segments) : Twins g g' g.registers g'.registers := ⟨4, rfl, rfl⟩

theorem Twins.program (g g' : Segments) : Twins g g' g.program g'.program := ⟨0, rfl, rfl⟩

theorem Segments.getElem?_windows (g : Segments) (segment : Segment) :
    g.windows[segment.selector]? = some (g.window segment) := by
  cases segment <;> rfl

theorem Twins.window (g g' : Segments) (segment : Segment) :
    Twins g g' (g.window segment) (g'.window segment) :=
  ⟨segment.selector, g.getElem?_windows segment, g'.getElem?_windows segment⟩

theorem Mirrors.refl (g : Segments) (s : Store) : Mirrors g s g s := by
  refine ⟨fun w w' h => ?_, fun w w' h i => ?_⟩
  · obtain ⟨k, hw, hw'⟩ := h
    obtain rfl := Option.some.inj (hw.symm.trans hw')
    rfl
  · obtain ⟨k, hw, hw'⟩ := h
    obtain rfl := Option.some.inj (hw.symm.trans hw')
    rfl

/-- The windows of a process lie inside their pools and share no cell. -/
structure Housed (g : Segments) (s : Store) : Prop where
  within : ∀ w ∈ g.windows, w.Within s
  apart : g.windows.Pairwise fun w v => ∀ q i, w.Has q i → ¬ v.Has q i

namespace Housed

variable {g g' : Segments} {s s' : Store}

theorem touch (h : Housed g s) {v : Window} (ht : Store.Touches v s s') : Housed g s' :=
  ⟨fun w hw => ht.within (h.within w hw), h.apart⟩

/-- Processes that read alike have the same cells. -/
theorem mirrors (h : Housed g s) (h' : Housed g' s')
    (hread : g.windows.map s.read = g'.windows.map s'.read) : Mirrors g s g' s' := by
  have hsame : ∀ w w', Twins g g' w w' → w.Within s ∧ w'.Within s' ∧ s.read w = s'.read w' := by
    rintro w w' ⟨k, hw, hw'⟩
    refine ⟨h.within w (List.mem_of_getElem? hw), h'.within w' (List.mem_of_getElem? hw'), ?_⟩
    have hk := congrArg (·[k]?) hread
    simpa [hw, hw'] using hk
  refine ⟨fun w w' hww => ?_, fun w w' hww i => ?_⟩
  · obtain ⟨hin, hin', heq⟩ := hsame w w' hww
    rw [← Store.length_read hin, heq, Store.length_read hin']
  · obtain ⟨hin, hin', heq⟩ := hsame w w' hww
    rw [Store.get_eq_read hin, Store.get_eq_read hin', heq]

/-- The windows share no cell, whichever of them stands first. -/
theorem apart_of_ne (h : Housed g s) {j k : Nat} {v w : Window} (hv : g.windows[j]? = some v)
    (hw : g.windows[k]? = some w) (hne : j ≠ k) {q i : Nat} (hi : v.Has q i) : ¬ w.Has q i := by
  obtain ⟨hjlt, rfl⟩ := List.getElem?_eq_some_iff.1 hv
  obtain ⟨hklt, rfl⟩ := List.getElem?_eq_some_iff.1 hw
  rcases Nat.lt_or_gt_of_ne hne with hlt | hlt
  · exact List.pairwise_iff_getElem.1 h.apart j k hjlt hklt hlt q i hi
  · exact fun hi' => List.pairwise_iff_getElem.1 h.apart k j hklt hjlt hlt q i hi' hi

theorem read_poke (h : Housed g s) {k index : Nat} {w : Window} (hw : g.windows[k]? = some w)
    (hi : index < w.length) (c : Cell) :
    g.windows.map (s.poke w.pool (w.offset + index) c).read =
      (g.windows.map s.read).modify k fun cells => cells.set index c := by
  have hmem := List.mem_of_getElem? hw
  have hhas : w.Has w.pool (w.offset + index) := ⟨rfl, by omega, by omega⟩
  have ht := Store.touches_poke (s := s) c hhas
  refine List.ext_getElem? fun j => ?_
  rw [List.getElem?_modify, List.getElem?_map, List.getElem?_map]
  by_cases hj : k = j
  · subst hj
    simp [hw, Store.read_poke (h.within w hmem) hi]
  · match hv : g.windows[j]? with
    | none => simp
    | some v =>
      have hapart : ∀ q i, v.Has q i → ¬ w.Has q i := fun q i =>
        h.apart_of_ne hv hw (Ne.symm hj)
      simp [hj, (ht.agree hapart).read_eq]

end Housed

namespace Processor

/-! ## Instructions side by side -/

/-- Two writes of one value to cells that have the same place in their windows. -/
inductive Assignment.Parallel (g g' : Segments) : Assignment → Assignment → Prop
  | mk {k index : Nat} {w w' : Window} {value : Cell} :
      g.windows[k]? = some w → g'.windows[k]? = some w' → index < w.length → index < w'.length →
      Parallel g g' ⟨w.pool, w.offset + index, value⟩ ⟨w'.pool, w'.offset + index, value⟩

/-- Two actions of the same effect. -/
inductive Action.Parallel (g g' : Segments) : Action → Action → Prop
  | halt : Parallel g g' .halt .halt
  | goto (pc : Nat) : Parallel g g' (.goto pc) (.goto pc)
  | assign {a a' : Assignment} : a.Parallel g g' a' → Parallel g g' (.assign a) (.assign a')
  | call (function : FunctionId) (args : List Cell) (result : Nat) :
      Parallel g g' (.call function args result) (.call function args result)

/-- Two turns of the same effect. -/
inductive Turn.Parallel (g g' : Segments) : Turn → Turn → Prop
  | ended (result : Except Error Unit) : Parallel g g' (.ended result) (.ended result)
  | idle (frame : Frame) : Parallel g g' (.next frame none) (.next frame none)
  | write (frame : Frame) {a a' : Assignment} :
      a.Parallel g g' a' → Parallel g g' (.next frame (some a)) (.next frame (some a'))
  | calling (function : FunctionId) (args : List Cell) (result : Nat) (frame : Frame) :
      Parallel g g' (.calling function args result frame) (.calling function args result frame)

section
variable {g g' : Segments} {s s' : Store}

theorem assignment_mirrors (h : Mirrors g s g' s') {w w' : Window} (hw : Twins g g' w w')
    (index : Nat) (value : Cell) :
    Matches (Assignment.Parallel g g') (assignment w index value) (assignment w' index value) := by
  have hlength := h.length w w' hw
  obtain ⟨k, hk, hk'⟩ := hw
  unfold assignment Window.position
  by_cases hi : index < w.length
  · rw [if_pos hi, if_pos (hlength ▸ hi)]
    exact .ok (.mk hk hk' hi (hlength ▸ hi))
  · rw [if_neg hi, if_neg (hlength ▸ hi), hlength]
    exact .error _

theorem get_mirrors (h : Mirrors g s g' s') (i : Nat) :
    s.get g.registers i = s'.get g'.registers i :=
  h.get _ _ (.registers g g') i

theorem effectiveAddress_mirrors (h : Mirrors g s g' s') (i : Instruction) :
    effectiveAddress g s i = effectiveAddress g' s' i := by
  unfold effectiveAddress
  rw [get_mirrors h]

theorem branchTarget_mirrors (h : Mirrors g s g' s') (target : Int32) :
    branchTarget g target = branchTarget g' target := by
  unfold branchTarget
  rw [h.length _ _ (.program g g')]

theorem arguments_mirrors (h : Mirrors g s g' s') (first count : Nat) :
    arguments g s first count = arguments g' s' first count := by
  induction count generalizing first with
  | zero => rfl
  | succ count ih => rw [arguments, arguments, get_mirrors h, ih]

/-- An address leads to twins, or nowhere in both. -/
theorem resolve_mirrors (g g' : Segments) (address : UInt32) :
    Matches (fun x y => Twins g g' x.1 y.1 ∧ x.2 = y.2) (g.resolve address)
      (g'.resolve address) := by
  unfold AddressSpace.resolve
  split
  · exact .ok ⟨.window g g' _, rfl⟩
  · exact .error _

theorem read_mirrors (h : Mirrors g s g' s') (address : UInt32) :
    g.read s address = g'.read s' address := by
  match hdecode : Address.decode address with
  | .ok a =>
    simp only [AddressSpace.read, AddressSpace.resolve, hdecode]
    exact h.get _ _ (.window g g' a.segment) a.offset
  | .error e => simp only [AddressSpace.read, AddressSpace.resolve, hdecode]

/-- **What an instruction does depends on nothing but the cells of its process**, operation by
operation. -/
theorem perform_mirrors (h : Mirrors g s g' s') (pc : Nat) (i : Instruction) :
    Matches (Action.Parallel g g') (perform g s pc i) (perform g' s' pc i) := by
  -- every write goes to a register, the store to memory apart
  have hregister : ∀ (index : Nat) (value : Cell),
      Matches (Action.Parallel g g')
        (do let a ← assignment g.registers index value; pure (.assign a))
        (do let a ← assignment g'.registers index value; pure (.assign a)) := fun index value =>
    (assignment_mirrors h (.registers g g') index value).bind fun _ _ ha => .ok (.assign ha)
  unfold perform
  match i.opcode? with
  | none => exact .error _
  | some .halt => exact .ok .halt
  | some .nop => exact .ok (.goto _)
  | some .mov =>
    simp only [get_mirrors h]
    exact .same _ fun value => hregister _ value
  | some .movl => exact hregister _ _
  | some .add =>
    simp only [get_mirrors h]
    exact .same _ fun lhs => .same _ fun rhs => hregister _ _
  | some .sub =>
    simp only [get_mirrors h]
    exact .same _ fun lhs => .same _ fun rhs => hregister _ _
  | some .ldr =>
    simp only [effectiveAddress_mirrors h, read_mirrors h]
    exact .same _ fun address => .same _ fun value => hregister _ value
  | some .str =>
    simp only [effectiveAddress_mirrors h, get_mirrors h]
    refine .same _ fun address => .same _ fun value => ?_
    refine (resolve_mirrors g g' address).bind fun x y hxy => ?_
    obtain ⟨hw, hindex⟩ := hxy
    simp only [hindex]
    exact (assignment_mirrors h hw y.2 value).bind fun _ _ ha => .ok (.assign ha)
  | some .br =>
    simp only [branchTarget_mirrors h]
    exact .same _ fun pc => .ok (.goto pc)
  | some .bnz =>
    simp only [get_mirrors h, branchTarget_mirrors h]
    refine .same _ fun c => ?_
    by_cases hc : c.bits = 0
    · rw [if_pos hc]
      exact .ok (.goto _)
    · rw [if_neg hc]
      exact .same _ fun pc => .ok (.goto pc)
  | some .callp =>
    simp only [arguments_mirrors h]
    exact .same _ fun args => .ok (.call ..)

theorem decide_mirrors (h : Mirrors g s g' s') (pc : Nat) :
    Matches (Action.Parallel g g') (decide g s pc) (decide g' s' pc) := by
  unfold decide
  rw [h.get _ _ (.program g g')]
  exact .same _ fun c => perform_mirrors h pc c.instruction

theorem fetch_mirrors (h : Mirrors g s g' s') (pc budget : Nat) :
    (fetch g s pc budget).Parallel g g' (fetch g' s' pc budget) := by
  unfold fetch
  rw [h.length _ _ (.program g g')]
  by_cases hpc : g'.program.length ≤ pc
  · rw [if_pos hpc, if_pos hpc]
    exact .ended _
  · rw [if_neg hpc, if_neg hpc]
    match decide g s pc, decide g' s' pc, decide_mirrors h pc with
    | _, _, .error e => exact .ended _
    | _, _, .ok .halt => exact .ended _
    | _, _, .ok (.goto pc) => exact .idle _
    | _, _, .ok (.assign ha) => exact .write _ ha
    | _, _, .ok (.call function args result) => exact .calling ..

end

/-! ## One instruction -/

/-- Where a process stands between two instructions. -/
inductive Status where
  | running (frame : Frame)
  | ended (result : Except Error Unit)
  /-- The thread did not survive a host call. -/
  | crashed

/-- A process that is running and not for too long: no look at its control block ends its run. -/
structure Calm (control : Control) (now : Nat) : Prop where
  running : control.state = .running
  inTime : control.expired now = false

/-- No look at the control block ends the run in the next turn: either none is due, or the process
is not late. -/
structure Quiet (control : Control) (now : Nat) (frame : Frame) : Prop where
  running : control.state = .running
  look : frame.budget - 1 = 0 → control.expired now = false

theorem Calm.quiet {control : Control} {now : Nat} (h : Calm control now) (frame : Frame) :
    Quiet control now frame :=
  ⟨h.running, fun _ => h.inTime⟩

/-- Where a turn leads, the call of the host apart. -/
def Turn.land (s : Store) : Turn → Status × Store
  | .ended result => (.ended result, s)
  | .next frame none => (.running frame, s)
  | .next frame (some a) => (.running frame, a.apply s)
  | .calling _ _ _ frame => (.running frame, s)

/-- Where a turn leads when `host` answers its call. -/
def Turn.answered (host : FunctionId → List Cell → Reply) (control : Control) (g : Segments)
    (s : Store) : Turn → Status × Store
  | .calling function args result frame =>
    match host function args with
    | .value c => (resume g control frame result c).land s
    | .refuse e => (.ended (.error e), s)
    | .crash => (.crashed, s)
  | t => t.land s

/-- One instruction of a process whose host calls are answered by `host`. A process that has ended
does nothing any more. -/
def instruct (host : FunctionId → List Cell → Reply) (control : Control) (now : Nat)
    (g : Segments) : Status × Store → Status × Store
  | (.running frame, s) => (turn g control now s frame).answered host control g s
  | (status, s) => (status, s)

section
variable {g g' : Segments} {s s' : Store} {control control' : Control} {now now' : Nat}

theorem fetch_eq_error {pc budget : Nat} {e : Error}
    (h : fetch g s pc budget = .ended (.error e)) :
    pc < g.program.length ∧ decide g s pc = .error e := by
  unfold fetch at h
  split at h
  · cases h
  · rename_i hpc
    split at h <;> cases h
    rename_i hdecide
    exact ⟨Nat.not_le.1 hpc, hdecide⟩

theorem fetch_eq_calling {pc budget result : Nat} {id : FunctionId} {args : List Cell}
    {next : Frame} (h : fetch g s pc budget = .calling id args result next) :
    pc < g.program.length ∧ decide g s pc = .ok (.call id args result) ∧
      next = ⟨pc + 1, budget⟩ := by
  unfold fetch at h
  split at h
  · cases h
  · rename_i hpc
    split at h <;> cases h
    rename_i hdecide
    exact ⟨Nat.not_le.1 hpc, hdecide, rfl⟩

theorem resume_ne_calling {c : Control} {frame next : Frame} {result target : Nat} {value : Cell}
    {id : FunctionId} {args : List Cell} :
    resume g c frame result value ≠ .calling id args target next := by
  unfold resume
  split
  · intro h
    cases h
  · split <;> (intro h; cases h)

/-- The answer of the host leads on to where the call was to lead. -/
theorem resume_eq_next {c : Control} {frame next : Frame} {result : Nat} {value : Cell}
    {write : Option Assignment} (h : resume g c frame result value = .next next write) :
    next = frame := by
  unfold resume at h
  split at h
  · cases h
  · split at h <;> cases h
    rfl

theorem resume_eq_error {c : Control} {frame : Frame} {result : Nat} {value : Cell} {e : Error}
    (h : resume g c frame result value = .ended (.error e)) :
    assignment g.registers result value = .error e := by
  unfold resume at h
  split at h
  · cases h
  · split at h <;> cases h
    assumption

/-- The budget of a frame after one more instruction. -/
def Frame.spend (frame : Frame) : Nat :=
  if frame.budget - 1 = 0 then interval else frame.budget - 1

theorem turn_of_quiet {frame : Frame} (h : Quiet control now frame) :
    turn g control now s frame = fetch g s frame.pc frame.spend := by
  unfold turn Frame.spend
  by_cases hlook : frame.budget - 1 = 0
  · simp [hlook, h.running, h.look hlook]
  · simp [hlook]

theorem resume_mirrors (h : Mirrors g s g' s') (hc : control.state = .running)
    (hc' : control'.state = .running) (frame : Frame) (result : Nat) (value : Cell) :
    (resume g control frame result value).Parallel g g'
      (resume g' control' frame result value) := by
  simp only [resume, hc, hc', ne_eq, not_true_eq_false, ↓reduceIte]
  match assignment g.registers result value, assignment g'.registers result value,
    assignment_mirrors h (.registers g g') result value with
  | _, _, .error e => exact .ended _
  | _, _, .ok ha => exact .write _ ha

/-- Where a turn leads, it has written at most one cell of its own. -/
theorem land_touches {t t' : Turn} (h : t.Parallel g g' t') (s : Store) :
    ∃ w ∈ g.windows, Store.Touches w s (t.land s).2 := by
  have hidle : ∃ w ∈ g.windows, Store.Touches w s s :=
    ⟨g.program, List.mem_cons_self, .refl _ s⟩
  cases h with
  | ended result => exact hidle
  | idle frame => exact hidle
  | calling function args result frame => exact hidle
  | write frame ha =>
    cases ha with
    | @mk k index w w' value hw hw' hi hi' =>
      have hhas : w.Has w.pool (w.offset + index) := ⟨rfl, by omega, by omega⟩
      exact ⟨w, List.mem_of_getElem? hw, Store.touches_poke value hhas⟩

theorem land_mirrors {t t' : Turn} (h : t.Parallel g g' t') (hg : Housed g s) (hg' : Housed g' s')
    (hread : g.windows.map s.read = g'.windows.map s'.read) :
    (t.land s).1 = (t'.land s').1 ∧
      g.windows.map (t.land s).2.read = g'.windows.map (t'.land s').2.read := by
  cases h with
  | ended result => exact ⟨rfl, hread⟩
  | idle frame => exact ⟨rfl, hread⟩
  | calling function args result frame => exact ⟨rfl, hread⟩
  | write frame ha =>
    cases ha with
    | @mk k index w w' value hw hw' hi hi' =>
      refine ⟨rfl, ?_⟩
      simp only [Turn.land, Assignment.apply]
      rw [hg.read_poke hw hi, hg'.read_poke hw' hi', hread]

/-- A turn is parallel to itself, whatever the control block says. -/
theorem turn_parallel (g : Segments) (control : Control) (now : Nat) (s : Store) (frame : Frame) :
    (turn g control now s frame).Parallel g g (turn g control now s frame) := by
  unfold turn
  split
  · split
    · exact .ended _
    · split
      · exact .ended _
      · exact fetch_mirrors (.refl g s) ..
  · exact fetch_mirrors (.refl g s) ..

theorem resume_parallel (g : Segments) (control : Control) (frame : Frame) (result : Nat)
    (value : Cell) :
    (resume g control frame result value).Parallel g g (resume g control frame result value) := by
  unfold resume
  split
  · exact .ended _
  · match assignment g.registers result value,
      assignment_mirrors (.refl g default) (.registers g g) result value with
    | _, .error e => exact .ended _
    | _, .ok ha => exact .write _ ha

/-- **An instruction writes at most one cell, in a window of its own.** -/
theorem instruct_touches (host : FunctionId → List Cell → Reply) (control : Control) (now : Nat)
    (g : Segments) (x : Status × Store) :
    ∃ w ∈ g.windows, Store.Touches w x.2 (instruct host control now g x).2 := by
  obtain ⟨status, s⟩ := x
  have hidle : ∃ w ∈ g.windows, Store.Touches w s s :=
    ⟨g.program, List.mem_cons_self, .refl _ s⟩
  cases status with
  | ended result => exact hidle
  | crashed => exact hidle
  | running frame =>
    have hturn := turn_parallel g control now s frame
    rw [instruct]
    match turn g control now s frame, hturn with
    | .ended result, hturn => exact land_touches hturn s
    | .next frame write, hturn => exact land_touches hturn s
    | .calling function args result frame, _ =>
      rw [Turn.answered]
      match host function args with
      | .value c => exact land_touches (resume_parallel g control frame result c) s
      | .refuse e => exact hidle
      | .crash => exact hidle

theorem answered_mirrors (host : FunctionId → List Cell → Reply) (hc : control.state = .running)
    (hc' : control'.state = .running) {t t' : Turn} (h : t.Parallel g g' t') (hg : Housed g s)
    (hg' : Housed g' s') (hread : g.windows.map s.read = g'.windows.map s'.read) :
    (t.answered host control g s).1 = (t'.answered host control' g' s').1 ∧
      g.windows.map (t.answered host control g s).2.read =
        g'.windows.map (t'.answered host control' g' s').2.read := by
  cases h with
  | ended result => exact land_mirrors (.ended result) hg hg' hread
  | idle frame => exact land_mirrors (.idle frame) hg hg' hread
  | write frame ha => exact land_mirrors (.write frame ha) hg hg' hread
  | calling function args result frame =>
    simp only [Turn.answered]
    match host function args with
    | .value c =>
      have hresume := resume_mirrors (hg.mirrors hg' hread) hc hc' frame result c
      exact land_mirrors hresume hg hg' hread
    | .refuse e => exact ⟨rfl, hread⟩
    | .crash => exact ⟨rfl, hread⟩

/-- **An instruction depends on nothing but the cells of its own windows**, as long as no look at
the control block ends the run. -/
theorem instruct_mirrors (host : FunctionId → List Cell → Reply) (hc : Calm control now)
    (hc' : Calm control' now') (status : Status) (hg : Housed g s) (hg' : Housed g' s')
    (hread : g.windows.map s.read = g'.windows.map s'.read) :
    (instruct host control now g (status, s)).1 =
        (instruct host control' now' g' (status, s')).1 ∧
      g.windows.map (instruct host control now g (status, s)).2.read =
        g'.windows.map (instruct host control' now' g' (status, s')).2.read := by
  cases status with
  | running frame =>
    have hfetch := fetch_mirrors (hg.mirrors hg' hread) frame.pc frame.spend
    rw [instruct, instruct, turn_of_quiet (hc.quiet frame), turn_of_quiet (hc'.quiet frame)]
    exact answered_mirrors host hc.running hc'.running hfetch hg hg' hread
  | ended result => exact ⟨rfl, hread⟩
  | crashed => exact ⟨rfl, hread⟩

end

end Processor

end CellMachine
