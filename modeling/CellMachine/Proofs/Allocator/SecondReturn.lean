import CellMachine.Proofs.Allocator.FirstFit

/-!
# A window given back twice

A window that was given back is a name for cells of a free run. What keeps it from being given back
again is its old head record, which may by then be an ordinary cell in the middle of a run that
grew over it.

* `Spent`: the record is still there, inside a free block, and is marked free;
* `Accounts.giveBack_spent`: giving a window back leaves its record spent;
* `Accounts.spent_giveBack`, `Accounts.spent_touch`: later returns and writes do not change that.
  They write no cell inside a free block but its records;
* `second_return_refused`: until a new window is lent, the second return is refused.
-/

namespace CellMachine.Allocator

/-- The cell at `head` lies in a free block, and reads there as the head record of a free run over
`length` cells or more. -/
structure Spent (cells : Array Cell) (p : Plan) (head length : Nat) : Prop where
  marked : (look cells head).high = Kind.free.code
  inside : ∃ f ∈ p.blocks, f.isFree = true ∧ f.head ≤ head ∧
    ∃ n : Nat, (look cells head).low = n ∧ length ≤ n ∧ head + 2 + n ≤ f.stop

/-- The head record of a free block is spent. -/
theorem Laid.spent {cells : Array Cell} {p : Plan} {f : Block} {length : Nat}
    (h : Laid cells p.blocks) (hf : f ∈ p.blocks) (hfree : f.isFree = true)
    (hle : length ≤ f.count) : Spent cells p f.head length := by
  have hmarked := h.marked f hf
  refine ⟨?_, f, hf, hfree, Nat.le_refl _, f.count, hmarked.count, hle, ?_⟩
  · rw [hmarked.kind, Block.kind_of_isFree hfree]
  · simp only [Block.stop]
    omega

/-- A free block is still there when another one was given back, and may have grown. -/
theorem Plan.Returns.exists_free {p p' : Plan} {b f : Block} (h : p.Returns b p')
    (hb : b.isFree = false) (hf : f ∈ p.blocks) (hfree : f.isFree = true) :
    ∃ f' ∈ p'.blocks, f'.isFree = true ∧ f'.head = f.head ∧ f.count ≤ f'.count := by
  have hne : f ≠ b := by
    intro he
    simp [he, hb] at hfree
  cases h with
  | @merged pre post earlier later q hblocks hq _ =>
    rw [hblocks] at hf
    simp only [List.mem_append, List.mem_cons, hne, List.not_mem_nil, or_false] at hf
    by_cases hgrown : f = q
    · refine ⟨q.merge b, by simp, rfl, by rw [hgrown]; rfl, ?_⟩
      rw [hgrown]
      simp only [Block.merge]
      omega
    · refine ⟨f, ?_, hfree, rfl, Nat.le_refl _⟩
      simp only [hgrown, or_false] at hf
      cases hf with
      | inl hpre => simp [hpre]
      | inr hpost => simp [hpost]
  | @appended pre post hblocks _ =>
    rw [hblocks] at hf
    simp only [List.mem_append, List.mem_singleton, hne, or_false] at hf
    refine ⟨f, ?_, hfree, rfl, Nat.le_refl _⟩
    cases hf with
    | inl hpre => simp [hpre]
    | inr hpost => simp [hpost]

/-! ## The record stays -/

namespace Accounts

variable {pool : Nat} {live : List Lease} {st : Allocator × Store} {p : Plan} {l : Lease}
  {head length : Nat}

/-- **A window that is given back leaves its record spent.** -/
theorem giveBack_spent (h : Accounts pool live st p) (hl : l ∈ live) :
    ∃ st' p', (giveBack l.window).run st = .ok () st' ∧ Accounts pool (live.erase l) st' p' ∧
      Spent (st'.2.cells pool) p' (l.window.offset - 1) l.window.length := by
  obtain ⟨b, hb, hlease⟩ := h.exists_block hl
  obtain ⟨hloan, -, hoffset⟩ := Block.lease?_eq_some hlease
  have hcovers := ((h.plan.laid.fit b hb).loan _ _ hloan).2.1
  obtain ⟨st', p', hrun, hreturns, hnew, -, hcount, hfree⟩ := h.giveBack_released hb hlease
  refine ⟨st', p', hrun, hnew, ?_⟩
  rw [hoffset, Nat.add_sub_cancel]
  refine ⟨hfree, ?_⟩
  cases hreturns with
  | @merged pre post earlier later q hblocks hq _ =>
    -- the record is an ordinary cell of the block that grew over it
    have htiles := h.plan.laid.tiles
    rw [hblocks] at htiles
    have hnext := htiles.head_eq_stop
    refine ⟨q.merge b, by simp, rfl, ?_, b.count, hcount, hcovers, ?_⟩
    · simp only [Block.merge, Block.stop] at hnext ⊢
      omega
    · simp only [Block.merge, Block.stop] at hnext ⊢
      omega
  | appended hblocks _ =>
    refine ⟨b.freed, by simp, rfl, Nat.le_refl _, b.count, hcount, hcovers, ?_⟩
    simp only [Block.freed, Block.stop]
    omega

/-- **Other returns leave it spent**, also one that the block around it grows by. -/
theorem spent_giveBack (h : Accounts pool live st p)
    (hspent : Spent (st.2.cells pool) p head length) (hl : l ∈ live) :
    ∃ st' p', (giveBack l.window).run st = .ok () st' ∧ Accounts pool (live.erase l) st' p' ∧
      Spent (st'.2.cells pool) p' head length := by
  obtain ⟨b, hb, hlease⟩ := h.exists_block hl
  obtain ⟨st', p', hrun, hreturns, hnew, hkeeps, -⟩ := h.giveBack_released hb hlease
  refine ⟨st', p', hrun, hnew, ?_⟩
  obtain ⟨f, hf, hfree, hhead, n, hcount, hle, hstop⟩ := hspent.inside
  have hlent := (Block.isFree_eq_false_iff pool).2 ⟨l, hlease⟩
  obtain ⟨f', hf', hfree', hhead', hgrown⟩ := hreturns.exists_free hlent hf hfree
  by_cases hfirst : head = f.head
  · -- the record is that of the block, which was written anew
    obtain ⟨firstFree, -, -, hplan⟩ := h.represents
    obtain ⟨firstFree', -, -, hplan'⟩ := hnew.represents
    have hold : (look (st.2.cells pool) f.head).low = f.count := (hplan.laid.marked f hf).count
    rw [← hfirst, hcount] at hold
    rw [hfirst, ← hhead']
    exact hplan'.laid.spent hf' hfree' (by omega)
  · -- it is a cell that the block could lend, and nobody writes there
    have hspans : f.Spans head := by
      simp only [Block.Spans]
      omega
    have hsame : look (st'.2.cells pool) head = look (st.2.cells pool) head := by
      refine hkeeps.cells head fun c hc _ hrecords => ?_
      by_cases hcf : c = f
      · subst hcf
        simp only [Block.Records, Block.tail, Block.stop] at hrecords hstop
        omega
      · exact h.plan.laid.tiles.apart hf hc (Ne.symm hcf) hspans hrecords.spans
    refine ⟨by rw [hsame]; exact hspent.marked, f', hf', hfree', by omega, n, ?_, hle, ?_⟩
    · rw [hsame]
      exact hcount
    · simp only [Block.stop] at hstop ⊢
      omega

/-- **Writes of those who hold a window leave it spent.** -/
theorem spent_touch (h : Accounts pool live st p)
    (hspent : Spent (st.2.cells pool) p head length) (hl : l ∈ live) {s : Store}
    (ht : Store.Touches l.window st.2 s) : Spent (s.cells pool) p head length := by
  obtain ⟨f, hf, hfree, hhead, n, hcount, hle, hstop⟩ := hspent.inside
  have hsame : look (s.cells pool) head = look (st.2.cells pool) head := by
    refine ht.keep pool head fun hhas => h.not_spans hl hf ?_ hhas ?_
    · rw [Block.lease?_of_isFree pool hfree]
      exact nofun
    · simp only [Block.Spans]
      omega
  refine ⟨by rw [hsame]; exact hspent.marked, f, hf, hfree, hhead, n, ?_, hle, hstop⟩
  rw [hsame]
  exact hcount

/-- A window whose record is spent cannot be given back. -/
theorem giveBack_of_spent (h : Accounts pool live st p) {v : Window} (hpool : v.pool = pool)
    (hoffset : v.offset = head + 1) (hspent : Spent (st.2.cells pool) p head v.length) :
    (giveBack v).run st = .error (.error (.invalidArgument (.alreadyFree head))) st := by
  obtain ⟨firstFree, hshared, -, hplan⟩ := h.represents
  obtain ⟨f, hf, -, -, n, hcount, hle, hstop⟩ := hspent.inside
  have hfits : head + 2 + n ≤ (st.2.cells pool).size := Nat.le_trans hstop (hplan.laid.stop_le hf)
  have hfree : Kind.ofCode (look (st.2.cells pool) head).high = .free := by
    rw [hspent.marked, Kind.ofCode_code]
  have hrefused := lentRun_covered (a := ⟨st.2.cells pool, firstFree⟩) hcount hle hfits
  rw [if_pos hfree] at hrefused
  rw [giveBack_run_eq hshared hpool, hoffset]
  exact inArena_run_error hshared (run_bind_error hrefused _)

end Accounts

/-! ## Until the next request -/

/-- The accounts are in order, and the record before some window is spent. -/
def World.Spent (pool : Nat) (w : World) (head length : Nat) : Prop :=
  ∃ p, Accounts pool w.live w.state p ∧ Allocator.Spent (w.store.cells pool) p head length

namespace World

variable {pool head length : Nat} {w : World}

/-- Whatever is done but a request leaves the record spent. -/
theorem act_spent (h : w.Spent pool head length) {action : Action}
    (hno : ∀ size kind, action ≠ .obtain size kind) : (w.act action).Spent pool head length := by
  obtain ⟨p, haccounts, hspent⟩ := h
  cases action with
  | obtain size kind => exact absurd rfl (hno size kind)
  | giveBack l =>
    by_cases hl : l ∈ w.live
    · obtain ⟨st', p', hrun, hnew, hspent'⟩ := haccounts.spent_giveBack hspent hl
      rw [act, if_pos hl, hrun]
      exact ⟨p', hnew, hspent'⟩
    · rw [act, if_neg hl]
      exact ⟨p, haccounts, hspent⟩
  | edit l e =>
    by_cases hl : l ∈ w.live
    · have ht := e.touches w.store l.window
      rw [act, if_pos hl]
      exact ⟨p, haccounts.touch hl ht, haccounts.spent_touch hspent hl ht⟩
    · rw [act, if_neg hl]
      exact ⟨p, haccounts, hspent⟩

theorem run_spent (h : w.Spent pool head length) {actions : List Action}
    (hno : ∀ size kind, Action.obtain size kind ∉ actions) :
    (w.run actions).Spent pool head length := by
  induction actions generalizing w with
  | nil => exact h
  | cons action rest ih =>
    refine ih (act_spent h fun size kind he => ?_) fun size kind hmem => ?_
    · exact hno size kind (he ▸ List.mem_cons_self)
    · exact hno size kind (List.mem_cons_of_mem _ hmem)

end World

/-- **A window is not given back twice.** In every world that a pool can come to, a window that is
held can be given back. From then on, as long as no window is lent, whatever else is given back and
whatever is written through windows that are still held, in any order: giving it back once more is
refused and nothing changes, no matter what has become of its run. -/
theorem second_return_refused {pool : Nat} {w : World} (h : w.Reachable pool) {l : Lease}
    (hl : l ∈ w.live) {actions : List Action}
    (hno : ∀ size kind, Action.obtain size kind ∉ actions) :
    (giveBack l.window).run w.state = .ok () (w.act (.giveBack l)).state ∧
      (giveBack l.window).run ((w.act (.giveBack l)).run actions).state =
        .error (.error (.invalidArgument (.alreadyFree (l.window.offset - 1))))
          ((w.act (.giveBack l)).run actions).state := by
  obtain ⟨p, haccounts⟩ := h.kept
  obtain ⟨st', p', hrun, hnew, hspent⟩ := haccounts.giveBack_spent hl
  have hact : w.act (.giveBack l) = ⟨st'.1, st'.2, w.live.erase l⟩ := by
    rw [World.act, if_pos hl, hrun]
  have hfirst : (w.act (.giveBack l)).Spent pool (l.window.offset - 1) l.window.length := by
    rw [hact]
    exact ⟨p', hnew, hspent⟩
  refine ⟨?_, ?_⟩
  · rw [hact]
    exact hrun
  · obtain ⟨p₂, haccounts₂, hspent₂⟩ := World.run_spent hfirst hno
    obtain ⟨b, -, hlease⟩ := haccounts.exists_block hl
    obtain ⟨-, hpool, hoffset⟩ := Block.lease?_eq_some hlease
    exact haccounts₂.giveBack_of_spent hpool (by omega) hspent₂

/-- Thirty cells, of which four windows were lent. The first one was given back, so that the run of
the second one merges into the first; then the third one is given back, the fourth one written and
given back as well. -/
theorem second_return_refused_thirty : ∃ (w : World) (l : Lease) (actions : List Action),
    w.Reachable 0 ∧ l ∈ w.live ∧ (∀ size kind, Action.obtain size kind ∉ actions) ∧
    w.arena.runs.map (List.map Run.extent) =
      some [⟨0, 2, .free⟩, ⟨4, 3, .heap⟩, ⟨9, 1, .program⟩, ⟨12, 16, .stack⟩] ∧
    ((w.act (.giveBack l)).run actions).arena.runs.map (List.map Run.extent) =
      some [⟨0, 28, .free⟩] ∧
    (giveBack l.window).run w.state = .ok () (w.act (.giveBack l)).state ∧
    (giveBack l.window).run ((w.act (.giveBack l)).run actions).state =
      .error (.error (.invalidArgument (.alreadyFree (l.window.offset - 1))))
        ((w.act (.giveBack l)).run actions).state := by
  let store : Store := ⟨#[Array.replicate 30 Cell.zero]⟩
  let l : Lease := ⟨⟨0, 5, 3⟩, .heap⟩
  let first : List Action :=
    [.obtain 16 .global, .obtain 24 .heap, .obtain 8 .program, .obtain 128 .stack,
      .giveBack ⟨⟨0, 1, 2⟩, .global⟩]
  let actions : List Action :=
    [.giveBack ⟨⟨0, 10, 1⟩, .program⟩,
      .edit ⟨⟨0, 13, 16⟩, .stack⟩ (.set 0 (Cell.zero.withPair 3 Kind.heap.code)),
      .giveBack ⟨⟨0, 13, 16⟩, .stack⟩]
  obtain ⟨w, hreach, hl, hruns, hafter⟩ := World.exists_reachable 0 store first
    (P := fun w => l ∈ w.live ∧
      w.arena.runs.map (List.map Run.extent) =
        some [⟨0, 2, .free⟩, ⟨4, 3, .heap⟩, ⟨9, 1, .program⟩, ⟨12, 16, .stack⟩] ∧
      ((w.act (.giveBack l)).run actions).arena.runs.map (List.map Run.extent) =
        some [⟨0, 28, .free⟩])
    (by decide) (by decide +kernel)
  have hno : ∀ size kind, Action.obtain size kind ∉ actions := by simp [actions]
  exact ⟨w, l, actions, hreach, hl, hno, hruns, hafter, second_return_refused hreach hl hno⟩

end CellMachine.Allocator
