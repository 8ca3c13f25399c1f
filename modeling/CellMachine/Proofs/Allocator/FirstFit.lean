import CellMachine.Proofs.Allocator.Clients

/-!
# Requests, run by run

What a request does to the runs of a pool as they are seen from outside, in address order and in
list order, whatever is in the windows that are held.

* `Accounts.shown`: the walks over the records see the blocks of the plan, so that `Plan.lend` says
  what becomes of the runs;
* `first_fit_with_split`: a request takes the first run of the free list that is large enough, and
  splits it if the rest can be a run of its own.
-/

namespace CellMachine.Allocator

/-! ## Runs without their links -/

/-- Where a run lies and what it is for. The link of a run is left out: the order of the free list
says more than it does. -/
structure Extent where
  head : Nat
  count : Nat
  kind : Kind
  deriving DecidableEq, Repr

/-- The extent of a run. -/
def Run.extent (r : Run) : Extent := ⟨r.head, r.count, r.kind⟩

/-- The extent of a block. -/
def Block.extent (b : Block) : Extent := ⟨b.head, b.count, b.kind⟩

@[simp] theorem map_extent_toRun (cells : Array Cell) (l : List Block) :
    (l.map (Block.toRun cells)).map Run.extent = l.map Block.extent := by
  rw [List.map_map]
  rfl

/-- What there is to see of a shared pool: its runs in address order, and its free runs in list
order. -/
structure Shown (st : Allocator × Store) (runs free : List Run) : Prop where
  runs_eq : (st.1.arena st.2).runs = some runs
  free_eq : (st.1.arena st.2).freeRuns = some free

section
variable {pool : Nat} {live : List Lease} {st st' : Allocator × Store} {p p' : Plan}

theorem Accounts.shown (h : Accounts pool live st p) :
    Shown st (p.blocks.map (Block.toRun (st.2.cells pool)))
      (p.free.map (Block.toRun (st.2.cells pool))) := by
  obtain ⟨firstFree, -, harena, hplan⟩ := h.represents
  refine ⟨?_, ?_⟩ <;> rw [harena]
  · exact hplan.runs_eq
  · exact hplan.freeRuns_eq

/-! ## Requests -/

/-- What becomes of a free run when `count` of its cells are lent: it is split if the rest can be a
run of its own, with two records and a cell to lend. -/
def Run.divided (f : Run) (count : Nat) (kind : Kind) : List Extent :=
  if 3 ≤ f.count - count then
    [⟨f.head, count, kind⟩, ⟨f.head + 2 + count, f.count - count - 2, .free⟩]
  else [⟨f.head, f.count, kind⟩]

theorem Block.divided_toRun (cells : Array Cell) (f : Block) (count : Nat) (kind : Kind) :
    (f.toRun cells).divided count kind =
      (f.lend count kind :: f.rest count).map Block.extent := by
  unfold Run.divided Block.lend Block.rest
  by_cases hlarge : 3 ≤ f.count - count
  · have hnot : ¬ f.count - count < minimumRunCells := Nat.not_lt.2 hlarge
    simp only [Block.count_toRun, Block.head_toRun, hlarge, hnot, ↓reduceIte, List.map_cons,
      List.map_nil, Block.extent, Block.kind, Nat.sub_sub, Nat.add_comm count 2]
  · have hsmall : f.count - count < minimumRunCells := Nat.lt_of_not_le hlarge
    simp only [Block.count_toRun, Block.head_toRun, hlarge, hsmall, ↓reduceIte, List.map_cons,
      List.map_nil, Block.extent, Block.kind]

/-- `count` cells are lent from the run `f`, which is the first of the free list that has as many.
What is left of it takes its place there, and all other runs stay. -/
structure Divides (pool : Nat) (st st' : Allocator × Store) (runs free runs' free' : List Run)
    (f : Run) (count : Nat) (kind : Kind) : Prop where
  shown : Shown st' runs' free'
  enough : count ≤ f.count
  place : ∃ before after, runs = before ++ [f] ++ after ∧
    runs'.map Run.extent =
      before.map Run.extent ++ f.divided count kind ++ after.map Run.extent
  turn : ∃ earlier later, free = earlier ++ [f] ++ later ∧ (∀ r ∈ earlier, r.count < count) ∧
    free'.map Run.extent =
      earlier.map Run.extent ++ (f.divided count kind).tail ++ later.map Run.extent
  /-- The runs that were lent before keep all their cells, records and slack included. -/
  kept : ∀ r ∈ runs, r.kind ≠ .free → ∀ i, r.head ≤ i → i < r.stop →
    st'.2.peek pool i = st.2.peek pool i

/-- **A request that can be served divides the first run that fits.** -/
theorem Accounts.obtain_divides (h : Accounts pool live st p) {size : Int} {kind : Kind}
    {count : Nat} (hreq : requestedCells size kind = .ok count) (pick : Pick p count) :
    ∃ f st' runs' free', (Allocator.obtain size kind).run st = .ok ⟨pool, f.head + 1, count⟩ st' ∧
      Divides pool st st' (p.blocks.map (Block.toRun (st.2.cells pool)))
        (p.free.map (Block.toRun (st.2.cells pool))) runs' free' f count kind := by
  obtain ⟨st', hrun, hnew, hkeeps, -⟩ := h.obtain_pick hreq pick
  refine ⟨pick.block.toRun (st.2.cells pool), st', _, _, hrun, hnew.shown, pick.enough,
    ⟨pick.before.map (Block.toRun (st.2.cells pool)),
      pick.after.map (Block.toRun (st.2.cells pool)), ?_, ?_⟩,
    ⟨pick.earlier.map (Block.toRun (st.2.cells pool)),
      pick.later.map (Block.toRun (st.2.cells pool)), ?_, ?_, ?_⟩, ?_⟩
  · rw [pick.blocks_eq]
    simp only [List.map_append, List.map_cons, List.map_nil]
  · rw [Block.divided_toRun]
    simp only [map_extent_toRun, Plan.lend, List.map_append]
  · rw [pick.free_eq]
    simp only [List.map_append, List.map_cons, List.map_nil]
  · intro r hr
    obtain ⟨b, hb, rfl⟩ := List.mem_map.1 hr
    exact pick.small b hb
  · rw [Block.divided_toRun]
    simp only [map_extent_toRun, Plan.lend, List.map_append, List.map_cons, List.tail_cons]
  · intro r hr hkind i hlow hhigh
    obtain ⟨c, hc, rfl⟩ := List.mem_map.1 hr
    have hlent : c.isFree = false :=
      Bool.eq_false_iff.2 fun hfree => hkind (Block.kind_of_isFree hfree)
    exact hkeeps.cells i (h.plan.not_spans_free hc hlent ⟨hlow, hhigh⟩)

end

/-- How a request is answered where the runs are `runs` and the free list is `free`. -/
structure World.FirstFit (w : World) (pool : Nat) (size : Int) (kind : Kind)
    (runs free : List Run) : Prop where
  shown : Shown w.state runs free
  invalid : (∃ misuse st, (Allocator.obtain size kind).run w.state =
    .error (.error (.invalidArgument misuse)) st) ↔ size ≤ 0 ∨ kind = .free
  /-- Bytes are counted in whole cells, eight to a cell. -/
  rounded : 0 < size → size ≤ 8 * (cellsForBytes size.toNat : Int) ∧
    8 * (cellsForBytes size.toNat : Int) < size + 8
  /-- For want of memory a request is refused only if no free run is large enough. -/
  outOfMemory : 0 < size → kind ≠ .free → ∀ count, count = cellsForBytes size.toNat →
    ((∃ st, (Allocator.obtain size kind).run w.state = .error (.error (.outOfMemory count)) st) ↔
      ∀ r ∈ free, r.count < count)
  unchanged : ∀ e st, (Allocator.obtain size kind).run w.state = .error e st → st = w.state
  served : 0 < size → kind ≠ .free → ∀ count, count = cellsForBytes size.toNat →
    (∃ r ∈ free, count ≤ r.count) →
    ∃ f st runs' free', (Allocator.obtain size kind).run w.state =
        .ok ⟨pool, f.head + 1, count⟩ st ∧
      Divides pool w.state st runs free runs' free' f count kind

section
variable {pool : Nat} {live : List Lease} {st : Allocator × Store} {p : Plan} {size : Int}
  {kind : Kind}

theorem Accounts.obtain_invalid_iff (h : Accounts pool live st p) :
    (∃ misuse st', (Allocator.obtain size kind).run st =
      .error (.error (.invalidArgument misuse)) st') ↔ size ≤ 0 ∨ kind = .free := by
  constructor
  · intro hinvalid
    obtain ⟨misuse, st', hrun⟩ := hinvalid
    by_cases hbad : size ≤ 0 ∨ kind = .free
    · exact hbad
    · obtain ⟨hsize, hkind⟩ := not_or.1 hbad
      have hreq := requestedCells_eq_ok (Int.not_le.1 hsize) hkind
      rcases h.plan.pick_or_small (cellsForBytes size.toNat) with ⟨⟨pick⟩⟩ | hsmall
      · obtain ⟨st₁, hserved, -⟩ := h.obtain_pick hreq pick
        rw [hserved] at hrun
        cases hrun
      · rw [h.obtain_outOfMemory hreq hsmall] at hrun
        cases hrun
  · intro hbad
    obtain ⟨misuse, hreq⟩ := requestedCells_eq_error hbad
    exact ⟨misuse, st, h.obtain_refused hreq⟩

theorem Accounts.obtain_outOfMemory_iff (h : Accounts pool live st p) {count : Nat}
    (hreq : requestedCells size kind = .ok count) :
    (∃ st', (Allocator.obtain size kind).run st = .error (.error (.outOfMemory count)) st') ↔
      ∀ b ∈ p.free, b.count < count := by
  constructor
  · intro hfull
    obtain ⟨st', hrun⟩ := hfull
    rcases h.plan.pick_or_small count with ⟨⟨pick⟩⟩ | hsmall
    · obtain ⟨st₁, hserved, -⟩ := h.obtain_pick hreq pick
      rw [hserved] at hrun
      cases hrun
    · exact hsmall
  · intro hsmall
    exact ⟨st, h.obtain_outOfMemory hreq hsmall⟩

end

/-- **A request is answered by first fit.** In every world that a pool can come to, a request is
invalid exactly if its size is not positive or its kind is that of free runs. Otherwise it is
refused for want of memory exactly if no run of the free list is large enough. A refusal changes
nothing. And if some run is large enough, the first one in list order is taken: it is split if at
least three cells are left over, which then take its place in the list as a free run, and lent as a
whole and taken off the list if not. Everything else stays as it is and where it is. -/
theorem first_fit_with_split {pool : Nat} {w : World} (h : w.Reachable pool) (size : Int)
    (kind : Kind) : ∃ runs free, w.FirstFit pool size kind runs free := by
  obtain ⟨p, haccounts⟩ := h.kept
  refine ⟨_, _, haccounts.shown, haccounts.obtain_invalid_iff, fun hsize => ?_,
    fun hsize hkind count hcount => ?_, fun e st hrun => ?_, fun hsize hkind count hcount hex => ?_⟩
  · simp only [cellsForBytes]
    omega
  · have hreq := requestedCells_eq_ok hsize hkind
    rw [← hcount] at hreq
    rw [haccounts.obtain_outOfMemory_iff hreq]
    simp only [List.forall_mem_map, Block.count_toRun]
  · rcases haccounts.obtain_cases size kind with ⟨count, pick, st', -, hserved, -⟩ | ⟨e', hrefused⟩
    · rw [hserved] at hrun
      cases hrun
    · exact (EStateM.Result.error.inj (hrefused.symm.trans hrun)).2.symm
  · have hreq := requestedCells_eq_ok hsize hkind
    rw [← hcount] at hreq
    obtain ⟨r, hr, hle⟩ := hex
    obtain ⟨b, hb, rfl⟩ := List.mem_map.1 hr
    obtain ⟨pick⟩ := haccounts.plan.exists_pick ⟨b, hb, hle⟩
    exact haccounts.obtain_divides hreq pick

/-- Thirty cells with free runs of two, six and nine cells in the list: a request for five takes the
one in the middle, as a whole. -/
theorem first_fit_with_split_thirty : ∃ w : World, w.Reachable 0 ∧
    w.arena.freeRuns.map (List.map Run.extent) =
      some [⟨0, 2, .free⟩, ⟨8, 6, .free⟩, ⟨19, 9, .free⟩] ∧
    ∃ runs free, w.FirstFit 0 40 .heap runs free := by
  let store : Store := ⟨#[Array.replicate 30 Cell.zero]⟩
  let actions : List Action :=
    [.obtain 16 .heap, .obtain 16 .heap, .obtain 48 .heap, .obtain 8 .heap, .obtain 72 .heap,
      .giveBack ⟨⟨0, 1, 2⟩, .heap⟩, .giveBack ⟨⟨0, 9, 6⟩, .heap⟩, .giveBack ⟨⟨0, 20, 9⟩, .heap⟩]
  have hsize : minimumRunCells ≤ store.size 0 ∧ store.size 0 ≤ maximumPoolCells := by decide
  obtain ⟨st, hst, -⟩ := World.exists_opened hsize.1 hsize.2
  have hfree : (Allocator.ofPool store 0).toOption.map (fun st =>
      ((World.opened st).run actions).arena.freeRuns.map (List.map Run.extent)) =
      some (some [⟨0, 2, .free⟩, ⟨8, 6, .free⟩, ⟨19, 9, .free⟩]) := by
    decide +kernel
  rw [hst] at hfree
  have hreach : ((World.opened st).run actions).Reachable 0 := ⟨store, st, actions, hsize, hst, rfl⟩
  exact ⟨_, hreach, Option.some.inj hfree, first_fit_with_split hreach 40 .heap⟩

end CellMachine.Allocator
