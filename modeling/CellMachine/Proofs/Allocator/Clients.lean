import CellMachine.Proofs.Allocator.Census
import CellMachine.Proofs.Allocator.Leases

/-!
# Any history of a shared pool

A `World` is a shared pool with its allocator and a ledger of the windows that its clients hold. In
any order, clients ask for windows, give back windows they hold and write what they like through
them (`Action`); `World.run` is a whole history.

* `records_after_any_history`: whatever happened, the runs tile the pool, the free list is the list
  of the runs marked free, and the other runs are paired with the windows in the ledger;
* `held_windows_untouched`: whatever happened, no work of the allocator changes a cell of a window
  that somebody holds, and no client changes a record or a cell of somebody else.

Both rest on one invariant, `World.Kept`, that every history keeps.
-/

namespace CellMachine.Allocator

/-! ## Worlds and actions -/

/-- A write through a window. -/
inductive Edit where
  | set (index : Nat) (c : Cell)
  | update (index : Nat) (f : Cell → Cell)
  | write (start : Nat) (values : List Cell)
  | clear

/-- The store after a write; a refused write changes nothing. -/
def Edit.apply (s : Store) (w : Window) : Edit → Store
  | .set index c =>
    match s.set w index c with
    | .ok s' => s'
    | .error _ => s
  | .update index f =>
    match s.update w index f with
    | .ok (_, s') => s'
    | .error _ => s
  | .write start values =>
    match s.write w start values with
    | .ok s' => s'
    | .error _ => s
  | .clear => s.clear w

theorem Edit.touches (s : Store) (w : Window) (e : Edit) : Store.Touches w s (e.apply s w) := by
  cases e with
  | set index c =>
    simp only [Edit.apply]
    split
    · rename_i s' h
      exact Store.touches_set h
    · exact .refl w s
  | update index f =>
    simp only [Edit.apply]
    split
    · rename_i c s' h
      exact Store.touches_update h
    · exact .refl w s
  | write start values =>
    simp only [Edit.apply]
    split
    · rename_i s' h
      exact Store.touches_write h
    · exact .refl w s
  | clear => exact Store.touches_clear s w

/-- An allocator with its pools, and the windows its clients hold. -/
structure World where
  allocator : Allocator
  store : Store
  live : List Lease := []

/-- What clients do. -/
inductive Action where
  /-- Ask for a window. -/
  | obtain (size : Int) (kind : Kind)
  /-- Give back a window. -/
  | giveBack (l : Lease)
  /-- Write through a window. -/
  | edit (l : Lease) (e : Edit)

namespace World

/-- The allocator as its operations see it. -/
def state (w : World) : Allocator × Store := (w.allocator, w.store)

/-- The records of the shared pool. -/
def arena (w : World) : Arena := w.allocator.arena w.store

/-- One action. Nobody gives back or writes through a window that is not held. -/
def act (w : World) : Action → World
  | .obtain size kind =>
    match (Allocator.obtain size kind).run w.state with
    | .ok window (allocator, store) => ⟨allocator, store, ⟨window, kind⟩ :: w.live⟩
    | .error _ (allocator, store) => ⟨allocator, store, w.live⟩
  | .giveBack l =>
    if l ∈ w.live then
      match (Allocator.giveBack l.window).run w.state with
      | .ok _ (allocator, store) => ⟨allocator, store, w.live.erase l⟩
      | .error _ (allocator, store) => ⟨allocator, store, w.live⟩
    else w
  | .edit l e => if l ∈ w.live then { w with store := e.apply w.store l.window } else w

/-- A history of actions. -/
def run (w : World) (actions : List Action) : World := actions.foldl act w

/-- The accounts of a world are in order. -/
def Kept (pool : Nat) (w : World) : Prop := Lent pool w.live w.state

variable {pool : Nat} {w : World}

/-! ## What one action does -/

/-- Every action leaves the leases in order, whoever lends the windows. -/
theorem act_supplied {I : List Lease → Allocator × Store → Prop} (hI : Supply I)
    (h : I w.live w.state) (action : Action) :
    I (w.act action).live (w.act action).state := by
  cases action with
  | obtain size kind =>
    rcases hI.obtained h size kind with ⟨window, st, hrun, -, hnew, -⟩ | ⟨e, hrun⟩
    · rw [act, hrun]
      exact hnew
    · rw [act, hrun]
      exact h
  | giveBack l =>
    by_cases hl : l ∈ w.live
    · obtain ⟨st, hrun, hnew, -⟩ := hI.givenBack (hI.perm (List.perm_cons_erase hl) h)
      rw [act, if_pos hl, hrun]
      exact hnew
    · rw [act, if_neg hl]
      exact h
  | edit l e =>
    by_cases hl : l ∈ w.live
    · rw [act, if_pos hl]
      exact hI.touch h hl (e.touches w.store l.window)
    · rw [act, if_neg hl]
      exact h

theorem run_supplied {I : List Lease → Allocator × Store → Prop} (hI : Supply I)
    (h : I w.live w.state) (actions : List Action) :
    I (w.run actions).live (w.run actions).state := by
  induction actions generalizing w with
  | nil => exact h
  | cons action rest ih => exact ih (act_supplied hI h action)

theorem run_concat (w : World) (actions : List Action) (action : Action) :
    w.run (actions ++ [action]) = (w.run actions).act action := by
  simp [run, List.foldl_append]

theorem act_obtain (h : w.Kept pool) (size : Int) (kind : Kind) :
    (∃ window, (w.act (.obtain size kind)).live = ⟨window, kind⟩ :: w.live ∧
      (Allocator.obtain size kind).run w.state =
        .ok window (w.act (.obtain size kind)).state ∧
      (w.act (.obtain size kind)).Kept pool ∧
      Spares w.live w.store (w.act (.obtain size kind)).store) ∨
    ∃ e, (Allocator.obtain size kind).run w.state = .error e w.state ∧
      w.act (.obtain size kind) = w := by
  obtain ⟨p, haccounts⟩ := h
  rcases haccounts.obtain_run size kind with ⟨window, st', p', hrun, -, hnew, hspares⟩ | ⟨e, hrun⟩
  · refine .inl ⟨window, ?_⟩
    rw [act, hrun]
    exact ⟨rfl, rfl, ⟨p', hnew⟩, hspares⟩
  · refine .inr ⟨_, hrun, ?_⟩
    rw [act, hrun]
    rfl

theorem act_giveBack (h : w.Kept pool) {l : Lease} (hl : l ∈ w.live) :
    (w.act (.giveBack l)).live = w.live.erase l ∧ (w.act (.giveBack l)).Kept pool ∧
      Spares (w.live.erase l) w.store (w.act (.giveBack l)).store := by
  obtain ⟨p, haccounts⟩ := h
  obtain ⟨st', p', hrun, hnew, hspares⟩ := haccounts.giveBack_run hl
  rw [act, if_pos hl, hrun]
  exact ⟨rfl, ⟨p', hnew⟩, hspares⟩

theorem act_edit (h : w.Kept pool) {l : Lease} (hl : l ∈ w.live) (e : Edit) :
    (w.act (.edit l e)).live = w.live ∧ (w.act (.edit l e)).Kept pool ∧
      Spares (w.live.erase l) w.store (w.act (.edit l e)).store := by
  obtain ⟨p, haccounts⟩ := h
  have ht := e.touches w.store l.window
  rw [act, if_pos hl]
  exact ⟨rfl, ⟨p, haccounts.touch hl ht⟩, haccounts.spares_touch hl ht⟩

/-- **Every history keeps the accounts in order.** -/
theorem run_kept (h : w.Kept pool) (actions : List Action) : (w.run actions).Kept pool :=
  run_supplied (supply_lent pool) h actions

/-- The world of a pool that was just taken over: nobody holds anything. -/
def opened (st : Allocator × Store) : World := ⟨st.1, st.2, []⟩

theorem exists_opened {store : Store} (hmin : minimumRunCells ≤ store.size pool)
    (hmax : store.size pool ≤ maximumPoolCells) :
    ∃ st, Allocator.ofPool store pool = .ok st ∧ (opened st).Kept pool := by
  obtain ⟨st, p, hst, haccounts⟩ := ofPool_eq_ok hmin hmax
  exact ⟨st, hst, p, haccounts⟩

end World

/-! ## The records after any history -/

/-- Both records of a run are there to read. -/
structure Recorded (s : Store) (pool : Nat) (r : Run) : Prop where
  head : (s.peek pool r.head).low = r.count ∧ (s.peek pool r.head).high = r.kind.code
  tail : (s.peek pool r.tail).low = ((r.count + 2 : Nat) : Int) ∧
    (s.peek pool r.tail).high = r.next

/-- A run lends the window of a lease, with at most two cells over. -/
structure Lends (pool : Nat) (r : Run) (l : Lease) : Prop where
  place : l.window.pool = pool ∧ l.window.offset = r.head + 1
  kind : r.kind = l.kind
  enough : l.window.length ≤ r.count
  slack : r.count ≤ l.window.length + 2

/-- What is to be seen in a world whose accounts are in order: its runs in address order, and its
free runs in list order. -/
structure World.Shows (w : World) (pool : Nat) (runs free : List Run) : Prop where
  seen : w.arena.runs = some runs
  spans : runs.foldr (fun r n => r.count + 2 + n) 0 = w.store.size pool
  recorded : ∀ r ∈ runs, 1 ≤ r.count ∧ Recorded w.store pool r
  visited : w.arena.freeRuns = some free
  leads : Leads w.arena.firstFree free noRun
  listed : free.Perm (runs.filter fun r => r.kind = .free)
  once : free.Nodup
  /-- The other runs and the leases, paired off. -/
  lent : ∃ pairs : List (Run × Lease), pairs.map Prod.fst = runs.filter (fun r => r.kind ≠ .free) ∧
    (pairs.map Prod.snd).Perm w.live ∧ ∀ x ∈ pairs, Lends pool x.1 x.2

theorem Represents.recorded {a : Arena} {s : Store} {pool : Nat} {p : Plan} (h : Represents a p)
    (hcells : a.cells = s.cells pool) {b : Block} (hb : b ∈ p.blocks) :
    1 ≤ b.count ∧ Recorded s pool (b.toRun a.cells) := by
  have hmarked := h.laid.marked b hb
  rw [hcells] at hmarked ⊢
  refine ⟨(h.laid.fit b hb).pos, ⟨hmarked.count, hmarked.kind⟩, hmarked.total, ?_⟩
  rw [Block.next_toRun]
  rfl

/-- The lent runs of a plan, each with its lease. -/
def Plan.pairs (pool : Nat) (cells : Array Cell) (p : Plan) : List (Run × Lease) :=
  p.blocks.filterMap fun b => (b.lease? pool).map fun l => (b.toRun cells, l)

theorem Plan.map_fst_pairs (pool : Nat) (cells : Array Cell) (p : Plan) :
    (p.pairs pool cells).map Prod.fst =
      (p.blocks.filter fun b => !b.isFree).map (Block.toRun cells) := by
  rw [Plan.pairs, List.map_filterMap, ← List.filterMap_eq_map, List.filterMap_filter]
  congr 1
  funext b
  match hl : b.loan with
  | none => simp [Block.lease?, Block.isFree, hl]
  | some loan => simp [Block.lease?, Block.isFree, hl]

theorem Plan.map_snd_pairs (pool : Nat) (cells : Array Cell) (p : Plan) :
    (p.pairs pool cells).map Prod.snd = p.leases pool := by
  rw [Plan.pairs, List.map_filterMap, Plan.leases]
  congr 1
  funext b
  cases b.lease? pool <;> rfl

theorem Represents.lends {a : Arena} {p : Plan} (h : Represents a p) {pool : Nat}
    {x : Run × Lease} (hx : x ∈ p.pairs pool a.cells) : Lends pool x.1 x.2 := by
  obtain ⟨b, hb, hpair⟩ := List.mem_filterMap.1 hx
  obtain ⟨l, hlease, rfl⟩ := Option.map_eq_some_iff.1 hpair
  obtain ⟨hloan, hpool, hoffset⟩ := Block.lease?_eq_some hlease
  obtain ⟨-, hle, hslack⟩ := (h.laid.fit b hb).loan _ _ hloan
  refine ⟨⟨hpool, hoffset⟩, ?_, hle, hslack⟩
  simp only [Block.kind_toRun, Block.kind, hloan]

/-- **Accounts in order show in the records.** -/
theorem World.Kept.shows {w : World} {pool : Nat} (h : w.Kept pool) :
    ∃ runs free, w.Shows pool runs free := by
  obtain ⟨p, haccounts⟩ := h
  have hplan : Represents w.arena p := haccounts.plan
  have hcells : w.arena.cells = w.store.cells pool := by
    obtain ⟨firstFree, -, harena⟩ := haccounts.arena_eq
    exact congrArg Arena.cells harena
  have hlisted : (p.free.map (Block.toRun w.arena.cells)).Perm
      ((p.blocks.map (Block.toRun w.arena.cells)).filter fun r => r.kind = .free) := by
    rw [hplan.filter_free]
    exact hplan.listed.map _
  refine ⟨_, _, hplan.runs_eq, ?_, ?_, hplan.freeRuns_eq, hplan.linked.leads, hlisted,
    hlisted.nodup_iff.2 (hplan.nodup_runs.filter _), p.pairs pool w.arena.cells, ?_, ?_,
    fun x hx => hplan.lends hx⟩
  · have hsum := hplan.laid.tiles.sum_eq
    rw [Nat.zero_add, hcells] at hsum
    rw [List.foldr_map, Store.size, ← hsum]
    rfl
  · intro r hr
    obtain ⟨b, hb, rfl⟩ := List.mem_map.1 hr
    exact hplan.recorded hcells hb
  · rw [Plan.map_fst_pairs, hplan.filter_lent]
  · rw [Plan.map_snd_pairs]
    exact haccounts.ledger.symm

/-- **The records after any history.** Over any pool of a lawful size, with any contents, an
allocator can be opened, and whatever its clients do from then on: the runs tile the pool, each has
both of its records, the free list leads through the runs marked free, each once, and the other
runs are paired with the windows held, each of which starts right behind the head of its run. -/
theorem records_after_any_history {store : Store} {pool : Nat}
    (hmin : minimumRunCells ≤ store.size pool) (hmax : store.size pool ≤ maximumPoolCells) :
    ∃ st, Allocator.ofPool store pool = .ok st ∧ ∀ actions : List Action,
      ∃ runs free, ((World.opened st).run actions).Shows pool runs free := by
  obtain ⟨st, hst, hkept⟩ := World.exists_opened hmin hmax
  exact ⟨st, hst, fun actions => (World.run_kept hkept actions).shows⟩

/-- A pool of ten cells is large enough. -/
theorem records_after_any_history_ten :
    (minimumRunCells ≤ (Store.mk #[Array.replicate 10 Cell.zero]).size 0 ∧
      (Store.mk #[Array.replicate 10 Cell.zero]).size 0 ≤ maximumPoolCells) ∧
    ∃ st, Allocator.ofPool ⟨#[Array.replicate 10 Cell.zero]⟩ 0 = .ok st ∧
      ∀ actions : List Action,
        ∃ runs free, ((World.opened st).run actions).Shows 0 runs free :=
  ⟨by decide, records_after_any_history (by decide) (by decide)⟩

/-! ## What is held is left alone -/

/-- No window that is lent has a record, or a cell of a free run. -/
theorem Lent.exists_runs {pool : Nat} {live : List Lease} {st : Allocator × Store}
    (h : Lent pool live st) : ∃ runs, (st.1.arena st.2).runs = some runs ∧
      ∀ r ∈ runs, ∀ l ∈ live, ∀ i,
        i = r.head ∨ i = r.tail ∨ (r.kind = .free ∧ r.head ≤ i ∧ i < r.stop) →
          ¬ l.window.Has pool i := by
  obtain ⟨p, haccounts⟩ := h
  refine ⟨_, haccounts.plan.runs_eq, fun r hr l hl i hi => ?_⟩
  obtain ⟨b, hb, rfl⟩ := List.mem_map.1 hr
  rcases hi with hi | hi | ⟨hkind, hlow, hhigh⟩
  · exact haccounts.not_has_record hl hb (.inl hi)
  · exact haccounts.not_has_record hl hb (.inr hi)
  · have hfree : b.isFree = true := (haccounts.plan.laid.fit b hb).isFree_iff.2 hkind
    intro hhas
    refine haccounts.not_spans hl hb ?_ hhas ⟨hlow, hhigh⟩
    rw [Block.lease?_of_isFree pool hfree]
    exact nofun

namespace World

variable {pool : Nat} {w : World}

/-- The worlds that a pool of a lawful size can come to, whatever its clients do. -/
def Reachable (pool : Nat) (w : World) : Prop :=
  ∃ (store : Store) (st : Allocator × Store) (actions : List Action),
    (minimumRunCells ≤ store.size pool ∧ store.size pool ≤ maximumPoolCells) ∧
      Allocator.ofPool store pool = .ok st ∧ w = (opened st).run actions

theorem Reachable.kept (h : w.Reachable pool) : w.Kept pool := by
  obtain ⟨store, st, actions, ⟨hmin, hmax⟩, hst, rfl⟩ := h
  obtain ⟨st', hst', hkept⟩ := exists_opened hmin hmax
  obtain rfl : st' = st := Except.ok.inj (hst'.symm.trans hst)
  exact run_kept hkept actions

/-- A history of one pool that ends in a world with some property, found by running it. -/
theorem exists_reachable (pool : Nat) (store : Store) (actions : List Action) {P : World → Prop}
    [DecidablePred P]
    (hsize : minimumRunCells ≤ store.size pool ∧ store.size pool ≤ maximumPoolCells)
    (hrun : ((Allocator.ofPool store pool).toOption.any fun st =>
      decide (P ((opened st).run actions))) = true) : ∃ w : World, w.Reachable pool ∧ P w := by
  obtain ⟨st, hst, -⟩ := exists_opened hsize.1 hsize.2
  rw [hst] at hrun
  exact ⟨_, ⟨store, st, actions, hsize, hst, rfl⟩, of_decide_eq_true hrun⟩

/-- Nobody's cells are changed by somebody else. -/
structure Undisturbed (pool : Nat) (w : World) : Prop where
  /-- A request leaves every window held as it is, served or not. -/
  obtained : ∀ size kind, ∀ l ∈ w.live,
    (w.act (.obtain size kind)).store.read l.window = w.store.read l.window
  /-- A window that is lent has no cell of another one and no record. -/
  fresh : ∀ size kind window st, (Allocator.obtain size kind).run w.state = .ok window st →
    (∀ l ∈ w.live, ∀ q i, window.Has q i → ¬ l.window.Has q i) ∧
      ∃ runs, (st.1.arena st.2).runs = some runs ∧
        ∀ r ∈ runs, ¬ window.Has pool r.head ∧ ¬ window.Has pool r.tail
  /-- A window that is given back leaves the others as they are. -/
  givenBack : ∀ l ∈ w.live, ∀ l' ∈ w.live, l' ≠ l →
    (w.act (.giveBack l)).store.read l'.window = w.store.read l'.window
  /-- A write through a window changes no other window and no record. -/
  edited : ∀ l ∈ w.live, ∀ e,
    (∀ l' ∈ w.live, l' ≠ l →
      (w.act (.edit l e)).store.read l'.window = w.store.read l'.window) ∧
    (w.act (.edit l e)).arena.firstFree = w.arena.firstFree ∧
      ∃ runs, w.arena.runs = some runs ∧ ∀ r ∈ runs,
        (w.act (.edit l e)).store.peek pool r.head = w.store.peek pool r.head ∧
          (w.act (.edit l e)).store.peek pool r.tail = w.store.peek pool r.tail

theorem Kept.apart (h : w.Kept pool) {l l' : Lease} (hl : l ∈ w.live) (hl' : l' ∈ w.live)
    (hne : l ≠ l') {q i : Nat} (hi : l.window.Has q i) : ¬ l'.window.Has q i := by
  obtain ⟨p, haccounts⟩ := h
  exact haccounts.apart hl hl' hne hi

theorem Kept.nodup (h : w.Kept pool) : w.live.Nodup := by
  obtain ⟨p, haccounts⟩ := h
  exact haccounts.nodup

end World

/-- **What is held is left alone.** In every world that a pool can come to, requests and returns
keep the cells of all other windows held, a new window has none of their cells and no record, and
a write through a window held changes no record and no other window. -/
theorem held_windows_untouched {pool : Nat} {w : World} (h : w.Reachable pool) :
    w.Undisturbed pool := by
  have hkept := h.kept
  refine ⟨fun size kind l hl => ?_, fun size kind window st hrun => ?_, fun l hl l' hl' hne => ?_,
    fun l hl e => ?_⟩
  · rcases World.act_obtain hkept size kind with ⟨window, -, -, -, hspares⟩ | ⟨e, -, hsame⟩
    · exact (hspares l hl).read_eq
    · rw [hsame]
  · rcases World.act_obtain hkept size kind with ⟨window', hlive, hrun', hkept', -⟩ | ⟨e, hrun', -⟩
    · obtain ⟨rfl, rfl⟩ := EStateM.Result.ok.inj (hrun.symm.trans hrun')
      have hmem : ∀ l ∈ ⟨window, kind⟩ :: w.live, l ∈ (w.act (.obtain size kind)).live := by
        rw [hlive]
        exact fun l hl => hl
      have hnew : ⟨window, kind⟩ ∉ w.live := by
        have hnodup := hkept'.nodup
        rw [hlive] at hnodup
        exact (List.nodup_cons.1 hnodup).1
      refine ⟨fun l hl q i hi => ?_, ?_⟩
      · refine hkept'.apart (hmem _ List.mem_cons_self) (hmem l (List.mem_cons_of_mem _ hl)) ?_ hi
        rintro rfl
        exact hnew hl
      · obtain ⟨runs, hruns, hout⟩ := Lent.exists_runs hkept'
        have hnot := fun r hr => hout r hr _ (hmem _ List.mem_cons_self)
        exact ⟨runs, hruns, fun r hr => ⟨hnot r hr _ (.inl rfl), hnot r hr _ (.inr (.inl rfl))⟩⟩
    · rw [hrun'] at hrun
      cases hrun
  · obtain ⟨-, -, hspares⟩ := World.act_giveBack hkept hl
    exact (hspares l' ((List.mem_erase_of_ne hne).2 hl')).read_eq
  · obtain ⟨-, -, hspares⟩ := World.act_edit hkept hl e
    obtain ⟨runs, hruns, hout⟩ := Lent.exists_runs hkept
    have ht := e.touches w.store l.window
    refine ⟨fun l' hl' hne => ?_, ?_, runs, hruns, fun r hr => ?_⟩
    · exact (hspares l' ((List.mem_erase_of_ne hne).2 hl')).read_eq
    · rw [World.act, if_pos hl]
      exact firstFree_arena ..
    · rw [World.act, if_pos hl]
      exact ⟨ht.keep pool _ (hout r hr l hl _ (.inl rfl)),
        ht.keep pool _ (hout r hr l hl _ (.inr (.inl rfl)))⟩

/-- Twenty cells, of which three windows were lent and the middle one was given back. -/
theorem held_windows_untouched_twenty : ∃ w : World,
    w.Reachable 0 ∧ w.live.map (fun l => (l.window.offset, l.window.length, l.kind)) =
      [(8, 3, .stack), (1, 2, .heap)] ∧ w.Undisturbed 0 := by
  let store : Store := ⟨#[Array.replicate 20 Cell.zero]⟩
  let actions : List Action :=
    [.obtain 16 .heap, .obtain 8 .global, .obtain 24 .stack, .giveBack ⟨⟨0, 5, 1⟩, .global⟩]
  have hsize : minimumRunCells ≤ store.size 0 ∧ store.size 0 ≤ maximumPoolCells := by decide
  obtain ⟨st, hst, -⟩ := World.exists_opened hsize.1 hsize.2
  have hlive : (Allocator.ofPool store 0).toOption.map (fun st =>
      ((World.opened st).run actions).live.map fun l =>
        (l.window.offset, l.window.length, l.kind)) =
      some [(8, 3, .stack), (1, 2, .heap)] := by
    decide +kernel
  rw [hst] at hlive
  have hreach : ((World.opened st).run actions).Reachable 0 := ⟨store, st, actions, hsize, hst, rfl⟩
  exact ⟨_, hreach, Option.some.inj hlive, held_windows_untouched hreach⟩

end CellMachine.Allocator
