import CellMachine.Allocator.Basic
import CellMachine.Proofs.Allocator.Returning

/-!
# Leases

The windows of a shared pool that were lent and not given back, as a ledger beside the allocator.
`Accounts pool live st p` ties the three together: the records in the pool are those of the plan
`p`, and the ledger `live` lists what the lent blocks of `p` lend.

* `Accounts.obtain_cases`: a request is served from a pick of the plan, or it is refused and nothing
  changes; the allocator never crashes;
* `Accounts.giveBack_block`: a lent block can be given back;
* `Accounts.obtain_run`, `Accounts.giveBack_run`: the same in words of the ledger alone;
* `Accounts.congr`: whoever writes only inside leased windows breaks nothing;
* `Accounts.apart`, `Accounts.not_has_record`: leased windows share no cells, neither with each
  other nor with the records.

`Supply` is what of this does not speak of records: all that the users of windows rely on.
-/

namespace CellMachine.Allocator

/-- A window that was lent, with the kind it was asked for. -/
structure Lease where
  window : Window
  kind : Kind
  deriving DecidableEq, Repr

/-- What a block lends. -/
def Block.lease? (pool : Nat) (b : Block) : Option Lease :=
  b.loan.map fun loan => ⟨⟨pool, b.head + 1, loan.2⟩, loan.1⟩

/-- What the blocks of a plan lend, in address order. -/
def Plan.leases (pool : Nat) (p : Plan) : List Lease := p.blocks.filterMap (Block.lease? pool)

/-- A shared pool whose records are those of a plan, with a ledger of what is lent. -/
structure Accounts (pool : Nat) (live : List Lease) (st : Allocator × Store) (p : Plan) :
    Prop where
  shared : ∃ firstFree, st.1 = .shared pool firstFree
  known : pool < st.2.pools.size
  plan : Represents (st.1.arena st.2) p
  ledger : live.Perm (p.leases pool)

/-- The leased windows keep their cells. -/
def Spares (live : List Lease) (s s' : Store) : Prop := ∀ l ∈ live, Store.Agree l.window s s'

namespace Spares

variable {live live' : List Lease} {s s' s'' : Store}

theorem refl (live : List Lease) (s : Store) : Spares live s s := fun _ _ => .refl _ s

theorem trans (h : Spares live s s') (h' : Spares live s' s'') : Spares live s s'' :=
  fun l hl => (h l hl).trans (h' l hl)

theorem mono (h : Spares live s s') (hsub : live' ⊆ live) : Spares live' s s' :=
  fun l hl => h l (hsub hl)

end Spares

/-- A pool keeps its size and the cells that count. -/
structure Keeps (pool : Nat) (counts : Nat → Prop) (s s' : Store) : Prop where
  size : (s'.cells pool).size = (s.cells pool).size
  cells : ∀ i, counts i → s'.peek pool i = s.peek pool i

/-! ## The ledger of a plan -/

theorem Block.lease?_eq_some {pool : Nat} {b : Block} {l : Lease} (h : b.lease? pool = some l) :
    b.loan = some (l.kind, l.window.length) ∧ l.window.pool = pool ∧
      l.window.offset = b.head + 1 := by
  unfold Block.lease? at h
  obtain ⟨loan, hloan, rfl⟩ := Option.map_eq_some_iff.1 h
  exact ⟨hloan, rfl, rfl⟩

theorem Block.lease?_of_isFree {b : Block} (pool : Nat) (h : b.isFree = true) :
    b.lease? pool = none := by
  simp only [isFree, Option.isNone_iff_eq_none] at h
  simp [lease?, h]

theorem Block.isFree_eq_false_iff (pool : Nat) {b : Block} :
    b.isFree = false ↔ ∃ l, b.lease? pool = some l := by
  unfold Block.isFree Block.lease?
  cases b.loan <;> simp

theorem Plan.leases_lend {a : Arena} {p : Plan} (h : Represents a p) {count : Nat}
    (pick : Pick p count) (pool : Nat) (kind : Kind) :
    ((p.lend pick kind).leases pool).Perm
      (⟨⟨pool, pick.block.head + 1, count⟩, kind⟩ :: p.leases pool) := by
  have hblock : pick.block.lease? pool = none :=
    Block.lease?_of_isFree pool (h.mem_of_free pick.mem_free).2
  have hlend : (pick.block.lend count kind).lease? pool =
      some ⟨⟨pool, pick.block.head + 1, count⟩, kind⟩ := rfl
  have hrest : (pick.block.rest count).filterMap (Block.lease? pool) = [] :=
    List.filterMap_eq_nil_iff.2 fun b hb =>
      Block.lease?_of_isFree pool (Block.isFree_of_mem_rest hb)
  unfold Plan.leases
  rw [pick.blocks_eq]
  simp only [Plan.lend, List.filterMap_append, List.filterMap_cons, hblock, hlend, hrest,
    List.append_assoc, List.singleton_append]
  exact List.perm_middle

theorem Plan.Returns.leases {p p' : Plan} {b : Block} (h : p.Returns b p') {pool : Nat} {l : Lease}
    (hb : b.lease? pool = some l) : (p.leases pool).Perm (l :: p'.leases pool) := by
  cases h with
  | @merged pre post earlier later q hblocks hq hfree =>
    have hlease : q.lease? pool = none := Block.lease?_of_isFree pool hq
    have hmerge : (q.merge b).lease? pool = none := rfl
    unfold Plan.leases
    rw [hblocks]
    simp only [List.filterMap_append, List.filterMap_cons, List.filterMap_nil, hlease, hmerge, hb,
      List.append_assoc, List.singleton_append]
    exact List.perm_middle
  | @appended pre post hblocks hlast =>
    have hfreed : b.freed.lease? pool = none := rfl
    unfold Plan.leases
    rw [hblocks]
    simp only [List.filterMap_append, List.filterMap_cons, hfreed, hb, List.append_assoc,
      List.singleton_append]
    exact List.perm_middle

/-! ## Windows and blocks -/

namespace Accounts

variable {pool : Nat} {live : List Lease} {st st' : Allocator × Store} {p : Plan} {l l' : Lease}

theorem exists_block (h : Accounts pool live st p) (hl : l ∈ live) :
    ∃ b ∈ p.blocks, b.lease? pool = some l :=
  List.mem_filterMap.1 (h.ledger.subset hl)

theorem exists_lease (h : Accounts pool live st p) {b : Block} (hb : b ∈ p.blocks)
    (hlent : b.isFree = false) : ∃ l ∈ live, b.lease? pool = some l := by
  obtain ⟨l, hlease⟩ := (Block.isFree_eq_false_iff pool).1 hlent
  exact ⟨l, h.ledger.symm.subset (List.mem_filterMap.2 ⟨b, hb, hlease⟩), hlease⟩

/-- Two lent blocks that lend the same window are the same block. -/
theorem block_unique (h : Accounts pool live st p) {b c : Block} (hb : b ∈ p.blocks)
    (hc : c ∈ p.blocks) (hlease : b.lease? pool = some l) (hlease' : c.lease? pool = some l) :
    b = c := by
  obtain ⟨-, -, hoffset⟩ := Block.lease?_eq_some hlease
  obtain ⟨-, -, hoffset'⟩ := Block.lease?_eq_some hlease'
  exact h.plan.laid.tiles.eq_of_head hb hc (by omega)

theorem pool_eq (h : Accounts pool live st p) (hl : l ∈ live) : l.window.pool = pool := by
  obtain ⟨b, -, hlease⟩ := h.exists_block hl
  exact (Block.lease?_eq_some hlease).2.1

/-- The cells of a lease are those between the records of its block. -/
theorem between (h : Accounts pool live st p) {b : Block} (hb : b ∈ p.blocks)
    (hlease : b.lease? pool = some l) {q i : Nat} (hi : l.window.Has q i) :
    b.head < i ∧ i < b.tail := by
  obtain ⟨hloan, -, hoffset⟩ := Block.lease?_eq_some hlease
  have hle := ((h.plan.laid.fit b hb).loan _ _ hloan).2.1
  obtain ⟨-, hlow, hhigh⟩ := hi
  simp only [Block.tail]
  omega

theorem arena_eq (h : Accounts pool live st p) :
    ∃ firstFree, st.1 = .shared pool firstFree ∧
      st.1.arena st.2 = ⟨st.2.cells pool, firstFree⟩ := by
  obtain ⟨firstFree, hshared⟩ := h.shared
  refine ⟨firstFree, hshared, ?_⟩
  rw [hshared]
  rfl

/-- The plan is that of the cells of the pool. -/
theorem represents (h : Accounts pool live st p) :
    ∃ firstFree, st.1 = .shared pool firstFree ∧
      st.1.arena st.2 = ⟨st.2.cells pool, firstFree⟩ ∧
      Represents ⟨st.2.cells pool, firstFree⟩ p := by
  obtain ⟨firstFree, hshared, harena⟩ := h.arena_eq
  exact ⟨firstFree, hshared, harena, harena ▸ h.plan⟩

/-- **Two leases share no cell.** -/
theorem apart (h : Accounts pool live st p) (hl : l ∈ live) (hl' : l' ∈ live) (hne : l ≠ l')
    {q i : Nat} (hi : l.window.Has q i) : ¬ l'.window.Has q i := by
  intro hi'
  obtain ⟨b, hb, hlease⟩ := h.exists_block hl
  obtain ⟨b', hb', hlease'⟩ := h.exists_block hl'
  have hin := h.between hb hlease hi
  have hin' := h.between hb' hlease' hi'
  have hblock : b ≠ b' := by
    rintro rfl
    exact hne (Option.some.inj (hlease.symm.trans hlease'))
  refine h.plan.laid.tiles.apart hb hb' hblock (i := i) ?_ ?_
  · simp only [Block.Spans, Block.stop, Block.tail] at hin ⊢
    omega
  · simp only [Block.Spans, Block.stop, Block.tail] at hin' ⊢
    omega

theorem not_spans (h : Accounts pool live st p) (hl : l ∈ live) {c : Block} (hc : c ∈ p.blocks)
    (hlease : c.lease? pool ≠ some l) {q i : Nat} (hi : l.window.Has q i) : ¬ c.Spans i := by
  obtain ⟨b, hb, hb'⟩ := h.exists_block hl
  have hin := h.between hb hb' hi
  have hne : b ≠ c := by
    rintro rfl
    exact hlease hb'
  refine h.plan.laid.tiles.apart hb hc hne ?_
  simp only [Block.Spans, Block.stop, Block.tail] at hin ⊢
  omega

/-- **A lease has no record among its cells.** -/
theorem not_has_record (h : Accounts pool live st p) (hl : l ∈ live) {c : Block}
    (hc : c ∈ p.blocks) {q i : Nat} (hi : i = c.head ∨ i = c.tail) : ¬ l.window.Has q i := by
  intro hhas
  by_cases hlease : c.lease? pool = some l
  · have hin := h.between hc hlease hhas
    omega
  · refine h.not_spans hl hc hlease hhas ?_
    rcases hi with rfl | rfl
    · exact c.spans_head
    · exact c.spans_tail

/-- No window is lent twice: the blocks behind two leases start at different places. -/
theorem nodup (h : Accounts pool live st p) : live.Nodup := by
  refine h.ledger.nodup_iff.2 (h.plan.laid.tiles.pairwise.filterMap _ ?_)
  rintro b c hbc l hb l' hc rfl
  have hoffset := (Block.lease?_eq_some hb).2.2
  have hoffset' := (Block.lease?_eq_some hc).2.2
  simp only [Block.stop] at hbc
  omega

/-! ## Writes by those who lease -/

/-- **Whoever writes only inside leased windows breaks nothing**: all records are where and what
they were. -/
theorem congr (h : Accounts pool live st p) {s : Store} (hpools : s.pools.size = st.2.pools.size)
    (hsize : (s.cells pool).size = (st.2.cells pool).size)
    (hkeep : ∀ i, (∀ l ∈ live, ¬ l.window.Has pool i) → s.peek pool i = st.2.peek pool i) :
    Accounts pool live (st.1, s) p := by
  obtain ⟨firstFree, hshared, -, hplan⟩ := h.represents
  have hrecord : ∀ b ∈ p.blocks, ∀ i, i = b.head ∨ i = b.tail →
      look (s.cells pool) i = look (st.2.cells pool) i := fun b hb i hi =>
    hkeep i fun l hl => h.not_has_record hl hb hi
  refine ⟨⟨firstFree, hshared⟩, hpools ▸ h.known, ?_, h.ledger⟩
  rw [hshared]
  refine ⟨hplan.laid.congr hsize (fun b hb => hrecord b hb _ (.inl rfl))
    (fun b hb => hrecord b hb _ (.inr rfl)), hplan.linked.congr fun b hb => ?_, hplan.listed⟩
  exact hrecord b (hplan.mem_of_free hb).1 _ (.inr rfl)

theorem touch (h : Accounts pool live st p) (hl : l ∈ live) {s : Store}
    (ht : Store.Touches l.window st.2 s) : Accounts pool live (st.1, s) p :=
  h.congr ht.pools (ht.size pool) fun i hi => ht.keep pool i (hi l hl)

theorem spares_touch (h : Accounts pool live st p) (hl : l ∈ live) {s : Store}
    (ht : Store.Touches l.window st.2 s) : Spares (live.erase l) st.2 s := by
  intro l' hl'
  obtain ⟨hne, hl'⟩ := (h.nodup.mem_erase_iff).1 hl'
  exact ht.agree fun q i hi => h.apart hl' hl hne hi

theorem within (h : Accounts pool live st p) (hl : l ∈ live) : l.window.Within st.2 := by
  obtain ⟨firstFree, -, -, hplan⟩ := h.represents
  obtain ⟨b, hb, hlease⟩ := h.exists_block hl
  obtain ⟨hloan, hpool, hoffset⟩ := Block.lease?_eq_some hlease
  have hle := ((hplan.laid.fit b hb).loan _ _ hloan).2.1
  have hin := hplan.laid.stop_le hb
  unfold Window.Within
  rw [hpool, hoffset]
  simp only [Block.stop] at hin
  omega

end Accounts

/-! ## Work on a shared pool -/

theorem firstFree_arena (allocator : Allocator) (s s' : Store) :
    (allocator.arena s).firstFree = (allocator.arena s').firstFree := by
  cases allocator <;> rfl

section
variable {α : Type} {pool : Nat} {firstFree : Int} {st : Allocator × Store} {work : ArenaM α}
  {a : Arena}

theorem inArena_run_ok {r : α} (h : work.run ⟨st.2.cells pool, firstFree⟩ = .ok r a) :
    (inArena pool firstFree work).run st =
      .ok r (.shared pool a.firstFree, st.2.put pool a.cells) := by
  have h' : work ⟨st.2.cells pool, firstFree⟩ = .ok r a := h
  have hput := st.2.put_take pool a.cells
  simp only [Store.take] at hput
  simp only [EStateM.run, inArena, Store.take, h', hput]

theorem inArena_run_congr {work' : ArenaM α}
    (h : work.run ⟨st.2.cells pool, firstFree⟩ = work'.run ⟨st.2.cells pool, firstFree⟩) :
    (inArena pool firstFree work).run st = (inArena pool firstFree work').run st := by
  have h' : work ⟨st.2.cells pool, firstFree⟩ = work' ⟨st.2.cells pool, firstFree⟩ := h
  simp only [EStateM.run, inArena, Store.take, h']

theorem inArena_run_eq_error {e : Fault} {st' : Allocator × Store}
    (h : (inArena pool firstFree work).run st = .error e st') :
    ∃ a', work.run ⟨st.2.cells pool, firstFree⟩ = .error e a' := by
  match hwork : work.run ⟨st.2.cells pool, firstFree⟩ with
  | .ok r a' =>
    rw [inArena_run_ok hwork] at h
    cases h
  | .error e' a' =>
    have h' : work ⟨st.2.cells pool, firstFree⟩ = .error e' a' := hwork
    simp only [EStateM.run, inArena, Store.take, h'] at h
    cases h
    exact ⟨a', rfl⟩

theorem inArena_run_error {e : Fault} (hshared : st.1 = .shared pool firstFree)
    (h : work.run ⟨st.2.cells pool, firstFree⟩ = .error e ⟨st.2.cells pool, firstFree⟩) :
    (inArena pool firstFree work).run st = .error e st := by
  have h' : work ⟨st.2.cells pool, firstFree⟩ = .error e ⟨st.2.cells pool, firstFree⟩ := h
  have hput : (st.2.take pool).2.put pool (st.2.cells pool) = st.2 := by
    rw [Store.put_take, Store.put_cells]
  simp only [Store.take] at hput
  simp only [EStateM.run, inArena, Store.take, h', hput, ← hshared]

end

namespace Accounts

variable {pool : Nat} {live : List Lease} {st : Allocator × Store} {p : Plan}

theorem put (h : Accounts pool live st p) {live' : List Lease} {a : Arena} {p' : Plan}
    (hplan : Represents a p') (hledger : live'.Perm (p'.leases pool)) :
    Accounts pool live' (.shared pool a.firstFree, st.2.put pool a.cells) p' := by
  refine ⟨⟨_, rfl⟩, by simpa using h.known, ?_, hledger⟩
  show Represents ⟨(st.2.put pool a.cells).cells pool, a.firstFree⟩ p'
  rw [Store.cells_put_self _ h.known]
  exact hplan

theorem spares_put (h : Accounts pool live st p) {live' : List Lease} {a : Arena}
    (hsub : live' ⊆ live) (hsize : a.cells.size = (st.2.cells pool).size)
    (hkeep : ∀ l ∈ live', ∀ i, l.window.Has pool i →
      look a.cells i = look (st.2.cells pool) i) :
    Spares live' st.2 (st.2.put pool a.cells) := by
  intro l hl
  have hpool := h.pool_eq (hsub hl)
  refine ⟨?_, fun i hi => ?_⟩
  · rw [hpool, Store.cells_put_self _ h.known, hsize]
  · rw [hpool] at hi ⊢
    rw [Store.peek_eq_look, Store.peek_eq_look, Store.cells_put_self _ h.known]
    exact hkeep l hl i hi

theorem keeps_put (h : Accounts pool live st p) {counts : Nat → Prop} {a : Arena}
    (hsize : a.cells.size = (st.2.cells pool).size)
    (hkeep : ∀ i, counts i → look a.cells i = look (st.2.cells pool) i) :
    Keeps pool counts st.2 (st.2.put pool a.cells) := by
  refine ⟨?_, fun i hi => ?_⟩
  · rw [Store.cells_put_self _ h.known, hsize]
  · rw [Store.peek_eq_look, Store.peek_eq_look, Store.cells_put_self _ h.known, hkeep i hi]

theorem obtain_run_eq {firstFree : Int} (hshared : st.1 = .shared pool firstFree) (size : Int)
    (kind : Kind) :
    (Allocator.obtain size kind).run st =
      (inArena pool firstFree (allocate size kind) >>= fun r =>
        (pure ⟨pool, r.1, r.2⟩ : AllocM Window)).run st := by
  unfold Allocator.obtain
  rw [run_bind_ok (EStateM.run_get st), hshared]

theorem giveBack_run_eq {firstFree : Int} (hshared : st.1 = .shared pool firstFree) {v : Window}
    (hpool : v.pool = pool) :
    (giveBack v).run st = (inArena pool firstFree (release v.offset v.length)).run st := by
  unfold giveBack
  rw [run_bind_ok (EStateM.run_get st), hshared]
  dsimp only
  rw [if_pos hpool]

/-- **With a pick, a request is served**: the plan becomes the one in which the pick is lent, and
only cells of free blocks were written. -/
theorem obtain_pick (h : Accounts pool live st p) {size : Int} {kind : Kind} {count : Nat}
    (hreq : requestedCells size kind = .ok count) (pick : Pick p count) :
    ∃ st', (Allocator.obtain size kind).run st = .ok ⟨pool, pick.block.head + 1, count⟩ st' ∧
      Accounts pool (⟨⟨pool, pick.block.head + 1, count⟩, kind⟩ :: live) st' (p.lend pick kind) ∧
      Keeps pool (fun i => ∀ b ∈ p.blocks, b.isFree = true → ¬ b.Spans i) st.2 st'.2 ∧
      Spares live st.2 st'.2 := by
  obtain ⟨firstFree, hshared, -, hplan⟩ := h.represents
  obtain ⟨a', halloc, hplan', hsize, hkeep⟩ := allocate_run_pick hplan hreq pick
  rw [obtain_run_eq hshared]
  refine ⟨_, run_bind_ok (inArena_run_ok halloc) _, h.put hplan' ?_, h.keeps_put hsize hkeep,
    h.spares_put (List.Subset.refl _) hsize ?_⟩
  · exact (h.ledger.cons _).trans (Plan.leases_lend hplan pick pool kind).symm
  · -- the leases lie in lent blocks
    intro l hl i hi
    refine hkeep i fun b hb hfree => h.not_spans hl hb ?_ hi
    rw [Block.lease?_of_isFree pool hfree]
    exact nofun

/-- Without a pick, a request is refused for want of memory, and nothing changes. -/
theorem obtain_outOfMemory (h : Accounts pool live st p) {size : Int} {kind : Kind} {count : Nat}
    (hreq : requestedCells size kind = .ok count) (hsmall : ∀ b ∈ p.free, b.count < count) :
    (Allocator.obtain size kind).run st = .error (.error (.outOfMemory count)) st := by
  obtain ⟨firstFree, hshared, -, hplan⟩ := h.represents
  have halloc := allocate_run_outOfMemory hplan hreq hsmall
  rw [obtain_run_eq hshared]
  exact run_bind_error (inArena_run_error hshared halloc) _

theorem obtain_refused (h : Accounts pool live st p) {size : Int} {kind : Kind} {e : Error}
    (hreq : requestedCells size kind = .error e) :
    (Allocator.obtain size kind).run st = .error (.error e) st := by
  obtain ⟨firstFree, hshared, -⟩ := h.arena_eq
  rw [obtain_run_eq hshared]
  exact run_bind_error (inArena_run_error hshared (allocate_run_refused hreq)) _

/-- A request is served from a pick, or it is refused and nothing changes. -/
theorem obtain_cases (h : Accounts pool live st p) (size : Int) (kind : Kind) :
    (∃ count, ∃ pick : Pick p count, ∃ st', requestedCells size kind = .ok count ∧
      (Allocator.obtain size kind).run st = .ok ⟨pool, pick.block.head + 1, count⟩ st' ∧
      Accounts pool (⟨⟨pool, pick.block.head + 1, count⟩, kind⟩ :: live) st' (p.lend pick kind) ∧
      Keeps pool (fun i => ∀ b ∈ p.blocks, b.isFree = true → ¬ b.Spans i) st.2 st'.2 ∧
      Spares live st.2 st'.2) ∨
    ∃ e, (Allocator.obtain size kind).run st = .error (.error e) st := by
  match hreq : requestedCells size kind with
  | .error e => exact .inr ⟨e, h.obtain_refused hreq⟩
  | .ok count =>
    rcases h.plan.pick_or_small count with ⟨⟨pick⟩⟩ | hsmall
    · obtain ⟨st', hserved⟩ := h.obtain_pick hreq pick
      exact .inl ⟨count, pick, st', rfl, hserved⟩
    · exact .inr ⟨_, h.obtain_outOfMemory hreq hsmall⟩

/-- **A request is served or refused.** When it is served, the window enters the ledger and the
windows that were in it keep their cells; when it is refused, nothing changes. -/
theorem obtain_run (h : Accounts pool live st p) (size : Int) (kind : Kind) :
    (∃ w st' p', (Allocator.obtain size kind).run st = .ok w st' ∧
      requestedCells size kind = .ok w.length ∧ Accounts pool (⟨w, kind⟩ :: live) st' p' ∧
      Spares live st.2 st'.2) ∨
    ∃ e, (Allocator.obtain size kind).run st = .error (.error e) st := by
  rcases h.obtain_cases size kind with
    ⟨count, pick, st', hreq, hrun, hnew, -, hspares⟩ | hrefused
  · exact .inl ⟨_, st', _, hrun, hreq, hnew, hspares⟩
  · exact .inr hrefused

/-- **A lent block can be given back**: the plan becomes one in which it was, only records of free
blocks and of the block itself were written, and the block's own head record is marked free. -/
theorem giveBack_released (h : Accounts pool live st p) {b : Block} {l : Lease} (hb : b ∈ p.blocks)
    (hlease : b.lease? pool = some l) :
    ∃ st' p', (giveBack l.window).run st = .ok () st' ∧ p.Returns b p' ∧
      Accounts pool (live.erase l) st' p' ∧
      Keeps pool (fun i => ∀ c ∈ p.blocks, c.isFree = true ∨ c = b → ¬ c.Records i) st.2 st'.2 ∧
      (st'.2.peek pool b.head).low = b.count ∧ (st'.2.peek pool b.head).high = Kind.free.code := by
  obtain ⟨firstFree, hshared, -, hplan⟩ := h.represents
  obtain ⟨hloan, hpool, hoffset⟩ := Block.lease?_eq_some hlease
  obtain ⟨a', p', hrelease, hreleased⟩ := release_run hplan hb hloan
  rw [← hoffset] at hrelease
  have hrun := (giveBack_run_eq hshared hpool).trans (inArena_run_ok hrelease)
  refine ⟨_, p', hrun, hreleased.returns,
    h.put hreleased.plan ?_, h.keeps_put hreleased.size hreleased.keep, ?_⟩
  · have hledger := (h.ledger.trans (hreleased.returns.leases hlease)).erase l
    rwa [List.erase_cons_head] at hledger
  · rw [Store.peek_eq_look, Store.cells_put_self _ h.known]
    exact hreleased.struck

/-- A return writes nothing inside the other lent blocks, so that the other leases are spared. -/
theorem giveBack_block (h : Accounts pool live st p) {b : Block} {l : Lease} (hb : b ∈ p.blocks)
    (hlease : b.lease? pool = some l) :
    ∃ st' p', (giveBack l.window).run st = .ok () st' ∧ p.Returns b p' ∧
      Accounts pool (live.erase l) st' p' ∧
      Keeps pool (fun i => ∀ c ∈ p.blocks, c.isFree = true ∨ c = b → ¬ c.Spans i) st.2 st'.2 ∧
      Spares (live.erase l) st.2 st'.2 := by
  obtain ⟨st', p', hrun, hreturns, hnew, hkeeps, -⟩ := h.giveBack_released hb hlease
  have hkept : ∀ i, (∀ c ∈ p.blocks, c.isFree = true ∨ c = b → ¬ c.Spans i) →
      st'.2.peek pool i = st.2.peek pool i := fun i hi =>
    hkeeps.cells i fun c hc hor hr => hi c hc hor hr.spans
  refine ⟨st', p', hrun, hreturns, hnew, ⟨hkeeps.size, hkept⟩, fun l' hl' => ?_⟩
  obtain ⟨hne, hl'⟩ := h.nodup.mem_erase_iff.1 hl'
  have hpool := h.pool_eq hl'
  refine ⟨by rw [hpool]; exact hkeeps.size, fun i hi => ?_⟩
  rw [hpool] at hi ⊢
  refine hkept i fun c hc hor => h.not_spans hl' hc ?_ hi
  rcases hor with hfree | rfl
  · rw [Block.lease?_of_isFree pool hfree]
    exact nofun
  · rw [hlease]
    exact fun he => hne (Option.some.inj he).symm

/-- **What is in the ledger can be given back**, and the other windows in it keep their cells. -/
theorem giveBack_run (h : Accounts pool live st p) {l : Lease} (hl : l ∈ live) :
    ∃ st' p', (giveBack l.window).run st = .ok () st' ∧ Accounts pool (live.erase l) st' p' ∧
      Spares (live.erase l) st.2 st'.2 := by
  obtain ⟨b, hb, hlease⟩ := h.exists_block hl
  obtain ⟨st', p', hrun, -, hnew, -, hspares⟩ := h.giveBack_block hb hlease
  exact ⟨st', p', hrun, hnew, hspares⟩

end Accounts

/-! ## What clients rely on -/

/-- The rules that whoever lends windows keeps to. `I live st` says that `live` are the leases in
the state `st`, in any order. -/
structure Supply (I : List Lease → Allocator × Store → Prop) : Prop where
  perm : ∀ {live live' st}, live.Perm live' → I live st → I live' st
  within : ∀ {live st l}, I live st → l ∈ live → l.window.Within st.2
  apart : ∀ {live st}, I live st →
    live.Pairwise fun l l' => ∀ q i, l.window.Has q i → ¬ l'.window.Has q i
  touch : ∀ {live st l s}, I live st → l ∈ live → Store.Touches l.window st.2 s → I live (st.1, s)
  obtained : ∀ {live st}, I live st → ∀ size kind,
    (∃ w st', (Allocator.obtain size kind).run st = .ok w st' ∧
      requestedCells size kind = .ok w.length ∧ I (⟨w, kind⟩ :: live) st' ∧
      Spares live st.2 st'.2) ∨
    ∃ e, (Allocator.obtain size kind).run st = .error (.error e) st
  givenBack : ∀ {l live st}, I (l :: live) st →
    ∃ st', (giveBack l.window).run st = .ok () st' ∧ I live st' ∧ Spares live st.2 st'.2

/-- What can be asked for is refused for want of memory only, and only where memory is `scarce`. -/
def RefusesForWant (scarce : Prop) (I : List Lease → Allocator × Store → Prop) : Prop :=
  ∀ live st, I live st → ∀ size kind n e st', requestedCells size kind = .ok n →
    (Allocator.obtain size kind).run st = .error e st' → e = .error (.outOfMemory n) ∧ scarce

/-- A write through a lease is not seen through the others. -/
theorem Supply.spares_touch {I : List Lease → Allocator × Store → Prop} (hI : Supply I) {l : Lease}
    {live : List Lease} {st : Allocator × Store} {s : Store} (h : I (l :: live) st)
    (ht : Store.Touches l.window st.2 s) : Spares live st.2 s := fun l' hl' =>
  ht.agree fun q i hi hi' => (List.pairwise_cons.1 (hI.apart h)).1 l' hl' q i hi' hi

/-- Whoever keeps to the rules keeps to them with some leases set aside. -/
theorem Supply.alongside {I : List Lease → Allocator × Store → Prop} (hI : Supply I)
    (held : List Lease) :
    Supply fun live st => I (live ++ held) st where
  perm := fun hperm h => hI.perm (hperm.append_right held) h
  within := fun h hl => hI.within h (List.mem_append_left _ hl)
  apart := fun h => (List.pairwise_append.1 (hI.apart h)).1
  touch := fun h hl ht => hI.touch h (List.mem_append_left _ hl) ht
  obtained := fun h size kind => by
    rcases hI.obtained h size kind with ⟨w, st', hrun, hreq, hnew, hspares⟩ | hrefused
    · exact .inl ⟨w, st', hrun, hreq, hnew, hspares.mono (List.subset_append_left ..)⟩
    · exact .inr hrefused
  givenBack := fun h => by
    obtain ⟨st', hrun, hnew, hspares⟩ := hI.givenBack h
    exact ⟨st', hrun, hnew, hspares.mono (List.subset_append_left ..)⟩

/-- The leases on a shared pool. -/
def Lent (pool : Nat) (live : List Lease) (st : Allocator × Store) : Prop :=
  ∃ p, Accounts pool live st p

/-- **A shared pool keeps to the rules.** -/
theorem supply_lent (pool : Nat) : Supply (Lent pool) where
  perm := fun hperm ⟨p, h⟩ => ⟨p, h.shared, h.known, h.plan, hperm.symm.trans h.ledger⟩
  within := fun ⟨_, h⟩ hl => h.within hl
  apart := fun {live st} ⟨p, h⟩ => by
    refine h.nodup.imp_of_mem fun {l l'} hl hl' hne q i hi => ?_
    exact h.apart hl hl' hne hi
  touch := fun ⟨p, h⟩ hl ht => ⟨p, h.touch hl ht⟩
  obtained := fun ⟨p, h⟩ size kind => by
    rcases h.obtain_run size kind with ⟨w, st', p', hrun, hreq, hnew, hspares⟩ | hrefused
    · exact .inl ⟨w, st', hrun, hreq, ⟨p', hnew⟩, hspares⟩
    · exact .inr hrefused
  givenBack := fun {l live st} ⟨p, h⟩ => by
    obtain ⟨st', p', hrun, hnew, hspares⟩ := h.giveBack_run List.mem_cons_self
    rw [List.erase_cons_head] at hnew hspares
    exact ⟨st', hrun, ⟨p', hnew⟩, hspares⟩

theorem refusesForWant_lent (pool : Nat) : RefusesForWant True (Lent pool) := by
  intro live st hlent size kind n e st' hreq hrun
  obtain ⟨p, h⟩ := hlent
  rcases h.plan.pick_or_small n with ⟨⟨pick⟩⟩ | hsmall
  · obtain ⟨st₁, hserved, -⟩ := h.obtain_pick hreq pick
    rw [hserved] at hrun
    cases hrun
  · rw [h.obtain_outOfMemory hreq hsmall] at hrun
    cases hrun
    exact ⟨rfl, trivial⟩

/-! ## A new pool -/

/-- The plan of a pool that is one free block. -/
def Plan.whole (size : Nat) : Plan := ⟨[⟨0, size - 2, none⟩], [⟨0, size - 2, none⟩]⟩

/-- **A pool of a lawful size becomes one free block**, whatever its cells were. -/
theorem ofPool_eq_whole {store : Store} {pool : Nat} (hmin : minimumRunCells ≤ store.size pool)
    (hmax : store.size pool ≤ maximumPoolCells) :
    ∃ st, Allocator.ofPool store pool = .ok st ∧
      Accounts pool [] st (.whole (store.size pool)) ∧ st.2.size pool = store.size pool := by
  unfold Store.size at *
  let b : Block := ⟨0, (store.cells pool).size - 2, none⟩
  have hstop : b.stop = (store.cells pool).size := by
    simp only [minimumRunCells] at hmin
    simp only [b, Block.stop]
    omega
  let cells := inscribeRun (store.cells pool) b.head b.count .free noRun
  have hknown : pool < store.pools.size := by
    refine Nat.lt_of_not_le fun hle => ?_
    simp [Store.cells, Array.getElem?_eq_none hle, minimumRunCells] at hmin
  have hwrite : (writeRun b.head b.count .free noRun).run ⟨store.cells pool, 0⟩ =
      .ok () ⟨cells, 0⟩ :=
    writeRun_run .free noRun (by simp only [b, Block.stop] at hstop ⊢; omega)
  have hcells : Arena.ofCells (store.cells pool) = .ok ⟨cells, 0⟩ := by
    simp only [Arena.ofCells, Nat.not_lt.2 hmin, gt_iff_lt, Nat.not_lt.2 hmax, ↓reduceIte]
    rw [hwrite]
  refine ⟨(.shared pool 0, store.put pool cells), ?_, ⟨⟨0, rfl⟩, by simpa using hknown, ?_,
    List.Perm.refl _⟩, ?_⟩
  · simp only [Allocator.ofPool, hcells]
  · show Represents ⟨(store.put pool cells).cells pool, 0⟩ ⟨[b], [b]⟩
    rw [Store.cells_put_self _ hknown]
    refine ⟨⟨by simpa [cells] using hmax, ?_, ?_, ?_⟩, ⟨rfl, ?_⟩, List.Perm.refl _⟩
    · exact ⟨rfl, hstop.trans (size_inscribeRun ..).symm⟩
    · simp only [List.mem_singleton, forall_eq]
      refine ⟨?_, fun kind length hl => by simp [b] at hl⟩
      simp only [minimumRunCells] at hmin
      simp only [b]
      omega
    · simp only [List.mem_singleton, forall_eq]
      exact marked_inscribeRun _ hmax (Nat.le_of_eq hstop) rfl
    · exact high_tail_inscribeRun _ (Nat.le_of_eq hstop) isHalf_noRun
  · rw [Store.cells_put_self _ hknown]
    exact size_inscribeRun ..

theorem ofPool_bounds {store : Store} {pool : Nat} {st : Allocator × Store}
    (h : Allocator.ofPool store pool = .ok st) :
    minimumRunCells ≤ store.size pool ∧ store.size pool ≤ maximumPoolCells := by
  unfold Allocator.ofPool Arena.ofCells at h
  by_cases hmin : (store.cells pool).size < minimumRunCells
  · rw [if_pos hmin] at h
    cases h
  · by_cases hmax : (store.cells pool).size > maximumPoolCells
    · rw [if_neg hmin, if_pos hmax] at h
      cases h
    · exact ⟨Nat.le_of_not_lt hmin, Nat.le_of_not_lt hmax⟩

theorem ofPool_eq_ok {store : Store} {pool : Nat} (hmin : minimumRunCells ≤ store.size pool)
    (hmax : store.size pool ≤ maximumPoolCells) :
    ∃ st p, Allocator.ofPool store pool = .ok st ∧ Accounts pool [] st p := by
  obtain ⟨st, hst, haccounts, -⟩ := ofPool_eq_whole hmin hmax
  exact ⟨st, _, hst, haccounts⟩

end CellMachine.Allocator
