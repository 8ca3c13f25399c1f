import CellMachine.Proofs.Allocator.Careful
import CellMachine.Proofs.Allocator.Clients

/-!
# No step leaves the pool

In every state that clients can bring a pool to, the allocator can do its work with machine numbers
and with loops that are stopped after as many steps as there are runs to visit: no check of
`Careful` fails.

* `Represents.careful_allocate`, `Represents.careful_release`: lending, and giving back a lent
  block, are the same with checks and without;
* `walks_end_inside_the_pool`: the same for everything the allocator does in a world that can be
  reached, with the walks over its runs.
-/

namespace CellMachine.Allocator

/-! ## What the plan says of the walks -/

section
variable {a : Arena} {p : Plan} {b : Block}

/-- The walk to the end of the list needs no more steps than there are free runs, also when other
blocks have been written. -/
theorem Represents.lastFree_eq (h : Represents a p) {cells : Array Cell}
    (hsize : cells.size = a.cells.size)
    (hhead : ∀ c ∈ p.free, look cells c.head = look a.cells c.head)
    (htail : ∀ c ∈ p.free, look cells c.tail = look a.cells c.tail) :
    a.firstFree = noRun ∨ ∃ last : Run, last.head + 1 + last.count < cells.size ∧
      ∀ n, p.free.length ≤ n → lastFree cells n a.firstFree = some last := by
  have hchain := h.linked.congr htail
  have hin : ∀ c ∈ p.free, c.stop ≤ cells.size := fun c hc =>
    hsize ▸ h.laid.stop_le (h.mem_of_free hc).1
  have hread : ∀ c ∈ p.free, follow? cells c.head = some (c.toRun cells) := fun c hc =>
    ((h.laid.marked c (h.mem_of_free hc).1).congr (hhead c hc) (htail c hc)).follow? (hin c hc)
  rcases List.eq_nil_or_concat p.free with hnil | ⟨l, z, hfree⟩
  · rw [hnil] at hchain
    exact .inl hchain
  · rw [List.concat_eq_append] at hfree
    have hz := hin z (by simp [hfree])
    simp only [Block.stop] at hz
    refine .inr ⟨z.toRun cells, by simp only [Block.head_toRun, Block.count_toRun]; omega,
      fun n hn => ?_⟩
    rw [hfree] at hchain hread hn
    rw [List.length_append, List.length_singleton] at hn
    exact lastFree_concat hchain hread (by omega)

/-! ## The two operations -/

/-- With a pick, lending passes all checks. -/
theorem Represents.careful_allocate_pick (h : Represents a p) {size : Int} {kind : Kind}
    {count : Nat} (hreq : requestedCells size kind = .ok count) (pick : Pick p count) :
    (Careful.allocate p.free.length size kind).run a = (allocate size kind).run a := by
  have hbound := h.laid.bound
  have hin := h.laid.stop_le pick.mem_blocks
  obtain ⟨a', hrun, -, hsize, -⟩ := allocate_run_pick h hreq pick
  obtain ⟨cells, link, hdivide, hdivided⟩ := divide_run count kind hbound hin
  have hwalk := Careful.firstFit_run hbound (h.firstFit_pick pick (Nat.le_refl _))
  have hcareful : (Careful.divide pick.block.head count kind).run a = .ok link { a with cells } :=
    (Careful.divide_run hbound kind (h.laid.readRun? pick.mem_blocks) pick.enough).trans hdivide
  -- what is left of the request is to relink the list
  have hleft := hrun
  rw [allocate_run_eq hreq (h.firstFit_pick pick h.length_free_le), run_bind_ok hdivide] at hleft
  obtain ⟨_, t, hrelink, hpure⟩ := run_bind_eq_ok hleft
  obtain rfl : t = a' := by
    cases hpure
    rfl
  have hrelinked := Careful.relink_run (a := { a with cells }) (hdivided.size ▸ hbound)
    (lastLink_noRun_or_nonneg pick.earlier) hrelink
  have hlent : pick.block.head + 1 + count < t.cells.size := by
    have := pick.enough
    simp only [Block.stop] at hin
    omega
  unfold Careful.allocate
  rw [hrun, hreq, run_bind_ok (EStateM.run_pure count a), run_bind_ok (EStateM.run_get a),
    run_bind_ok hwalk]
  simp only [Block.head_toRun]
  rw [run_bind_ok hcareful, run_bind_ok hrelinked]
  exact Careful.lent_run (hsize ▸ hbound) hlent

/-- **Lending passes all checks**, and a request is refused for the same reasons. -/
theorem Represents.careful_allocate (h : Represents a p) (size : Int) (kind : Kind) :
    (Careful.allocate p.free.length size kind).run a = (allocate size kind).run a := by
  match hreq : requestedCells size kind with
  | .error e =>
    unfold Careful.allocate
    rw [allocate_run_refused hreq, hreq]
    rfl
  | .ok count =>
    rcases h.pick_or_small count with ⟨⟨pick⟩⟩ | hsmall
    · exact h.careful_allocate_pick hreq pick
    · have hwalk := Careful.firstFit_run h.laid.bound (h.firstFit_small hsmall (Nat.le_refl _))
      unfold Careful.allocate
      rw [allocate_run_outOfMemory h hreq hsmall, hreq, run_bind_ok (EStateM.run_pure count a),
        run_bind_ok (EStateM.run_get a), run_bind_ok hwalk]
      rfl

/-- A block that becomes free by itself passes all checks. -/
theorem Represents.careful_free (h : Represents a p) {pre post : List Block}
    (hblocks : p.blocks = pre ++ [b] ++ post) (hbfree : b.isFree = false) :
    (do Careful.writeRun b.head b.count .free noRun
        Careful.append p.free.length b.head : ArenaM Unit).run a =
      (do writeRun b.head b.count .free noRun; append b.head : ArenaM Unit).run a := by
  have hbound := h.laid.bound
  have hb : b ∈ p.blocks := by simp [hblocks]
  have hin := h.laid.stop_le hb
  simp only [Block.stop] at hin
  obtain ⟨a', hrun, -⟩ := free_run h hblocks hbfree
  let a₁ : Arena := { a with cells := inscribeRun a.cells b.head b.count .free noRun }
  have hsize : a₁.cells.size = a.cells.size := size_inscribeRun ..
  have hwrite : (writeRun b.head b.count .free noRun).run a = .ok () a₁ :=
    writeRun_run _ _ (by omega)
  have hkeep : ∀ c ∈ p.free, ∀ i, c.Spans i → look a₁.cells i = look a.cells i := by
    intro c hc i hi
    obtain ⟨hcb, hcfree⟩ := h.mem_of_free hc
    exact look_inscribeRun_of_not_spans _ _ fun hspans =>
      h.not_spans_free hb hbfree hspans c hcb hcfree hi
  have hlast := h.lastFree_eq hsize (fun c hc => hkeep c hc _ c.spans_head) fun c hc =>
    hkeep c hc _ c.spans_tail
  have happend := hrun
  rw [run_bind_ok hwrite] at happend
  rw [hrun, run_bind_ok ((Careful.writeRun_run hbound _ _ (by omega)).trans hwrite)]
  exact Careful.append_run (hsize ▸ hbound) (by omega) (hsize ▸ h.length_free_le) hlast happend

/-- **Giving back passes all checks.** -/
theorem Represents.careful_release (h : Represents a p) {kind : Kind} {length : Nat}
    (hb : b ∈ p.blocks) (hloan : b.loan = some (kind, length)) :
    (Careful.release p.free.length (b.head + 1) length).run a =
      (release (b.head + 1) length).run a := by
  have hbound := h.laid.bound
  have hbfree : b.isFree = false := by simp [Block.isFree, hloan]
  have hle := ((h.laid.fit b hb).loan kind length hloan).2.1
  have hlent := lentRun_run h.laid hb hbfree hle
  have hlent' := Careful.lentRun_run hbound h.laid hb hbfree hle
  obtain ⟨pre, post, hblocks⟩ := List.append_of_mem hb
  rw [List.append_cons] at hblocks
  unfold release Careful.release
  rw [run_bind_ok hlent, run_bind_ok hlent', run_bind_ok (EStateM.run_get a), Block.head_toRun,
    Block.count_toRun]
  rcases List.eq_nil_or_concat pre with rfl | ⟨pre, q, rfl⟩
  · -- the block is the first one
    have hlaid := h.laid
    rw [hblocks] at hlaid
    have hfirst : (Careful.before b.head).run a = .ok none a := by
      have hhead : b.head = 0 := hlaid.tiles.1
      rw [hhead]
      rfl
    rw [before?_of_cons hlaid, run_bind_ok hfirst]
    exact h.careful_free hblocks hbfree
  · rw [List.concat_eq_append, List.append_assoc pre [q] [b], List.singleton_append] at hblocks
    have hlaid := h.laid
    rw [hblocks] at hlaid
    have hread := h.laid.readRun? (b := q) (by simp [hblocks])
    have hbefore := before?_of_append hlaid
    rw [hbefore, run_bind_ok (Careful.before_run hbefore)]
    dsimp only
    rw [run_bind_ok (loadRun_run hread), run_bind_ok (Careful.loadRun_run hbound hread)]
    by_cases hkind : (q.toRun a.cells).kind = .free
    · rw [if_pos hkind, if_pos hkind]
      exact Careful.absorb_run hbound hlaid.tiles.head_eq_stop (h.laid.stop_le hb)
    · rw [if_neg hkind, if_neg hkind]
      exact h.careful_free (by simp [hblocks] : p.blocks = (pre ++ [q]) ++ [b] ++ post) hbfree

/-! ## The cells of free runs -/

/-- Some of the blocks of a tiling have no more cells to lend than there are in all. -/
theorem Tiles.sum_filter_le {l : List Block} {start stop : Nat} (h : Tiles start l stop)
    (P : Block → Bool) : start + (l.filter P).foldr (fun b n => b.count + n) 0 ≤ stop := by
  induction l generalizing start with
  | nil => exact Nat.le_of_eq h
  | cons b rest ih =>
    obtain ⟨hhead, hrest⟩ := h
    have hsum := ih hrest
    simp only [Block.stop] at hsum
    rw [List.filter_cons]
    split
    · rw [List.foldr_cons]
      omega
    · omega

/-- All free runs together have no more cells to lend than the pool has cells. -/
theorem Represents.freeCells_eq (h : Represents a p) :
    ∃ cells, a.freeCells = some cells ∧ cells ≤ a.cells.size ∧
      (p.free.map (Block.toRun a.cells)).foldr (fun r n => r.count + n) 0 = cells := by
  have hsum := h.laid.tiles.sum_filter_le Block.isFree
  have hperm := h.listed.foldr_eq' (f := fun b n => b.count + n)
    (fun _ _ _ _ _ => Nat.add_left_comm ..) 0
  rw [Nat.zero_add, ← hperm] at hsum
  refine ⟨_, ?_, hsum, ?_⟩
  · rw [Arena.freeCells, h.freeRuns_eq, Option.map_some, List.foldr_map]
    rfl
  · rw [List.foldr_map]
    rfl

end

theorem lastFree_next {cells : Array Cell} {steps : Nat} {link : Int} {run : Run}
    (h : lastFree cells steps link = some run) : run.next = noRun := by
  induction steps generalizing link with
  | zero => cases h
  | succ steps ih =>
    unfold lastFree at h
    split at h
    · cases h
    next read _ =>
      split at h
      next hend =>
        cases h
        exact hend
      · exact ih h

/-! ## The world -/

/-- What the allocator does in a world passes all checks, with `runs` its runs in address order and
`free` its free runs in list order. -/
structure World.Checked (w : World) (runs free : List Run) : Prop where
  seen : w.arena.runs = some runs
  visited : w.arena.freeRuns = some free
  listed : free.Perm (runs.filter fun r => r.kind = .free)
  /-- The links lead through the free runs to the end of the list. -/
  leads : Leads w.arena.firstFree free noRun
  /-- The walk over all runs meets the end of the pool exactly. -/
  across : (Careful.runsFrom runs.length 0).run w.arena = .ok runs w.arena
  along : (Careful.freeFrom free.length w.arena.firstFree).run w.arena = .ok free w.arena
  /-- The free cells can be added up. -/
  added : ∃ n, w.arena.freeCells = some n ∧ (Careful.total free).run w.arena = .ok n w.arena
  /-- The walk to a run that fits finds one, or ends behind the last free run. -/
  fitting : ∀ count, ∃ fit,
    (Careful.firstFit count free.length noRun w.arena.firstFree).run w.arena = .ok fit w.arena ∧
      firstFit w.arena.cells count w.arena.cells.size noRun w.arena.firstFree = some fit ∧
      (fit = none ↔ ∀ r ∈ free, r.count < count)
  /-- The walk to the last free run finds it, if there is any. -/
  last : w.arena.firstFree = noRun ∨ ∃ run,
    (Careful.lastFree free.length w.arena.firstFree).run w.arena = .ok run w.arena ∧
      lastFree w.arena.cells w.arena.cells.size w.arena.firstFree = some run ∧ run.next = noRun
  /-- Every request is answered as with whole numbers, and no access or sum crashes. -/
  lends : ∀ size kind,
    (Careful.allocate free.length size kind).run w.arena = (allocate size kind).run w.arena ∧
      ∀ a, (allocate size kind).run w.arena ≠ .error .crash a
  /-- Whatever is held can be given back. -/
  takesBack : ∀ l ∈ w.live, ∃ a,
    (Careful.release free.length l.window.offset l.window.length).run w.arena = .ok () a ∧
      (release l.window.offset l.window.length).run w.arena = .ok () a

section
variable {a : Arena} {p : Plan}

theorem length_le_map_toRun (cells : Array Cell) (l : List Block) :
    l.length ≤ (l.map (Block.toRun cells)).length :=
  Nat.le_of_eq (List.length_map ..).symm

namespace Represents

theorem careful_runs (h : Represents a p) :
    (Careful.runsFrom (p.blocks.map (Block.toRun a.cells)).length 0).run a =
      .ok (p.blocks.map (Block.toRun a.cells)) a :=
  Careful.runsFrom_run h.laid.bound (Nat.zero_le _) <|
    runsFrom_eq h.laid.tiles (fun _ hb => h.laid.readRun? hb) (length_le_map_toRun ..)

theorem careful_freeRuns (h : Represents a p) :
    (Careful.freeFrom (p.free.map (Block.toRun a.cells)).length a.firstFree).run a =
      .ok (p.free.map (Block.toRun a.cells)) a :=
  Careful.freeFrom_run h.laid.bound <|
    freeFrom_eq h.linked (fun _ hb => h.laid.follow? (h.mem_of_free hb).1) (length_le_map_toRun ..)

theorem careful_total (h : Represents a p) : ∃ n, a.freeCells = some n ∧
    (Careful.total (p.free.map (Block.toRun a.cells))).run a = .ok n a := by
  obtain ⟨n, hcells, hle, hsum⟩ := h.freeCells_eq
  refine ⟨n, hcells, ?_⟩
  rw [← hsum]
  exact Careful.total_run h.laid.bound (hsum ▸ hle)

theorem careful_firstFit (h : Represents a p) (count : Nat) : ∃ fit,
    (Careful.firstFit count (p.free.map (Block.toRun a.cells)).length noRun a.firstFree).run a =
        .ok fit a ∧
      firstFit a.cells count a.cells.size noRun a.firstFree = some fit ∧
      (fit = none ↔ ∀ r ∈ p.free.map (Block.toRun a.cells), r.count < count) := by
  rcases h.pick_or_small count with ⟨⟨pick⟩⟩ | hsmall
  · have hwalk := h.firstFit_pick pick (length_le_map_toRun a.cells _)
    refine ⟨_, Careful.firstFit_run h.laid.bound hwalk, h.firstFit_pick pick h.length_free_le,
      iff_of_false nofun fun hall => ?_⟩
    have hless := hall _ (List.mem_map_of_mem pick.mem_free)
    exact absurd hless (Nat.not_lt.2 pick.enough)
  · have hwalk := h.firstFit_small hsmall (length_le_map_toRun a.cells _)
    exact ⟨none, Careful.firstFit_run h.laid.bound hwalk, h.firstFit_small hsmall h.length_free_le,
      iff_of_true rfl (by simpa using hsmall)⟩

theorem careful_lastFree (h : Represents a p) : a.firstFree = noRun ∨ ∃ run,
    (Careful.lastFree (p.free.map (Block.toRun a.cells)).length a.firstFree).run a = .ok run a ∧
      lastFree a.cells a.cells.size a.firstFree = some run ∧ run.next = noRun := by
  rcases h.lastFree_eq rfl (fun _ _ => rfl) fun _ _ => rfl with hnone | ⟨run, -, hlast⟩
  · exact .inl hnone
  · have hwalk := hlast _ h.length_free_le
    have hwalk' := hlast _ (length_le_map_toRun a.cells _)
    exact .inr ⟨run, Careful.lastFree_run h.laid.bound hwalk', hwalk, lastFree_next hwalk⟩

theorem allocate_ne_crash (h : Represents a p) (size : Int) (kind : Kind) (a' : Arena) :
    (allocate size kind).run a ≠ .error .crash a' := by
  match hreq : requestedCells size kind with
  | .error e =>
    rw [allocate_run_refused hreq]
    nofun
  | .ok count =>
    rcases h.pick_or_small count with ⟨⟨pick⟩⟩ | hsmall
    · obtain ⟨_, hrun, -⟩ := allocate_run_pick h hreq pick
      rw [hrun]
      nofun
    · rw [allocate_run_outOfMemory h hreq hsmall]
      nofun

end Represents

end

/-- **No step leaves the pool.** In every world that a pool can come to, each walk ends after at
most as many steps as there are runs to visit, and lending and giving back do with checked machine
numbers what they do with whole numbers: every position is inside the pool, every count and every
position fits a half word, and no sum or difference leaves the range. -/
theorem walks_end_inside_the_pool {pool : Nat} {w : World} (h : w.Reachable pool) :
    ∃ runs free, w.Checked runs free := by
  obtain ⟨p, haccounts⟩ := h.kept
  have hplan : Represents w.arena p := haccounts.plan
  have hlisted : (p.free.map (Block.toRun w.arena.cells)).Perm
      ((p.blocks.map (Block.toRun w.arena.cells)).filter fun r => r.kind = .free) := by
    rw [hplan.filter_free]
    exact hplan.listed.map _
  refine ⟨p.blocks.map (Block.toRun w.arena.cells), p.free.map (Block.toRun w.arena.cells),
    hplan.runs_eq, hplan.freeRuns_eq, hlisted, hplan.linked.leads, hplan.careful_runs,
    hplan.careful_freeRuns, hplan.careful_total, hplan.careful_firstFit, hplan.careful_lastFree,
    fun size kind => ?_, fun l hl => ?_⟩
  · rw [List.length_map]
    exact ⟨hplan.careful_allocate size kind, hplan.allocate_ne_crash size kind⟩
  · obtain ⟨b, hb, hlease⟩ := haccounts.exists_block hl
    obtain ⟨hloan, -, hoffset⟩ := Block.lease?_eq_some hlease
    obtain ⟨a', -, hrun, -⟩ := release_run hplan hb hloan
    rw [List.length_map, hoffset]
    exact ⟨a', (hplan.careful_release hb hloan).trans hrun, hrun⟩

/-- Twenty cells with two windows held and two free runs. -/
theorem walks_end_inside_the_pool_twenty : ∃ w : World, w.Reachable 0 ∧
    (w.arena.freeRuns.map List.length = some 2 ∧ w.live.length = 2) ∧
      ∃ runs free, w.Checked runs free := by
  obtain ⟨w, hreach, hw⟩ := World.exists_reachable 0 ⟨#[Array.replicate 20 Cell.zero]⟩
    [.obtain 16 .heap, .obtain 8 .global, .obtain 24 .stack, .giveBack ⟨⟨0, 5, 1⟩, .global⟩]
    (P := fun w => w.arena.freeRuns.map List.length = some 2 ∧ w.live.length = 2)
    (by decide) (by decide +kernel)
  exact ⟨w, hreach, hw, walks_end_inside_the_pool hreach⟩

end CellMachine.Allocator
