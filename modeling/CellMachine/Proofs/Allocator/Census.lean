import CellMachine.Proofs.Allocator.Plan

/-!
# Walking over the runs

Both walks over the records see the plan behind them:

* `Represents.runs_eq`: the walk from the first cell on visits the blocks in address order;
* `Represents.freeRuns_eq`: the walk along the links visits the free blocks in list order.

`Leads` says of runs, as they are read, that each one is linked to the next.
-/

namespace CellMachine.Allocator

/-- The links of the runs lead from `link` through all of them, in order, to `stop`. -/
def Leads : (link : Int) → List Run → (stop : Int) → Prop
  | link, [], stop => link = stop
  | link, r :: rest, stop => link = r.head ∧ Leads r.next rest stop

theorem Chain.leads {cells : Array Cell} {l : List Block} {link stop : Int}
    (h : Chain cells link l stop) : Leads link (l.map (Block.toRun cells)) stop := by
  induction l generalizing link with
  | nil => exact h
  | cons b rest ih =>
    obtain ⟨hlink, hrest⟩ := Chain.cons_iff.1 h
    refine ⟨hlink, ?_⟩
    rw [Block.next_toRun]
    exact ih hrest

theorem runsFrom_eq {cells : Array Cell} {l : List Block} {fuel head : Nat}
    (htiles : Tiles head l cells.size)
    (hread : ∀ b ∈ l, readRun? cells b.head = some (b.toRun cells)) (hfuel : l.length ≤ fuel) :
    runsFrom cells fuel head = some (l.map (Block.toRun cells)) := by
  induction l generalizing fuel head with
  | nil =>
    have hhead : ¬ head < cells.size := by
      have : head = cells.size := htiles
      omega
    cases fuel <;> simp [runsFrom, hhead]
  | cons b rest ih =>
    obtain ⟨rfl, hrest⟩ := htiles
    obtain ⟨fuel, rfl⟩ : ∃ n, fuel = n + 1 := ⟨fuel - 1, by simp at hfuel; omega⟩
    have hlt : b.head < cells.size := by
      have := hrest.le
      simp only [Block.stop] at this
      omega
    have hwalk := ih hrest (fun c hc => hread c (List.mem_cons_of_mem _ hc)) (by simpa using hfuel)
    simp only [runsFrom, hlt, ↓reduceIte, hread b List.mem_cons_self]
    rw [show (b.toRun cells).stop = b.stop from rfl, hwalk]
    rfl

theorem freeFrom_eq {cells : Array Cell} {l : List Block} {fuel : Nat} {link : Int}
    (hchain : Chain cells link l noRun)
    (hread : ∀ b ∈ l, follow? cells b.head = some (b.toRun cells)) (hfuel : l.length ≤ fuel) :
    freeFrom cells fuel link = some (l.map (Block.toRun cells)) := by
  induction l generalizing fuel link with
  | nil =>
    have hlink : link = noRun := hchain
    cases fuel <;> simp [freeFrom, hlink]
  | cons b rest ih =>
    obtain ⟨rfl, hrest⟩ := Chain.cons_iff.1 hchain
    obtain ⟨fuel, rfl⟩ : ∃ n, fuel = n + 1 := ⟨fuel - 1, by simp at hfuel; omega⟩
    have hwalk := ih hrest (fun c hc => hread c (List.mem_cons_of_mem _ hc)) (by simpa using hfuel)
    simp only [freeFrom, natCast_ne_noRun, ↓reduceIte, hread b List.mem_cons_self,
      Block.next_toRun, hwalk]
    rfl

namespace Represents

variable {a : Arena} {p : Plan}

/-- **The walk over the pool sees the blocks.** -/
theorem runs_eq (h : Represents a p) : a.runs = some (p.blocks.map (Block.toRun a.cells)) := by
  have hlen := h.laid.tiles.length_le
  exact runsFrom_eq h.laid.tiles (fun b hb => h.laid.readRun? hb) (by omega)

/-- **The walk along the links sees the free blocks.** -/
theorem freeRuns_eq (h : Represents a p) :
    a.freeRuns = some (p.free.map (Block.toRun a.cells)) :=
  freeFrom_eq h.linked (fun _ hb => h.laid.follow? (h.mem_of_free hb).1) h.length_free_le

/-- No run is visited twice: different blocks start at different places. -/
theorem nodup_runs (h : Represents a p) : (p.blocks.map (Block.toRun a.cells)).Nodup := by
  refine List.pairwise_map.2 (h.laid.tiles.pairwise.imp fun {b c} hbc he => ?_)
  have hhead : b.head = c.head := congrArg Run.head he
  simp only [Block.stop] at hbc
  omega

/-- A run is marked free exactly when it is on the free list. -/
theorem filter_free (h : Represents a p) :
    (p.blocks.map (Block.toRun a.cells)).filter (fun r => r.kind = .free) =
      (p.blocks.filter Block.isFree).map (Block.toRun a.cells) := by
  rw [List.filter_map]
  congr 1
  refine List.filter_congr fun b hb => Bool.eq_iff_iff.2 ?_
  rw [Function.comp_apply, Block.kind_toRun, decide_eq_true_iff]
  exact (h.laid.fit b hb).isFree_iff.symm

theorem filter_lent (h : Represents a p) :
    (p.blocks.map (Block.toRun a.cells)).filter (fun r => r.kind ≠ .free) =
      (p.blocks.filter fun b => !b.isFree).map (Block.toRun a.cells) := by
  rw [List.filter_map]
  congr 1
  refine List.filter_congr fun b hb => Bool.eq_iff_iff.2 ?_
  have hfree := (h.laid.fit b hb).isFree_iff
  simp [← hfree]

end Represents

end CellMachine.Allocator
