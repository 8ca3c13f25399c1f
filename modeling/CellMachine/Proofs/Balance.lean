import CellMachine.Proofs.Tenants

/-!
# Nothing leaks

A process that could not be created leaves nothing behind, and one that is released leaves nothing
lent. While the segments of a process are carved and, if one cannot be had, given back again, the
blocks that were lent before stay where they are, with all their cells (`Beside`); lending and
returning beside them is a `Supply`, so that what holds of creation over any supply holds there.

* `Accounts.create_refused`: a refused creation leaves the lent blocks as they were;
* `no_segment_leaks`: at all times the runs that are not free are the segments of the processes
  that live, five for each.
-/

namespace CellMachine.Allocator

/-! ## Lent blocks -/

/-- The lent blocks of a plan, in address order. -/
def Plan.lent (p : Plan) : List Block := p.blocks.filter fun b => !b.isFree

theorem Plan.mem_lent {p : Plan} {b : Block} :
    b ∈ p.lent ↔ b ∈ p.blocks ∧ b.isFree = false := by
  simp [Plan.lent]

theorem Plan.pairwise_lent {a : Arena} {p : Plan} (h : Represents a p) :
    p.lent.Pairwise fun b c => b.stop ≤ c.head :=
  h.laid.tiles.pairwise.filter _

theorem Plan.filterMap_lent (pool : Nat) (p : Plan) :
    p.lent.filterMap (Block.lease? pool) = p.leases pool := by
  rw [Plan.lent, List.filterMap_filter, Plan.leases]
  congr 1
  funext b
  unfold Block.lease? Block.isFree
  cases b.loan <;> rfl

theorem Pick.mem_lent {a : Arena} {p : Plan} {count : Nat} (pick : Pick p count)
    (h : Represents a p) {b : Block} (hb : b ∈ p.lent) (kind : Kind) :
    b ∈ (p.lend pick kind).lent := by
  obtain ⟨hmem, hlent⟩ := Plan.mem_lent.1 hb
  refine Plan.mem_lent.2 ⟨pick.mem_lend hmem ?_ kind, hlent⟩
  rintro rfl
  simp [(h.mem_of_free pick.mem_free).2] at hlent

theorem Plan.Returns.mem_lent {p p' : Plan} {b c : Block} (h : p.Returns b p') (hc : c ∈ p.lent)
    (hne : c ≠ b) : c ∈ p'.lent := by
  obtain ⟨hmem, hlent⟩ := Plan.mem_lent.1 hc
  refine Plan.mem_lent.2 ⟨?_, hlent⟩
  cases h with
  | @merged pre post _ _ q hblocks hq _ =>
    have hneq : c ≠ q := by
      rintro rfl
      simp [hq] at hlent
    rw [hblocks] at hmem
    simp only [List.mem_append, List.mem_cons, List.not_mem_nil, hneq, hne, or_self,
      or_false] at hmem
    rcases hmem with hmem | hmem <;> simp [hmem]
  | @appended pre post hblocks _ =>
    rw [hblocks] at hmem
    simp only [List.mem_append, List.mem_singleton, hne, or_false] at hmem
    rcases hmem with hmem | hmem <;> simp [hmem]

/-! ## Beside what is lent -/

/-- The blocks `base` are lent, and have the cells they had in `s₀`; `live` are the leases on the
other lent blocks. -/
structure Beside (pool : Nat) (base : List Block) (s₀ : Store) (live : List Lease)
    (st : Allocator × Store) (p : Plan) : Prop where
  accounts : Accounts pool (live ++ base.filterMap (Block.lease? pool)) st p
  lent : ∀ b ∈ base, b ∈ p.lent
  keeps : Keeps pool (fun i => ∃ b ∈ base, b.Spans i) s₀ st.2

namespace Beside

variable {pool : Nat} {base : List Block} {s₀ : Store} {live : List Lease}
  {st : Allocator × Store} {p : Plan}

theorem lease?_ne (h : Beside pool base s₀ live st p) {b : Block} {l : Lease} (hb : b ∈ base)
    (hl : l ∈ live) : b.lease? pool ≠ some l := by
  intro hlease
  have hnodup := List.nodup_append.1 h.accounts.nodup
  exact hnodup.2.2 l hl l (List.mem_filterMap.2 ⟨b, hb, hlease⟩) rfl

theorem keeps_trans (h : Beside pool base s₀ live st p) {counts : Nat → Prop} {s : Store}
    (hkeeps : Keeps pool counts st.2 s) (hcounts : ∀ b ∈ base, ∀ i, b.Spans i → counts i) :
    Keeps pool (fun i => ∃ b ∈ base, b.Spans i) s₀ s := by
  refine ⟨hkeeps.size.trans h.keeps.size, fun i hi => ?_⟩
  obtain ⟨b, hb, hspans⟩ := hi
  rw [hkeeps.cells i (hcounts b hb i hspans), h.keeps.cells i ⟨b, hb, hspans⟩]

theorem touch (h : Beside pool base s₀ live st p) {l : Lease} (hl : l ∈ live) {s : Store}
    (ht : Store.Touches l.window st.2 s) : Beside pool base s₀ live (st.1, s) p := by
  have hmem : l ∈ live ++ base.filterMap (Block.lease? pool) := List.mem_append_left _ hl
  refine ⟨h.accounts.touch hmem ht, h.lent, ?_⟩
  have hkeeps : Keeps pool (fun i => ¬ l.window.Has pool i) st.2 s := ⟨ht.size pool, ht.keep pool⟩
  refine h.keeps_trans hkeeps fun b hb i hi hhas => ?_
  exact h.accounts.not_spans hmem (Plan.mem_lent.1 (h.lent b hb)).1 (h.lease?_ne hb hl) hhas hi

theorem obtained (h : Beside pool base s₀ live st p) (size : Int) (kind : Kind) :
    (∃ w st' p', (Allocator.obtain size kind).run st = .ok w st' ∧
      requestedCells size kind = .ok w.length ∧ Beside pool base s₀ (⟨w, kind⟩ :: live) st' p' ∧
      Spares live st.2 st'.2) ∨
    ∃ e, (Allocator.obtain size kind).run st = .error (.error e) st := by
  rcases h.accounts.obtain_cases size kind with
    ⟨count, pick, st', hreq, hrun, hnew, hkeeps, hspares⟩ | hrefused
  · refine .inl ⟨_, st', p.lend pick kind, hrun, hreq, ⟨hnew, fun b hb => ?_, ?_⟩, ?_⟩
    · exact pick.mem_lent h.accounts.plan (h.lent b hb) kind
    · -- only free blocks were written
      refine h.keeps_trans hkeeps fun b hb i hi => ?_
      obtain ⟨hmem, hlent⟩ := Plan.mem_lent.1 (h.lent b hb)
      exact h.accounts.plan.not_spans_free hmem hlent hi
    · exact hspares.mono (List.subset_append_left ..)
  · exact .inr hrefused

theorem givenBack {l : Lease} (h : Beside pool base s₀ (l :: live) st p) :
    ∃ st' p', (giveBack l.window).run st = .ok () st' ∧ Beside pool base s₀ live st' p' ∧
      Spares live st.2 st'.2 := by
  obtain ⟨b, hb, hlease⟩ := h.accounts.exists_block (l := l) (by simp)
  obtain ⟨st', p', hrun, hreturns, hnew, hkeeps, hspares⟩ := h.accounts.giveBack_block hb hlease
  rw [List.cons_append, List.erase_cons_head] at hnew hspares
  have hne : ∀ c ∈ base, c ≠ b := by
    rintro c hc rfl
    exact h.lease?_ne hc List.mem_cons_self hlease
  refine ⟨st', p', hrun, ⟨hnew, fun c hc => hreturns.mem_lent (h.lent c hc) (hne c hc), ?_⟩,
    hspares.mono (List.subset_append_left ..)⟩
  refine h.keeps_trans hkeeps fun c hc i hi => ?_
  obtain ⟨hmem, hlent⟩ := Plan.mem_lent.1 (h.lent c hc)
  exact h.accounts.plan.not_spans_other hmem hlent (hne c hc) hi

end Beside

/-- **Lending beside what is lent keeps to the rules.** -/
theorem supply_beside (pool : Nat) (base : List Block) (s₀ : Store) :
    Supply fun live st => ∃ p, Beside pool base s₀ live st p where
  perm := fun hperm ⟨p, h⟩ => by
    refine ⟨p, ⟨h.accounts.shared, h.accounts.known, h.accounts.plan, ?_⟩, h.lent, h.keeps⟩
    exact (hperm.append_right _).symm.trans h.accounts.ledger
  within := fun ⟨_, h⟩ hl => h.accounts.within (List.mem_append_left _ hl)
  apart := fun ⟨p, h⟩ => (List.pairwise_append.1 ((supply_lent pool).apart ⟨p, h.accounts⟩)).1
  touch := fun ⟨p, h⟩ hl ht => ⟨p, h.touch hl ht⟩
  obtained := fun ⟨p, h⟩ size kind => by
    rcases h.obtained size kind with ⟨w, st', p', hrun, hreq, hnew, hspares⟩ | hrefused
    · exact .inl ⟨w, st', hrun, hreq, ⟨p', hnew⟩, hspares⟩
    · exact .inr hrefused
  givenBack := fun ⟨p, h⟩ => by
    obtain ⟨st', p', hrun, hnew, hspares⟩ := h.givenBack
    exact ⟨st', hrun, ⟨p', hnew⟩, hspares⟩

namespace Accounts

variable {pool : Nat} {live : List Lease} {st st' : Allocator × Store} {p p' : Plan}

theorem beside (h : Accounts pool live st p) : Beside pool p.lent st.2 [] st p := by
  refine ⟨⟨h.shared, h.known, h.plan, ?_⟩, fun b hb => hb, rfl, fun _ _ => rfl⟩
  rw [List.nil_append, Plan.filterMap_lent]

/-- When nothing is leased beside the base, the base is all that is lent. -/
theorem lent_eq_of_beside (h : Accounts pool live st p)
    (hbeside : Beside pool p.lent st.2 [] st' p') : p'.lent = p.lent := by
  have hperm : p'.lent.Perm p.lent := by
    refine (List.perm_ext_iff_of_nodup (hbeside.accounts.plan.laid.tiles.nodup.filter _)
      (h.plan.laid.tiles.nodup.filter _)).2 fun b => ⟨fun hb => ?_, hbeside.lent b⟩
    obtain ⟨hmem, hlent⟩ := Plan.mem_lent.1 hb
    obtain ⟨l, hl, hlease⟩ := hbeside.accounts.exists_lease hmem hlent
    obtain ⟨c, hc, hlease'⟩ := List.mem_filterMap.1 hl
    have hcmem := (Plan.mem_lent.1 (hbeside.lent c hc)).1
    rw [hbeside.accounts.block_unique hmem hcmem hlease hlease']
    exact hc
  refine hperm.eq_of_pairwise (fun b c _ _ hbc hcb => ?_)
    (Plan.pairwise_lent hbeside.accounts.plan) (Plan.pairwise_lent h.plan)
  simp only [Block.stop] at hbc hcb
  omega

/-- The leases have their cells in the lent blocks. -/
theorem spares_of_keeps (h : Accounts pool live st p) {s : Store}
    (hkeeps : Keeps pool (fun i => ∃ b ∈ p.lent, b.Spans i) st.2 s) : Spares live st.2 s := by
  intro l hl
  obtain ⟨b, hb, hlease⟩ := h.exists_block hl
  refine ⟨?_, fun i hi => ?_⟩
  · rw [h.pool_eq hl]
    exact hkeeps.size
  · obtain ⟨hlow, hhigh⟩ := h.between hb hlease hi
    rw [h.pool_eq hl]
    have hlent := (Block.isFree_eq_false_iff pool).2 ⟨l, hlease⟩
    refine hkeeps.cells i ⟨b, Plan.mem_lent.2 ⟨hb, hlent⟩, ?_⟩
    simp only [Block.Spans, Block.stop, Block.tail] at hhigh ⊢
    omega

/-- **A refused creation leaves what is lent as it was**: the lent blocks are the same, and so are
all of their cells. -/
theorem create_refused (h : Accounts pool live st p) {layout : Layout} {image : Image} {e : Fault}
    (hrun : (Carver.create layout image).run st = .error e st') :
    ∃ reason p', e = .error reason ∧ Accounts pool live st' p' ∧ p'.lent = p.lent ∧
      Keeps pool (fun i => ∃ b ∈ p.lent, b.Spans i) st.2 st'.2 := by
  rcases Carver.create_run (supply_beside pool p.lent st.2) ⟨p, h.beside⟩ layout image with
    ⟨g, st₁, hrun₁, -⟩ | ⟨reason, st₁, hrun₁, ⟨p', hbeside⟩, -⟩
  · rw [hrun] at hrun₁
    cases hrun₁
  · obtain ⟨rfl, rfl⟩ := EStateM.Result.error.inj (hrun.symm.trans hrun₁)
    have hlent := h.lent_eq_of_beside hbeside
    have hnew := hbeside.accounts
    refine ⟨reason, p', rfl, ⟨hnew.shared, hnew.known, hnew.plan, ?_⟩, hlent, hbeside.keeps⟩
    refine h.ledger.trans (.of_eq ?_)
    rw [← Plan.filterMap_lent, ← Plan.filterMap_lent, hlent]

end Accounts

/-! ## What the runs show -/

/-- The cells of runs, their records included. -/
def spanned (runs : List Run) : Nat := runs.foldr (fun r n => r.count + 2 + n) 0

theorem spanned_free_add_lent (runs : List Run) :
    spanned (runs.filter fun r => r.kind = .free) + spanned (runs.filter fun r => r.kind ≠ .free) =
      spanned runs := by
  unfold spanned
  induction runs with
  | nil => rfl
  | cons r rest ih =>
    by_cases hr : r.kind = .free
    · rw [List.filter_cons_of_pos (by simp [hr]), List.filter_cons_of_neg (by simp [hr]),
        List.foldr_cons, List.foldr_cons]
      omega
    · rw [List.filter_cons_of_neg (by simp [hr]), List.filter_cons_of_pos (by simp [hr]),
        List.foldr_cons, List.foldr_cons]
      omega

theorem Represents.spanned_eq {a : Arena} {p : Plan} (h : Represents a p) :
    spanned (p.blocks.map (Block.toRun a.cells)) = a.cells.size := by
  have hsum := h.laid.tiles.sum_eq
  rw [Nat.zero_add] at hsum
  rw [spanned, List.foldr_map, ← hsum]
  rfl

theorem map_toRun_lent {a a' : Arena} {p p' : Plan} (hlent : p'.lent = p.lent)
    (hcells : ∀ i, (∃ b ∈ p.lent, b.Spans i) → look a'.cells i = look a.cells i) :
    p'.lent.map (Block.toRun a'.cells) = p.lent.map (Block.toRun a.cells) := by
  rw [hlent]
  refine List.map_congr_left fun b hb => ?_
  rw [Block.toRun, Block.toRun, hcells b.tail ⟨b, hb, b.spans_tail⟩]

/-- **A refused creation shows nowhere but in the order of the free runs**: the runs that are not
free are the same, the free ones have as many cells, and the leased windows keep theirs. -/
theorem Accounts.runs_of_refused {pool : Nat} {live : List Lease} {st st' : Allocator × Store}
    {p : Plan} (h : Accounts pool live st p) {layout : Layout} {image : Image} {e : Fault}
    {runs : List Run} (hseen : (st.1.arena st.2).runs = some runs)
    (hrun : (Carver.create layout image).run st = .error e st') :
    ∃ reason runs', e = .error reason ∧ (st'.1.arena st'.2).runs = some runs' ∧
      runs'.filter (fun r => r.kind ≠ .free) = runs.filter (fun r => r.kind ≠ .free) ∧
      spanned (runs'.filter fun r => r.kind = .free) =
        spanned (runs.filter fun r => r.kind = .free) ∧ Spares live st.2 st'.2 := by
  obtain ⟨reason, p', rfl, h', hlent, hkeeps⟩ := h.create_refused hrun
  obtain ⟨firstFree, -, harena⟩ := h.arena_eq
  obtain ⟨firstFree', -, harena'⟩ := h'.arena_eq
  have hspares := h.spares_of_keeps hkeeps
  have hplan := h.plan
  have hplan' := h'.plan
  rw [harena] at hplan hseen
  rw [harena'] at hplan' ⊢
  obtain rfl := Option.some.inj (hplan.runs_eq.symm.trans hseen)
  have hsame : (p'.blocks.map (Block.toRun (st'.2.cells pool))).filter (fun r => r.kind ≠ .free) =
      (p.blocks.map (Block.toRun (st.2.cells pool))).filter (fun r => r.kind ≠ .free) := by
    rw [hplan'.filter_lent, hplan.filter_lent]
    exact map_toRun_lent hlent hkeeps.cells
  refine ⟨reason, _, rfl, hplan'.runs_eq, hsame, ?_, hspares⟩
  -- what is not lent is free, and the pool has not changed its size
  have hsplit := spanned_free_add_lent (p.blocks.map (Block.toRun (st.2.cells pool)))
  have hsplit' := spanned_free_add_lent (p'.blocks.map (Block.toRun (st'.2.cells pool)))
  have hsum : spanned (p.blocks.map (Block.toRun (st.2.cells pool))) = (st.2.cells pool).size :=
    hplan.spanned_eq
  have hsum' : spanned (p'.blocks.map (Block.toRun (st'.2.cells pool))) = (st'.2.cells pool).size :=
    hplan'.spanned_eq
  rw [hsum] at hsplit
  rw [hsame, hsum', hkeeps.size] at hsplit'
  dsimp only
  omega

end CellMachine.Allocator

namespace CellMachine

open Allocator

namespace House

variable {pool : Nat} {w : House}

/-- What the runs of a pool have to do with the processes that live there. -/
structure Balanced (pool : Nat) (w : House) (runs : List Run) : Prop where
  seen : (w.state.1.arena w.store).runs = some runs
  /-- The runs that are not free and the segments of the processes, paired off. -/
  lent : ∃ pairs : List (Run × Lease),
    pairs.map Prod.fst = runs.filter (fun r => r.kind ≠ .free) ∧
      (pairs.map Prod.snd).Perm w.leases ∧ ∀ x ∈ pairs, Lends pool x.1 x.2
  /-- A creation that fails does so for a reason, and nothing is lost by it: neither a run that is
  lent, nor the room in the free ones, nor a cell of a process. -/
  refused : ∀ layout image e st, (Carver.create layout image).run w.state = .error e st →
    ∃ reason runs', e = .error reason ∧ (st.1.arena st.2).runs = some runs' ∧
      runs'.filter (fun r => r.kind ≠ .free) = runs.filter (fun r => r.kind ≠ .free) ∧
      spanned (runs'.filter fun r => r.kind = .free) =
        spanned (runs.filter fun r => r.kind = .free) ∧
      ∀ n t, w.tenant? n = some t →
        t.segments.windows.map st.2.read = t.segments.windows.map w.store.read
  released : ∀ n t, w.tenant? n = some t →
    ∃ st, (Carver.release t.segments).run w.state = .ok () st
  empty : (∀ n, w.tenant? n = none) → ∀ r ∈ runs, r.kind = .free

theorem leases_eq_nil (h : ∀ n, w.tenant? n = none) : w.leases = [] := by
  refine List.flatMap_eq_nil_iff.2 fun o ho => ?_
  obtain ⟨n, hn⟩ := List.mem_iff_getElem?.1 ho
  have hnone := h n
  rw [tenant?, hn, Option.join_some] at hnone
  rw [hnone]
  rfl

/-- **In a house where every process has its windows to itself, nothing else is lent.** -/
theorem Kept.balanced (h : w.Kept pool) : ∃ runs, w.Balanced pool runs := by
  have hkept := h
  obtain ⟨p, haccounts⟩ := hkept
  have hplan := haccounts.plan
  have hlent : (p.pairs pool (w.state.1.arena w.state.2).cells).map Prod.fst =
      (p.blocks.map (Block.toRun (w.state.1.arena w.state.2).cells)).filter
        (fun r => r.kind ≠ .free) := by
    rw [Plan.map_fst_pairs, hplan.filter_lent]
  have hledger : ((p.pairs pool (w.state.1.arena w.state.2).cells).map Prod.snd).Perm w.leases := by
    rw [Plan.map_snd_pairs]
    exact haccounts.ledger.symm
  refine ⟨_, hplan.runs_eq, ⟨_, hlent, hledger, fun x hx => hplan.lends hx⟩,
    fun layout image e st hrun => ?_, fun n t ht => ?_, fun hnone r hr => ?_⟩
  · obtain ⟨reason, runs', he, hseen', hsame, hspan, hspares⟩ :=
      haccounts.runs_of_refused hplan.runs_eq hrun
    exact ⟨reason, runs', he, hseen', hsame, hspan,
      fun n t ht => map_read_eq hspares (leases_subset ht)⟩
  · obtain ⟨st, hrun, -, -⟩ := Carver.release_run (supply_lent pool) (h.split ht)
    exact ⟨st, hrun⟩
  · rw [leases_eq_nil hnone] at hledger
    rw [List.map_eq_nil_iff.1 hledger.eq_nil] at hlent
    have hfree := List.filter_eq_nil_iff.1 hlent.symm r hr
    simpa using hfree

end House

/-- **No segment leaks.** Over any pool of a lawful size an allocator can be opened, and whatever
processes are created and released there from then on, and whatever they do: the runs that are not
free are the segments of the processes that live, five for each; a creation that fails changes
neither them nor the room that is left; and every process that lives can be released. -/
theorem no_segment_leaks (host : FunctionId → List Cell → Reply) {store : Store}
    {pool : Nat} (hmin : minimumRunCells ≤ store.size pool)
    (hmax : store.size pool ≤ maximumPoolCells) :
    ∃ st, Allocator.ofPool store pool = .ok st ∧ ∀ events : List Event,
      ∃ runs, ((⟨st, []⟩ : House).run host events).Balanced pool runs := by
  obtain ⟨st, p, hst, haccounts⟩ := ofPool_eq_ok hmin hmax
  refine ⟨st, hst, fun events => ?_⟩
  exact (House.run_kept host ⟨p, haccounts⟩ events).balanced

/-- A pool of thirty cells, which takes one process of fifteen cells but not a second one of
seventeen. -/
theorem no_segment_leaks_thirty : ∃ (host : FunctionId → List Cell → Reply)
    (store : Store) (events : List Event),
    (minimumRunCells ≤ store.size 0 ∧ store.size 0 ≤ maximumPoolCells) ∧
      ∃ st, Allocator.ofPool store 0 = .ok st ∧
        ((⟨st, []⟩ : House).run host events).tenants.map Option.isSome = [true, false] ∧
        ∃ runs, ((⟨st, []⟩ : House).run host events).Balanced 0 runs := by
  let host : FunctionId → List Cell → Reply := fun _ _ => .value Cell.zero
  let store : Store := ⟨#[Array.replicate 30 Cell.zero]⟩
  let events : List Event := [.create ⟨1, 1, 1⟩ {}, .create ⟨1, 1, 3⟩ {}]
  have hsize : minimumRunCells ≤ store.size 0 ∧ store.size 0 ≤ maximumPoolCells := by decide
  obtain ⟨st, hst, hbalanced⟩ := no_segment_leaks host hsize.1 hsize.2
  have htenants : (Allocator.ofPool store 0).toOption.map (fun st =>
      ((⟨st, []⟩ : House).run host events).tenants.map Option.isSome) = some [true, false] := by
    decide +kernel
  rw [hst] at htenants
  exact ⟨host, store, events, hsize, st, hst, Option.some.inj htenants, hbalanced events⟩

end CellMachine
