import CellMachine.Proofs.Allocator.FirstFit

/-!
# Returns, run by run

What a return does to the runs of a pool as they are seen from outside.

* `Accounts.givesBack_merged`, `Accounts.givesBack_appended`: the two ways of `Plan.Returns`, read
  off the runs;
* `release_merges_backward`: a run that is given back merges into a free run right before it or goes
  to the end of the free list, and what comes after it in the pool never matters.
-/

namespace CellMachine.Allocator

/-- The run `r`, with the runs `before` and `after` it in the pool, was given back. -/
structure GivesBack (pool : Nat) (st st' : Allocator × Store) (free runs' free' before : List Run)
    (r : Run) (after : List Run) : Prop where
  shown : Shown st' runs' free'
  /-- A free run right before it grows over it and keeps its place in the free list. -/
  merged : ∀ pre q, before = pre ++ [q] → q.kind = .free →
    runs'.map Run.extent = pre.map Run.extent ++ [⟨q.head, q.count + r.count + 2, .free⟩] ++
      after.map Run.extent ∧
    (∃ earlier later, free = earlier ++ [q] ++ later ∧ free'.map Run.extent =
      earlier.map Run.extent ++ [⟨q.head, q.count + r.count + 2, .free⟩] ++
        later.map Run.extent) ∧
    (st'.1.arena st'.2).firstFree = (st.1.arena st.2).firstFree
  /-- Otherwise it becomes free with all its cells and goes to the end of the free list. -/
  appended : (∀ q, before.getLast? = some q → q.kind ≠ .free) →
    runs'.map Run.extent = before.map Run.extent ++ [⟨r.head, r.count, .free⟩] ++
      after.map Run.extent ∧
    free'.map Run.extent = free.map Run.extent ++ [⟨r.head, r.count, .free⟩] ∧
    (st'.1.arena st'.2).firstFree =
      if free = [] then (r.head : Int) else (st.1.arena st.2).firstFree
  /-- The other runs that are lent keep all their cells, records and slack included. -/
  kept : ∀ x ∈ before ++ after, x.kind ≠ .free → ∀ i, x.head ≤ i → i < x.stop →
    st'.2.peek pool i = st.2.peek pool i

section
variable {pool : Nat} {live live' : List Lease} {st st' : Allocator × Store} {p p' : Plan}
  {pre post : List Block} {b : Block}

/-- The lent runs but for the one given back keep their cells. -/
theorem Accounts.kept_of_keeps (h : Accounts pool live st p)
    (hblocks : p.blocks = pre ++ [b] ++ post)
    (hkeeps : Keeps pool (fun i => ∀ c ∈ p.blocks, c.isFree = true ∨ c = b → ¬ c.Spans i)
      st.2 st'.2) {x : Run}
    (hx : x ∈ pre.map (Block.toRun (st.2.cells pool)) ++ post.map (Block.toRun (st.2.cells pool)))
    (hkind : x.kind ≠ .free) {i : Nat} (hlow : x.head ≤ i) (hhigh : i < x.stop) :
    st'.2.peek pool i = st.2.peek pool i := by
  rw [← List.map_append] at hx
  obtain ⟨c, hc, rfl⟩ := List.mem_map.1 hx
  have hmem : c ∈ p.blocks := by
    rw [hblocks]
    rcases List.mem_append.1 hc with hc | hc <;> simp [hc]
  have hne : c ≠ b := ne_of_mem_append_of_nodup (hblocks ▸ h.plan.laid.tiles.nodup) hc
  have hlent : c.isFree = false :=
    Bool.eq_false_iff.2 fun hfree => hkind (Block.kind_of_isFree hfree)
  exact hkeeps.cells i (h.plan.not_spans_other hmem hlent hne ⟨hlow, hhigh⟩)

/-- A block was given back that has a free block right before it. -/
theorem Accounts.givesBack_merged (h : Accounts pool live st p) {q : Block}
    {earlier later : List Block} (hblocks : p.blocks = pre ++ [q, b] ++ post)
    (hq : q.isFree = true) (hfree : p.free = earlier ++ [q] ++ later)
    (hnew : Accounts pool live' st'
      ⟨pre ++ [q.merge b] ++ post, earlier ++ [q.merge b] ++ later⟩)
    (hkeeps : Keeps pool (fun i => ∀ c ∈ p.blocks, c.isFree = true ∨ c = b → ¬ c.Spans i)
      st.2 st'.2) :
    GivesBack pool st st' (p.free.map (Block.toRun (st.2.cells pool)))
      ((pre ++ [q.merge b] ++ post).map (Block.toRun (st'.2.cells pool)))
      ((earlier ++ [q.merge b] ++ later).map (Block.toRun (st'.2.cells pool)))
      ((pre ++ [q]).map (Block.toRun (st.2.cells pool))) (b.toRun (st.2.cells pool))
      (post.map (Block.toRun (st.2.cells pool))) := by
  have hsplit : p.blocks = (pre ++ [q]) ++ [b] ++ post := by
    rw [hblocks, List.append_assoc pre [q] [b]]
    rfl
  refine ⟨hnew.shown, fun pre' q' hbefore _ => ?_, fun hlast => ?_, fun x hx hkind i hlow hhigh =>
    h.kept_of_keeps hsplit hkeeps hx hkind hlow hhigh⟩
  · rw [List.map_append, List.map_singleton] at hbefore
    obtain ⟨rfl, hsame⟩ := List.append_inj' hbefore rfl
    obtain rfl := (List.cons.inj hsame).1
    refine ⟨?_, ⟨earlier.map (Block.toRun (st.2.cells pool)),
      later.map (Block.toRun (st.2.cells pool)), ?_, ?_⟩, ?_⟩
    · simp only [map_extent_toRun, List.map_append, List.map_singleton]
      rfl
    · rw [hfree]
      simp only [List.map_append, List.map_singleton]
    · simp only [map_extent_toRun, List.map_append, List.map_singleton]
      rfl
    · -- the list starts where it did, also if it starts with the run that grew
      rw [hnew.plan.linked.link_eq, h.plan.linked.link_eq, hfree]
      cases earlier <;> rfl
  · have hnot := hlast (q.toRun (st.2.cells pool)) (by simp)
    exact absurd (Block.kind_of_isFree hq) hnot

/-- A block was given back that has no free block right before it. -/
theorem Accounts.givesBack_appended (h : Accounts pool live st p)
    (hblocks : p.blocks = pre ++ [b] ++ post)
    (hlast : ∀ q, pre.getLast? = some q → q.isFree = false)
    (hnew : Accounts pool live' st' ⟨pre ++ [b.freed] ++ post, p.free ++ [b.freed]⟩)
    (hkeeps : Keeps pool (fun i => ∀ c ∈ p.blocks, c.isFree = true ∨ c = b → ¬ c.Spans i)
      st.2 st'.2) :
    GivesBack pool st st' (p.free.map (Block.toRun (st.2.cells pool)))
      ((pre ++ [b.freed] ++ post).map (Block.toRun (st'.2.cells pool)))
      ((p.free ++ [b.freed]).map (Block.toRun (st'.2.cells pool)))
      (pre.map (Block.toRun (st.2.cells pool))) (b.toRun (st.2.cells pool))
      (post.map (Block.toRun (st.2.cells pool))) := by
  refine ⟨hnew.shown, fun pre' q' hbefore hkind => ?_, fun _ => ⟨?_, ?_, ?_⟩,
    fun x hx hkind i hlow hhigh => h.kept_of_keeps hblocks hkeeps hx hkind hlow hhigh⟩
  · have hend : (pre.map (Block.toRun (st.2.cells pool))).getLast? = some q' := by
      rw [hbefore, List.getLast?_concat]
    rw [List.getLast?_map] at hend
    obtain ⟨q, hq, rfl⟩ := Option.map_eq_some_iff.1 hend
    have hmem : q ∈ p.blocks := by
      rw [hblocks]
      simp [List.mem_of_getLast? hq]
    have hqfree := (h.plan.laid.fit q hmem).isFree_iff.2 hkind
    simp [hlast q hq] at hqfree
  · simp only [map_extent_toRun, List.map_append, List.map_singleton]
    rfl
  · simp only [map_extent_toRun, List.map_append, List.map_singleton]
    rfl
  · rw [hnew.plan.linked.link_eq, h.plan.linked.link_eq]
    cases p.free <;> rfl

/-- **What a return does to the runs**, with and without a free run right before. -/
theorem Accounts.giveBack_givesBack (h : Accounts pool live st p) {l : Lease} (hl : l ∈ live) :
    ∃ st' runs' free' before r after, (giveBack l.window).run st = .ok () st' ∧
      p.blocks.map (Block.toRun (st.2.cells pool)) = before ++ [r] ++ after ∧ Lends pool r l ∧
      GivesBack pool st st' (p.free.map (Block.toRun (st.2.cells pool))) runs' free' before r
        after := by
  obtain ⟨b, hb, hlease⟩ := h.exists_block hl
  obtain ⟨st', p', hrun, hreturns, hnew, hkeeps, -⟩ := h.giveBack_block hb hlease
  have hlends : Lends pool (b.toRun (st.2.cells pool)) l := by
    obtain ⟨firstFree, -, -, hplan⟩ := h.represents
    exact hplan.lends (x := (b.toRun (st.2.cells pool), l))
      (List.mem_filterMap.2 ⟨b, hb, by rw [hlease]; rfl⟩)
  cases hreturns with
  | @merged pre post earlier later q hblocks hq hfree =>
    refine ⟨st', _, _, _, _, _, hrun, ?_, hlends, h.givesBack_merged hblocks hq hfree hnew hkeeps⟩
    rw [hblocks]
    simp
  | @appended pre post hblocks hlast =>
    refine ⟨st', _, _, _, _, _, hrun, ?_, hlends, h.givesBack_appended hblocks hlast hnew hkeeps⟩
    rw [hblocks]
    simp

end

/-- **A return merges backward.** In every world that a pool can come to, a window that is held can
be given back, with the run that was lent for it, slack included. If the run right before it is
free, the two become one run, which starts where the free one did and has its place in the free
list. If not, the run becomes free with all its cells and goes to the end of the list. The runs
before and after, whether free or not, stay as they are, and nobody else's cells change. -/
theorem release_merges_backward {pool : Nat} {w : World} (h : w.Reachable pool) {l : Lease}
    (hl : l ∈ w.live) :
    ∃ runs free before r after st runs' free', Shown w.state runs free ∧
      runs = before ++ [r] ++ after ∧ Lends pool r l ∧
      (giveBack l.window).run w.state = .ok () st ∧
      GivesBack pool w.state st free runs' free' before r after := by
  obtain ⟨p, haccounts⟩ := h.kept
  obtain ⟨st, runs', free', before, r, after, hrun, hruns, hlends, hback⟩ :=
    haccounts.giveBack_givesBack hl
  exact ⟨_, _, before, r, after, st, runs', free', haccounts.shown, hruns, hlends, hrun, hback⟩

/-- Thirty cells, of which three windows were lent and the first one was given back: the second one
has a free run before it. -/
theorem release_merges_backward_thirty : ∃ (w : World) (l : Lease), w.Reachable 0 ∧ l ∈ w.live ∧
    w.arena.runs.map (List.map Run.extent) =
      some [⟨0, 6, .free⟩, ⟨8, 4, .heap⟩, ⟨14, 14, .stack⟩] ∧
    ∃ runs free before r after st runs' free', Shown w.state runs free ∧
      runs = before ++ [r] ++ after ∧ Lends 0 r l ∧
      (giveBack l.window).run w.state = .ok () st ∧
      GivesBack 0 w.state st free runs' free' before r after := by
  let store : Store := ⟨#[Array.replicate 30 Cell.zero]⟩
  let actions : List Action :=
    [.obtain 48 .global, .obtain 32 .heap, .obtain 100 .stack, .giveBack ⟨⟨0, 1, 6⟩, .global⟩]
  have hsize : minimumRunCells ≤ store.size 0 ∧ store.size 0 ≤ maximumPoolCells := by decide
  obtain ⟨st, hst, -⟩ := World.exists_opened hsize.1 hsize.2
  have hworld : (Allocator.ofPool store 0).toOption.map (fun st =>
      (decide (⟨⟨0, 9, 4⟩, .heap⟩ ∈ ((World.opened st).run actions).live),
        ((World.opened st).run actions).arena.runs.map (List.map Run.extent))) =
      some (true, some [⟨0, 6, .free⟩, ⟨8, 4, .heap⟩, ⟨14, 14, .stack⟩]) := by
    decide +kernel
  rw [hst] at hworld
  obtain ⟨hlive, hruns⟩ := Prod.mk.inj (Option.some.inj hworld)
  have hl := of_decide_eq_true hlive
  have hreach : ((World.opened st).run actions).Reachable 0 := ⟨store, st, actions, hsize, hst, rfl⟩
  exact ⟨_, _, hreach, hl, hruns, release_merges_backward hreach hl⟩

end CellMachine.Allocator
