import CellMachine.Proofs.Allocator.Merging
import CellMachine.Proofs.Balance
import Mathlib.Data.List.Basic

/-!
# Neighbours given back in order

Runs that are given back in the order of their addresses become one free run: each of them finds the
one that the return before it left right before it, through a tail that was just written.

* `Plan.Returns.eq_merged`, `Plan.Returns.eq_appended`: what stands before a block decides what
  becomes of the plan;
* `Accounts.inTurn_grow`: a free block grows over all the lent blocks right behind it;
* `Accounts.inTurn_fresh`: without one, the first of them becomes free and grows over the others;
* `neighbours_coalesce`: the same, run by run.
-/

namespace CellMachine.Allocator

/-! ## One return -/

/-- An entry of a list without repetitions has one place in it. -/
theorem place_unique {α : Type} {l l₁ l₂ r₁ r₂ : List α} {b : α} (hnodup : l.Nodup)
    (h₁ : l = l₁ ++ b :: r₁) (h₂ : l = l₂ ++ b :: r₂) : l₁ = l₂ ∧ r₁ = r₂ := by
  rw [h₁] at hnodup
  have hnot := (List.nodup_cons.1 (List.perm_middle.nodup_iff.1 hnodup)).1
  rw [List.mem_append, not_or] at hnot
  obtain ⟨hl, -, hr⟩ := (List.append_cons_inj_of_notMem hnot.1 hnot.2).1 (h₁.symm.trans h₂)
  exact ⟨hl, hr⟩

theorem Represents.nodup_free {a : Arena} {p : Plan} (h : Represents a p) : p.free.Nodup :=
  h.listed.nodup_iff.2 (h.laid.tiles.nodup.filter _)

namespace Plan.Returns

variable {a : Arena} {p p' : Plan} {b q : Block} {pre post earlier later : List Block}

/-- A block behind a free one merges into it. -/
theorem eq_merged (h : p.Returns b p') (hplan : Represents a p)
    (hblocks : p.blocks = pre ++ [q] ++ [b] ++ post) (hq : q.isFree = true)
    (hfree : p.free = earlier ++ [q] ++ later) :
    p' = ⟨pre ++ [q.merge b] ++ post, earlier ++ [q.merge b] ++ later⟩ := by
  have hplace : p.blocks = (pre ++ [q]) ++ b :: post := by simp [hblocks]
  have hturn : p.free = earlier ++ q :: later := by simp [hfree]
  cases h with
  | @merged pre₁ post₁ earlier₁ later₁ q₁ hblocks₁ _ hfree₁ =>
    have hplace₁ : p.blocks = (pre₁ ++ [q₁]) ++ b :: post₁ := by simp [hblocks₁]
    obtain ⟨hpre, rfl⟩ := place_unique hplan.laid.tiles.nodup hplace hplace₁
    obtain ⟨rfl, hq₁⟩ := List.append_inj' hpre rfl
    obtain rfl := (List.cons.inj hq₁).1
    have hturn₁ : p.free = earlier₁ ++ q :: later₁ := by simp [hfree₁]
    obtain ⟨rfl, rfl⟩ := place_unique hplan.nodup_free hturn hturn₁
    rfl
  | @appended pre₁ post₁ hblocks₁ hlast =>
    have hplace₁ : p.blocks = pre₁ ++ b :: post₁ := by simp [hblocks₁]
    obtain ⟨rfl, rfl⟩ := place_unique hplan.laid.tiles.nodup hplace hplace₁
    have hnot := hlast q (by simp)
    simp [hq] at hnot

/-- A block that no free one stands before becomes free by itself. -/
theorem eq_appended (h : p.Returns b p') (hplan : Represents a p)
    (hblocks : p.blocks = pre ++ [b] ++ post)
    (hlast : ∀ q, pre.getLast? = some q → q.isFree = false) :
    p' = ⟨pre ++ [b.freed] ++ post, p.free ++ [b.freed]⟩ := by
  have hplace : p.blocks = pre ++ b :: post := by simp [hblocks]
  cases h with
  | @merged pre₁ post₁ _ _ q₁ hblocks₁ hq₁ _ =>
    have hplace₁ : p.blocks = (pre₁ ++ [q₁]) ++ b :: post₁ := by simp [hblocks₁]
    obtain ⟨rfl, -⟩ := place_unique hplan.laid.tiles.nodup hplace hplace₁
    have hnot := hlast q₁ (by simp)
    simp [hq₁] at hnot
  | @appended pre₁ post₁ hblocks₁ _ =>
    have hplace₁ : p.blocks = pre₁ ++ b :: post₁ := by simp [hblocks₁]
    obtain ⟨rfl, rfl⟩ := place_unique hplan.laid.tiles.nodup hplace hplace₁
    rfl

end Plan.Returns

/-! ## One return after the other -/

/-- The windows are given back one after the other, and none is refused. -/
def InTurn : List Window → (st st' : Allocator × Store) → Prop
  | [], st, st' => st' = st
  | v :: rest, st, st' => ∃ st₁, (giveBack v).run st = .ok () st₁ ∧ InTurn rest st₁ st'

theorem giveBackAll_of_inTurn {windows : List Window} {st st' : Allocator × Store}
    (h : InTurn windows st st') : (Carver.giveBackAll windows).run st = .ok none st' := by
  induction windows generalizing st with
  | nil =>
    obtain rfl := h
    rfl
  | cons v rest ih =>
    obtain ⟨st₁, hback, hrest⟩ := h
    exact Carver.giveBackAll_cons hback (ih hrest)

/-- The number of cells that blocks cover, their records included. -/
def covered (blocks : List Block) : Nat := blocks.foldr (fun b n => b.count + 2 + n) 0

/-- A free block that grew over the blocks right after it. -/
def Block.grow (q : Block) (blocks : List Block) : Block :=
  ⟨q.head, q.count + covered blocks, none⟩

theorem Block.grow_nil {q : Block} (hq : q.isFree = true) : q.grow [] = q := by
  simp only [isFree, Option.isNone_iff_eq_none] at hq
  rw [grow, ← hq]
  rfl

theorem Block.grow_cons (q b : Block) (rest : List Block) :
    (q.merge b).grow rest = q.grow (b :: rest) := by
  simp only [grow, merge, covered, List.foldr_cons, Block.mk.injEq, and_true, true_and]
  omega

/-- The lent ones among some blocks keep all their cells. -/
def KeepsLent (pool : Nat) (blocks : List Block) (s s' : Store) : Prop :=
  Keeps pool (fun i => ∃ c ∈ blocks, c.isFree = false ∧ c.Spans i) s s'

theorem KeepsLent.trans {pool : Nat} {blocks blocks' : List Block} {s s' s'' : Store}
    (h : KeepsLent pool blocks s s') (h' : KeepsLent pool blocks' s' s'')
    (hsub : ∀ c ∈ blocks', c ∈ blocks) : KeepsLent pool blocks' s s'' := by
  refine ⟨Eq.trans h'.size h.size, fun i hi => ?_⟩
  rw [h'.cells i hi]
  obtain ⟨c, hc, hspans⟩ := hi
  exact h.cells i ⟨c, hsub c hc, hspans⟩

namespace Accounts

variable {pool : Nat} {live : List Lease} {st : Allocator × Store} {p : Plan}
  {pre mid post earlier later : List Block} {q b : Block}

/-- The ledger may list the leases in the order of the blocks. -/
theorem own (h : Accounts pool live st p) : Accounts pool (p.leases pool) st p :=
  ⟨h.shared, h.known, h.plan, .refl _⟩

/-- A return leaves the other lent blocks as they are. -/
theorem giveBack_returns (h : Accounts pool live st p) (hblocks : p.blocks = pre ++ [b] ++ post)
    (hlent : b.isFree = false) :
    ∃ l st' p', b.lease? pool = some l ∧ (giveBack l.window).run st = .ok () st' ∧
      p.Returns b p' ∧ Accounts pool (p'.leases pool) st' p' ∧
      KeepsLent pool (pre ++ post) st.2 st'.2 := by
  have hb : b ∈ p.blocks := by simp [hblocks]
  obtain ⟨l, hl, hlease⟩ := h.exists_lease hb hlent
  obtain ⟨st', p', hrun, hreturns, hnew, hkeeps, -⟩ := h.giveBack_block hb hlease
  refine ⟨l, st', p', hlease, hrun, hreturns, hnew.own, hkeeps.size, fun i hi => ?_⟩
  obtain ⟨c, hc, hclent, hspans⟩ := hi
  have hcp : c ∈ p.blocks := by
    rw [hblocks]
    simpa [or_left_comm] using Or.inr (List.mem_append.1 hc)
  have hne : c ≠ b := ne_of_mem_append_of_nodup (hblocks ▸ h.plan.laid.tiles.nodup) hc
  exact hkeeps.cells i (h.plan.not_spans_other hcp hclent hne hspans)

/-- **A free block grows over the lent blocks right behind it** when they are given back in order,
and keeps its place in the free list. -/
theorem inTurn_grow (h : Accounts pool live st p)
    (hblocks : p.blocks = pre ++ [q] ++ mid ++ post) (hq : q.isFree = true)
    (hfree : p.free = earlier ++ [q] ++ later) (hlent : ∀ b ∈ mid, b.isFree = false) :
    ∃ st' p', InTurn ((mid.filterMap (Block.lease? pool)).map Lease.window) st st' ∧
      p' = ⟨pre ++ [q.grow mid] ++ post, earlier ++ [q.grow mid] ++ later⟩ ∧
      Accounts pool (p'.leases pool) st' p' ∧ KeepsLent pool (pre ++ post) st.2 st'.2 := by
  -- on what is still lent, while `q` grows over what was given back
  induction mid generalizing st p live q with
  | nil =>
    refine ⟨st, p, rfl, ?_, h.own, rfl, fun _ _ => rfl⟩
    rw [Block.grow_nil hq, ← hfree, ← List.append_nil (pre ++ [q]), ← hblocks]
  | cons b rest ih =>
    have hsplit : p.blocks = (pre ++ [q]) ++ [b] ++ (rest ++ post) := by simp [hblocks]
    obtain ⟨l, st₁, p₁, hlease, hback, hreturns, hnew, hkeeps⟩ :=
      h.giveBack_returns hsplit (hlent b List.mem_cons_self)
    obtain rfl := hreturns.eq_merged h.plan hsplit hq hfree
    obtain ⟨st', p', hturn, rfl, haccounts, hkeeps'⟩ :=
      ih hnew (by simp) rfl rfl fun c hc => hlent c (List.mem_cons_of_mem _ hc)
    rw [Block.grow_cons] at haccounts
    refine ⟨st', _, ?_, rfl, haccounts, hkeeps.trans hkeeps' fun c hc => ?_⟩
    · rw [List.filterMap_cons_some hlease]
      exact ⟨st₁, hback, hturn⟩
    · cases List.mem_append.1 hc with
      | inl hpre => simp [hpre]
      | inr hpost => simp [hpost]

/-- **Without a free block before them, they become a new one** at the end of the free list. -/
theorem inTurn_fresh (h : Accounts pool live st p)
    (hblocks : p.blocks = pre ++ (b :: mid) ++ post)
    (hlast : ∀ q, pre.getLast? = some q → q.isFree = false)
    (hlent : ∀ c ∈ b :: mid, c.isFree = false) :
    ∃ st' p', InTurn (((b :: mid).filterMap (Block.lease? pool)).map Lease.window) st st' ∧
      p' = ⟨pre ++ [b.freed.grow mid] ++ post, p.free ++ [b.freed.grow mid]⟩ ∧
      Accounts pool (p'.leases pool) st' p' ∧ KeepsLent pool (pre ++ post) st.2 st'.2 := by
  have hsplit : p.blocks = pre ++ [b] ++ (mid ++ post) := by simp [hblocks]
  obtain ⟨l, st₁, p₁, hlease, hback, hreturns, hnew, hkeeps⟩ :=
    h.giveBack_returns hsplit (hlent b List.mem_cons_self)
  have hp₁ := hreturns.eq_appended h.plan hsplit hlast
  have hblocks₁ : p₁.blocks = pre ++ [b.freed] ++ mid ++ post := by simp [hp₁]
  have hfree₁ : p₁.free = p.free ++ [b.freed] ++ [] := by simp [hp₁]
  obtain ⟨st', p', hturn, rfl, haccounts, hkeeps'⟩ :=
    hnew.inTurn_grow hblocks₁ rfl hfree₁ fun c hc => hlent c (List.mem_cons_of_mem _ hc)
  rw [List.append_nil] at haccounts
  refine ⟨st', _, ?_, rfl, haccounts, hkeeps.trans hkeeps' fun c hc => ?_⟩
  · rw [List.filterMap_cons_some hlease]
    exact ⟨st₁, hback, hturn⟩
  · cases List.mem_append.1 hc with
    | inl hpre => simp [hpre]
    | inr hpost => simp [hpost]

end Accounts

/-! ## Run by run -/

/-- The runs `mid`, with the runs `before` and `after` them in the pool, became free cells. -/
structure Coalesces (pool : Nat) (st st' : Allocator × Store)
    (free runs' free' before mid after : List Run) : Prop where
  shown : Shown st' runs' free'
  /-- A free run right before them grows by all their cells, the records included, and keeps its
  place in the free list. -/
  grown : ∀ pre q, before = pre ++ [q] → q.kind = .free →
    runs'.map Run.extent = pre.map Run.extent ++ [⟨q.head, q.count + spanned mid, .free⟩] ++
      after.map Run.extent ∧
    (∃ earlier later, free = earlier ++ [q] ++ later ∧ free'.map Run.extent =
      earlier.map Run.extent ++ [⟨q.head, q.count + spanned mid, .free⟩] ++
        later.map Run.extent) ∧
    (st'.1.arena st'.2).firstFree = (st.1.arena st.2).firstFree
  /-- Otherwise they become one free run, which stands at the end of the free list. -/
  fresh : (∀ q, before.getLast? = some q → q.kind ≠ .free) → ∀ r, mid.head? = some r →
    runs'.map Run.extent = before.map Run.extent ++ [⟨r.head, spanned mid - 2, .free⟩] ++
      after.map Run.extent ∧
    free'.map Run.extent = free.map Run.extent ++ [⟨r.head, spanned mid - 2, .free⟩] ∧
    (st'.1.arena st'.2).firstFree =
      if free = [] then (r.head : Int) else (st.1.arena st.2).firstFree
  /-- The other runs that are lent keep all their cells, records and slack included. -/
  kept : ∀ x ∈ before ++ after, x.kind ≠ .free → ∀ i, x.head ≤ i → i < x.stop →
    st'.2.peek pool i = st.2.peek pool i

theorem spanned_map_toRun (cells : Array Cell) (blocks : List Block) :
    spanned (blocks.map (Block.toRun cells)) = covered blocks := by
  rw [spanned, List.foldr_map]
  rfl

theorem KeepsLent.kept {pool : Nat} {blocks : List Block} {s s' : Store}
    (h : KeepsLent pool blocks s s') {c : Block} (hc : c ∈ blocks) (hkind : c.kind ≠ .free)
    {i : Nat} (hi : c.Spans i) : s'.peek pool i = s.peek pool i :=
  h.cells i ⟨c, hc, Bool.eq_false_iff.2 fun hfree => hkind (Block.kind_of_isFree hfree), hi⟩

namespace Accounts

variable {pool : Nat} {live : List Lease} {st : Allocator × Store} {p : Plan}
  {pre mid post earlier later : List Block} {q b : Block}

/-- Lent runs behind a free run that are given back in order. -/
theorem coalesces_grown (h : Accounts pool live st p)
    (hblocks : p.blocks = pre ++ [q] ++ mid ++ post) (hq : q.isFree = true)
    (hlent : ∀ b ∈ mid, b.isFree = false) :
    ∃ st' runs' free',
      InTurn ((mid.filterMap (Block.lease? pool)).map Lease.window) st st' ∧
      Coalesces pool st st' (p.free.map (Block.toRun (st.2.cells pool))) runs' free'
        ((pre ++ [q]).map (Block.toRun (st.2.cells pool)))
        (mid.map (Block.toRun (st.2.cells pool)))
        (post.map (Block.toRun (st.2.cells pool))) := by
  obtain ⟨earlier, later, hturns⟩ := List.append_of_mem (h.plan.mem_free (b := q)
    (by simp [hblocks]) hq)
  have hfree : p.free = earlier ++ [q] ++ later := by simp [hturns]
  obtain ⟨st', p', hturn, rfl, hnew, hkeeps⟩ := h.inTurn_grow hblocks hq hfree hlent
  refine ⟨st', _, _, hturn, hnew.shown, fun pre' q' hbefore _ => ?_, fun hlast => ?_,
    fun x hx hkind i hlow hhigh => ?_⟩
  · rw [List.map_append, List.map_singleton] at hbefore
    obtain ⟨rfl, hsame⟩ := List.append_inj' hbefore rfl
    obtain rfl := (List.cons.inj hsame).1
    rw [spanned_map_toRun]
    refine ⟨?_, ⟨earlier.map (Block.toRun (st.2.cells pool)),
      later.map (Block.toRun (st.2.cells pool)), ?_, ?_⟩, ?_⟩
    · simp only [map_extent_toRun, List.map_append, List.map_singleton]
      rfl
    · rw [hfree]
      simp only [List.map_append, List.map_singleton]
    · simp only [map_extent_toRun, List.map_append, List.map_singleton]
      rfl
    · rw [hnew.plan.linked.link_eq, h.plan.linked.link_eq, hfree]
      cases earlier <;> rfl
  · have hnot := hlast (q.toRun (st.2.cells pool)) (by simp)
    exact absurd (Block.kind_of_isFree hq) hnot
  · rw [← List.map_append] at hx
    obtain ⟨c, hc, rfl⟩ := List.mem_map.1 hx
    have hne : c ≠ q := by
      intro he
      exact hkind (he ▸ Block.kind_of_isFree hq)
    have hmem : c ∈ pre ++ post := by
      simpa [hne] using hc
    exact hkeeps.kept hmem hkind ⟨hlow, hhigh⟩

/-- Lent runs that no free run stands before are given back in order. -/
theorem coalesces_fresh (h : Accounts pool live st p)
    (hblocks : p.blocks = pre ++ (b :: mid) ++ post)
    (hlast : ∀ q, pre.getLast? = some q → q.isFree = false)
    (hlent : ∀ c ∈ b :: mid, c.isFree = false) :
    ∃ st' runs' free',
      InTurn (((b :: mid).filterMap (Block.lease? pool)).map Lease.window) st st' ∧
      Coalesces pool st st' (p.free.map (Block.toRun (st.2.cells pool))) runs' free'
        (pre.map (Block.toRun (st.2.cells pool)))
        ((b :: mid).map (Block.toRun (st.2.cells pool)))
        (post.map (Block.toRun (st.2.cells pool))) := by
  obtain ⟨st', p', hturn, rfl, hnew, hkeeps⟩ := h.inTurn_fresh hblocks hlast hlent
  have hgrown : ∀ cells, ((b.freed.grow mid).toRun cells).extent =
      ⟨b.head, covered (b :: mid) - 2, .free⟩ := by
    intro cells
    simp only [Run.extent, Block.toRun, Block.grow, Block.freed, Block.kind, covered,
      List.foldr_cons, Extent.mk.injEq, and_true, true_and]
    omega
  refine ⟨st', _, _, hturn, hnew.shown, fun pre' q' hbefore hkind => ?_, fun _ r hr => ?_,
    fun x hx hkind i hlow hhigh => ?_⟩
  · have hend : (pre.map (Block.toRun (st.2.cells pool))).getLast? = some q' := by
      rw [hbefore, List.getLast?_concat]
    rw [List.getLast?_map] at hend
    obtain ⟨q, hq, rfl⟩ := Option.map_eq_some_iff.1 hend
    have hmem : q ∈ p.blocks := by
      rw [hblocks]
      simp [List.mem_of_getLast? hq]
    have hqfree := (h.plan.laid.fit q hmem).isFree_iff.2 hkind
    simp [hlast q hq] at hqfree
  · obtain rfl : b.toRun (st.2.cells pool) = r := Option.some.inj hr
    rw [spanned_map_toRun]
    refine ⟨?_, ?_, ?_⟩
    · simp only [map_extent_toRun, List.map_append, List.map_singleton, hgrown,
        Block.head_toRun]
    · simp only [map_extent_toRun, List.map_append, List.map_singleton, hgrown,
        Block.head_toRun]
    · rw [hnew.plan.linked.link_eq, h.plan.linked.link_eq]
      cases p.free <;> rfl
  · rw [← List.map_append] at hx
    obtain ⟨c, hc, rfl⟩ := List.mem_map.1 hx
    exact hkeeps.kept hc hkind ⟨hlow, hhigh⟩

/-- **Neighbouring lent runs become one free run**, with and without a free run right before. -/
theorem coalesces (h : Accounts pool live st p) (hblocks : p.blocks = pre ++ mid ++ post)
    (hne : mid ≠ []) (hlent : ∀ b ∈ mid, b.isFree = false) :
    ∃ st' runs' free',
      InTurn ((mid.filterMap (Block.lease? pool)).map Lease.window) st st' ∧
      Coalesces pool st st' (p.free.map (Block.toRun (st.2.cells pool))) runs' free'
        (pre.map (Block.toRun (st.2.cells pool)))
        (mid.map (Block.toRun (st.2.cells pool)))
        (post.map (Block.toRun (st.2.cells pool))) := by
  cases mid with
  | nil => exact absurd rfl hne
  | cons b rest =>
    by_cases hlast : ∀ q, pre.getLast? = some q → q.isFree = false
    · exact h.coalesces_fresh hblocks hlast hlent
    · simp only [not_forall, Bool.not_eq_false] at hlast
      obtain ⟨q, hq, hfree⟩ := hlast
      obtain ⟨pre, rfl⟩ := List.getLast?_eq_some_iff.1 hq
      exact h.coalesces_grown hblocks hfree hlent

/-- The leases on the runs of lent blocks are those of the blocks. -/
theorem leases_of_lends (h : Accounts pool live st p) {blocks : List Block}
    (hblocks : ∀ b ∈ blocks, b ∈ p.blocks) {cells : Array Cell} {pairs : List (Run × Lease)}
    (hruns : pairs.map Prod.fst = blocks.map (Block.toRun cells))
    (hpairs : ∀ x ∈ pairs, x.2 ∈ live ∧ Lends pool x.1 x.2) :
    pairs.map Prod.snd = blocks.filterMap (Block.lease? pool) := by
  induction blocks generalizing pairs with
  | nil =>
    obtain rfl := List.map_eq_nil_iff.1 hruns
    rfl
  | cons b rest ih =>
    cases pairs with
    | nil => cases hruns
    | cons x pairs =>
      obtain ⟨hfirst, hrest⟩ := List.cons.inj hruns
      obtain ⟨hl, hlends⟩ := hpairs x List.mem_cons_self
      obtain ⟨c, hc, hlease⟩ := h.exists_block hl
      -- the window starts behind the head of one block only
      have hhead : c.head = b.head := by
        have hplace := hlends.place.2
        rw [hfirst, Block.head_toRun] at hplace
        have hoffset := (Block.lease?_eq_some hlease).2.2
        omega
      obtain rfl := h.plan.laid.tiles.eq_of_head hc (hblocks b List.mem_cons_self) hhead
      rw [List.filterMap_cons_some hlease, List.map_cons]
      exact congrArg (x.2 :: ·) (ih (fun d hd => hblocks d (List.mem_cons_of_mem _ hd)) hrest
        fun y hy => hpairs y (List.mem_cons_of_mem _ hy))

end Accounts

/-- **Neighbours given back in order become one free run.** In every world that a pool can come to,
take any lent runs that stand one right behind the other in the pool. Each has its window in the
ledger, and when these are given back in the order of their addresses none is refused. A free run
right before them has then grown by all of their cells and records and has kept its place in the
free list; without one, a new free run starts where they did and stands at the end of the list. All
other runs and the rest of the list are as they were. -/
theorem neighbours_coalesce {pool : Nat} {w : World} (h : w.Reachable pool)
    {before mid after : List Run} (hruns : w.arena.runs = some (before ++ mid ++ after))
    (hne : mid ≠ []) (hlent : ∀ r ∈ mid, r.kind ≠ .free) :
    (∃ pairs : List (Run × Lease), pairs.map Prod.fst = mid ∧
      ∀ x ∈ pairs, x.2 ∈ w.live ∧ Lends pool x.1 x.2) ∧
    ∀ pairs : List (Run × Lease), pairs.map Prod.fst = mid →
      (∀ x ∈ pairs, x.2 ∈ w.live ∧ Lends pool x.1 x.2) →
      ∃ free st runs' free', w.arena.freeRuns = some free ∧
        InTurn (pairs.map fun x => x.2.window) w.state st ∧
        (Carver.giveBackAll (pairs.map fun x => x.2.window)).run w.state = .ok none st ∧
        Coalesces pool w.state st free runs' free' before mid after := by
  obtain ⟨p, haccounts⟩ := h.kept
  have hseen : w.arena.runs = some (p.blocks.map (Block.toRun (w.store.cells pool))) :=
    haccounts.shown.runs_eq
  obtain ⟨front, post, hblocks, hfront, rfl⟩ :=
    List.map_eq_append_iff.1 (Option.some.inj (hseen.symm.trans hruns))
  obtain ⟨pre, mid, rfl, rfl, rfl⟩ := List.map_eq_append_iff.1 hfront
  have hmem : ∀ b ∈ mid, b ∈ p.blocks := fun b hb => by simp [hblocks, hb]
  have hbusy : ∀ b ∈ mid, b.isFree = false := fun b hb =>
    Bool.eq_false_iff.2 fun hfree =>
      hlent _ (List.mem_map_of_mem hb) (Block.kind_of_isFree hfree)
  refine ⟨?_, fun pairs hfst hpairs => ?_⟩
  · refine ⟨Plan.pairs pool (w.store.cells pool) ⟨mid, []⟩, ?_, fun x hx => ?_⟩
    · rw [Plan.map_fst_pairs, List.filter_eq_self.2 fun b hb => by simp [hbusy b hb]]
    · obtain ⟨firstFree, -, -, hplan⟩ := haccounts.represents
      obtain ⟨b, hb, hpair⟩ := List.mem_filterMap.1 hx
      have hx' : x ∈ p.pairs pool (w.store.cells pool) :=
        List.mem_filterMap.2 ⟨b, hmem b hb, hpair⟩
      obtain ⟨l, hlease, rfl⟩ := Option.map_eq_some_iff.1 hpair
      exact ⟨haccounts.ledger.symm.subset (List.mem_filterMap.2 ⟨b, hmem b hb, hlease⟩),
        hplan.lends hx'⟩
  · obtain ⟨st, runs', free', hturn, hcoalesces⟩ :=
      haccounts.coalesces hblocks (fun he => hne (he ▸ rfl)) hbusy
    rw [← haccounts.leases_of_lends hmem hfst hpairs, List.map_map] at hturn
    exact ⟨_, st, runs', free', haccounts.shown.free_eq, hturn, giveBackAll_of_inTurn hturn,
      hcoalesces⟩

/-- Forty cells, of which five windows were lent. The second one was given back and its run lent
again for a smaller one, then the first one was given back: the three after it stand right behind a
free run, and the first of them has a cell more than was asked for. -/
theorem neighbours_coalesce_forty : ∃ (w : World) (before mid after : List Run), w.Reachable 0 ∧
    w.arena.runs = some (before ++ mid ++ after) ∧ mid ≠ [] ∧ (∀ r ∈ mid, r.kind ≠ .free) ∧
    before.map Run.extent = [⟨0, 2, .free⟩] ∧ spanned mid = 14 ∧
    (∃ pairs : List (Run × Lease), pairs.map Prod.fst = mid ∧
      ∀ x ∈ pairs, x.2 ∈ w.live ∧ Lends 0 x.1 x.2) ∧
    ∀ pairs : List (Run × Lease), pairs.map Prod.fst = mid →
      (∀ x ∈ pairs, x.2 ∈ w.live ∧ Lends 0 x.1 x.2) →
      ∃ free st runs' free', w.arena.freeRuns = some free ∧
        InTurn (pairs.map fun x => x.2.window) w.state st ∧
        (Carver.giveBackAll (pairs.map fun x => x.2.window)).run w.state = .ok none st ∧
        Coalesces 0 w.state st free runs' free' before mid after := by
  let store : Store := ⟨#[Array.replicate 40 Cell.zero]⟩
  let actions : List Action :=
    [.obtain 16 .heap, .obtain 24 .stack, .obtain 32 .heap, .obtain 8 .program, .obtain 144 .stack,
      .giveBack ⟨⟨0, 5, 3⟩, .stack⟩, .obtain 16 .global, .giveBack ⟨⟨0, 1, 2⟩, .heap⟩]
  let mid : List Run := [⟨4, 3, .global, noRun⟩, ⟨9, 4, .heap, noRun⟩, ⟨15, 1, .program, noRun⟩]
  obtain ⟨w, hreach, hruns⟩ := World.exists_reachable 0 store actions
    (P := fun w => w.arena.runs =
      some ([⟨0, 2, .free, noRun⟩] ++ mid ++ [⟨18, 20, .stack, noRun⟩]))
    (by decide) (by decide +kernel)
  have hne : mid ≠ [] := by decide
  have hlent : ∀ r ∈ mid, r.kind ≠ .free := by decide
  exact ⟨w, _, mid, _, hreach, hruns, hne, hlent, rfl, rfl,
    neighbours_coalesce hreach hruns hne hlent⟩

end CellMachine.Allocator
