import CellMachine.Proofs.Coalescing

/-!
# Where the segments of a process lie

Which blocks the segments of a process are carved from, and what becomes of the blocks when they are
given back:

* `carveAll_of_room`: windows find room if one block has room for all of them;
* `create_outOfMemory`: a process that could be asked for is refused for want of memory only;
* `create_from`: its segments are carved from one block, one behind the other, if it is the first in
  the free list that is not too short for each;
* `giveBackAll_from`: segments that lie one behind the other are given back in order, and no free
  block starts between them.
-/

namespace CellMachine

open Allocator

namespace Allocator

/-! ## Neighbours -/

theorem Tiles.next {l : List Block} {start stop : Nat} (h : Tiles start l stop) {b : Block}
    (hb : b ∈ l) : b.stop = stop ∨ ∃ c ∈ l, c.head = b.stop := by
  induction l generalizing start with
  | nil => simp at hb
  | cons d rest ih =>
    rcases List.mem_cons.1 hb with rfl | hb
    · cases rest with
      | nil => exact .inl h.2
      | cons c rest => exact .inr ⟨c, by simp, h.2.1⟩
    · rcases ih h.2 hb with hstop | ⟨c, hc, hhead⟩
      · exact .inl hstop
      · exact .inr ⟨c, List.mem_cons_of_mem _ hc, hhead⟩

theorem Block.rest_eq {f : Block} {count : Nat} (h : minimumRunCells ≤ f.count - count) :
    f.rest count = [⟨f.head + 2 + count, f.count - (2 + count), none⟩] := by
  rw [Block.rest, if_neg (Nat.not_lt.2 h)]

theorem Block.head_of_mem_rest {f c : Block} {count : Nat} (h : c ∈ f.rest count) :
    c.head = f.head + (count + 2) := by
  unfold Block.rest at h
  split at h
  · simp at h
  · obtain rfl := List.mem_singleton.1 h
    dsimp only
    omega

/-- When all blocks are free, nothing is lent. -/
theorem Accounts.of_isFree {pool : Nat} {live : List Lease} {st : Allocator × Store} {p : Plan}
    (h : Accounts pool live st p) (hfree : ∀ b ∈ p.blocks, b.isFree = true) :
    Accounts pool [] st p := by
  have hnone : p.leases pool = [] :=
    List.filterMap_eq_nil_iff.2 fun b hb => Block.lease?_of_isFree pool (hfree b hb)
  exact ⟨h.shared, h.known, h.plan, .of_eq hnone.symm⟩

end Allocator

namespace Carver

/-! ## Carving from a pick -/

/-- The cells that windows take in a pool, their records included. -/
def room (plan : List (Nat × Kind)) : Nat := plan.foldr (fun entry n => entry.1 + 2 + n) 0

@[simp] theorem room_nil : room [] = 0 := rfl

@[simp] theorem room_cons (entry : Nat × Kind) (rest : List (Nat × Kind)) :
    room (entry :: rest) = entry.1 + 2 + room rest :=
  rfl

theorem room_perm {l l' : List (Nat × Kind)} (h : l.Perm l') : room l = room l' := by
  induction h with
  | nil => rfl
  | cons entry _ ih => rw [room_cons, room_cons, ih]
  | swap entry entry' l =>
    simp only [room_cons]
    omega
  | trans _ _ ih ih' => exact ih.trans ih'

/-- The cells a process takes in a pool. -/
def footprint (layout : Layout) (image : Image) : Nat := room (plan layout image)

theorem footprint_pos (layout : Layout) (image : Image) : 0 < footprint layout image := by
  simp only [footprint, plan, room_cons]
  omega

theorem Admitted.pos {cells : Nat} {kind : Kind} (h : Admitted cells kind) : 1 ≤ cells :=
  (requestedCells_ok h.requested).1

theorem le_room {plan : List (Nat × Kind)} {entry : Nat × Kind} (h : entry ∈ plan) :
    entry.1 + 2 ≤ room plan := by
  induction plan with
  | nil => simp at h
  | cons first rest ih =>
    rw [room_cons]
    rcases List.mem_cons.1 h with rfl | h
    · omega
    · have := ih h
      omega

section
variable {pool : Nat} {live : List Lease} {st : Allocator × Store} {p : Plan}

theorem carve_pick (h : Accounts pool live st p) {cells : Nat} {kind : Kind}
    (ha : Admitted cells kind) (pick : Pick p cells) :
    ∃ st', (carve cells kind).run st = .ok ⟨pool, pick.block.head + 1, cells⟩ st' ∧
      Accounts pool (⟨⟨pool, pick.block.head + 1, cells⟩, kind⟩ :: live) st'
        (p.lend pick kind) := by
  obtain ⟨st₁, hrun, hnew, -, -⟩ := h.obtain_pick ha.requested pick
  refine ⟨_, ?_, hnew.touch List.mem_cons_self (Store.touches_clear st₁.2 _)⟩
  unfold carve
  rw [if_neg (Nat.not_lt.2 ha.1)]
  exact run_bind_ok hrun _

/-! ## Room for everything in one block -/

theorem mem_free_lend {cells : Nat} (pick : Pick p cells) (kind : Kind) {b : Block}
    (hb : b ∈ p.free) (hne : b ≠ pick.block) : b ∈ (p.lend pick kind).free := by
  rw [pick.free_eq] at hb
  simp only [List.mem_append, List.mem_singleton, hne, or_false] at hb
  simp only [Plan.lend, List.mem_append]
  rcases hb with hb | hb <;> simp [hb]

/-- **Windows find room if one block has room for all of them**, wherever each is carved. -/
theorem carveAll_of_room (h : Accounts pool live st p) {plan : List (Nat × Kind)}
    (ha : ∀ entry ∈ plan, Admitted entry.1 entry.2) (ws : List Window)
    (hroom : plan ≠ [] → ∃ b ∈ p.free, room plan ≤ b.count + 2) :
    ∃ ws' st', (carveAll plan ws).run st = .ok ws' st' := by
  induction plan generalizing live st p ws with
  | nil => exact ⟨ws, st, rfl⟩
  | cons entry rest ih =>
    obtain ⟨cells, kind⟩ := entry
    have hadmitted : Admitted cells kind := ha _ List.mem_cons_self
    have hrest : ∀ entry ∈ rest, Admitted entry.1 entry.2 := fun entry hentry =>
      ha entry (List.mem_cons_of_mem _ hentry)
    obtain ⟨b, hb, hle⟩ := hroom (List.cons_ne_nil _ _)
    rw [room_cons] at hle
    dsimp only at hle
    obtain ⟨pick⟩ : Nonempty (Pick p cells) := h.plan.exists_pick ⟨b, hb, by omega⟩
    obtain ⟨st₁, hcarve, hnew⟩ := carve_pick h hadmitted pick
    rw [carveAll, run_bind_ok (attempt_run_ok hcarve)]
    refine ih hnew hrest _ fun hne => ?_
    by_cases hpicked : b = pick.block
    · -- the rest of the block is long enough for the others
      obtain ⟨next, hnext⟩ := List.exists_mem_of_ne_nil rest hne
      have hshort := le_room hnext
      have hpos := (hrest next hnext).pos
      subst hpicked
      have hsplit : pick.block.rest cells = _ :=
        Block.rest_eq (by simp only [minimumRunCells]; omega)
      refine ⟨⟨pick.block.head + 2 + cells, pick.block.count - (2 + cells), none⟩, ?_, ?_⟩
      · simp [Plan.lend, hsplit]
      · dsimp only
        omega
    · exact ⟨b, mem_free_lend pick kind hb hpicked, by omega⟩

/-! ## One block after the other -/

/-- Windows were carved from the front of a block, one behind the other: the blocks `lent` have
taken its place, and `tail` is what is left of it. -/
structure Carved (pool : Nat) (f : Block) (pre post : List Block) (plan : List (Nat × Kind))
    (lent tail : List Block) (p : Plan) : Prop where
  blocks : p.blocks = pre ++ lent ++ tail ++ post
  busy : ∀ b ∈ lent, b.isFree = false
  first : ∃ b rest, lent = b :: rest ∧ b.head = f.head
  asked : (lent.filterMap (Block.lease? pool)).map (fun l => (l.window.length, l.kind)) = plan
  left : ∀ c ∈ tail, c.isFree = true ∧ c.head = f.head + room plan

/-- **Windows are carved from one block** if it has room for all of them, and the blocks before it
in the free list are too short for each. -/
theorem carveAll_from {f : Block} {pre post earlier later : List Block}
    (h : Accounts pool live st p) (hblocks : p.blocks = pre ++ [f] ++ post)
    (hfree : p.free = earlier ++ [f] ++ later) {plan : List (Nat × Kind)} (hne : plan ≠ [])
    (ha : ∀ entry ∈ plan, Admitted entry.1 entry.2)
    (hsmall : ∀ b ∈ earlier, ∀ entry ∈ plan, b.count < entry.1)
    (hroom : room plan ≤ f.count + 2) (ws : List Window) :
    ∃ lent tail st' p', (carveAll plan ws).run st =
        .ok (ws ++ (lent.filterMap (Block.lease? pool)).map Lease.window) st' ∧
      Accounts pool (p'.leases pool) st' p' ∧ Carved pool f pre post plan lent tail p' := by
  induction plan generalizing live st p f pre ws with
  | nil => exact absurd rfl hne
  | cons entry rest ih =>
    obtain ⟨cells, kind⟩ := entry
    have hadmitted : Admitted cells kind := ha _ List.mem_cons_self
    have hrest : ∀ entry ∈ rest, Admitted entry.1 entry.2 := fun entry hentry =>
      ha entry (List.mem_cons_of_mem _ hentry)
    rw [room_cons] at hroom
    dsimp only at hroom
    let pick : Pick p cells := ⟨f, pre, post, earlier, later, hblocks, hfree,
      fun b hb => hsmall b hb _ List.mem_cons_self, by omega⟩
    obtain ⟨st₁, hcarve, hnew⟩ := carve_pick h hadmitted pick
    have hlease : (f.lend cells kind).lease? pool = some ⟨⟨pool, f.head + 1, cells⟩, kind⟩ := rfl
    have hblocks₁ : (p.lend pick kind).blocks =
        pre ++ (f.lend cells kind :: f.rest cells) ++ post := rfl
    have hfree₁ : (p.lend pick kind).free = earlier ++ f.rest cells ++ later := rfl
    rw [carveAll, run_bind_ok (attempt_run_ok hcarve)]
    dsimp only
    cases rest with
    | nil =>
      refine ⟨[f.lend cells kind], f.rest cells, st₁, _, ?_, hnew.own, ?_, ?_, ?_, ?_, ?_⟩
      · simp only [List.filterMap_cons, hlease, List.filterMap_nil, List.map_cons, List.map_nil]
        rfl
      · rw [hblocks₁]
        simp
      · simp only [List.mem_singleton, forall_eq]
        rfl
      · exact ⟨_, [], rfl, rfl⟩
      · simp only [List.filterMap_cons, hlease, List.filterMap_nil, List.map_cons, List.map_nil]
      · intro c hc
        exact ⟨Block.isFree_of_mem_rest hc, Block.head_of_mem_rest hc⟩
    | cons next others =>
      -- the next window is carved from what was split off
      have hshort := le_room (List.mem_cons_self (a := next) (l := others))
      have hpos := (hrest next List.mem_cons_self).pos
      let f' : Block := ⟨f.head + 2 + cells, f.count - (2 + cells), none⟩
      have hsplit : f.rest cells = [f'] := Block.rest_eq (by simp only [minimumRunCells]; omega)
      have hblocks₂ : (p.lend pick kind).blocks =
          (pre ++ [f.lend cells kind]) ++ [f'] ++ post := by
        rw [hblocks₁, hsplit]
        simp
      rw [hsplit] at hfree₁
      obtain ⟨lent, tail, st₂, p₂, hrun, haccounts, hcarved⟩ :=
        ih hnew hblocks₂ hfree₁ (List.cons_ne_nil _ _) hrest
          (fun b hb entry hentry => hsmall b hb entry (List.mem_cons_of_mem _ hentry))
          (by dsimp only [f']; omega) (ws ++ [⟨pool, f.head + 1, cells⟩])
      refine ⟨f.lend cells kind :: lent, tail, st₂, p₂, ?_, haccounts, ?_, ?_, ?_, ?_, ?_⟩
      · rw [hrun]
        simp only [List.filterMap_cons, hlease, List.map_cons, List.append_assoc,
          List.singleton_append]
      · rw [hcarved.blocks]
        simp
      · intro b hb
        rcases List.mem_cons.1 hb with rfl | hb
        · rfl
        · exact hcarved.busy b hb
      · exact ⟨_, lent, rfl, rfl⟩
      · simp only [List.filterMap_cons, hlease, List.map_cons, hcarved.asked]
      · intro c hc
        obtain ⟨hcfree, hhead⟩ := hcarved.left c hc
        refine ⟨hcfree, ?_⟩
        rw [hhead]
        simp only [room_cons, f']
        omega

/-- **Neighbouring blocks that are given back in order become one**, with a free block before them
or without. -/
theorem giveBackAll_from {pre lent post : List Block} (h : Accounts pool (p.leases pool) st p)
    (hblocks : p.blocks = pre ++ lent ++ post) (hpre : ∀ q ∈ pre, q.isFree = true)
    (hlent : ∀ b ∈ lent, b.isFree = false) {start : Nat}
    (hfirst : ∃ b rest, lent = b :: rest ∧ b.head = start) :
    ∃ st' p' pre',
      (giveBackAll ((lent.filterMap (Block.lease? pool)).map Lease.window)).run st =
        .ok none st' ∧
      Accounts pool (p'.leases pool) st' p' ∧ p'.blocks = pre' ++ post ∧
      (∀ q ∈ pre', q.isFree = true) ∧
      ∀ q ∈ pre', q.head ∈ pre.map Block.head ∨ q.head = start := by
  rcases List.eq_nil_or_concat pre with rfl | ⟨pre, q, rfl⟩
  · obtain ⟨b, rest, rfl, rfl⟩ := hfirst
    obtain ⟨st', p', hturn, rfl, haccounts, -⟩ :=
      h.inTurn_fresh hblocks (fun q hq => by simp at hq) hlent
    refine ⟨st', _, [b.freed.grow rest], giveBackAll_of_inTurn hturn, haccounts, rfl, ?_, ?_⟩
    · intro c hc
      obtain rfl := List.mem_singleton.1 hc
      rfl
    · intro c hc
      obtain rfl := List.mem_singleton.1 hc
      exact .inr rfl
  · rw [List.concat_eq_append] at *
    have hq : q.isFree = true := hpre q (by simp)
    obtain ⟨earlier, later, hfree⟩ :=
      List.append_of_mem (h.plan.mem_free (by simp [hblocks] : q ∈ p.blocks) hq)
    rw [List.append_cons] at hfree
    obtain ⟨st', p', hturn, rfl, haccounts, -⟩ := h.inTurn_grow hblocks hq hfree hlent
    refine ⟨st', _, pre ++ [q.grow lent], giveBackAll_of_inTurn hturn, haccounts, rfl, ?_, ?_⟩
    · intro c hc
      cases List.mem_append.1 hc with
      | inl hold => exact hpre c (by simp [hold])
      | inr hnew =>
        obtain rfl := List.mem_singleton.1 hnew
        rfl
    · intro c hc
      refine .inl ?_
      cases List.mem_append.1 hc with
      | inl hold => exact List.mem_map_of_mem (List.mem_append_left _ hold)
      | inr hnew =>
        obtain rfl := List.mem_singleton.1 hnew
        simp [Block.grow]

/-! ## A process in a known place -/

theorem fill_accounts (h : Accounts pool live st p) {l : Lease} (hl : l ∈ live) {cells : List Cell}
    (hle : cells.length ≤ l.window.length) :
    ∃ st', (fill l.window cells).run st = .ok () st' ∧ Accounts pool live st' p := by
  have ht : Store.Touches l.window st.2 (st.2.overwritten l.window.pool l.window.offset cells) :=
    Store.touches_overwritten (by omega : 0 + cells.length ≤ l.window.length)
  refine ⟨(st.1, st.2.overwritten l.window.pool l.window.offset cells), ?_, h.touch hl ht⟩
  unfold fill
  rw [if_neg (by omega)]
  rfl

section
variable {layout : Layout} {image : Image} {f : Block} {pre post earlier later : List Block}

theorem create_from (h : Accounts pool live st p) (hblocks : p.blocks = pre ++ [f] ++ post)
    (hfree : p.free = earlier ++ [f] ++ later)
    (ha : ∀ entry ∈ plan layout image, Admitted entry.1 entry.2)
    (hsmall : ∀ b ∈ earlier, ∀ entry ∈ plan layout image, b.count < entry.1)
    (hroom : footprint layout image ≤ f.count + 2) :
    ∃ lent tail g st' p', (create layout image).run st = .ok g st' ∧
      g.leases = lent.filterMap (Block.lease? pool) ∧ Accounts pool (p'.leases pool) st' p' ∧
      Carved pool f pre post (plan layout image) lent tail p' := by
  obtain ⟨lent, tail, st₁, p₁, hrun, haccounts, hcarved⟩ :=
    carveAll_from h hblocks hfree (List.cons_ne_nil _ _) ha hsmall hroom []
  obtain ⟨g, hg, hprogram, hglobal, -⟩ := exists_segments hcarved.asked
  have hleases : ∀ l ∈ g.leases, l ∈ p₁.leases pool := by
    intro l hl
    rw [← hg] at hl
    simp only [Plan.leases, hcarved.blocks, List.filterMap_append, List.mem_append]
    exact .inl (.inl (.inr hl))
  obtain ⟨hcode, hdata⟩ := image_fits hprogram hglobal
  obtain ⟨st₂, hfill₁, haccounts₂⟩ :=
    fill_accounts haccounts (hleases ⟨g.program, .program⟩ (by simp [Segments.leases])) hcode
  obtain ⟨st₃, hfill₂, haccounts₃⟩ :=
    fill_accounts haccounts₂ (hleases ⟨g.global, .global⟩ (by simp [Segments.leases])) hdata
  rw [hg, List.nil_append] at hrun
  exact ⟨lent, tail, g, st₃, p₁, create_of_fills hrun hfill₁ hfill₂, hg.symm, haccounts₃, hcarved⟩

end

/-! ## Served or out of memory -/

section
variable {layout : Layout} {image : Image}

theorem create_of_room (h : Accounts pool live st p)
    (ha : ∀ entry ∈ plan layout image, Admitted entry.1 entry.2)
    (hroom : ∃ b ∈ p.free, footprint layout image ≤ b.count + 2) :
    ∃ g st', (create layout image).run st = .ok g st' := by
  obtain ⟨ws, st₁, hcarved⟩ := carveAll_of_room h ha [] fun _ => hroom
  have hlent : Lent pool ([] ++ live) st := ⟨p, h⟩
  rcases carveAll_run (supply_lent pool) hlent (plan layout image) with
    ⟨new, st₂, hrun, hplan, hzeros, hnew, -⟩ | ⟨e, st₂, hrun, -⟩
  · obtain ⟨g, st', hcreate, -⟩ := create_carved (supply_lent pool) hrun hplan hzeros hnew
    exact ⟨g, st', hcreate⟩
  · cases hcarved.symm.trans hrun

/-- What can be asked for is refused for want of memory only. -/
theorem create_outOfMemory (h : Lent pool live st)
    (ha : ∀ entry ∈ plan layout image, Admitted entry.1 entry.2) {e : Fault}
    {st' : Allocator × Store} (hrun : (create layout image).run st = .error e st') :
    ∃ cells, e = .error (.outOfMemory cells) := by
  have hlent : Lent pool ([] ++ live) st := h
  have hcarve := carveAll_error_of_create (supply_lent pool) h hrun
  obtain ⟨entry, hentry, hrefusal⟩ := carveAll_refused (supply_lent pool)
    (refusesForWant_lent pool) hlent
    (fun entry hentry => requestedCells_ok (ha entry hentry).requested) hcarve
  cases hrefusal with
  | tooLarge hlarge => exact absurd (ha entry hentry).1 (Nat.not_le.2 hlarge)
  | outOfMemory _ _ => exact ⟨entry.1, rfl⟩

end

end

end Carver

end CellMachine
