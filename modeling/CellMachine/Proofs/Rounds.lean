import CellMachine.Proofs.Placement

/-!
# One script after another

A pool is used by one process at a time: `rounds` creates a process and releases it again, `n`
times. Nothing is lost by that, but the free runs may come to lie otherwise than at first, since a
run that is given back merges with the one before it and never with the one behind it.

* `one_script_after_another`: after every round all runs are free and have all cells between them,
  and a process finds room as soon as one of them is as long as all its segments together; if what
  is left when the pool is divided into pieces of that length is too short for any segment, it finds
  room after every round;
* `not_always_room_again`: without that condition it does not.

Under the condition every block starts at a multiple of the length of a process (`Aligned`): the
segments of a process are carved from one block and come back as one piece (`Vacant.round_from`).
-/

namespace CellMachine

open Allocator

namespace Carver

section
variable {pool : Nat} {live : List Lease} {st : Allocator × Store} {p : Plan}

/-! ## The length of a process and the size of the pool -/

theorem room_leases_le {blocks : List Block} (hfit : ∀ b ∈ blocks, b.Fit) (pool : Nat) :
    room ((blocks.filterMap (Block.lease? pool)).map fun l => (l.window.length, l.kind)) ≤
      blocks.foldr (fun b n => b.count + 2 + n) 0 := by
  induction blocks with
  | nil => exact Nat.le_refl 0
  | cons b rest ih =>
    have hrest := ih fun c hc => hfit c (List.mem_cons_of_mem _ hc)
    rw [List.foldr_cons]
    cases hlease : b.lease? pool with
    | none =>
      rw [List.filterMap_cons_none hlease]
      omega
    | some l =>
      have hloan := (Block.lease?_eq_some hlease).1
      have hle := ((hfit b List.mem_cons_self).loan _ _ hloan).2.1
      rw [List.filterMap_cons_some hlease, List.map_cons, room_cons]
      dsimp only
      omega

/-- What is lent fits into the pool, with its records. -/
theorem room_le_size (h : Accounts pool live st p) :
    room (live.map fun l => (l.window.length, l.kind)) ≤ st.2.size pool := by
  obtain ⟨firstFree, -, -, hplan⟩ := h.represents
  have hledger : room (live.map fun l => (l.window.length, l.kind)) =
      room ((p.leases pool).map fun l => (l.window.length, l.kind)) :=
    room_perm (h.ledger.map _)
  have hsum := hplan.laid.tiles.sum_eq
  rw [Nat.zero_add] at hsum
  rw [hledger]
  exact Nat.le_trans (room_leases_le hplan.laid.fit pool) (Nat.le_of_eq hsum)

/-- Nothing is lent in a pool of so many cells. -/
structure Vacant (pool size : Nat) (st : Allocator × Store) (p : Plan) : Prop where
  accounts : Accounts pool [] st p
  size : st.2.size pool = size

namespace Vacant

variable {size : Nat} {layout : Layout} {image : Image}

theorem beside (h : Vacant pool size st p) : Beside pool [] st.2 [] st p :=
  ⟨h.accounts, nofun, rfl, fun _ _ => rfl⟩

theorem of_beside {s₀ : Store} (h : Beside pool [] s₀ [] st p) :
    Vacant pool (s₀.size pool) st p :=
  ⟨h.accounts, h.keeps.size⟩

theorem isFree (h : Vacant pool size st p) {b : Block} (hb : b ∈ p.blocks) : b.isFree = true := by
  cases hfree : b.isFree with
  | true => rfl
  | false =>
    obtain ⟨l, hl, -⟩ := h.accounts.exists_lease hb hfree
    cases hl

theorem mem_free (h : Vacant pool size st p) {b : Block} (hb : b ∈ p.blocks) : b ∈ p.free :=
  h.accounts.plan.listed.symm.subset (List.mem_filter.2 ⟨hb, h.isFree hb⟩)

theorem tiles (h : Vacant pool size st p) : Tiles 0 p.blocks size := by
  obtain ⟨firstFree, -, -, hplan⟩ := h.accounts.represents
  rw [← h.size]
  exact hplan.laid.tiles

theorem footprint_le (h : Vacant pool size st p) {g : Segments} {st' : Allocator × Store}
    (hrun : (create layout image).run st = .ok g st') : footprint layout image ≤ size := by
  have hnone : ∃ p, Beside pool [] st.2 ([] ++ []) st p := ⟨p, h.beside⟩
  rcases carveAll_run (supply_beside pool [] st.2) hnone (plan layout image) with
    ⟨new, st₁, -, hplan, -, ⟨p₁, hnew⟩, -⟩ | ⟨e, st₁, hrefused, -⟩
  · have hle := room_le_size hnew.accounts
    have hkept : st₁.2.size pool = st.2.size pool := hnew.keeps.size
    rw [hkept, h.size] at hle
    simpa [hplan, footprint] using hle
  · cases (create_of_carveAll_error hrefused).symm.trans hrun

/-- **A round leaves the pool as empty as it was**, or there was no room for it. -/
theorem round_cases (h : Vacant pool size st p)
    (ha : ∀ entry ∈ plan layout image, Admitted entry.1 entry.2) :
    (∃ g st₁ st₂ p', (create layout image).run st = .ok g st₁ ∧
      (release g).run st₁ = .ok () st₂ ∧ Vacant pool size st₂ p') ∨
    ∃ cells st', (create layout image).run st = .error (.error (.outOfMemory cells)) st' := by
  have hI := supply_beside pool [] st.2
  rcases create_run hI ⟨p, h.beside⟩ layout image with
    ⟨g, st₁, hcreate, -, hnew, -⟩ | ⟨e, st₁, hrefused, -⟩
  · obtain ⟨st₂, hrelease, ⟨p', hlast⟩, -⟩ := release_run hI hnew
    have hvacant := Vacant.of_beside hlast
    rw [h.size] at hvacant
    exact .inl ⟨g, st₁, st₂, p', hcreate, hrelease, hvacant⟩
  · obtain ⟨cells, he⟩ := create_outOfMemory ⟨p, h.accounts⟩ ha hrefused
    rw [he] at hrefused
    exact .inr ⟨cells, st₁, hrefused⟩

end Vacant

end

/-! ## Round after round -/

/-- A process is created and released, `n` times. -/
def rounds (layout : Layout) (image : Image) : Nat → AllocM Unit
  | 0 => pure ()
  | n + 1 => do
    let segments ← create layout image
    release segments
    rounds layout image n

/-- After `n` rounds there is room for another. -/
def RoomAfter (layout : Layout) (image : Image) (n : Nat) (st : Allocator × Store) : Prop :=
  ∃ st₁, (rounds layout image n).run st = .ok () st₁ ∧
    ∃ g st₂, (create layout image).run st₁ = .ok g st₂

instance (layout : Layout) (image : Image) (n : Nat) (st : Allocator × Store) :
    Decidable (RoomAfter layout image n st) :=
  decidable_of_iff (∃ u st₁, (rounds layout image n).run st = .ok u st₁ ∧
    ∃ g st₂, (create layout image).run st₁ = .ok g st₂ ∧ True) (by
      constructor
      · rintro ⟨_, st₁, hrounds, g, st₂, hcreate, -⟩
        exact ⟨st₁, hrounds, g, st₂, hcreate⟩
      · rintro ⟨st₁, hrounds, g, st₂, hcreate⟩
        exact ⟨(), st₁, hrounds, g, st₂, hcreate, trivial⟩)

/-- All cells of a pool are in free runs, and a process finds room if one of them is long enough for
all of its segments; only for want of memory is it refused. -/
structure Recovered (layout : Layout) (image : Image) (size : Nat) (st : Allocator × Store)
    (runs : List Run) : Prop where
  seen : (st.1.arena st.2).runs = some runs
  free : ∀ r ∈ runs, r.kind = .free
  whole : spanned runs = size
  served : (∃ r ∈ runs, footprint layout image ≤ r.count + 2) →
    ∃ g st', (create layout image).run st = .ok g st'
  refused : ∀ e st', (create layout image).run st = .error e st' →
    ∃ cells, e = .error (.outOfMemory cells)

section
variable {layout : Layout} {image : Image} {pool size : Nat} {st st₁ st₂ : Allocator × Store}
  {p : Plan}

theorem rounds_succ {g : Segments} (hcreate : (create layout image).run st = .ok g st₁)
    (hrelease : (release g).run st₁ = .ok () st₂) (n : Nat) :
    (rounds layout image (n + 1)).run st = (rounds layout image n).run st₂ := by
  rw [rounds, run_bind_ok hcreate, run_bind_ok hrelease]

/-- **However many rounds there are, the pool is as empty as before** after them, or one of them
found no room. -/
theorem rounds_cases (h : Vacant pool size st p)
    (ha : ∀ entry ∈ plan layout image, Admitted entry.1 entry.2) (n : Nat) :
    (∃ st' p', (rounds layout image n).run st = .ok () st' ∧ Vacant pool size st' p') ∨
    ∃ cells st', (rounds layout image n).run st = .error (.error (.outOfMemory cells)) st' := by
  induction n generalizing st p with
  | zero => exact .inl ⟨st, p, rfl, h⟩
  | succ n ih =>
    rcases h.round_cases ha with ⟨g, st₁, st₂, p', hcreate, hrelease, hvacant⟩ | ⟨cells, st', he⟩
    · rw [rounds_succ hcreate hrelease]
      exact ih hvacant
    · refine .inr ⟨cells, st', ?_⟩
      rw [rounds]
      exact run_bind_error he _

theorem Vacant.recovered (h : Vacant pool size st p)
    (ha : ∀ entry ∈ plan layout image, Admitted entry.1 entry.2) :
    ∃ runs, Recovered layout image size st runs := by
  have hplan := h.accounts.plan
  refine ⟨_, hplan.runs_eq, ?_, ?_, ?_, ?_⟩
  · intro r hr
    obtain ⟨b, hb, rfl⟩ := List.mem_map.1 hr
    exact Block.kind_of_isFree (h.isFree hb)
  · obtain ⟨firstFree, -, harena⟩ := h.accounts.arena_eq
    rw [hplan.spanned_eq, harena]
    exact h.size
  · rintro ⟨r, hr, hle⟩
    obtain ⟨b, hb, rfl⟩ := List.mem_map.1 hr
    exact create_of_room h.accounts ha ⟨b, h.mem_free hb, hle⟩
  · intro e st' hrun
    exact create_outOfMemory ⟨p, h.accounts⟩ ha hrun

/-! ## Blocks in line -/

/-- Every block starts at a multiple of a length. -/
def Aligned (unit : Nat) (p : Plan) : Prop := ∀ b ∈ p.blocks, unit ∣ b.head

/-- A block that is shorter than the unit is the last one, so that its length is what is left when
the pool is divided into units. -/
theorem Vacant.eq_mod_of_short (h : Vacant pool size st p) {unit : Nat} (haligned : Aligned unit p)
    {b : Block} (hb : b ∈ p.blocks) (hshort : b.count + 2 < unit) : b.count + 2 = size % unit := by
  have hstop : b.stop = b.head + (b.count + 2) := by
    simp only [Block.stop]
    omega
  obtain ⟨k, hk⟩ := haligned b hb
  rcases h.tiles.next hb with hlast | ⟨c, hc, hnext⟩
  · rw [← hlast, hstop, hk, Nat.mul_add_mod, Nat.mod_eq_of_lt hshort]
  · have hdvd : unit ∣ b.head + (b.count + 2) := hstop ▸ hnext ▸ haligned c hc
    have hle := Nat.le_of_dvd (by omega) ((Nat.dvd_add_right (haligned b hb)).1 hdvd)
    omega

theorem Vacant.exists_long (h : Vacant pool size st p) {unit : Nat} (haligned : Aligned unit p)
    (hle : unit ≤ size) (hpos : 0 < unit) : ∃ b ∈ p.free, unit ≤ b.count + 2 := by
  have htiles := h.tiles
  cases hblocks : p.blocks with
  | nil =>
    rw [hblocks] at htiles
    have hzero : 0 = size := htiles
    omega
  | cons b rest =>
    have hb : b ∈ p.blocks := by simp [hblocks]
    rw [hblocks] at htiles
    have hhead : b.head = 0 := htiles.1
    -- the first block reaches to the next one, or to the end of the pool
    refine ⟨b, h.mem_free hb, ?_⟩
    rcases h.tiles.next hb with hlast | ⟨c, hc, hnext⟩
    · simp only [Block.stop] at hlast
      omega
    · have hdvd := Nat.le_of_dvd (by simp only [hnext, Block.stop]; omega) (haligned c hc)
      simp only [hnext, Block.stop] at hdvd
      omega

/-- **A round from one block keeps the blocks in line.** -/
theorem Vacant.round_from (h : Vacant pool size st p)
    (haligned : Aligned (footprint layout image) p)
    (ha : ∀ entry ∈ plan layout image, Admitted entry.1 entry.2) {f : Block}
    {earlier later : List Block} (hfree : p.free = earlier ++ [f] ++ later)
    (hsmall : ∀ b ∈ earlier, ∀ entry ∈ plan layout image, b.count < entry.1)
    (hroom : footprint layout image ≤ f.count + 2) :
    ∃ g st₁ st₂ p', (create layout image).run st = .ok g st₁ ∧
      (release g).run st₁ = .ok () st₂ ∧ Vacant pool size st₂ p' ∧
      Aligned (footprint layout image) p' := by
  have hf : f ∈ p.blocks := (h.accounts.plan.mem_of_free (by simp [hfree])).1
  obtain ⟨pre, post, hsplit⟩ := List.append_of_mem hf
  have hblocks : p.blocks = pre ++ [f] ++ post := by simp [hsplit]
  obtain ⟨lent, tail, g, st₁, p₁, hcreate, hg, haccounts, hcarved⟩ :=
    create_from h.accounts hblocks hfree ha hsmall hroom
  have hpre : ∀ q ∈ pre, q ∈ p.blocks := fun q hq => by simp [hblocks, hq]
  have hpost : ∀ q ∈ post, q ∈ p.blocks := fun q hq => by simp [hblocks, hq]
  have hblocks₁ : p₁.blocks = pre ++ lent ++ (tail ++ post) := by simp [hcarved.blocks]
  obtain ⟨st₂, p₂, pre', hback, haccounts₂, hblocks₂, hpre', hheads⟩ :=
    giveBackAll_from haccounts hblocks₁ (fun q hq => h.isFree (hpre q hq)) hcarved.busy
      hcarved.first
  rw [← hg, Segments.map_window_leases] at hback
  have hrelease : (release g).run st₁ = .ok () st₂ := by
    unfold release
    rw [run_bind_ok hback]
    rfl
  have hcases : ∀ b ∈ p₂.blocks, b ∈ pre' ∨ b ∈ tail ∨ b ∈ post := by
    intro b hb
    simpa [hblocks₂] using hb
  refine ⟨g, st₁, st₂, p₂, hcreate, hrelease, ⟨haccounts₂.of_isFree ?_, ?_⟩, ?_⟩
  · intro b hb
    rcases hcases b hb with hb | hb | hb
    · exact hpre' b hb
    · exact (hcarved.left b hb).1
    · exact h.isFree (hpost b hb)
  · -- the size is known of every round, and this is one
    rcases h.round_cases ha with
      ⟨g', st₁', st₂', p', hcreate', hrelease', hvacant⟩ | ⟨cells, st', he⟩
    · cases hcreate.symm.trans hcreate'
      cases hrelease.symm.trans hrelease'
      exact hvacant.size
    · cases hcreate.symm.trans he
  · intro b hb
    rcases hcases b hb with hb | hb | hb
    · rcases hheads b hb with hmem | hfirst
      · obtain ⟨q, hq, hhead⟩ := List.mem_map.1 hmem
        exact hhead ▸ haligned q (hpre q hq)
      · exact hfirst ▸ haligned f hf
    · rw [(hcarved.left b hb).2]
      exact Nat.dvd_add (haligned f hf) (Nat.dvd_refl _)
    · exact haligned b (hpost b hb)

/-- If what is left when the pool is divided is too short for any segment, the first block that is
not too short for the first segment is long enough for all of them. -/
theorem Vacant.round_of_short_rest (h : Vacant pool size st p)
    (haligned : Aligned (footprint layout image) p)
    (ha : ∀ entry ∈ plan layout image, Admitted entry.1 entry.2)
    (hle : footprint layout image ≤ size)
    (hrest : ∀ entry ∈ plan layout image, size % footprint layout image < entry.1 + 2) :
    ∃ g st₁ st₂ p', (create layout image).run st = .ok g st₁ ∧
      (release g).run st₁ = .ok () st₂ ∧ Vacant pool size st₂ p' ∧
      Aligned (footprint layout image) p' := by
  obtain ⟨b, hb, hlong⟩ := h.exists_long haligned hle (footprint_pos layout image)
  obtain ⟨f, hf⟩ : ∃ f, p.free.find? (fun b => decide (footprint layout image ≤ b.count + 2)) =
      some f := by
    rw [← Option.isSome_iff_exists, List.find?_isSome]
    exact ⟨b, hb, decide_eq_true hlong⟩
  obtain ⟨hroom, earlier, later, hfree, hshort⟩ := List.find?_eq_some_iff_append.1 hf
  refine h.round_from haligned ha (by simpa using hfree) ?_ (of_decide_eq_true hroom)
  -- a block that is passed over is the short one at the end of the pool
  intro c hc entry hentry
  have hcshort : c.count + 2 < footprint layout image := by simpa using hshort c hc
  have hcmem : c ∈ p.blocks := (h.accounts.plan.mem_of_free (by simp [hfree, hc])).1
  have hmod := h.eq_mod_of_short haligned hcmem hcshort
  have hentry' := hrest entry hentry
  omega

theorem rounds_of_short_rest (h : Vacant pool size st p)
    (haligned : Aligned (footprint layout image) p)
    (ha : ∀ entry ∈ plan layout image, Admitted entry.1 entry.2)
    (hle : footprint layout image ≤ size)
    (hrest : ∀ entry ∈ plan layout image, size % footprint layout image < entry.1 + 2) (n : Nat) :
    ∃ st' p', (rounds layout image n).run st = .ok () st' ∧ Vacant pool size st' p' ∧
      Aligned (footprint layout image) p' := by
  induction n generalizing st p with
  | zero => exact ⟨st, p, rfl, h, haligned⟩
  | succ n ih =>
    obtain ⟨g, st₁, st₂, p₂, hcreate, hrelease, hvacant, haligned₂⟩ :=
      h.round_of_short_rest haligned ha hle hrest
    rw [rounds_succ hcreate hrelease]
    exact ih hvacant haligned₂

/-- A process has room in a pool whose blocks are in line. -/
theorem Vacant.create_of_aligned (h : Vacant pool size st p)
    (haligned : Aligned (footprint layout image) p)
    (ha : ∀ entry ∈ plan layout image, Admitted entry.1 entry.2)
    (hle : footprint layout image ≤ size) : ∃ g st', (create layout image).run st = .ok g st' :=
  create_of_room h.accounts ha (h.exists_long haligned hle (footprint_pos layout image))

theorem aligned_whole (unit size : Nat) : Aligned unit (.whole size) := by
  intro b hb
  obtain rfl := List.mem_singleton.1 hb
  exact Nat.dvd_zero unit

theorem vacant_of_ofPool {store : Store} (hst : Allocator.ofPool store pool = .ok st) :
    Vacant pool (store.size pool) st (.whole (store.size pool)) := by
  obtain ⟨hmin, hmax⟩ := ofPool_bounds hst
  obtain ⟨st₁, hst₁, haccounts, hsize⟩ := ofPool_eq_whole hmin hmax
  cases hst.symm.trans hst₁
  exact ⟨haccounts, hsize⟩

/-- **One script after another.** If a process can be created in a new pool, then however often it
is created and released again, with no other process there:

* all cells of the pool are in free runs, and creation finds room if one of these runs is as long as
  all segments together with their records; when it is refused, then for want of memory;
* it finds room after the first round;
* if what is left when the pool is divided into pieces of that length is too short for each of the
  segments, it finds room after every round. -/
theorem one_script_after_another {store : Store} {layout : Layout} {image : Image} {g : Segments}
    (hst : Allocator.ofPool store pool = .ok st)
    (hfresh : (create layout image).run st = .ok g st₁) :
    (∀ n, (∃ st₂ runs, (rounds layout image n).run st = .ok () st₂ ∧
        Recovered layout image (store.size pool) st₂ runs) ∨
      ∃ cells st₂, (rounds layout image n).run st = .error (.error (.outOfMemory cells)) st₂) ∧
    RoomAfter layout image 1 st ∧
    ((∀ entry ∈ plan layout image,
        store.size pool % footprint layout image < entry.1 + 2) →
      ∀ n, RoomAfter layout image n st) := by
  have hvacant := vacant_of_ofPool hst
  have haligned := aligned_whole (footprint layout image) (store.size pool)
  have ha := admitted_of_create (supply_lent pool) ⟨_, hvacant.accounts⟩ hfresh
  have hle := hvacant.footprint_le hfresh
  refine ⟨fun n => ?_, ?_, fun hrest n => ?_⟩
  · rcases rounds_cases hvacant ha n with ⟨st₂, p₂, hrun, hvacant₂⟩ | hrefused
    · obtain ⟨runs, hrecovered⟩ := hvacant₂.recovered ha
      exact .inl ⟨st₂, runs, hrun, hrecovered⟩
    · exact .inr hrefused
  · -- all segments come from the one block of the new pool
    have hfree : (Plan.whole (store.size pool)).free =
        [] ++ [⟨0, store.size pool - 2, none⟩] ++ [] := rfl
    obtain ⟨g₁, st₂, st₃, p₃, hcreate, hrelease, hvacant₃, haligned₃⟩ :=
      hvacant.round_from haligned ha hfree nofun (by dsimp only; omega)
    refine ⟨st₃, rounds_succ hcreate hrelease 0, ?_⟩
    exact hvacant₃.create_of_aligned haligned₃ ha hle
  · obtain ⟨st₂, p₂, hrun, hvacant₂, haligned₂⟩ :=
      rounds_of_short_rest hvacant haligned ha hle hrest n
    exact ⟨st₂, hrun, hvacant₂.create_of_aligned haligned₂ ha hle⟩

/-- A process of fifteen cells, in a pool for two of them with two cells left. -/
theorem one_script_after_another_thirty_two :
    ∃ (store : Store) (layout : Layout) (image : Image) (st : Allocator × Store),
      Allocator.ofPool store 0 = .ok st ∧ store.size 0 = 32 ∧ footprint layout image = 15 ∧
        ∀ n, RoomAfter layout image n st := by
  let store : Store := ⟨#[Array.replicate 32 Cell.zero]⟩
  obtain ⟨st, hst, -⟩ := ofPool_eq_whole (by decide : minimumRunCells ≤ store.size 0) (by decide)
  have hroom : (Allocator.ofPool store 0).toOption.map (fun st =>
      decide (RoomAfter ⟨1, 1, 1⟩ {} 0 st)) = some true := by
    decide +kernel
  rw [hst] at hroom
  obtain ⟨_, hnone, g, st₁, hfresh⟩ := of_decide_eq_true (Option.some.inj hroom)
  cases hnone
  refine ⟨store, ⟨1, 1, 1⟩, {}, st, hst, by decide, by decide, ?_⟩
  exact (one_script_after_another hst hfresh).2.2 (by decide)

/-- **Without the condition there is not always room again**: in a pool of twenty-seven cells, a
process of twenty-four is created and released three times, and not a fourth time. -/
theorem not_always_room_again :
    ¬ ∀ (store : Store) (pool : Nat) (st st₁ : Allocator × Store) (layout : Layout) (image : Image)
      (g : Segments), Allocator.ofPool store pool = .ok st →
        (create layout image).run st = .ok g st₁ → ∀ n, RoomAfter layout image n st := by
  intro h
  let store : Store := ⟨#[Array.replicate 27 Cell.zero]⟩
  let layout : Layout := ⟨1, 1, 5⟩
  let image : Image := ⟨List.replicate 5 (.make .halt 0 0 0 0), [.int 1, .int 2]⟩
  obtain ⟨st, hst, -⟩ := ofPool_eq_whole (by decide : minimumRunCells ≤ store.size 0) (by decide)
  have hrooms : (Allocator.ofPool store 0).toOption.map (fun st =>
      (decide (RoomAfter layout image 0 st), decide (RoomAfter layout image 3 st))) =
        some (true, false) := by
    decide +kernel
  rw [hst] at hrooms
  obtain ⟨hroom, hnot⟩ := Prod.mk.inj (Option.some.inj hrooms)
  obtain ⟨_, hnone, g, st₁, hfresh⟩ := of_decide_eq_true hroom
  cases hnone
  exact of_decide_eq_false hnot (h store 0 st st₁ layout image g hst hfresh 3)

end

end Carver

end CellMachine
