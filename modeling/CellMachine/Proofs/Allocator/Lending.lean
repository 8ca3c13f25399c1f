import CellMachine.Proofs.Allocator.Plan

/-!
# Lending a block

What `allocate` does to a plan. A `Pick` is the block that is lent: the first one of the free list
that is large enough. Lending it leaves the block itself, now with a loan, and behind it a free
block of what is left over, if that is at least three cells (`Block.lend`, `Block.rest`); the free
block takes the old one's place in the list.

* `allocate_run_pick`: with a pick, `allocate` succeeds and its result represents `Plan.lend`;
* `allocate_run_outOfMemory`, `allocate_run_refused`: in all other cases it gives the reason and
  changes nothing;
* in every case only cells of free blocks are written.
-/

namespace CellMachine.Allocator

/-! ## The walk along the free list -/

/-- The link to the last of the blocks that were passed, or the link the walk came with. -/
def lastLink (previous : Int) : List Block → Int
  | [] => previous
  | b :: rest => lastLink b.head rest

@[simp] theorem lastLink_concat (previous : Int) (l : List Block) (q : Block) :
    lastLink previous (l ++ [q]) = q.head := by
  induction l generalizing previous with
  | nil => rfl
  | cons b rest ih => exact ih b.head

theorem lastLink_noRun_or_nonneg (l : List Block) :
    lastLink noRun l = noRun ∨ 0 ≤ lastLink noRun l := by
  rcases List.eq_nil_or_concat l with rfl | ⟨l, q, rfl⟩
  · exact .inl rfl
  · rw [List.concat_eq_append, lastLink_concat]
    exact .inr (by omega)

theorem firstFit_eq_none {cells : Array Cell} {count fuel : Nat} {l : List Block}
    {previous link : Int} (hchain : Chain cells link l noRun)
    (hread : ∀ b ∈ l, follow? cells b.head = some (b.toRun cells)) (hfuel : l.length ≤ fuel)
    (hsmall : ∀ b ∈ l, b.count < count) :
    firstFit cells count fuel previous link = some none := by
  induction l generalizing fuel previous link with
  | nil =>
    have hlink : link = noRun := hchain
    cases fuel <;> simp [firstFit, hlink]
  | cons b rest ih =>
    obtain ⟨rfl, hrest⟩ := Chain.cons_iff.1 hchain
    obtain ⟨fuel, rfl⟩ : ∃ n, fuel = n + 1 := ⟨fuel - 1, by simp at hfuel; omega⟩
    have hnot : ¬ count ≤ b.count := Nat.not_le.2 (hsmall b List.mem_cons_self)
    simp only [firstFit, natCast_ne_noRun, ↓reduceIte, hread b List.mem_cons_self,
      Block.count_toRun, hnot, Block.next_toRun]
    exact ih hrest (fun c hc => hread c (List.mem_cons_of_mem _ hc)) (by simpa using hfuel)
      fun c hc => hsmall c (List.mem_cons_of_mem _ hc)

/-- **The walk stops at the first block that fits**, and knows the block before it. -/
theorem firstFit_eq_some {cells : Array Cell} {count fuel : Nat} {l₁ l₂ : List Block} {f : Block}
    {previous link : Int} (hchain : Chain cells link (l₁ ++ f :: l₂) noRun)
    (hread : ∀ b ∈ l₁ ++ [f], follow? cells b.head = some (b.toRun cells))
    (hfuel : l₁.length < fuel) (hsmall : ∀ b ∈ l₁, b.count < count) (hfit : count ≤ f.count) :
    firstFit cells count fuel previous link =
      some (some ⟨f.toRun cells, lastLink previous l₁⟩) := by
  induction l₁ generalizing fuel previous link with
  | nil =>
    obtain ⟨rfl, -⟩ := Chain.cons_iff.1 hchain
    obtain ⟨fuel, rfl⟩ : ∃ n, fuel = n + 1 := ⟨fuel - 1, by omega⟩
    simp only [firstFit, natCast_ne_noRun, ↓reduceIte, hread f (by simp), Block.count_toRun, hfit,
      lastLink]
  | cons b rest ih =>
    obtain ⟨rfl, hrest⟩ := Chain.cons_iff.1 hchain
    obtain ⟨fuel, rfl⟩ : ∃ n, fuel = n + 1 := ⟨fuel - 1, by omega⟩
    have hnot : ¬ count ≤ b.count := Nat.not_le.2 (hsmall b List.mem_cons_self)
    simp only [firstFit, natCast_ne_noRun, ↓reduceIte, hread b (by simp), Block.count_toRun, hnot,
      Block.next_toRun, lastLink]
    exact ih hrest (fun c hc => hread c (List.mem_cons_of_mem _ hc)) (by simpa using hfuel)
      fun c hc => hsmall c (List.mem_cons_of_mem _ hc)

/-! ## Dividing a block -/

/-- A free block after `count` of its cells were asked for. -/
def Block.lend (f : Block) (count : Nat) (kind : Kind) : Block :=
  ⟨f.head, if f.count - count < minimumRunCells then f.count else count, some (kind, count)⟩

/-- What is split off a free block when `count` of its cells are asked for: nothing, or one free
block. -/
def Block.rest (f : Block) (count : Nat) : List Block :=
  if f.count - count < minimumRunCells then []
  else [⟨f.head + 2 + count, f.count - (2 + count), none⟩]

theorem Block.isFree_of_mem_rest {f b : Block} {count : Nat} (h : b ∈ f.rest count) :
    b.isFree = true := by
  unfold Block.rest at h
  split at h
  · simp at h
  · simp only [List.mem_singleton] at h
    subst h
    rfl

/-- The two blocks cover the cells of the one. -/
theorem Block.tiles_lend {f : Block} {count : Nat} (kind : Kind) {start stop : Nat}
    (h : Tiles start [f] stop) : Tiles start (f.lend count kind :: f.rest count) stop := by
  obtain ⟨hhead, hstop⟩ := h
  unfold Block.lend Block.rest
  split
  · exact ⟨hhead, hstop⟩
  · rename_i hlarge
    simp only [Tiles, Block.stop, minimumRunCells] at hhead hstop hlarge ⊢
    exact ⟨hhead, trivial, by omega⟩

theorem Block.fit_lend {f : Block} {count : Nat} {kind : Kind} (hf : f.Fit) (hcount : 1 ≤ count)
    (hle : count ≤ f.count) (hkind : kind ≠ .free) :
    ∀ b ∈ f.lend count kind :: f.rest count, b.Fit := by
  have hpos := hf.pos
  by_cases hsmall : f.count - count < minimumRunCells
  · have hwhole : (⟨f.head, f.count, some (kind, count)⟩ : Block).Fit := by
      refine ⟨hpos, fun k n hl => ?_⟩
      obtain ⟨rfl, rfl⟩ := Prod.mk.inj (Option.some.inj hl)
      simp only [minimumRunCells] at hsmall
      exact ⟨hkind, hle, by dsimp only; omega⟩
    simpa [Block.lend, Block.rest, hsmall] using hwhole
  · have hlent : (⟨f.head, count, some (kind, count)⟩ : Block).Fit := by
      refine ⟨hcount, fun k n hl => ?_⟩
      obtain ⟨rfl, rfl⟩ := Prod.mk.inj (Option.some.inj hl)
      exact ⟨hkind, Nat.le_refl _, Nat.le_add_right _ _⟩
    have hrest : (⟨f.head + 2 + count, f.count - (2 + count), none⟩ : Block).Fit := by
      simp only [minimumRunCells] at hsmall
      exact ⟨by dsimp only; omega, fun k n hl => by simp at hl⟩
    simpa [Block.lend, Block.rest, hsmall] using ⟨hlent, hrest⟩

/-- What becomes of the cells when a block is divided, with the link that takes the place of the
link to the block. -/
structure Divided (cells cells' : Array Cell) (f : Block) (count : Nat) (kind : Kind)
    (link : Int) : Prop where
  size : cells'.size = cells.size
  keep : ∀ i, ¬ f.Spans i → look cells' i = look cells i
  marked : ∀ b ∈ f.lend count kind :: f.rest count, Marked cells' b
  linked : Chain cells' link (f.rest count) (look cells f.tail).high
  half : IsHalf link

/-- A block from which nothing can be split off is lent as a whole. -/
theorem divide_run_whole {a : Arena} {f : Block} {count : Nat} (kind : Kind)
    (hbound : a.cells.size ≤ maximumPoolCells) (hin : f.stop ≤ a.cells.size)
    (hsmall : f.count - count < minimumRunCells) :
    ∃ cells link, (divide (f.toRun a.cells) count kind).run a = .ok link { a with cells } ∧
      Divided a.cells cells f count kind link := by
  have htail : f.head + 1 + f.count < a.cells.size := by
    simp only [Block.stop] at hin
    omega
  have hlend : f.lend count kind = ⟨f.head, f.count, some (kind, count)⟩ := by
    simp [Block.lend, hsmall]
  have hrest : f.rest count = [] := by simp [Block.rest, hsmall]
  refine ⟨inscribeRun a.cells f.head f.count kind noRun, (look a.cells f.tail).high, ?_,
    size_inscribeRun .., fun i hi => look_inscribeRun_of_not_spans _ _ hi, ?_, ?_,
    Cell.isHalf_high _⟩
  · simp only [divide, Block.head_toRun, Block.count_toRun, hsmall, ↓reduceIte]
    rw [run_bind_ok (writeRun_run kind noRun htail), Block.next_toRun]
    rfl
  · rw [hlend, hrest]
    simp only [List.mem_singleton, forall_eq]
    exact marked_inscribeRun (b := ⟨f.head, f.count, some (kind, count)⟩) _ hbound hin rfl
  · rw [hrest]
    exact rfl

theorem divide_run_split {a : Arena} {f : Block} {count : Nat} (kind : Kind)
    (hbound : a.cells.size ≤ maximumPoolCells) (hin : f.stop ≤ a.cells.size)
    (hlarge : ¬ f.count - count < minimumRunCells) :
    ∃ cells link, (divide (f.toRun a.cells) count kind).run a = .ok link { a with cells } ∧
      Divided a.cells cells f count kind link := by
  let lent : Block := ⟨f.head, count, some (kind, count)⟩
  let rest : Block := ⟨f.head + 2 + count, f.count - (2 + count), none⟩
  let first := inscribeRun a.cells lent.head lent.count kind noRun
  have hlend : f.lend count kind = lent := by simp [Block.lend, hlarge, lent]
  have hrest : f.rest count = [rest] := by simp [Block.rest, hlarge, rest]
  have hstop : rest.stop = f.stop := by
    simp only [minimumRunCells] at hlarge
    simp only [rest, Block.stop]
    omega
  have hlentIn : lent.stop ≤ a.cells.size := by
    simp only [minimumRunCells] at hlarge
    simp only [lent, Block.stop] at hin ⊢
    omega
  have hrestIn : rest.stop ≤ first.size := by
    rw [hstop, size_inscribeRun]
    exact hin
  -- the two blocks have the cells of the one between them
  have hspans : ∀ i, lent.Spans i ∨ rest.Spans i ↔ f.Spans i := by
    intro i
    simp only [lent, rest, Block.Spans, Block.stop] at hstop ⊢
    omega
  have hnot : ∀ i, lent.Spans i → ¬ rest.Spans i := by
    intro i
    simp only [lent, rest, Block.Spans, Block.stop]
    omega
  refine ⟨inscribeRun first rest.head rest.count .free (look a.cells f.tail).high, rest.head,
    ?_, by simp [first], fun i hi => ?_, ?_, ?_, ?_⟩
  · have htail : f.head + 1 + count < a.cells.size := by
      simp only [lent, Block.stop] at hlentIn
      omega
    have htail' : f.head + 2 + count + 1 + (f.count - (2 + count)) < first.size := by
      simp only [rest, Block.stop] at hrestIn
      omega
    simp only [divide, Block.head_toRun, Block.count_toRun, hlarge, ↓reduceIte, Block.next_toRun]
    rw [run_bind_ok (writeRun_run kind noRun htail), run_bind_ok (writeRun_run .free _ htail')]
    rfl
  · rw [look_inscribeRun_of_not_spans _ _ fun hr => hi ((hspans i).1 (.inr hr)),
      look_inscribeRun_of_not_spans _ _ fun hl => hi ((hspans i).1 (.inl hl))]
  · rw [hlend, hrest]
    simp only [List.mem_cons, List.not_mem_nil, or_false, forall_eq_or_imp, forall_eq]
    refine ⟨?_, ?_⟩
    · exact (marked_inscribeRun noRun hbound hlentIn rfl).congr
        (look_inscribeRun_of_not_spans (b := rest) _ _ (hnot _ lent.spans_head))
        (look_inscribeRun_of_not_spans (b := rest) _ _ (hnot _ lent.spans_tail))
    · exact marked_inscribeRun (b := rest) _ (by simpa [first] using hbound) hrestIn rfl
  · rw [hrest]
    exact ⟨rfl, high_tail_inscribeRun (b := rest) _ hrestIn (Cell.isHalf_high _)⟩
  · refine isHalf_natCast ?_
    simp only [rest, Block.stop] at hstop hin ⊢
    omega

theorem divide_run {a : Arena} {f : Block} (count : Nat) (kind : Kind)
    (hbound : a.cells.size ≤ maximumPoolCells) (hin : f.stop ≤ a.cells.size) :
    ∃ cells link, (divide (f.toRun a.cells) count kind).run a = .ok link { a with cells } ∧
      Divided a.cells cells f count kind link := by
  by_cases hsmall : f.count - count < minimumRunCells
  · exact divide_run_whole kind hbound hin hsmall
  · exact divide_run_split kind hbound hin hsmall

/-! ## Relinking -/

/-- What `allocate` does last: the run before the one that was lent is linked to what takes its
place. -/
def relink (previous link : Int) : ArenaM Unit := do
  if previous = noRun then
    modify fun arena => { arena with firstFree := link }
  else
    let before ← loadRun previous.toNat
    writeRun before.head before.count before.kind link

theorem relink_run {a : Arena} {blocks l l' : List Block} {mid link : Int}
    (hlaid : Laid a.cells blocks) (hmem : ∀ b ∈ l, b ∈ blocks ∧ b.isFree = true)
    (hmem' : ∀ b ∈ l', b ∈ blocks) (hnodup : (l ++ l').Nodup)
    (hfirst : Chain a.cells a.firstFree l mid) (hsecond : Chain a.cells link l' noRun)
    (hlink : IsHalf link) :
    ∃ a', (relink (lastLink noRun l) link).run a = .ok () a' ∧ a'.cells.size = a.cells.size ∧
      (∀ i, (∀ b ∈ l, ¬ b.Spans i) → look a'.cells i = look a.cells i) ∧
      Laid a'.cells blocks ∧ Chain a'.cells a'.firstFree (l ++ l') noRun := by
  rcases List.eq_nil_or_concat l with rfl | ⟨l, q, rfl⟩
  · -- no run comes before: the list starts with the second piece
    refine ⟨{ a with firstFree := link }, ?_, rfl, fun _ _ => rfl, hlaid, hsecond⟩
    simp only [relink, lastLink, ↓reduceIte, EStateM.run_modify]
  · rw [List.concat_eq_append] at *
    obtain ⟨hq, hfree⟩ := hmem q (by simp)
    have htail : q.head + 1 + q.count < a.cells.size := by
      have := hlaid.stop_le hq
      simp only [Block.stop] at this
      omega
    have hblocks : ∀ b ∈ l ++ l', b ∈ blocks := fun b hb => by
      rcases List.mem_append.1 hb with hb | hb
      · exact (hmem b (by simp [hb])).1
      · exact hmem' b hb
    obtain ⟨hlaid', hchain⟩ := hlaid.join hq hfree hblocks hnodup hfirst hsecond hlink
    refine ⟨{ a with cells := inscribeRun a.cells q.head q.count .free link }, ?_,
      size_inscribeRun .., fun i hi => ?_, hlaid', hchain⟩
    · have hload := loadRun_run (hlaid.readRun? hq)
      simp only [relink, lastLink_concat, natCast_ne_noRun, ↓reduceIte, Int.toNat_natCast]
      rw [run_bind_ok hload, Block.head_toRun, Block.count_toRun, Block.kind_toRun,
        Block.kind_of_isFree hfree, writeRun_run _ _ htail]
    · exact look_inscribeRun_of_not_spans _ _ (hi q (by simp))

/-! ## Allocation -/

/-- The block that is lent when `count` cells are asked for: the first of the free list that has
as many, with what stands before and after it in the pool and in the list. -/
structure Pick (p : Plan) (count : Nat) where
  block : Block
  before : List Block
  after : List Block
  earlier : List Block
  later : List Block
  blocks_eq : p.blocks = before ++ [block] ++ after
  free_eq : p.free = earlier ++ [block] ++ later
  small : ∀ b ∈ earlier, b.count < count
  enough : count ≤ block.count

/-- The plan after a block was lent. -/
def Plan.lend (p : Plan) {count : Nat} (pick : Pick p count) (kind : Kind) : Plan where
  blocks := pick.before ++ (pick.block.lend count kind :: pick.block.rest count) ++ pick.after
  free := pick.earlier ++ pick.block.rest count ++ pick.later

theorem requestedCells_eq_ok {size : Int} {kind : Kind} (hsize : 0 < size) (hkind : kind ≠ .free) :
    requestedCells size kind = .ok (cellsForBytes size.toNat) := by
  rw [requestedCells, if_neg (by omega), if_neg hkind]

theorem requestedCells_eq_error {size : Int} {kind : Kind} (h : size ≤ 0 ∨ kind = .free) :
    ∃ misuse, requestedCells size kind = .error (.invalidArgument misuse) := by
  unfold requestedCells
  by_cases hsize : size ≤ 0
  · exact ⟨_, if_pos hsize⟩
  · rw [if_neg hsize, if_pos (h.resolve_left hsize)]
    exact ⟨_, rfl⟩

theorem requestedCells_ok {size : Int} {kind : Kind} {count : Nat}
    (h : requestedCells size kind = .ok count) : 1 ≤ count ∧ kind ≠ .free := by
  unfold requestedCells at h
  split at h
  · cases h
  · rename_i hsize
    split at h
    · cases h
    · rename_i hkind
      refine ⟨?_, hkind⟩
      simp only [Except.ok.injEq, cellsForBytes] at h
      omega

/-- Two lists that agree up to order do so with another middle in both. -/
theorem perm_replace {α : Type} {l₁ l₂ r₁ r₂ mid mid' : List α}
    (h : (l₁ ++ mid ++ l₂).Perm (r₁ ++ mid ++ r₂)) :
    (l₁ ++ mid' ++ l₂).Perm (r₁ ++ mid' ++ r₂) := by
  have front : ∀ x y m : List α, (x ++ m ++ y).Perm (m ++ (x ++ y)) := fun x y m => by
    rw [← List.append_assoc]
    exact List.perm_append_comm.append_right y
  have hrest : (l₁ ++ l₂).Perm (r₁ ++ r₂) :=
    (List.perm_append_left_iff mid).1 (((front ..).symm.trans h).trans (front ..))
  exact ((front ..).trans (hrest.append_left mid')).trans (front ..).symm

namespace Pick

variable {a : Arena} {p : Plan} {count : Nat} (pick : Pick p count)

theorem mem_blocks : pick.block ∈ p.blocks := by
  simp [pick.blocks_eq]

theorem mem_free : pick.block ∈ p.free := by
  simp [pick.free_eq]

theorem ne_of_mem (h : Represents a p) {b : Block} (hb : b ∈ pick.earlier ++ pick.later) :
    b ≠ pick.block :=
  h.ne_of_mem_append pick.free_eq hb

theorem mem_blocks_of_mem (h : Represents a p) {b : Block}
    (hb : b ∈ pick.earlier ++ pick.later) : b ∈ p.blocks ∧ b.isFree = true := by
  refine h.mem_of_free ?_
  rw [pick.free_eq]
  rcases List.mem_append.1 hb with hb | hb <;> simp [hb]

theorem mem_lend {b : Block} (hb : b ∈ p.blocks) (hne : b ≠ pick.block) (kind : Kind) :
    b ∈ (p.lend pick kind).blocks := by
  rw [pick.blocks_eq] at hb
  simp only [List.mem_append, List.mem_singleton, hne, or_false] at hb
  simp only [Plan.lend, List.mem_append, List.mem_cons]
  rcases hb with hb | hb <;> simp [hb]

theorem listed (h : Represents a p) (kind : Kind) :
    (p.lend pick kind).free.Perm ((p.lend pick kind).blocks.filter Block.isFree) := by
  have hlisted := h.listed
  have hfree : pick.block.isFree = true := (h.mem_of_free pick.mem_free).2
  have hlend : (pick.block.lend count kind).isFree = false := rfl
  have hrest : (pick.block.rest count).filter Block.isFree = pick.block.rest count :=
    List.filter_eq_self.2 fun b hb => Block.isFree_of_mem_rest hb
  rw [pick.blocks_eq, pick.free_eq] at hlisted
  simp only [List.filter_append, List.filter_cons, List.filter_nil, hfree, ↓reduceIte] at hlisted
  simp only [Plan.lend, List.filter_append, List.filter_cons, hlend, Bool.false_eq_true,
    ↓reduceIte, hrest]
  exact perm_replace hlisted

end Pick

theorem Represents.exists_pick {a : Arena} {p : Plan} (h : Represents a p) {count : Nat}
    (hex : ∃ b ∈ p.free, count ≤ b.count) : Nonempty (Pick p count) := by
  obtain ⟨f, hf⟩ : ∃ f, p.free.find? (fun b => decide (count ≤ b.count)) = some f := by
    rw [← Option.isSome_iff_exists, List.find?_isSome]
    simpa using hex
  obtain ⟨hfit, earlier, later, hfree, hsmall⟩ := List.find?_eq_some_iff_append.1 hf
  have hmem : f ∈ p.blocks := (h.mem_of_free (by simp [hfree])).1
  obtain ⟨before, after, hblocks⟩ := List.append_of_mem hmem
  refine ⟨⟨f, before, after, earlier, later, by simpa using hblocks, by simpa using hfree, ?_, ?_⟩⟩
  · simpa using hsmall
  · simpa using hfit

/-- There is a block to lend, or all free ones are too small. -/
theorem Represents.pick_or_small {a : Arena} {p : Plan} (h : Represents a p) (count : Nat) :
    Nonempty (Pick p count) ∨ ∀ b ∈ p.free, b.count < count := by
  by_cases hex : ∃ b ∈ p.free, count ≤ b.count
  · exact .inl (h.exists_pick hex)
  · exact .inr fun b hb => Nat.not_le.1 fun hle => hex ⟨b, hb, hle⟩

section
variable {a : Arena} {p : Plan} {size : Int} {kind : Kind} {count steps : Nat}

/-- The walk to a run that fits stops at the pick, after no more steps than there are free runs. -/
theorem Represents.firstFit_pick (h : Represents a p) (pick : Pick p count)
    (hsteps : p.free.length ≤ steps) :
    firstFit a.cells count steps noRun a.firstFree =
      some (some ⟨pick.block.toRun a.cells, lastLink noRun pick.earlier⟩) := by
  have hchain := h.linked
  rw [pick.free_eq, List.append_assoc, List.singleton_append] at hchain
  refine firstFit_eq_some hchain (fun b hb => ?_) ?_ pick.small pick.enough
  · refine h.laid.follow? (h.mem_of_free ?_).1
    rw [pick.free_eq]
    exact List.mem_append_left _ hb
  · rw [pick.free_eq] at hsteps
    simp only [List.length_append, List.length_singleton] at hsteps
    omega

/-- The walk passes all free runs when none of them fits. -/
theorem Represents.firstFit_small (h : Represents a p) (hsmall : ∀ b ∈ p.free, b.count < count)
    (hsteps : p.free.length ≤ steps) :
    firstFit a.cells count steps noRun a.firstFree = some none :=
  firstFit_eq_none h.linked (fun _ hb => h.laid.follow? (h.mem_of_free hb).1) hsteps hsmall

/-- Once the walk has found a run, what is left is to divide it and to relink the list. -/
theorem allocate_run_eq {fit : Fit} (hreq : requestedCells size kind = .ok count)
    (hfit : firstFit a.cells count a.cells.size noRun a.firstFree = some (some fit)) :
    (allocate size kind).run a =
      (do relink fit.previous (← divide fit.run count kind)
          pure (fit.run.head + 1, count) : ArenaM (Nat × Nat)).run a := by
  have hsound : (sound (some (some fit))).run a = .ok (some fit) a := rfl
  unfold allocate relink
  rw [hreq, run_bind_ok (EStateM.run_pure count a), run_bind_ok (EStateM.run_get a), hfit,
    run_bind_ok hsound]
  by_cases hnone : fit.previous = noRun
  · simp only [hnone, ↓reduceIte]
  · simp only [hnone, ↓reduceIte, bind_assoc]

end

/-- **With a pick, allocation succeeds.** The result is the cell behind the head of the picked
block, the new arena represents the plan in which it is lent, and outside of free blocks no cell
was written. -/
theorem allocate_run_pick {a : Arena} {p : Plan} (h : Represents a p) {size : Int} {kind : Kind}
    {count : Nat} (hreq : requestedCells size kind = .ok count) (pick : Pick p count) :
    ∃ a', (allocate size kind).run a = .ok (pick.block.head + 1, count) a' ∧
      Represents a' (p.lend pick kind) ∧ a'.cells.size = a.cells.size ∧
      ∀ i, (∀ b ∈ p.blocks, b.isFree = true → ¬ b.Spans i) →
        look a'.cells i = look a.cells i := by
  obtain ⟨hpos, hkind⟩ := requestedCells_ok hreq
  have hin := h.laid.stop_le pick.mem_blocks
  have hfree := (h.mem_of_free pick.mem_free).2
  have hchain := h.linked
  rw [pick.free_eq, List.append_assoc, List.singleton_append] at hchain
  -- dividing the pick keeps everything else
  obtain ⟨cells, link, hdivide, hdivided⟩ := divide_run count kind h.laid.bound hin
  have hkeep : ∀ i, (∀ c ∈ [pick.block], ¬ c.Spans i) → look cells i = look a.cells i :=
    fun i hi => hdivided.keep i (hi _ (by simp))
  have hother : ∀ b ∈ pick.earlier ++ pick.later, look cells b.tail = look a.cells b.tail :=
    fun b hb => h.laid.look_eq (by simp [pick.mem_blocks]) hkeep
      (pick.mem_blocks_of_mem h hb).1 (by simpa using pick.ne_of_mem h hb) b.spans_tail
  have hlaid : Laid cells (p.lend pick kind).blocks := by
    have hold := h.laid
    rw [pick.blocks_eq] at hold
    exact hold.replace hdivided.size hkeep (fun _ _ => Block.tiles_lend kind)
      (Block.fit_lend (h.laid.fit _ pick.mem_blocks) hpos pick.enough hkind) hdivided.marked
  obtain ⟨mid, hearlier, -, hlater⟩ := Chain.append_iff.1 hchain
  have hnodup : (p.lend pick kind).free.Nodup :=
    (pick.listed h kind).nodup_iff.2 (hlaid.tiles.nodup.filter _)
  have hmem : ∀ b ∈ pick.earlier ++ pick.later, b ∈ (p.lend pick kind).blocks := fun b hb =>
    pick.mem_lend (pick.mem_blocks_of_mem h hb).1 (pick.ne_of_mem h hb) kind
  have hpiece₁ : Chain cells a.firstFree pick.earlier mid :=
    hearlier.congr fun b hb => hother b (by simp [hb])
  have hpiece₂ : Chain cells link (pick.block.rest count ++ pick.later) noRun :=
    Chain.append_iff.2 ⟨_, hdivided.linked, hlater.congr fun b hb => hother b (by simp [hb])⟩
  -- the list is joined around what was split off
  obtain ⟨a', hrelink, hsize, hkeep', hlaid', hlinked⟩ :=
    relink_run (a := { a with cells }) hlaid
      (fun b hb => ⟨hmem b (by simp [hb]), (pick.mem_blocks_of_mem h (by simp [hb])).2⟩)
      (fun b hb => by
        rcases List.mem_append.1 hb with hb | hb
        · simp [Plan.lend, hb]
        · exact hmem b (by simp [hb]))
      (by simpa [Plan.lend, List.append_assoc] using hnodup) hpiece₁ hpiece₂ hdivided.half
  have hrun : (allocate size kind).run a = .ok (pick.block.head + 1, count) a' := by
    rw [allocate_run_eq hreq (h.firstFit_pick pick h.length_free_le), run_bind_ok hdivide,
      run_bind_ok hrelink]
    rfl
  refine ⟨a', hrun, ⟨hlaid', ?_, pick.listed h kind⟩, hsize.trans hdivided.size, fun i hi => ?_⟩
  · rw [← List.append_assoc] at hlinked
    exact hlinked
  · rw [hkeep' i fun b hb => ?_, hdivided.keep i (hi _ pick.mem_blocks hfree)]
    obtain ⟨hb', hbfree⟩ := pick.mem_blocks_of_mem h (b := b) (by simp [hb])
    exact hi b hb' hbfree

/-- Without a pick, allocation is refused for want of memory, and nothing changes. -/
theorem allocate_run_outOfMemory {a : Arena} {p : Plan} (h : Represents a p) {size : Int}
    {kind : Kind} {count : Nat} (hreq : requestedCells size kind = .ok count)
    (hsmall : ∀ b ∈ p.free, b.count < count) :
    (allocate size kind).run a = .error (.error (.outOfMemory count)) a := by
  have hnone := h.firstFit_small hsmall h.length_free_le
  have hsound : (sound (some (none : Option Fit))).run a = .ok none a := rfl
  unfold allocate
  rw [hreq, run_bind_ok (EStateM.run_pure count a), run_bind_ok (EStateM.run_get a), hnone,
    run_bind_ok hsound]
  rfl

theorem allocate_run_refused {a : Arena} {size : Int} {kind : Kind} {e : Error}
    (hreq : requestedCells size kind = .error e) :
    (allocate size kind).run a = .error (.error e) a := by
  unfold allocate
  rw [hreq]
  rfl

end CellMachine.Allocator
