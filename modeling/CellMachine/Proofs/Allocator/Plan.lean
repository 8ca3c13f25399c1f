import CellMachine.Proofs.Allocator.Records

/-!
# The plan behind the records

A `Plan` says what the records of a pool stand for: the blocks the pool is divided into, in address
order, and the free ones among them in the order of the free list. A lent block remembers what was
asked for, which no record does.

`Represents a p` is the invariant of the allocator: the blocks of `p` tile the pool, every block
has its records (`Laid`), and following the links of the tails from the first free run on visits
the free blocks of `p` and ends (`Chain`). Everything the allocator does is an edit of the plan in
one place:

* `Laid.replace`: neighbouring blocks give way to others over the same cells;
* `Chain.append_iff` and `Chain.congr`: the links before and after the place are looked at apart,
  and writes inside other blocks do not concern them;
* `Laid.join`: the block before the place is linked to what comes now.
-/

namespace CellMachine.Allocator

/-- A run as it is meant: where it stands, how many cells it can lend, and to whom. -/
structure Block where
  head : Nat
  count : Nat
  /-- The kind of a lent block and the number of cells asked for; none for a free block. -/
  loan : Option (Kind × Nat) := none
  deriving DecidableEq

namespace Block

/-- The position of the tail record. -/
def tail (b : Block) : Nat := b.head + 1 + b.count

/-- The position right after the block. -/
def stop (b : Block) : Nat := b.head + 2 + b.count

/-- Whether a block is on the free list. -/
def isFree (b : Block) : Bool := b.loan.isNone

/-- The kind in the head record. -/
def kind (b : Block) : Kind :=
  match b.loan with
  | some (kind, _) => kind
  | none => .free

/-- A block has the position among its cells, the records included. -/
def Spans (b : Block) (i : Nat) : Prop := b.head ≤ i ∧ i < b.stop

/-- The position holds one of the two records of a block. -/
def Records (b : Block) (i : Nat) : Prop := i = b.head ∨ i = b.tail

/-- A block can lend something, and lends what was asked for with at most two cells over. -/
structure Fit (b : Block) : Prop where
  pos : 1 ≤ b.count
  loan : ∀ kind length, b.loan = some (kind, length) →
    kind ≠ .free ∧ length ≤ b.count ∧ b.count ≤ length + 2

theorem spans_head (b : Block) : b.Spans b.head := by
  simp only [Spans, stop]
  omega

theorem spans_tail (b : Block) : b.Spans b.tail := by
  simp only [Spans, tail, stop]
  omega

theorem Records.spans {b : Block} {i : Nat} (h : b.Records i) : b.Spans i := by
  cases h with
  | inl hi => exact hi ▸ b.spans_head
  | inr hi => exact hi ▸ b.spans_tail

theorem kind_of_isFree {b : Block} (h : b.isFree = true) : b.kind = .free := by
  simp only [isFree, Option.isNone_iff_eq_none] at h
  simp only [kind, h]

theorem Fit.isFree_iff {b : Block} (h : b.Fit) : b.isFree = true ↔ b.kind = .free := by
  refine ⟨kind_of_isFree, fun hk => ?_⟩
  match hl : b.loan with
  | none => simp [isFree, hl]
  | some (kind, length) =>
    simp only [Block.kind, hl] at hk
    exact absurd hk (h.loan kind length hl).1

end Block

/-! ## Tilings -/

/-- The blocks follow each other without gaps from `start` to `stop`. -/
def Tiles : (start : Nat) → List Block → (stop : Nat) → Prop
  | start, [], stop => start = stop
  | start, b :: rest, stop => b.head = start ∧ Tiles b.stop rest stop

theorem tiles_append {l₁ l₂ : List Block} {start stop : Nat} :
    Tiles start (l₁ ++ l₂) stop ↔ ∃ mid, Tiles start l₁ mid ∧ Tiles mid l₂ stop := by
  induction l₁ generalizing start with
  | nil => simp [Tiles]
  | cons b rest ih => simp [Tiles, ih, and_assoc]

namespace Tiles

theorem le {l : List Block} {start stop : Nat} (h : Tiles start l stop) : start ≤ stop := by
  induction l generalizing start with
  | nil => exact Nat.le_of_eq h
  | cons b rest ih =>
    have hrest := ih h.2
    have hhead := h.1
    simp only [Block.stop] at hrest
    omega

theorem bounds {l : List Block} {start stop : Nat} (h : Tiles start l stop) {b : Block}
    (hb : b ∈ l) : start ≤ b.head ∧ b.stop ≤ stop := by
  induction l generalizing start with
  | nil => simp at hb
  | cons c rest ih =>
    obtain ⟨hhead, hrest⟩ := h
    rcases List.mem_cons.1 hb with rfl | hb
    · exact ⟨Nat.le_of_eq hhead.symm, hrest.le⟩
    · have hin := ih hrest hb
      simp only [Block.stop] at hin
      exact ⟨by omega, hin.2⟩

theorem pairwise {l : List Block} {start stop : Nat} (h : Tiles start l stop) :
    l.Pairwise fun b c => b.stop ≤ c.head := by
  induction l generalizing start with
  | nil => exact .nil
  | cons b rest ih => exact .cons (fun c hc => (h.2.bounds hc).1) (ih h.2)

/-- **Two blocks of a tiling share no cell.** -/
theorem apart {l : List Block} {start stop : Nat} (h : Tiles start l stop) {b c : Block}
    (hb : b ∈ l) (hc : c ∈ l) (hne : b ≠ c) {i : Nat} (hi : b.Spans i) : ¬ c.Spans i := by
  induction l generalizing start with
  | nil => simp at hb
  | cons d rest ih =>
    have hd : ∀ e ∈ rest, d.stop ≤ e.head := fun e he => (h.2.bounds he).1
    simp only [Block.Spans] at hi ⊢
    rcases List.mem_cons.1 hb with rfl | hb' <;> rcases List.mem_cons.1 hc with rfl | hc'
    · exact absurd rfl hne
    · have := hd c hc'
      omega
    · have := hd b hb'
      omega
    · exact ih h.2 hb' hc'

/-- No two blocks of a tiling start at the same place. -/
theorem eq_of_head {l : List Block} {start stop : Nat} (h : Tiles start l stop) {b c : Block}
    (hb : b ∈ l) (hc : c ∈ l) (hhead : b.head = c.head) : b = c := by
  refine Decidable.byContradiction fun hne => h.apart hb hc hne b.spans_head ?_
  rw [hhead]
  exact c.spans_head

theorem head_eq_stop {pre post : List Block} {q b : Block} {start stop : Nat}
    (h : Tiles start (pre ++ [q, b] ++ post) stop) : b.head = q.stop := by
  obtain ⟨m, -, hrest⟩ := tiles_append.1 (List.append_assoc pre [q, b] post ▸ h)
  exact hrest.2.1

theorem nodup {l : List Block} {start stop : Nat} (h : Tiles start l stop) : l.Nodup := by
  refine h.pairwise.imp fun {b c} hbc he => ?_
  subst he
  simp only [Block.stop] at hbc
  omega

theorem sum_eq {l : List Block} {start stop : Nat} (h : Tiles start l stop) :
    start + l.foldr (fun b n => b.count + 2 + n) 0 = stop := by
  induction l generalizing start with
  | nil => simpa [Tiles] using h
  | cons b rest ih =>
    have hsum := ih h.2
    have hhead := h.1
    simp only [Block.stop] at hsum
    rw [List.foldr_cons]
    omega

theorem length_le {l : List Block} {start stop : Nat} (h : Tiles start l stop) :
    start + l.length ≤ stop := by
  induction l generalizing start with
  | nil => exact Nat.le_of_eq h
  | cons b rest ih =>
    have hrest := ih h.2
    have hhead := h.1
    simp only [Block.stop] at hrest
    simp only [List.length_cons]
    omega

end Tiles

/-! ## Records -/

/-- The records of a block, the link to the next free run apart. -/
structure Marked (cells : Array Cell) (b : Block) : Prop where
  count : (look cells b.head).low = b.count
  kind : (look cells b.head).high = b.kind.code
  total : (look cells b.tail).low = ((b.count + 2 : Nat) : Int)

theorem Marked.congr {cells cells' : Array Cell} {b : Block} (h : Marked cells b)
    (hhead : look cells' b.head = look cells b.head)
    (htail : look cells' b.tail = look cells b.tail) : Marked cells' b :=
  ⟨hhead ▸ h.count, hhead ▸ h.kind, htail ▸ h.total⟩

/-- The run that a block's records describe. -/
def Block.toRun (cells : Array Cell) (b : Block) : Run :=
  ⟨b.head, b.count, b.kind, (look cells b.tail).high⟩

@[simp] theorem Block.head_toRun (cells : Array Cell) (b : Block) : (b.toRun cells).head = b.head :=
  rfl

@[simp] theorem Block.count_toRun (cells : Array Cell) (b : Block) :
    (b.toRun cells).count = b.count :=
  rfl

@[simp] theorem Block.kind_toRun (cells : Array Cell) (b : Block) : (b.toRun cells).kind = b.kind :=
  rfl

@[simp] theorem Block.next_toRun (cells : Array Cell) (b : Block) :
    (b.toRun cells).next = (look cells b.tail).high := by
  rw [toRun]

theorem Marked.readRun? {cells : Array Cell} {b : Block} (h : Marked cells b)
    (hin : b.stop ≤ cells.size) : readRun? cells b.head = some (b.toRun cells) := by
  have hlt : b.head + 1 + b.count < cells.size := by
    simp only [Block.stop] at hin
    omega
  rw [readRun?_of h.count hlt, h.kind, Kind.ofCode_code]
  rfl

theorem Marked.follow? {cells : Array Cell} {b : Block} (h : Marked cells b)
    (hin : b.stop ≤ cells.size) : follow? cells b.head = some (b.toRun cells) := by
  have hneg : ¬ ((b.head : Int) < 0) := by omega
  simp only [Allocator.follow?, hneg, ↓reduceIte, Int.toNat_natCast, h.readRun? hin]

/-- Writing the records of a block marks it, if the block is small enough for a half word. -/
theorem marked_inscribeRun {cells : Array Cell} {b : Block} {kind : Kind} (next : Int)
    (hbound : cells.size ≤ maximumPoolCells) (hin : b.stop ≤ cells.size) (hkind : b.kind = kind) :
    Marked (inscribeRun cells b.head b.count kind next) b := by
  subst hkind
  simp only [Block.stop] at hin
  have hlt : b.head + 1 + b.count < cells.size := by omega
  have hcount : IsHalf b.count := isHalf_natCast (by omega)
  have htotal : IsHalf ((b.count + 2 : Nat) : Int) := isHalf_natCast (by omega)
  refine ⟨?_, ?_, ?_⟩
  · rw [look_inscribeRun_head _ _ hlt, Cell.low_withPair _ _ hcount]
  · rw [look_inscribeRun_head _ _ hlt, Cell.high_withPair _ _ b.kind.isHalf_code]
  · rw [Block.tail, look_inscribeRun_tail _ _ hlt, Cell.low_withPair _ _ htotal]

theorem high_tail_inscribeRun {cells : Array Cell} {b : Block} (kind : Kind) {next : Int}
    (hin : b.stop ≤ cells.size) (hnext : IsHalf next) :
    (look (inscribeRun cells b.head b.count kind next) b.tail).high = next := by
  simp only [Block.stop] at hin
  rw [Block.tail, look_inscribeRun_tail _ _ (by omega), Cell.high_withPair _ _ hnext]

theorem look_inscribeRun_of_not_records {cells : Array Cell} {b : Block} (kind : Kind) (next : Int)
    {i : Nat} (h : ¬ b.Records i) :
    look (inscribeRun cells b.head b.count kind next) i = look cells i :=
  look_inscribeRun_of_ne _ _ (fun he => h (.inl he)) fun he => h (.inr he)

theorem look_inscribeRun_of_not_spans {cells : Array Cell} {b : Block} (kind : Kind) (next : Int)
    {i : Nat} (h : ¬ b.Spans i) :
    look (inscribeRun cells b.head b.count kind next) i = look cells i :=
  look_inscribeRun_of_not_records _ _ fun hi => h hi.spans

/-! ## Pools laid out in blocks -/

/-- The blocks tile the pool, and each has its records. -/
structure Laid (cells : Array Cell) (blocks : List Block) : Prop where
  bound : cells.size ≤ maximumPoolCells
  tiles : Tiles 0 blocks cells.size
  fit : ∀ b ∈ blocks, b.Fit
  marked : ∀ b ∈ blocks, Marked cells b

namespace Laid

variable {cells cells' : Array Cell} {blocks pre mid mid' post : List Block} {b : Block}

theorem stop_le (h : Laid cells blocks) (hb : b ∈ blocks) : b.stop ≤ cells.size :=
  (h.tiles.bounds hb).2

theorem readRun? (h : Laid cells blocks) (hb : b ∈ blocks) :
    Allocator.readRun? cells b.head = some (b.toRun cells) :=
  (h.marked b hb).readRun? (h.stop_le hb)

theorem follow? (h : Laid cells blocks) (hb : b ∈ blocks) :
    Allocator.follow? cells b.head = some (b.toRun cells) :=
  (h.marked b hb).follow? (h.stop_le hb)

/-- A write inside the blocks `mid` is not seen in any other block. -/
theorem look_eq (h : Laid cells blocks) (hmid : ∀ c ∈ mid, c ∈ blocks)
    (hkeep : ∀ i, (∀ c ∈ mid, ¬ c.Spans i) → look cells' i = look cells i)
    (hb : b ∈ blocks) (hnot : b ∉ mid) {i : Nat} (hi : b.Spans i) :
    look cells' i = look cells i := by
  refine hkeep i fun c hc => h.tiles.apart hb (hmid c hc) (fun he => ?_) hi
  exact hnot (he ▸ hc)

/-- **Neighbouring blocks give way to others.** If nothing outside `mid` was written, and `mid'`
covers the same cells and has its records, the pool is laid out with `mid'` in the place of
`mid`. -/
theorem replace (h : Laid cells (pre ++ mid ++ post)) (hsize : cells'.size = cells.size)
    (hkeep : ∀ i, (∀ c ∈ mid, ¬ c.Spans i) → look cells' i = look cells i)
    (htiles : ∀ start stop, Tiles start mid stop → Tiles start mid' stop)
    (hfit : ∀ b ∈ mid', b.Fit) (hmarked : ∀ b ∈ mid', Marked cells' b) :
    Laid cells' (pre ++ mid' ++ post) := by
  have hnodup := h.tiles.nodup
  rw [List.append_assoc, List.nodup_append, List.nodup_append] at hnodup
  -- a block before or after the place keeps its records
  have hother : ∀ b ∈ pre ++ post, Marked cells' b := by
    intro b hb
    have hall : b ∈ pre ++ mid ++ post := by
      rcases List.mem_append.1 hb with hb | hb <;> simp [hb]
    have hnot : b ∉ mid := by
      intro hm
      rcases List.mem_append.1 hb with hb | hb
      · exact hnodup.2.2 b hb b (by simp [hm]) rfl
      · exact hnodup.2.1.2.2 b hm b hb rfl
    have hsame : ∀ i, b.Spans i → look cells' i = look cells i := fun i hi =>
      h.look_eq (fun c hc => by simp [hc]) hkeep hall hnot hi
    exact (h.marked b hall).congr (hsame _ b.spans_head) (hsame _ b.spans_tail)
  obtain ⟨m₁, hpre, hrest⟩ := tiles_append.1 (List.append_assoc pre mid post ▸ h.tiles)
  obtain ⟨m₂, hmid, hpost⟩ := tiles_append.1 hrest
  refine ⟨hsize ▸ h.bound, ?_, fun b hb => ?_, fun b hb => ?_⟩
  · rw [hsize, List.append_assoc]
    exact tiles_append.2 ⟨m₁, hpre, tiles_append.2 ⟨m₂, htiles _ _ hmid, hpost⟩⟩
  · rcases List.mem_append.1 hb with hb | hb
    · rcases List.mem_append.1 hb with hb | hb
      · exact h.fit b (by simp [hb])
      · exact hfit b hb
    · exact h.fit b (by simp [hb])
  · rcases List.mem_append.1 hb with hb | hb
    · rcases List.mem_append.1 hb with hb | hb
      · exact hother b (by simp [hb])
      · exact hmarked b hb
    · exact hother b (by simp [hb])

theorem congr (h : Laid cells blocks) (hsize : cells'.size = cells.size)
    (hhead : ∀ b ∈ blocks, look cells' b.head = look cells b.head)
    (htail : ∀ b ∈ blocks, look cells' b.tail = look cells b.tail) : Laid cells' blocks where
  bound := hsize ▸ h.bound
  tiles := hsize ▸ h.tiles
  fit := h.fit
  marked b hb := (h.marked b hb).congr (hhead b hb) (htail b hb)

end Laid

/-! ## The free list -/

theorem natCast_ne_noRun (n : Nat) : (n : Int) ≠ noRun := by
  simp only [noRun]
  omega

/-- The links lead from `link` through the blocks, in order, to `stop`. -/
def Chain (cells : Array Cell) : (link : Int) → List Block → (stop : Int) → Prop
  | link, [], stop => link = stop
  | link, b :: rest, stop => link = b.head ∧ Chain cells (look cells b.tail).high rest stop

namespace Chain

variable {cells cells' : Array Cell} {l l₁ l₂ : List Block} {link stop : Int}

theorem cons_iff {b : Block} :
    Chain cells link (b :: l) stop ↔
      link = b.head ∧ Chain cells (look cells b.tail).high l stop :=
  Iff.rfl

theorem append_iff :
    Chain cells link (l₁ ++ l₂) stop ↔
      ∃ mid, Chain cells link l₁ mid ∧ Chain cells mid l₂ stop := by
  induction l₁ generalizing link with
  | nil => simp [Chain]
  | cons b rest ih => simp [Chain, ih, and_assoc]

theorem congr (h : Chain cells link l stop)
    (hkeep : ∀ b ∈ l, look cells' b.tail = look cells b.tail) : Chain cells' link l stop := by
  induction l generalizing link with
  | nil => exact h
  | cons b rest ih =>
    refine ⟨h.1, ih ?_ fun c hc => hkeep c (List.mem_cons_of_mem _ hc)⟩
    rw [hkeep b List.mem_cons_self]
    exact h.2

/-- The link that a list starts with is the position of its first block. -/
theorem link_eq (h : Chain cells link l noRun) :
    link = match l.head? with
      | some b => (b.head : Int)
      | none => noRun := by
  cases l with
  | nil => exact h
  | cons b rest => exact h.1

theorem relink {q : Block} {mid next : Int} (h : Chain cells link (l ++ [q]) mid)
    (hin : q.stop ≤ cells.size) (hnext : IsHalf next) (hq : ∀ b ∈ l, ¬ q.Spans b.tail) :
    Chain (inscribeRun cells q.head q.count .free next) link (l ++ [q]) next := by
  obtain ⟨m, hl, hlast⟩ := append_iff.1 h
  refine append_iff.2 ⟨m, hl.congr fun b hb => ?_, hlast.1, ?_⟩
  · exact look_inscribeRun_of_not_spans _ _ (hq b hb)
  · exact high_tail_inscribeRun _ hin hnext

end Chain

theorem Laid.relink {cells : Array Cell} {blocks : List Block} {q : Block}
    (h : Laid cells blocks) (hq : q ∈ blocks) (hfree : q.isFree = true) (next : Int) :
    Laid (inscribeRun cells q.head q.count .free next) blocks := by
  obtain ⟨pre, post, rfl⟩ := List.append_of_mem hq
  have hfit := h.fit q hq
  have hmarked := marked_inscribeRun next h.bound (h.stop_le hq) (Block.kind_of_isFree hfree)
  rw [List.append_cons] at h ⊢
  refine h.replace (size_inscribeRun ..) (fun i hi => ?_) (fun _ _ ht => ht) ?_ ?_
  · exact look_inscribeRun_of_not_spans _ _ (hi q (by simp))
  · simpa using hfit
  · simpa using hmarked

theorem ne_of_mem_append_of_nodup {l₁ l₂ : List Block} {b c : Block}
    (h : (l₁ ++ [b] ++ l₂).Nodup) (hc : c ∈ l₁ ++ l₂) : c ≠ b := by
  rw [List.append_assoc, List.singleton_append] at h
  rintro rfl
  exact (List.nodup_cons.1 (List.perm_middle.nodup_iff.1 h)).1 hc

/-- **Two pieces of the free list are joined** by linking the last block of the first to the start
of the second. -/
theorem Laid.join {cells : Array Cell} {blocks l l' : List Block} {q : Block} {link mid next : Int}
    (h : Laid cells blocks) (hq : q ∈ blocks) (hfree : q.isFree = true)
    (hmem : ∀ b ∈ l ++ l', b ∈ blocks) (hnodup : (l ++ [q] ++ l').Nodup)
    (hfirst : Chain cells link (l ++ [q]) mid) (hsecond : Chain cells next l' noRun)
    (hnext : IsHalf next) :
    Laid (inscribeRun cells q.head q.count .free next) blocks ∧
      Chain (inscribeRun cells q.head q.count .free next) link (l ++ [q] ++ l') noRun := by
  have hapart : ∀ b ∈ l ++ l', ¬ q.Spans b.tail := by
    intro b hb
    exact h.tiles.apart (hmem b hb) hq (ne_of_mem_append_of_nodup hnodup hb) b.spans_tail
  refine ⟨h.relink hq hfree next, Chain.append_iff.2 ⟨next, ?_, hsecond.congr fun b hb => ?_⟩⟩
  · exact hfirst.relink (h.stop_le hq) hnext fun b hb => hapart b (by simp [hb])
  · exact look_inscribeRun_of_not_spans _ _ (hapart b (by simp [hb]))

/-! ## Plans -/

/-- The blocks of a pool in address order, and the free ones in the order of the free list. -/
structure Plan where
  blocks : List Block
  free : List Block

/-- **The invariant of the allocator**: the records in the arena are those of the plan. -/
structure Represents (a : Arena) (p : Plan) : Prop where
  laid : Laid a.cells p.blocks
  linked : Chain a.cells a.firstFree p.free noRun
  listed : p.free.Perm (p.blocks.filter Block.isFree)

namespace Represents

variable {a : Arena} {p : Plan} {b : Block}

theorem mem_of_free (h : Represents a p) (hb : b ∈ p.free) : b ∈ p.blocks ∧ b.isFree = true :=
  List.mem_filter.1 (h.listed.subset hb)

theorem mem_free (h : Represents a p) (hb : b ∈ p.blocks) (hfree : b.isFree = true) :
    b ∈ p.free :=
  h.listed.symm.subset (List.mem_filter.2 ⟨hb, hfree⟩)

/-- A lent block has no cell of a free one. -/
theorem not_spans_free (h : Represents a p) {c : Block} {i : Nat} (hc : c ∈ p.blocks)
    (hlent : c.isFree = false) (hi : c.Spans i) :
    ∀ b ∈ p.blocks, b.isFree = true → ¬ b.Spans i := by
  intro b hb hfree
  refine h.laid.tiles.apart hc hb ?_ hi
  rintro rfl
  simp [hfree] at hlent

theorem not_spans_other (h : Represents a p) {c : Block} {i : Nat} (hc : c ∈ p.blocks)
    (hlent : c.isFree = false) (hne : c ≠ b) (hi : c.Spans i) :
    ∀ d ∈ p.blocks, d.isFree = true ∨ d = b → ¬ d.Spans i := by
  intro d hd hor
  rcases hor with hfree | rfl
  · exact h.not_spans_free hc hlent hi d hd hfree
  · exact h.laid.tiles.apart hc hd hne hi

/-- The rest of the free list is without the block. -/
theorem ne_of_mem_append (h : Represents a p) {earlier later : List Block} {q : Block}
    (hfree : p.free = earlier ++ [q] ++ later) (hb : b ∈ earlier ++ later) : b ≠ q := by
  have hnodup : p.free.Nodup := h.listed.nodup_iff.2 (h.laid.tiles.nodup.filter _)
  rw [hfree] at hnodup
  exact ne_of_mem_append_of_nodup hnodup hb

/-- The free list is no longer than the pool, so that no walk along it runs out of steps. -/
theorem length_free_le (h : Represents a p) : p.free.length ≤ a.cells.size := by
  have hlist : p.free.length ≤ p.blocks.length := by
    rw [h.listed.length_eq]
    exact List.length_filter_le _ _
  have := h.laid.tiles.length_le
  omega

end Represents

end CellMachine.Allocator
