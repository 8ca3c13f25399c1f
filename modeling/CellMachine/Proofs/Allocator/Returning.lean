import CellMachine.Proofs.Allocator.Lending

/-!
# Giving a block back

What `release` does to a plan. `Plan.Returns p b p'` has two cases: the block grows into a free
block right before it, which keeps its place in the free list, or it becomes free by itself and
goes to the end of the list. A free block right after it stays as it is.

* `release_run`: the release of a lent block succeeds, and its result represents such a `p'`;
* only records of free blocks and of the block itself are written, and the head record of the block
  stays and is marked free, also inside a block that grew over it (`Released`).
-/

namespace CellMachine.Allocator

/-- A lent block that became free by itself. -/
def Block.freed (b : Block) : Block := ⟨b.head, b.count, none⟩

/-- A free block that grew over the block right after it. -/
def Block.merge (q b : Block) : Block := ⟨q.head, q.count + b.count + 2, none⟩

/-- The plans that giving a block back leads to. -/
inductive Plan.Returns (p : Plan) (b : Block) : Plan → Prop
  | merged {pre post earlier later : List Block} {q : Block} :
      p.blocks = pre ++ [q, b] ++ post → q.isFree = true → p.free = earlier ++ [q] ++ later →
      Returns p b ⟨pre ++ [q.merge b] ++ post, earlier ++ [q.merge b] ++ later⟩
  | appended {pre post : List Block} :
      p.blocks = pre ++ [b] ++ post → (∀ q, pre.getLast? = some q → q.isFree = false) →
      Returns p b ⟨pre ++ [b.freed] ++ post, p.free ++ [b.freed]⟩

/-! ## Finding the run of a window and the run before it -/

/-- A cell that reads as the head record of a run over the window decides by its kind. -/
theorem lentRun_covered {a : Arena} {head length n : Nat} (hcount : (look a.cells head).low = n)
    (hle : length ≤ n) (hfits : head + 2 + n ≤ a.cells.size) :
    (lentRun (head + 1) length).run a =
      if Kind.ofCode (look a.cells head).high = .free then
        .error (.error (.misuse (.alreadyFree head))) a
      else
        .ok ⟨head, n, Kind.ofCode (look a.cells head).high,
          (look a.cells (head + 1 + n)).high⟩ a := by
  have hsome : a.cells[head]? = some (look a.cells head) := getElem?_eq_look (by omega)
  have hsound : (sound (some (look a.cells head))).run a = .ok (look a.cells head) a := rfl
  have hload := loadRun_run (readRun?_of hcount (by omega : head + 1 + n < a.cells.size))
  generalize look a.cells head = first at hcount hsome hsound hload
  have hrange : ¬ (first.low < 0 ∨ first.low.toNat < length ∨
      a.cells.size < head + 2 + first.low.toNat) := by
    rw [hcount]
    omega
  unfold lentRun
  rw [if_neg (Nat.succ_ne_zero _), Nat.add_sub_cancel, run_bind_ok (EStateM.run_get a)]
  dsimp only
  rw [hsome, run_bind_ok hsound, if_neg hrange, run_bind_ok hload]
  dsimp only
  by_cases hfree : Kind.ofCode first.high = .free
  · rw [if_pos hfree, if_pos hfree]
    rfl
  · rw [if_neg hfree, if_neg hfree]
    rfl

/-- The run of a lent block is found behind every window that starts there and is not longer. -/
theorem lentRun_run {a : Arena} {blocks : List Block} {b : Block} {length : Nat}
    (h : Laid a.cells blocks) (hb : b ∈ blocks) (hlent : b.isFree = false)
    (hle : length ≤ b.count) :
    (lentRun (b.head + 1) length).run a = .ok (b.toRun a.cells) a := by
  have hmarked := h.marked b hb
  have hkind : b.kind ≠ .free := fun hk => by
    simp [(h.fit b hb).isFree_iff.2 hk] at hlent
  rw [lentRun_covered hmarked.count hle (h.stop_le hb), hmarked.kind, Kind.ofCode_code,
    if_neg hkind]
  rfl

/-- The run right before a block is found through its tail. -/
theorem before?_of_append {cells : Array Cell} {pre post : List Block} {q b : Block}
    (h : Laid cells (pre ++ [q, b] ++ post)) : before? cells b.head = some q.head := by
  have hstop := h.tiles.head_eq_stop
  have hin := h.stop_le (b := q) (by simp)
  have htotal := (h.marked q (by simp)).total
  have hpos : b.head ≠ 0 := by
    simp only [Block.stop] at hstop
    omega
  have htail : b.head - 1 = q.tail := by
    simp only [Block.stop, Block.tail] at hstop ⊢
    omega
  have hsome : cells[q.tail]? = some (look cells q.tail) :=
    getElem?_eq_look (by simp only [Block.stop, Block.tail] at hin ⊢; omega)
  generalize look cells q.tail = tail at hsome htotal
  have hrange : 0 ≤ tail.low ∧ tail.low.toNat ≤ b.head := by
    rw [htotal, hstop]
    simp only [Block.stop]
    omega
  have hback : b.head - tail.low.toNat = q.head := by
    rw [htotal, hstop]
    simp only [Block.stop]
    omega
  simp only [before?, hpos, ↓reduceIte, htail, hsome, hrange, and_self, hback]

theorem before?_of_cons {cells : Array Cell} {post : List Block} {b : Block}
    (h : Laid cells (b :: post)) : before? cells b.head = none := by
  have hhead : b.head = 0 := h.tiles.1
  simp [before?, hhead]

/-! ## Growing over a block -/

/-- The cells after a free block grew over the block right after it. -/
def absorbed (cells : Array Cell) (q b : Block) : Array Cell :=
  inscribe (inscribeRun cells (q.merge b).head (q.merge b).count .free (look cells q.tail).high)
    b.head b.count Kind.free.code

theorem absorb_run {a : Arena} {q b : Block} (hnext : b.head = q.stop)
    (hin : b.stop ≤ a.cells.size) :
    (absorb (q.toRun a.cells) (b.toRun a.cells)).run a =
      .ok () { a with cells := absorbed a.cells q b } := by
  simp only [Block.stop] at hnext hin
  have htail : q.head + 1 + (q.count + b.count + 2) < a.cells.size := by omega
  have hhead : b.head < (inscribeRun a.cells q.head (q.count + b.count + 2) .free
      (look a.cells q.tail).high).size := by
    rw [size_inscribeRun]
    omega
  unfold absorb
  rw [Block.head_toRun, Block.head_toRun, Block.count_toRun, Block.count_toRun, Block.next_toRun,
    run_bind_ok (writeRun_run .free _ htail), writeRecord_run _ _ hhead]
  rfl

section
variable {a : Arena} {p : Plan} {pre post earlier later : List Block} {q b : Block}

theorem look_absorbed_of_not_records {cells : Array Cell} (hnext : b.head = q.stop) {i : Nat}
    (hq : ¬ q.Records i) (hb : ¬ b.Records i) : look (absorbed cells q b) i = look cells i := by
  have hmerge : ¬ (q.merge b).Records i := by
    simp only [Block.merge, Block.Records, Block.tail, Block.stop] at hnext hq hb ⊢
    omega
  have hhead : i ≠ b.head := fun he => hb (.inl he)
  rw [absorbed, look_inscribe_ne _ _ hhead, look_inscribeRun_of_not_records _ _ hmerge]

/-- The record left inside the grown block is none of its records. -/
theorem look_absorbed_records {cells : Array Cell} (hnext : b.head = q.stop) {i : Nat}
    (hi : i = (q.merge b).head ∨ i = (q.merge b).tail) :
    look (absorbed cells q b) i =
      look (inscribeRun cells (q.merge b).head (q.merge b).count .free
        (look cells q.tail).high) i := by
  refine look_inscribe_ne _ _ ?_
  simp only [Block.merge, Block.stop, Block.tail] at hnext hi ⊢
  omega

/-- The head record of a block that was grown over says that the block is free. -/
theorem look_absorbed_head {cells : Array Cell} (hbound : cells.size ≤ maximumPoolCells)
    (hin : b.stop ≤ cells.size) :
    (look (absorbed cells q b) b.head).low = b.count ∧
      (look (absorbed cells q b) b.head).high = Kind.free.code := by
  simp only [Block.stop] at hin
  have hcount : IsHalf b.count := isHalf_natCast (by omega)
  rw [absorbed, look_inscribe_self _ _ (by rw [size_inscribeRun]; omega)]
  exact ⟨Cell.low_withPair _ _ hcount, Cell.high_withPair _ _ Kind.free.isHalf_code⟩

/-- **A block merges into a free block right before it**, which keeps its place in the list. -/
theorem Represents.absorbed (h : Represents a p) (hblocks : p.blocks = pre ++ [q, b] ++ post)
    (hqfree : q.isFree = true) (hbfree : b.isFree = false)
    (hfree : p.free = earlier ++ [q] ++ later) :
    Represents { a with cells := Allocator.absorbed a.cells q b }
      ⟨pre ++ [q.merge b] ++ post, earlier ++ [q.merge b] ++ later⟩ := by
  have hlaid := h.laid
  rw [hblocks] at hlaid
  have hnext := hlaid.tiles.head_eq_stop
  have hin : (q.merge b).stop ≤ a.cells.size := by
    have := hlaid.stop_le (b := b) (by simp)
    simp only [Block.merge, Block.stop] at this hnext ⊢
    omega
  have hkeep : ∀ i, (∀ c ∈ [q, b], ¬ c.Spans i) →
      look (Allocator.absorbed a.cells q b) i = look a.cells i := fun i hi =>
    look_absorbed_of_not_records hnext (fun hr => hi q (by simp) hr.spans)
      fun hr => hi b (by simp) hr.spans
  have hother : ∀ c ∈ earlier ++ later,
      look (Allocator.absorbed a.cells q b) c.tail = look a.cells c.tail := by
    intro c hc
    obtain ⟨hcb, hcfree⟩ := h.mem_of_free (b := c) (by
      rw [hfree]
      rcases List.mem_append.1 hc with hc | hc <;> simp [hc])
    have hcq := h.ne_of_mem_append hfree hc
    have hcne : c ≠ b := by
      rintro rfl
      simp [hcfree] at hbfree
    exact hlaid.look_eq (by simp) hkeep (hblocks ▸ hcb) (by simp [hcq, hcne]) c.spans_tail
  refine ⟨hlaid.replace (by simp [Allocator.absorbed]) hkeep (fun start stop ht => ?_) ?_ ?_,
    ?_, ?_⟩
  · obtain ⟨hq, hb, hstop⟩ := ht
    simp only [Tiles, Block.merge, Block.stop] at hq hb hstop ⊢
    exact ⟨hq, by omega⟩
  · simp only [List.mem_singleton, forall_eq]
    exact ⟨by simp only [Block.merge]; omega, fun k n hl => by simp [Block.merge] at hl⟩
  · simp only [List.mem_singleton, forall_eq]
    exact (marked_inscribeRun _ hlaid.bound hin rfl).congr (look_absorbed_records hnext (.inl rfl))
      (look_absorbed_records hnext (.inr rfl))
  · have hchain := h.linked
    rw [hfree, List.append_assoc, List.singleton_append] at hchain
    obtain ⟨mid, hearlier, hhead, hlater⟩ := Chain.append_iff.1 hchain
    show Chain _ _ (earlier ++ [q.merge b] ++ later) noRun
    rw [List.append_assoc, List.singleton_append]
    refine Chain.append_iff.2
      ⟨mid, hearlier.congr fun c hc => hother c (by simp [hc]), hhead, ?_⟩
    rw [look_absorbed_records hnext (.inr rfl), high_tail_inscribeRun _ hin (Cell.isHalf_high _)]
    exact hlater.congr fun c hc => hother c (by simp [hc])
  · have hlisted := h.listed
    rw [hblocks, hfree] at hlisted
    simp only [List.filter_append, List.filter_cons, List.filter_nil, hqfree, hbfree, ↓reduceIte,
      Bool.false_eq_true] at hlisted
    have hmerge : (q.merge b).isFree = true := rfl
    simp only [List.filter_append, List.filter_cons, List.filter_nil, hmerge, ↓reduceIte]
    exact perm_replace hlisted

end

/-! ## Going to the end of the list -/

theorem Chain.link_ne_noRun {cells : Array Cell} {l : List Block} {z : Block} {link stop : Int}
    (h : Chain cells link (l ++ [z]) stop) : link ≠ noRun := by
  rcases l with _ | ⟨b, l⟩
  · rw [(Chain.cons_iff.1 h).1]
    exact natCast_ne_noRun _
  · rw [(Chain.cons_iff.1 h).1]
    exact natCast_ne_noRun _

theorem lastFree_concat {cells : Array Cell} {fuel : Nat} {l : List Block} {z : Block} {link : Int}
    (hchain : Chain cells link (l ++ [z]) noRun)
    (hread : ∀ b ∈ l ++ [z], follow? cells b.head = some (b.toRun cells))
    (hfuel : l.length < fuel) : lastFree cells fuel link = some (z.toRun cells) := by
  induction l generalizing fuel link with
  | nil =>
    obtain ⟨rfl, hend⟩ := Chain.cons_iff.1 hchain
    obtain ⟨fuel, rfl⟩ : ∃ n, fuel = n + 1 := ⟨fuel - 1, by omega⟩
    have hend' : (look cells z.tail).high = noRun := hend
    simp only [lastFree, hread z (by simp), Block.next_toRun, hend', ↓reduceIte]
  | cons b rest ih =>
    obtain ⟨rfl, hrest⟩ := Chain.cons_iff.1 hchain
    obtain ⟨fuel, rfl⟩ : ∃ n, fuel = n + 1 := ⟨fuel - 1, by omega⟩
    -- another block follows, so that the link is not the end
    have hlink : (look cells b.tail).high ≠ noRun := Chain.link_ne_noRun hrest
    simp only [lastFree, hread b (by simp), Block.next_toRun, hlink, ↓reduceIte]
    exact ih hrest (fun c hc => hread c (List.mem_cons_of_mem _ hc)) (by simpa using hfuel)

/-- **A block goes to the end of the free list.** -/
theorem append_run {a : Arena} {blocks l : List Block} {z : Block} (hlaid : Laid a.cells blocks)
    (hmem : ∀ b ∈ l, b ∈ blocks ∧ b.isFree = true) (hz : z ∈ blocks) (hnodup : (l ++ [z]).Nodup)
    (hfirst : Chain a.cells a.firstFree l noRun) (hsecond : Chain a.cells z.head [z] noRun)
    (hfuel : l.length ≤ a.cells.size) :
    ∃ a', (append z.head).run a = .ok () a' ∧ a'.cells.size = a.cells.size ∧
      (∀ i, (∀ b ∈ l, ¬ b.Records i) → look a'.cells i = look a.cells i) ∧
      Laid a'.cells blocks ∧ Chain a'.cells a'.firstFree (l ++ [z]) noRun := by
  rcases List.eq_nil_or_concat l with rfl | ⟨l, q, rfl⟩
  · have hnone : a.firstFree = noRun := hfirst
    refine ⟨{ a with firstFree := z.head }, ?_, rfl, fun _ _ => rfl, hlaid, hsecond⟩
    unfold append
    rw [run_bind_ok (EStateM.run_get a), if_pos hnone, EStateM.run_set]
  · rw [List.concat_eq_append] at *
    obtain ⟨hq, hfree⟩ := hmem q (by simp)
    have htail : q.head + 1 + q.count < a.cells.size := by
      have := hlaid.stop_le hq
      simp only [Block.stop] at this
      omega
    have hhalf : IsHalf z.head := by
      have := hlaid.stop_le hz
      have := hlaid.bound
      refine isHalf_natCast ?_
      simp only [Block.stop] at *
      omega
    have hblocks : ∀ b ∈ l ++ [z], b ∈ blocks := fun b hb => by
      rcases List.mem_append.1 hb with hb | hb
      · exact (hmem b (by simp [hb])).1
      · exact List.mem_singleton.1 hb ▸ hz
    have hsome : a.firstFree ≠ noRun := Chain.link_ne_noRun hfirst
    have hlast : lastFree a.cells a.cells.size a.firstFree = some (q.toRun a.cells) :=
      lastFree_concat hfirst (fun b hb => hlaid.follow? (hmem b hb).1)
        (by rw [List.length_append, List.length_singleton] at hfuel; omega)
    have hsound : (sound (some (q.toRun a.cells))).run a = .ok (q.toRun a.cells) a := rfl
    obtain ⟨hlaid', hchain⟩ := hlaid.join hq hfree hblocks hnodup hfirst hsecond hhalf
    refine ⟨{ a with cells := inscribeRun a.cells q.head q.count .free z.head }, ?_,
      size_inscribeRun .., fun i hi => ?_, hlaid', hchain⟩
    · unfold append
      rw [run_bind_ok (EStateM.run_get a), if_neg hsome, hlast, run_bind_ok hsound,
        Block.head_toRun, Block.count_toRun, writeRun_run _ _ htail]
    · exact look_inscribeRun_of_not_records _ _ (hi q (by simp))

/-! ## Release -/

/-- **A block becomes free by itself** and goes to the end of the list. -/
theorem free_run {a : Arena} {p : Plan} {pre post : List Block} {b : Block} (h : Represents a p)
    (hblocks : p.blocks = pre ++ [b] ++ post) (hbfree : b.isFree = false) :
    ∃ a', (do writeRun b.head b.count .free noRun; append b.head : ArenaM Unit).run a = .ok () a' ∧
      Represents a' ⟨pre ++ [b.freed] ++ post, p.free ++ [b.freed]⟩ ∧
      a'.cells.size = a.cells.size ∧
      ∀ i, (∀ c ∈ p.blocks, c.isFree = true ∨ c = b → ¬ c.Records i) →
        look a'.cells i = look a.cells i := by
  have hb : b ∈ p.blocks := by simp [hblocks]
  have hin := h.laid.stop_le hb
  have htail : b.head + 1 + b.count < a.cells.size := by
    simp only [Block.stop] at hin
    omega
  let cells := inscribeRun a.cells b.head b.count .free noRun
  have hkeep : ∀ i, (∀ c ∈ [b], ¬ c.Spans i) → look cells i = look a.cells i := fun i hi =>
    look_inscribeRun_of_not_spans _ _ (hi b (by simp))
  have hwritten : ∀ i, ¬ b.Records i → look cells i = look a.cells i := fun i hi =>
    look_inscribeRun_of_not_records _ _ hi
  have hne : ∀ c ∈ p.free, c ≠ b := by
    rintro c hc rfl
    simp [(h.mem_of_free hc).2] at hbfree
  have hmem : ∀ c ∈ p.free, c ∈ pre ++ [b.freed] ++ post ∧ c.isFree = true := by
    intro c hc
    obtain ⟨hcb, hcfree⟩ := h.mem_of_free hc
    rw [hblocks] at hcb
    simp only [List.mem_append, List.mem_singleton, hne c hc, or_false] at hcb
    refine ⟨?_, hcfree⟩
    rcases hcb with hcb | hcb <;> simp [hcb]
  have hlaid : Laid cells (pre ++ [b.freed] ++ post) := by
    have hold := h.laid
    rw [hblocks] at hold
    refine hold.replace (size_inscribeRun ..) hkeep (fun _ _ ht => ht) ?_ ?_
    · simp only [List.mem_singleton, forall_eq]
      exact ⟨(h.laid.fit b hb).pos, fun k n hl => by simp [Block.freed] at hl⟩
    · simp only [List.mem_singleton, forall_eq]
      exact marked_inscribeRun (b := b.freed) _ h.laid.bound hin rfl
  have hlisted : (p.free ++ [b.freed]).Perm ((pre ++ [b.freed] ++ post).filter Block.isFree) := by
    have hold := h.listed
    have hfreed : b.freed.isFree = true := rfl
    rw [hblocks] at hold
    simp only [List.filter_append, List.filter_cons, List.filter_nil, hbfree, Bool.false_eq_true,
      ↓reduceIte] at hold
    simp only [List.filter_append, List.filter_cons, List.filter_nil, hfreed, ↓reduceIte]
    have hnew : (p.free ++ [b.freed] ++ []).Perm
        (pre.filter Block.isFree ++ [b.freed] ++ post.filter Block.isFree) :=
      perm_replace (by simpa using hold : (p.free ++ [] ++ []).Perm _)
    rwa [List.append_nil] at hnew
  have hchain : Chain cells a.firstFree p.free noRun := h.linked.congr fun c hc =>
    h.laid.look_eq (by simp [hb]) hkeep (h.mem_of_free hc).1 (by simpa using hne c hc) c.spans_tail
  have hself : Chain cells b.freed.head [b.freed] noRun :=
    ⟨rfl, high_tail_inscribeRun (b := b.freed) _ hin isHalf_noRun⟩
  obtain ⟨a', happend, hsize, hkeep', hlaid', hlinked⟩ :=
    append_run (a := { a with cells }) hlaid hmem (by simp)
      (hlisted.nodup_iff.2 (hlaid.tiles.nodup.filter _)) hchain hself
      (by simpa [cells] using h.length_free_le)
  refine ⟨a', ?_, ⟨hlaid', hlinked, hlisted⟩, hsize.trans (size_inscribeRun ..), fun i hi => ?_⟩
  · rw [run_bind_ok (writeRun_run _ _ htail)]
    exact happend
  · rw [hkeep' i fun c hc => ?_, hwritten i (hi b hb (.inr rfl))]
    obtain ⟨hcb, hcfree⟩ := h.mem_of_free hc
    exact hi c hcb (.inl hcfree)

/-- What becomes of an arena and its plan when the block `b` is given back. -/
structure Released (a a' : Arena) (p p' : Plan) (b : Block) : Prop where
  returns : p.Returns b p'
  plan : Represents a' p'
  size : a'.cells.size = a.cells.size
  /-- Only records were written: those of free blocks and of the block itself. -/
  keep : ∀ i, (∀ c ∈ p.blocks, c.isFree = true ∨ c = b → ¬ c.Records i) →
    look a'.cells i = look a.cells i
  /-- The head record of the block is still there, and says now that the block is free. -/
  struck : (look a'.cells b.head).low = b.count ∧ (look a'.cells b.head).high = Kind.free.code

/-- A block that became free by itself has its own records. -/
theorem struck_of_freed {a : Arena} {p : Plan} {b : Block} (h : Represents a p)
    (hb : b.freed ∈ p.blocks) :
    (look a.cells b.head).low = b.count ∧ (look a.cells b.head).high = Kind.free.code := by
  have hmarked := h.laid.marked b.freed hb
  exact ⟨hmarked.count, hmarked.kind⟩

/-- **The release of a lent block succeeds.** The new arena represents a plan in which the block
was given back. -/
theorem release_run {a : Arena} {p : Plan} {b : Block} {kind : Kind} {length : Nat}
    (h : Represents a p) (hb : b ∈ p.blocks) (hloan : b.loan = some (kind, length)) :
    ∃ a' p', (release (b.head + 1) length).run a = .ok () a' ∧ Released a a' p p' b := by
  have hbfree : b.isFree = false := by simp [Block.isFree, hloan]
  have hlent := lentRun_run h.laid hb hbfree ((h.laid.fit b hb).loan kind length hloan).2.1
  obtain ⟨pre, post, hblocks⟩ := List.append_of_mem hb
  rw [List.append_cons] at hblocks
  unfold release
  rw [run_bind_ok hlent, run_bind_ok (EStateM.run_get a), Block.head_toRun, Block.count_toRun]
  rcases List.eq_nil_or_concat pre with rfl | ⟨pre, q, rfl⟩
  · -- the block is the first one
    have hbefore : before? a.cells b.head = none := by
      have hlaid := h.laid
      rw [hblocks] at hlaid
      exact before?_of_cons hlaid
    obtain ⟨a', hrun, hrep, hsize, hkeep⟩ := free_run h hblocks hbfree
    rw [hbefore]
    exact ⟨a', _, hrun, .appended hblocks (by simp), hrep, hsize, hkeep,
      struck_of_freed hrep (by simp)⟩
  · rw [List.concat_eq_append, List.append_assoc pre [q] [b], List.singleton_append] at hblocks
    have hlaid := h.laid
    rw [hblocks] at hlaid
    have hq : q ∈ p.blocks := by simp [hblocks]
    rw [before?_of_append hlaid]
    dsimp only
    rw [run_bind_ok (loadRun_run (h.laid.readRun? hq)), Block.kind_toRun]
    by_cases hqfree : q.isFree = true
    · -- it has a free block right before it
      rw [if_pos (Block.kind_of_isFree hqfree)]
      obtain ⟨earlier, later, hfree⟩ := List.append_of_mem (h.mem_free hq hqfree)
      rw [List.append_cons] at hfree
      have hnext := hlaid.tiles.head_eq_stop
      have hin := h.laid.stop_le hb
      refine ⟨_, _, absorb_run hnext hin, .merged hblocks hqfree hfree,
        h.absorbed hblocks hqfree hbfree hfree, by simp [absorbed], fun i hi => ?_,
        look_absorbed_head h.laid.bound hin⟩
      exact look_absorbed_of_not_records hnext (hi q hq (.inl hqfree)) (hi b hb (.inr rfl))
    · have hkind : q.kind ≠ .free := fun hk => hqfree ((h.laid.fit q hq).isFree_iff.2 hk)
      have hblocks' : p.blocks = (pre ++ [q]) ++ [b] ++ post := by simp [hblocks]
      obtain ⟨a', hrun, hrep, hsize, hkeep⟩ := free_run h hblocks' hbfree
      rw [if_neg hkind]
      exact ⟨a', _, hrun, .appended hblocks' (by simpa using hqfree), hrep, hsize, hkeep,
        struck_of_freed hrep (by simp)⟩

end CellMachine.Allocator
