import CellMachine.Proofs.Allocator.Census
import CellMachine.Proofs.Allocator.Returning

/-!
# The allocator with machine numbers

The allocator computes with whole numbers of any size, and a loop of it may take as many steps as
the pool has cells. Here everything is done once more the way a machine has to do it: positions and
counts are unsigned words, records hold signed half words, and every access, every sum, every
difference and every step from the one kind of number to the other is checked, as is the number of
steps of every loop. Whatever does not pass its check is a crash.

The lemmas here are about one piece of the work each, in a pool whose size fits a half word: where
the piece succeeds with whole numbers and what it is given lies inside the pool, its checks pass and
its result is the same (`Careful.loadRun_run`, `Careful.writeRun_run`, `Careful.firstFit_run`,
`Careful.divide_run` and so on).
-/

namespace CellMachine.Allocator

namespace Careful

/-! ## Machine numbers -/

/-- A sum in an unsigned word. -/
def plus (m n : Nat) : ArenaM Nat :=
  if m + n < 0x10000000000000000 then pure (m + n) else throw .crash

/-- A difference in an unsigned word. -/
def minus (m n : Nat) : ArenaM Nat := if n ≤ m then pure (m - n) else throw .crash

/-- An unsigned word as a signed half word. -/
def narrow (n : Nat) : ArenaM Int := if n < 0x80000000 then pure n else throw .crash

/-- A signed half word as an unsigned word. -/
def widen (n : Int) : ArenaM Nat := if 0 ≤ n then pure n.toNat else throw .crash

/-- The cell at a position. -/
def cellAt (position : Nat) : ArenaM Cell := do
  sound (← get).cells[position]?

/-! ## The allocator -/

/-- Reads the run at a position. -/
def loadRun (head : Nat) : ArenaM Run := do
  let first ← cellAt head
  let count ← widen first.low
  let last ← cellAt (← plus (← plus head 1) count)
  pure ⟨head, count, Kind.ofCode first.high, last.high⟩

/-- Writes both records of a run. -/
def writeRun (head count : Nat) (kind : Kind) (next : Int) : ArenaM Unit := do
  let tail ← plus (← plus head 1) count
  writeRecord head (← narrow count) kind.code
  writeRecord tail (← narrow (← plus count 2)) next

/-- The free runs from a link on. -/
def freeFrom : (steps : Nat) → (link : Int) → ArenaM (List Run)
  | 0, link => if link = noRun then pure [] else throw .crash
  | steps + 1, link => do
    if link = noRun then pure []
    else
      let run ← loadRun (← widen link)
      return run :: (← freeFrom steps run.next)

/-- The cells that runs could lend, all together. -/
def total (runs : List Run) : ArenaM Nat := runs.foldlM (fun n run => plus n run.count) 0

/-- The runs from a position to the end of the pool, which has to be met exactly. -/
def runsFrom : (steps head : Nat) → ArenaM (List Run)
  | 0, head => do
    if head = (← get).cells.size then pure [] else throw .crash
  | steps + 1, head => do
    if head = (← get).cells.size then pure []
    else
      let run ← loadRun head
      let stop ← plus head (← plus run.count 2)
      return run :: (← runsFrom steps stop)

/-- The first run from `link` on that can lend `count` cells. -/
def firstFit (count : Nat) : (steps : Nat) → (previous link : Int) → ArenaM (Option Fit)
  | 0, _, link => if link = noRun then pure none else throw .crash
  | steps + 1, previous, link => do
    if link = noRun then pure none
    else
      let run ← loadRun (← widen link)
      if count ≤ run.count then pure (some ⟨run, previous⟩)
      else firstFit count steps link run.next

/-- The last run of the free list from `link` on. -/
def lastFree : (steps : Nat) → (link : Int) → ArenaM Run
  | 0, _ => throw .crash
  | steps + 1, link => do
    let run ← loadRun (← widen link)
    if run.next = noRun then pure run else lastFree steps run.next

/-- Lends `count` cells of the free run at a position. -/
def divide (head count : Nat) (kind : Kind) : ArenaM Int := do
  let run ← loadRun head
  if (← minus run.count count) < minimumRunCells then
    writeRun head run.count kind noRun
    pure run.next
  else
    writeRun head count kind noRun
    let rest ← plus (← plus head 2) count
    let left ← minus run.count (← plus 2 count)
    writeRun rest left .free run.next
    narrow rest

/-- Links the run before the one that was lent to what takes its place. -/
def relink (previous link : Int) : ArenaM Unit := do
  if previous = noRun then
    modify fun arena => { arena with firstFree := link }
  else
    let before ← loadRun (← widen previous)
    writeRun before.head before.count before.kind link

/-- The window that is lent has to lie inside the pool. -/
def lent (head count : Nat) : ArenaM (Nat × Nat) := do
  let offset ← plus head 1
  if (← plus offset count) ≤ (← get).cells.size then pure (offset, count) else throw .crash

/-- Lends cells for `size` bytes, passing at most `steps` free runs. -/
def allocate (steps : Nat) (size : Int) (kind : Kind) : ArenaM (Nat × Nat) := do
  let count ← match requestedCells size kind with
    | .ok count => pure count
    | .error e => throw (.error e)
  match ← firstFit count steps noRun (← get).firstFree with
  | none => throw (.error (.outOfMemory count))
  | some fit =>
    let replacement ← divide fit.run.head count kind
    relink fit.previous replacement
    lent fit.run.head count

/-- The head of the run right before `head`. -/
def before (head : Nat) : ArenaM (Option Nat) := do
  if head = 0 then pure none
  else
    let tail ← cellAt (← minus head 1)
    return some (← minus head (← widen tail.low))

/-- Puts a run that became free at the end of the free list, passing at most `steps` free runs. -/
def append (steps head : Nat) : ArenaM Unit := do
  if (← get).firstFree = noRun then
    let link ← narrow head
    modify fun arena => { arena with firstFree := link }
  else
    let last ← lastFree steps (← get).firstFree
    writeRun last.head last.count .free (← narrow head)

/-- Grows a free run over the run right after it. -/
def absorb (previous run : Run) : ArenaM Unit := do
  let merged ← plus (← plus previous.count run.count) 2
  writeRun previous.head merged .free previous.next
  writeRecord run.head (← narrow run.count) Kind.free.code

/-- The run behind a window of `length` cells from `offset` on. -/
def lentRun (offset length : Nat) : ArenaM Run := do
  if offset = 0 then throw (.error (.misuse .notAnAllocation))
  let head ← minus offset 1
  let first ← cellAt head
  if first.low < 0 ∨ first.low.toNat < length then
    throw (.error (.misuse (.noRunRecord head length)))
  if (← get).cells.size < (← plus (← plus head 2) first.low.toNat) then
    throw (.error (.misuse (.noRunRecord head length)))
  let run ← loadRun head
  if run.kind = .free then throw (.error (.misuse (.alreadyFree head)))
  pure run

/-- Gives back the run behind a window, passing at most `steps` free runs. -/
def release (steps offset length : Nat) : ArenaM Unit := do
  let run ← lentRun offset length
  match ← before run.head with
  | some head =>
    let previous ← loadRun head
    if previous.kind = .free then absorb previous run
    else
      writeRun run.head run.count .free noRun
      append steps run.head
  | none =>
    writeRun run.head run.count .free noRun
    append steps run.head

/-! ## The checks of numbers -/

section
variable {a : Arena}

theorem minus_run {m n : Nat} (h : n ≤ m) : (minus m n).run a = .ok (m - n) a := by
  rw [minus, if_pos h]
  rfl

theorem widen_run {n : Int} (h : 0 ≤ n) : (widen n).run a = .ok n.toNat a := by
  rw [widen, if_pos h]
  rfl

theorem cellAt_run {position : Nat} {c : Cell} (h : a.cells[position]? = some c) :
    (cellAt position).run a = .ok c a := by
  rw [cellAt, run_bind_ok (EStateM.run_get a), h]
  rfl

theorem minus_one_run (n : Nat) : (minus (n + 1) 1).run a = .ok n a :=
  minus_run (Nat.le_add_left 1 n)

/-- The run right before a block is found through its tail. -/
theorem before_run {head previous : Nat} (h : before? a.cells head = some previous) :
    (before head).run a = .ok (some previous) a := by
  unfold before? at h
  unfold before
  split at h
  · cases h
  next hpos =>
    rw [if_neg hpos, run_bind_ok (minus_run (by omega))]
    split at h
    · cases h
    next tail htail =>
      split at h
      next hrange =>
        rw [run_bind_ok (cellAt_run htail), run_bind_ok (widen_run hrange.1),
          run_bind_ok (minus_run hrange.2), ← h]
        rfl
      · cases h

variable (hbound : a.cells.size ≤ maximumPoolCells)
include hbound

/-- Numbers that are no larger than the pool fit everywhere. -/
theorem plus_run {m n : Nat} (h : m + n ≤ a.cells.size) : (plus m n).run a = .ok (m + n) a := by
  simp only [maximumPoolCells] at hbound
  rw [plus, if_pos (by omega)]
  rfl

theorem narrow_run {n : Nat} (h : n ≤ a.cells.size) : (narrow n).run a = .ok n a := by
  simp only [maximumPoolCells] at hbound
  rw [narrow, if_pos (by omega)]
  rfl

/-! ## Reading and writing one run -/

theorem loadRun_run {head : Nat} {run : Run} (h : readRun? a.cells head = some run) :
    (loadRun head).run a = .ok run a := by
  have htail := (tail_lt_of_readRun? h).2
  obtain ⟨first, last, hfirst, hcount, hlast, rfl⟩ := readRun?_eq_some h
  unfold loadRun
  rw [run_bind_ok (cellAt_run hfirst), run_bind_ok (widen_run hcount),
    run_bind_ok (plus_run hbound (by omega)), run_bind_ok (plus_run hbound (Nat.le_of_lt htail)),
    run_bind_ok (cellAt_run hlast), EStateM.run_pure]

theorem writeRun_run {head count : Nat} (kind : Kind) (next : Int)
    (h : head + 1 + count < a.cells.size) :
    (writeRun head count kind next).run a = (Allocator.writeRun head count kind next).run a := by
  let a' : Arena := { a with cells := inscribe a.cells head count kind.code }
  have hfirst : (writeRecord head count kind.code).run a = .ok () a' :=
    writeRecord_run _ _ (by omega)
  have hsize : a'.cells.size = a.cells.size := size_inscribe ..
  have htotal : count + 2 ≤ a'.cells.size := by omega
  have hbound' : a'.cells.size ≤ maximumPoolCells := by rwa [hsize]
  unfold writeRun Allocator.writeRun
  rw [run_bind_ok (plus_run hbound (by omega)), run_bind_ok (plus_run hbound (Nat.le_of_lt h)),
    run_bind_ok (narrow_run hbound (by omega)), run_bind_ok hfirst, run_bind_ok hfirst,
    run_bind_ok (plus_run hbound' htotal), run_bind_ok (narrow_run hbound' htotal)]

/-! ## Walks -/

/-- A link that can be followed is a position, and the run there can be loaded. -/
theorem follow_run {link : Int} {run : Run} (h : follow? a.cells link = some run) :
    (widen link).run a = .ok link.toNat a ∧ (loadRun link.toNat).run a = .ok run a := by
  unfold follow? at h
  split at h
  · cases h
  next hneg => exact ⟨widen_run (Int.not_lt.1 hneg), loadRun_run hbound h⟩

theorem freeFrom_run {steps : Nat} {link : Int} {runs : List Run}
    (h : Allocator.freeFrom a.cells steps link = some runs) :
    (freeFrom steps link).run a = .ok runs a := by
  induction steps generalizing link runs with
  | zero =>
    unfold Allocator.freeFrom at h
    unfold freeFrom
    split at h
    next hlink =>
      rw [if_pos hlink]
      cases h
      rfl
    · cases h
  | succ steps ih =>
    unfold Allocator.freeFrom at h
    unfold freeFrom
    split at h
    next hlink =>
      rw [if_pos hlink]
      cases h
      rfl
    next hlink =>
      rw [if_neg hlink]
      split at h
      · cases h
      next run hfollow =>
        obtain ⟨rest, hrest, rfl⟩ := Option.map_eq_some_iff.1 h
        obtain ⟨hwiden, hload⟩ := follow_run hbound hfollow
        rw [run_bind_ok hwiden, run_bind_ok hload, run_bind_ok (ih hrest), EStateM.run_pure]

theorem firstFit_run {count steps : Nat} {previous link : Int} {fit : Option Fit}
    (h : Allocator.firstFit a.cells count steps previous link = some fit) :
    (firstFit count steps previous link).run a = .ok fit a := by
  induction steps generalizing previous link with
  | zero =>
    unfold Allocator.firstFit at h
    unfold firstFit
    split at h
    next hlink =>
      rw [if_pos hlink]
      cases h
      rfl
    · cases h
  | succ steps ih =>
    unfold Allocator.firstFit at h
    unfold firstFit
    split at h
    next hlink =>
      rw [if_pos hlink]
      cases h
      rfl
    next hlink =>
      rw [if_neg hlink]
      split at h
      · cases h
      next run hfollow =>
        obtain ⟨hwiden, hload⟩ := follow_run hbound hfollow
        rw [run_bind_ok hwiden, run_bind_ok hload]
        split at h
        next hle =>
          rw [if_pos hle]
          cases h
          rfl
        next hle =>
          rw [if_neg hle]
          exact ih h

theorem lastFree_run {steps : Nat} {link : Int} {run : Run}
    (h : Allocator.lastFree a.cells steps link = some run) :
    (lastFree steps link).run a = .ok run a := by
  induction steps generalizing link with
  | zero => cases h
  | succ steps ih =>
    unfold Allocator.lastFree at h
    unfold lastFree
    split at h
    · cases h
    next run hfollow =>
      obtain ⟨hwiden, hload⟩ := follow_run hbound hfollow
      rw [run_bind_ok hwiden, run_bind_ok hload]
      split at h
      next hend =>
        rw [if_pos hend]
        cases h
        rfl
      next hend =>
        rw [if_neg hend]
        exact ih h

theorem runsFrom_run {steps head : Nat} {runs : List Run} (hle : head ≤ a.cells.size)
    (h : Allocator.runsFrom a.cells steps head = some runs) :
    (runsFrom steps head).run a = .ok runs a := by
  induction steps generalizing head runs with
  | zero =>
    unfold Allocator.runsFrom at h
    unfold runsFrom
    split at h
    · cases h
    next hend =>
      rw [run_bind_ok (EStateM.run_get a), if_pos (by omega)]
      cases h
      rfl
  | succ steps ih =>
    unfold Allocator.runsFrom at h
    unfold runsFrom
    rw [run_bind_ok (EStateM.run_get a)]
    split at h
    next hlt =>
      rw [if_neg (by omega)]
      split at h
      · cases h
      next run hread =>
        obtain ⟨rest, hrest, rfl⟩ := Option.map_eq_some_iff.1 h
        obtain ⟨rfl, htail⟩ := tail_lt_of_readRun? hread
        have hstop : run.head + (run.count + 2) = run.stop := by
          simp only [Run.stop]
          omega
        rw [run_bind_ok (loadRun_run hbound hread), run_bind_ok (plus_run hbound (by omega)),
          run_bind_ok (plus_run hbound (by omega)), hstop,
          run_bind_ok (ih (by rw [← hstop]; omega) hrest), EStateM.run_pure]
    next hend =>
      rw [if_pos (by omega)]
      cases h
      rfl

/-- Adding up the cells of some runs. -/
theorem total_run {runs : List Run} (h : runs.foldr (fun r n => r.count + n) 0 ≤ a.cells.size) :
    (total runs).run a = .ok (runs.foldr (fun r n => r.count + n) 0) a := by
  have hfold : ∀ n, n + runs.foldr (fun r n => r.count + n) 0 ≤ a.cells.size →
      (runs.foldlM (fun n r => plus n r.count) n).run a =
        .ok (n + runs.foldr (fun r n => r.count + n) 0) a := by
    clear h
    induction runs with
    | nil => exact fun n _ => rfl
    | cons r rest ih =>
      intro n hn
      rw [List.foldr_cons] at hn ⊢
      rw [List.foldlM_cons, run_bind_ok (plus_run hbound (by omega)), ih _ (by omega),
        Nat.add_assoc]
  rw [total, hfold 0 (by omega), Nat.zero_add]

/-! ## Lending -/

/-- **A run is divided as with whole numbers** whenever it can lend what is asked for. -/
theorem divide_run {run : Run} {count : Nat} (kind : Kind)
    (hread : readRun? a.cells run.head = some run) (hle : count ≤ run.count) :
    (divide run.head count kind).run a = (Allocator.divide run count kind).run a := by
  have htail := (tail_lt_of_readRun? hread).2
  unfold divide Allocator.divide
  rw [run_bind_ok (loadRun_run hbound hread), run_bind_ok (minus_run hle)]
  by_cases hsmall : run.count - count < minimumRunCells
  · rw [if_pos hsmall, if_pos hsmall, EStateM.run_bind, EStateM.run_bind,
      writeRun_run hbound _ _ htail]
  · rw [if_neg hsmall, if_neg hsmall]
    simp only [minimumRunCells, Nat.not_lt] at hsmall
    let a' : Arena := { a with cells := inscribeRun a.cells run.head count kind noRun }
    have hlent : (Allocator.writeRun run.head count kind noRun).run a = .ok () a' :=
      Allocator.writeRun_run _ _ (by omega)
    have hsize : a'.cells.size = a.cells.size := size_inscribeRun ..
    have hbound' : a'.cells.size ≤ maximumPoolCells := by rwa [hsize]
    have hrest : run.head + 2 + count + 1 + (run.count - (2 + count)) < a'.cells.size := by omega
    have hleft := Allocator.writeRun_run (a := a') .free run.next hrest
    have hfits : run.head + 2 + count ≤ a'.cells.size := by omega
    rw [run_bind_ok ((writeRun_run hbound _ _ (by omega)).trans hlent), run_bind_ok hlent,
      run_bind_ok (plus_run hbound' (by omega)), run_bind_ok (plus_run hbound' hfits),
      run_bind_ok (plus_run hbound' (by omega)), run_bind_ok (minus_run (by omega)),
      run_bind_ok ((writeRun_run hbound' _ _ hrest).trans hleft), run_bind_ok hleft]
    exact narrow_run (by simpa using hbound') (by simpa using hfits)

theorem relink_run {previous link : Int} {a' : Arena} (hprevious : previous = noRun ∨ 0 ≤ previous)
    (h : (Allocator.relink previous link).run a = .ok () a') :
    (relink previous link).run a = .ok () a' := by
  unfold Allocator.relink at h
  unfold relink
  by_cases hnone : previous = noRun
  · rw [if_pos hnone] at h ⊢
    exact h
  · rw [if_neg hnone] at h ⊢
    obtain ⟨run, t, hload, hwrite⟩ := run_bind_eq_ok h
    obtain ⟨hread, rfl⟩ := loadRun_eq_ok hload
    obtain ⟨hhead, htail⟩ := tail_lt_of_readRun? hread
    rw [run_bind_ok (widen_run (hprevious.resolve_left hnone)),
      run_bind_ok (loadRun_run hbound hread), writeRun_run hbound _ _ (by rwa [hhead])]
    exact hwrite

theorem lent_run {head count : Nat} (h : head + 1 + count < a.cells.size) :
    (lent head count).run a = .ok (head + 1, count) a := by
  unfold lent
  rw [run_bind_ok (plus_run hbound (by omega)), run_bind_ok (plus_run hbound (Nat.le_of_lt h)),
    run_bind_ok (EStateM.run_get a), if_pos (Nat.le_of_lt h)]
  rfl

/-! ## Giving back -/

/-- The run of a lent block is found behind every window that starts there and is not longer. -/
theorem lentRun_run {blocks : List Block} {b : Block} {length : Nat} (h : Laid a.cells blocks)
    (hb : b ∈ blocks) (hlent : b.isFree = false) (hle : length ≤ b.count) :
    (lentRun (b.head + 1) length).run a = .ok (b.toRun a.cells) a := by
  have hin := h.stop_le hb
  have hkind : (b.toRun a.cells).kind ≠ .free := fun hk => by
    simp [(h.fit b hb).isFree_iff.2 hk] at hlent
  simp only [Block.stop] at hin
  have hsome : a.cells[b.head]? = some (look a.cells b.head) := getElem?_eq_look (by omega)
  have hload := loadRun_run hbound (h.readRun? hb)
  have hcount := (h.marked b hb).count
  generalize look a.cells b.head = first at hsome hcount
  have hnat : first.low.toNat = b.count := by omega
  have hrange : ¬ (first.low < 0 ∨ first.low.toNat < length) := by omega
  unfold lentRun
  rw [if_neg (Nat.succ_ne_zero _), run_bind_ok (minus_one_run _), run_bind_ok (cellAt_run hsome),
    if_neg hrange, hnat, run_bind_ok (EStateM.run_get a), run_bind_ok (plus_run hbound (by omega)),
    run_bind_ok (plus_run hbound hin), if_neg (by omega), run_bind_ok hload, if_neg hkind]
  rfl

theorem absorb_run {q b : Block} (hnext : b.head = q.stop) (hin : b.stop ≤ a.cells.size) :
    (absorb (q.toRun a.cells) (b.toRun a.cells)).run a =
      (Allocator.absorb (q.toRun a.cells) (b.toRun a.cells)).run a := by
  simp only [Block.stop] at hnext hin
  let a' : Arena := { a with
    cells := inscribeRun a.cells q.head (q.count + b.count + 2) .free (look a.cells q.tail).high }
  have hgrown : (Allocator.writeRun q.head (q.count + b.count + 2) .free
      (look a.cells q.tail).high).run a = .ok () a' := Allocator.writeRun_run _ _ (by omega)
  have hsize : a'.cells.size = a.cells.size := size_inscribeRun ..
  have hbound' : a'.cells.size ≤ maximumPoolCells := by rwa [hsize]
  unfold absorb Allocator.absorb
  simp only [Block.head_toRun, Block.count_toRun, Block.next_toRun]
  rw [run_bind_ok (plus_run hbound (by omega)), run_bind_ok (plus_run hbound (by omega)),
    run_bind_ok ((writeRun_run hbound _ _ (by omega)).trans hgrown), run_bind_ok hgrown,
    run_bind_ok (narrow_run hbound' (by omega))]

theorem append_run {steps head : Nat} {a' : Arena} (hhead : head ≤ a.cells.size)
    (hsteps : steps ≤ a.cells.size)
    (hlast : a.firstFree = noRun ∨ ∃ last : Run, last.head + 1 + last.count < a.cells.size ∧
      ∀ n, steps ≤ n → Allocator.lastFree a.cells n a.firstFree = some last)
    (h : (Allocator.append head).run a = .ok () a') : (append steps head).run a = .ok () a' := by
  unfold Allocator.append at h
  unfold append
  rw [run_bind_ok (EStateM.run_get a)] at h ⊢
  by_cases hnone : a.firstFree = noRun
  · rw [if_pos hnone] at h ⊢
    rw [run_bind_ok (narrow_run hbound hhead)]
    exact h
  · rw [if_neg hnone] at h ⊢
    obtain ⟨last, htail, hlast⟩ := hlast.resolve_left hnone
    have hsound : (sound (some last)).run a = .ok last a := rfl
    have hwalk := lastFree_run hbound (hlast _ (Nat.le_refl _))
    rw [hlast _ hsteps, run_bind_ok hsound] at h
    rw [run_bind_ok (EStateM.run_get a), run_bind_ok hwalk, run_bind_ok (narrow_run hbound hhead),
      writeRun_run hbound _ _ htail]
    exact h

end

end Careful

end CellMachine.Allocator
