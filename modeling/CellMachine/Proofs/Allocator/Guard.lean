import CellMachine.Proofs.Allocator.Merging

/-!
# What a return checks

Whoever asks to give a window back may name any stretch of the pool. The allocator keeps no list of
what it lent: it looks at the one cell right before the window and takes it for the head record of
a run (`Passes`).

* `lentRun_refused`, `release_not_refused`: the check is all there is. A window that does not pass
  is refused and nothing changes, and one that passes is not refused any more;
* `passes_iff_of_mem`: behind a head record the check says what it should;
* `release_checks_one_cell`: any window is answered rightly, unless the cell before it passes for a
  head record without being one;
* `tail_taken_for_a_head`: such cells come about by allocator work alone.
-/

namespace CellMachine.Allocator

/-! ## The check -/

/-- The cell right before a stretch of the pool reads as the head record of a lent run that covers
the stretch and ends inside the pool. -/
structure Passes (cells : Array Cell) (offset length : Nat) : Prop where
  pos : 0 < offset
  covers : (length : Int) ≤ (look cells (offset - 1)).low
  fits : offset + 1 + (look cells (offset - 1)).low ≤ cells.size
  lent : Kind.ofCode (look cells (offset - 1)).high ≠ .free

theorem lentRun_of_passes {a : Arena} {offset length : Nat} (h : Passes a.cells offset length) :
    ∃ run, (lentRun offset length).run a = .ok run a := by
  obtain ⟨head, rfl⟩ := Nat.exists_eq_add_of_lt h.pos
  have hcovers := h.covers
  have hfits := h.fits
  have hlent := h.lent
  rw [Nat.zero_add, Nat.add_sub_cancel] at hcovers hfits hlent
  obtain ⟨n, hcount⟩ := Int.eq_ofNat_of_zero_le (by omega : 0 ≤ (look a.cells head).low)
  rw [Nat.zero_add, lentRun_covered hcount (by omega) (by omega), if_neg hlent]
  exact ⟨_, rfl⟩

/-- **A window that does not pass is refused**, and nothing changes. -/
theorem lentRun_refused {a : Arena} {offset length : Nat} (hin : offset ≤ a.cells.size)
    (h : ¬ Passes a.cells offset length) :
    ∃ misuse, (lentRun offset length).run a = .error (.error (.invalidArgument misuse)) a := by
  cases offset with
  | zero => exact ⟨.notAnAllocation, rfl⟩
  | succ head =>
    by_cases hcovers : 0 ≤ (look a.cells head).low ∧ (length : Int) ≤ (look a.cells head).low ∧
        head + 2 + (look a.cells head).low ≤ a.cells.size
    · obtain ⟨n, hcount⟩ := Int.eq_ofNat_of_zero_le hcovers.1
      -- the record is as long as it has to be, so that it must be marked free
      have hfree : Kind.ofCode (look a.cells head).high = .free := by
        refine Decidable.byContradiction fun hlent => ?_
        refine h ⟨Nat.succ_pos head, ?_, ?_, ?_⟩ <;> rw [Nat.add_sub_cancel]
        · exact hcovers.2.1
        · omega
        · exact hlent
      refine ⟨.alreadyFree head, ?_⟩
      rw [lentRun_covered hcount (by omega) (by omega), if_pos hfree]
      rfl
    · refine ⟨.noRunRecord head length, ?_⟩
      have hsome : a.cells[head]? = some (look a.cells head) := getElem?_eq_look (by omega)
      have hsound : (sound (some (look a.cells head))).run a = .ok (look a.cells head) a := rfl
      generalize look a.cells head = first at hcovers hsome hsound
      have hrange : first.low < 0 ∨ first.low.toNat < length ∨
          a.cells.size < head + 2 + first.low.toNat := by
        omega
      unfold lentRun
      rw [if_neg (Nat.succ_ne_zero _), Nat.add_sub_cancel, run_bind_ok (EStateM.run_get a)]
      dsimp only
      rw [hsome, run_bind_ok hsound, if_pos hrange]
      rfl

/-- Behind a head record of the pool the check says what it should. -/
theorem passes_iff_of_mem {cells : Array Cell} {blocks : List Block} {b : Block} {length : Nat}
    (h : Laid cells blocks) (hb : b ∈ blocks) :
    Passes cells (b.head + 1) length ↔ b.kind ≠ .free ∧ length ≤ b.count := by
  have hmarked := h.marked b hb
  have hin := h.stop_le hb
  simp only [Block.stop] at hin
  constructor
  · intro hpasses
    have hcovers := hpasses.covers
    have hlent := hpasses.lent
    rw [Nat.add_sub_cancel, hmarked.count] at hcovers
    rw [Nat.add_sub_cancel, hmarked.kind, Kind.ofCode_code] at hlent
    exact ⟨hlent, by omega⟩
  · intro hlent
    refine ⟨Nat.succ_pos _, ?_, ?_, ?_⟩ <;> rw [Nat.add_sub_cancel]
    · rw [hmarked.count]
      exact Int.ofNat_le.2 hlent.2
    · rw [hmarked.count]
      omega
    · rw [hmarked.kind, Kind.ofCode_code]
      exact hlent.1

/-! ## After the check -/

/-- The work is done or it crashes, whatever the arena; it is not refused. -/
def Unrefusing {α : Type} (x : ArenaM α) : Prop := ∀ a e a', x.run a ≠ .error (.error e) a'

namespace Unrefusing

variable {α β : Type} {x : ArenaM α}

theorem bind {f : α → ArenaM β} (hx : Unrefusing x) (hf : ∀ r, Unrefusing (f r)) :
    Unrefusing (x >>= f) := by
  intro a e a' h
  match hrun : x.run a with
  | .ok r a₁ =>
    rw [run_bind_ok hrun] at h
    exact hf r a₁ e a' h
  | .error e₁ a₁ =>
    rw [run_bind_error hrun] at h
    cases h
    exact hx a e a' hrun

theorem sound (r : Option α) : Unrefusing (Allocator.sound r) := by
  intro a e a' h
  cases r with
  | none => cases h
  | some r => cases h

theorem writeRecord (position : Nat) (low high : Int) :
    Unrefusing (Allocator.writeRecord position low high) := by
  intro a e a' h
  simp only [Allocator.writeRecord, EStateM.run] at h
  split at h
  · cases h
  · cases h

theorem writeRun (head count : Nat) (kind : Kind) (next : Int) :
    Unrefusing (Allocator.writeRun head count kind next) :=
  (writeRecord _ _ _).bind fun _ => writeRecord _ _ _

theorem get : Unrefusing (MonadState.get : ArenaM Arena) := by
  intro a e a' h
  cases h

theorem loadRun (head : Nat) : Unrefusing (Allocator.loadRun head) :=
  get.bind fun _ => sound _

theorem append (head : Nat) : Unrefusing (Allocator.append head) := by
  refine get.bind fun arena => ?_
  split
  · intro a e a' h
    cases h
  · exact (sound _).bind fun _ => writeRun _ _ _ _

theorem absorb (previous run : Run) : Unrefusing (Allocator.absorb previous run) :=
  (writeRun _ _ _ _).bind fun _ => writeRecord _ _ _

end Unrefusing

/-- **A window that passes is not refused any more**, whatever its cells are. -/
theorem release_not_refused {a : Arena} {offset length : Nat} (h : Passes a.cells offset length)
    (e : Error) (a' : Arena) : (release offset length).run a ≠ .error (.error e) a' := by
  obtain ⟨run, hrun⟩ := lentRun_of_passes h
  have hfree : Unrefusing (do writeRun run.head run.count .free noRun; append run.head) :=
    (Unrefusing.writeRun _ _ _ _).bind fun _ => .append _
  unfold release
  rw [run_bind_ok hrun]
  refine Unrefusing.get.bind (fun arena => ?_) a e a'
  split
  · refine (Unrefusing.loadRun _).bind fun previous => ?_
    split
    · exact .absorb _ _
    · exact hfree
  · exact hfree

theorem release_refused {a : Arena} {offset length : Nat} (hin : offset ≤ a.cells.size)
    (h : ¬ Passes a.cells offset length) :
    ∃ misuse, (release offset length).run a = .error (.error (.invalidArgument misuse)) a := by
  obtain ⟨misuse, hrun⟩ := lentRun_refused hin h
  exact ⟨misuse, run_bind_error hrun _⟩

/-- Once a run is found behind a window, its length does not matter. -/
theorem release_congr {a : Arena} {offset length length' : Nat} {run : Run}
    (h : (lentRun offset length).run a = .ok run a)
    (h' : (lentRun offset length').run a = .ok run a) :
    (release offset length).run a = (release offset length').run a := by
  unfold release
  rw [run_bind_ok h, run_bind_ok h']

/-! ## Windows of any kind -/

namespace Accounts

variable {pool : Nat} {live : List Lease} {st : Allocator × Store} {p : Plan} {v : Window}

theorem giveBack_refused (h : Accounts pool live st p) (hpool : v.pool = pool)
    (hin : v.Within st.2) (hnot : ¬ Passes (st.2.cells pool) v.offset v.length) :
    ∃ misuse, (giveBack v).run st = .error (.error (.invalidArgument misuse)) st := by
  obtain ⟨firstFree, hshared, -⟩ := h.arena_eq
  have hoffset : v.offset ≤ (st.2.cells pool).size := by
    rw [← hpool]
    unfold Window.Within at hin
    omega
  obtain ⟨misuse, hrelease⟩ := release_refused (a := ⟨st.2.cells pool, firstFree⟩) hoffset hnot
  exact ⟨misuse, (giveBack_run_eq hshared hpool).trans (inArena_run_error hshared hrelease)⟩

theorem giveBack_not_refused (h : Accounts pool live st p) (hpool : v.pool = pool)
    (hpasses : Passes (st.2.cells pool) v.offset v.length) (e : Error)
    (st' : Allocator × Store) : (giveBack v).run st ≠ .error (.error e) st' := by
  obtain ⟨firstFree, hshared, -⟩ := h.arena_eq
  intro hrun
  rw [giveBack_run_eq hshared hpool] at hrun
  obtain ⟨a', hrelease⟩ := inArena_run_eq_error hrun
  exact release_not_refused hpasses e a' hrelease

/-- A window that starts behind a lent block and is no longer than it stands for the lease. -/
theorem giveBack_eq (h : Accounts pool live st p) {b : Block} {l : Lease} (hb : b ∈ p.blocks)
    (hlease : b.lease? pool = some l) (hpool : v.pool = pool) (hoffset : v.offset = b.head + 1)
    (hle : v.length ≤ b.count) : (giveBack v).run st = (giveBack l.window).run st := by
  obtain ⟨firstFree, hshared, -, hplan⟩ := h.represents
  obtain ⟨hloan, hlpool, hloffset⟩ := Block.lease?_eq_some hlease
  have hlent : b.isFree = false := by simp [Block.isFree, hloan]
  have hcovers := ((hplan.laid.fit b hb).loan _ _ hloan).2.1
  have hrelease := release_congr (lentRun_run hplan.laid hb hlent hle)
    (lentRun_run hplan.laid hb hlent hcovers)
  rw [giveBack_run_eq hshared hpool, giveBack_run_eq hshared hlpool, hoffset, hloffset]
  exact inArena_run_congr hrelease

end Accounts

/-- The window starts right behind the head of a lent run, and is no longer than the run. -/
def Behind (runs : List Run) (v : Window) : Prop :=
  ∃ r ∈ runs, r.kind ≠ .free ∧ v.offset = r.head + 1 ∧ v.length ≤ r.count

/-- The cell right before the window is no head record of the pool, but passes for one. -/
structure Mistaken (cells : Array Cell) (runs : List Run) (v : Window) : Prop where
  passes : Passes cells v.offset v.length
  stray : ∀ r ∈ runs, v.offset ≠ r.head + 1

/-- How the return of a window is answered that may be any stretch of the pool. -/
structure World.Judges (w : World) (pool : Nat) (runs : List Run) (v : Window) : Prop where
  seen : w.arena.runs = some runs
  /-- A refusal is for an invalid argument, and it changes nothing. -/
  invalid : ∀ e st, (giveBack v).run w.state = .error (.error e) st →
    (∃ misuse, e = .invalidArgument misuse) ∧ st = w.state
  /-- Behind the head of a lent run, the window stands for the one that was lent. -/
  lent : ∀ r ∈ runs, ∀ l ∈ w.live, Lends pool r l → v.offset = r.head + 1 → v.length ≤ r.count →
    (giveBack v).run w.state = (giveBack l.window).run w.state
  taken : Behind runs v → ∃ st, (giveBack v).run w.state = .ok () st
  /-- Every other window is refused if the cell before it is not mistaken for a head record. -/
  refused : ¬ Behind runs v → ¬ Mistaken w.arena.cells runs v →
    ∃ misuse, (giveBack v).run w.state = .error (.error (.invalidArgument misuse)) w.state
  /-- If it is, the window is not refused: it is taken, or the thread does not survive. -/
  mistaken : Mistaken w.arena.cells runs v →
    ∀ e st, (giveBack v).run w.state ≠ .error (.error e) st

/-- What passes is behind a lent run, or it is mistaken. -/
theorem Laid.behind_or_mistaken {cells : Array Cell} {blocks : List Block} {v : Window}
    (h : Laid cells blocks) (hpasses : Passes cells v.offset v.length) :
    Behind (blocks.map (Block.toRun cells)) v ∨
      Mistaken cells (blocks.map (Block.toRun cells)) v := by
  by_cases hhead : ∃ b ∈ blocks, v.offset = b.head + 1
  · obtain ⟨b, hb, hoffset⟩ := hhead
    rw [hoffset] at hpasses
    obtain ⟨hkind, hle⟩ := (passes_iff_of_mem h hb).1 hpasses
    exact .inl ⟨b.toRun cells, List.mem_map_of_mem hb, hkind, hoffset, hle⟩
  · refine .inr ⟨hpasses, fun r hr hoffset => ?_⟩
    obtain ⟨b, hb, rfl⟩ := List.mem_map.1 hr
    exact hhead ⟨b, hb, hoffset⟩

/-- **A return looks at one cell.** In every world that a pool can come to, and for every stretch of
the pool as the window to give back: behind the head of a lent run that covers it, it stands for
the window that was lent and is taken. Any other window is refused as an invalid argument and
nothing changes, unless the cell right before it, without being a head record, reads as that of a
lent run which covers the window and ends inside the pool. In that case it is never refused. -/
theorem release_checks_one_cell {pool : Nat} {w : World} (h : w.Reachable pool) {v : Window}
    (hpool : v.pool = pool) (hin : v.Within w.store) : ∃ runs, w.Judges pool runs v := by
  obtain ⟨p, haccounts⟩ := h.kept
  obtain ⟨firstFree, -, harena, hplan⟩ := haccounts.represents
  have hcells : w.arena.cells = w.store.cells pool := congrArg Arena.cells harena
  have hruns : w.arena.runs = some (p.blocks.map (Block.toRun (w.store.cells pool))) :=
    haccounts.shown.runs_eq
  refine ⟨_, hruns, fun e st hrun => ?_, fun r hr l hl hlends hoffset hle => ?_, fun hbehind => ?_,
    fun hother hright => ?_, fun hmistaken => ?_⟩
  · by_cases hpasses : Passes (w.store.cells pool) v.offset v.length
    · exact absurd hrun (haccounts.giveBack_not_refused hpool hpasses e st)
    · obtain ⟨misuse, hrefused⟩ := haccounts.giveBack_refused hpool hin hpasses
      obtain ⟨he, hst⟩ := EStateM.Result.error.inj (hrun.symm.trans hrefused)
      exact ⟨⟨misuse, Fault.error.inj he⟩, hst⟩
  · obtain ⟨b, hb, hlease⟩ := haccounts.exists_block hl
    obtain ⟨c, hc, rfl⟩ := List.mem_map.1 hr
    have hsame : c.head = b.head :=
      Nat.succ.inj (hlends.place.2.symm.trans (Block.lease?_eq_some hlease).2.2)
    obtain rfl := hplan.laid.tiles.eq_of_head hc hb hsame
    exact haccounts.giveBack_eq hb hlease hpool hoffset hle
  · obtain ⟨r, hr, hkind, hoffset, hle⟩ := hbehind
    obtain ⟨b, hb, rfl⟩ := List.mem_map.1 hr
    have hlent : b.isFree = false :=
      Bool.eq_false_iff.2 fun hfree => hkind (Block.kind_of_isFree hfree)
    obtain ⟨l, hl, hlease⟩ := haccounts.exists_lease hb hlent
    obtain ⟨st, p', hback, -⟩ := haccounts.giveBack_run hl
    exact ⟨st, (haccounts.giveBack_eq hb hlease hpool hoffset hle).trans hback⟩
  · refine haccounts.giveBack_refused hpool hin fun hpasses => ?_
    cases hplan.laid.behind_or_mistaken hpasses with
    | inl hbehind => exact hother hbehind
    | inr hmistaken => exact hright (hcells ▸ hmistaken)
  · exact haccounts.giveBack_not_refused hpool (hcells ▸ hmistaken.passes)

/-- Thirty cells, of which two windows were lent. The holder of the second one wrote a cell that
passes for a head record, and a cell behind it is to be given back. -/
theorem release_checks_one_cell_thirty : ∃ (w : World) (v : Window), w.Reachable 0 ∧
    w.arena.runs.map (List.map Run.extent) =
      some [⟨0, 2, .heap⟩, ⟨4, 4, .stack⟩, ⟨10, 18, .free⟩] ∧
    v = ⟨0, 7, 1⟩ ∧ v.Within w.store ∧ ∃ runs, w.Judges 0 runs v := by
  let store : Store := ⟨#[Array.replicate 30 Cell.zero]⟩
  let actions : List Action :=
    [.obtain 16 .heap, .obtain 32 .stack,
      .edit ⟨⟨0, 5, 4⟩, .stack⟩ (.set 1 (Cell.zero.withPair 1 Kind.heap.code))]
  obtain ⟨w, hreach, hruns, hwithin⟩ := World.exists_reachable 0 store actions
    (P := fun w => w.arena.runs.map (List.map Run.extent) =
        some [⟨0, 2, .heap⟩, ⟨4, 4, .stack⟩, ⟨10, 18, .free⟩] ∧
      (⟨0, 7, 1⟩ : Window).Within w.store)
    (by decide) (by decide +kernel)
  exact ⟨w, _, hreach, hruns, rfl, hwithin, release_checks_one_cell hreach rfl hwithin⟩

/-- **A tail may be taken for a head.** Four windows were lent, and the third and the second were
given back. The tail of the third run holds its number of cells and the head of the second one,
three, which is also the number of a kind. So the window behind it, which nobody was lent, is taken
back: the first run is marked free, although its window is held, and a cell of the fourth window,
which is held, is overwritten. -/
theorem tail_taken_for_a_head : ∃ (w : World) (v : Window) (st : Allocator × Store) (l l' : Lease),
    w.Reachable 0 ∧ v = ⟨0, 11, 1⟩ ∧ v.Within w.store ∧
    w.arena.runs.map (List.map Run.extent) =
      some [⟨0, 1, .heap⟩, ⟨3, 2, .free⟩, ⟨7, 2, .free⟩, ⟨11, 17, .stack⟩] ∧
    (giveBack v).run w.state = .ok () st ∧
    l ∈ w.live ∧ l' ∈ w.live ∧ l.window = ⟨0, 1, 1⟩ ∧ l'.window.Has 0 15 ∧
    (st.1.arena st.2).runs.map (List.map Run.extent) =
      some [⟨0, 1, .free⟩, ⟨3, 2, .free⟩, ⟨7, 2, .free⟩, ⟨11, 17, .stack⟩] ∧
    (w.store.peek 0 15).bits = 77 ∧ (st.2.peek 0 15).bits = 0xffffffff00000006 := by
  let store : Store := ⟨#[Array.replicate 30 Cell.zero]⟩
  let a : Lease := ⟨⟨0, 1, 1⟩, .heap⟩
  let x : Lease := ⟨⟨0, 8, 2⟩, .heap⟩
  let b : Lease := ⟨⟨0, 4, 2⟩, .heap⟩
  let y : Lease := ⟨⟨0, 12, 17⟩, .stack⟩
  let actions : List Action :=
    [.obtain 8 .heap, .obtain 16 .heap, .obtain 16 .heap, .obtain 136 .stack,
      .edit y (.set 3 (Cell.ofInt 64 77)), .giveBack x, .giveBack b]
  obtain ⟨w, hreach, hruns, hwithin, ha, hy, hcell, ⟨⟩, st, hback, hruns', hcell'⟩ :=
    World.exists_reachable 0 store actions
      (P := fun w => w.arena.runs.map (List.map Run.extent) =
          some [⟨0, 1, .heap⟩, ⟨3, 2, .free⟩, ⟨7, 2, .free⟩, ⟨11, 17, .stack⟩] ∧
        (⟨0, 11, 1⟩ : Window).Within w.store ∧ a ∈ w.live ∧ y ∈ w.live ∧
        (w.store.peek 0 15).bits = 77 ∧
        ∃ done st, (giveBack ⟨0, 11, 1⟩).run w.state = .ok done st ∧
          (st.1.arena st.2).runs.map (List.map Run.extent) =
            some [⟨0, 1, .free⟩, ⟨3, 2, .free⟩, ⟨7, 2, .free⟩, ⟨11, 17, .stack⟩] ∧
          (st.2.peek 0 15).bits = 0xffffffff00000006)
      (by decide) (by decide +kernel)
  exact ⟨w, _, st, a, y, hreach, rfl, hwithin, hruns, hback, ha, hy, rfl, by decide, hruns', hcell,
    hcell'⟩

end CellMachine.Allocator
