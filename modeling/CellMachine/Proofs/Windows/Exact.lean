import CellMachine.Proofs.Windows.Writes

/-!
# Windows are exact

`Checked` makes windows, reads and writes once more the way a machine does it: sums are sums of
unsigned words, and every sum that overflows and every access outside a pool is a crash. Where a
pool is no larger than a word can count and a window was made for it, none of that happens
(`Checked.cell_run`, `Checked.read_run`, `Checked.edit_run_of_fits`). A write that does not fit is
refused before it touches anything (`Checked.edit_run_of_not_fits`).

* `windows_are_exact`: a write through one window and what is read through another one after it,
  over the same pool or another, however the two overlap;
* `window_after_any_history`: the same after any history of writes.
-/

namespace CellMachine

open Allocator

namespace Store

variable {s : Store} {w : Window}

/-! ## Pools that a machine can count -/

/-- The number of cells of every pool fits an unsigned word. -/
def Addressable (s : Store) : Prop := ∀ cells ∈ s.pools, cells.size < 0x10000000000000000

instance (s : Store) : Decidable s.Addressable :=
  inferInstanceAs (Decidable (∀ cells ∈ s.pools, cells.size < 0x10000000000000000))

theorem Addressable.size_lt (h : s.Addressable) (pool : Nat) :
    s.size pool < 0x10000000000000000 := by
  unfold size cells
  by_cases hpool : pool < s.pools.size
  · simpa [hpool] using h _ (Array.getElem_mem hpool)
  · simp [hpool]

theorem addressable_of_size (h : ∀ pool, s.size pool < 0x10000000000000000) : s.Addressable := by
  intro cells hcells
  obtain ⟨pool, hpool, rfl⟩ := Array.mem_iff_getElem.1 hcells
  simpa [size, Store.cells, hpool] using h pool

theorem Addressable.apply {e : Edit} (h : s.Addressable) : (e.apply s w).Addressable :=
  addressable_of_size fun pool => by
    rw [size, (e.touches s w).size]
    exact h.size_lt pool

theorem Addressable.edited {history : List (Window × Edit)} (h : s.Addressable) :
    (s.edited history).Addressable := by
  induction history generalizing s with
  | nil => exact h
  | cons x rest ih => exact ih h.apply

end Store

/-! ## The same with machine words -/

/-- Work on the pools. What was written before a fault stays written. -/
abbrev StoreM := EStateM Fault Store

namespace Checked

/-- A sum in an unsigned word, if it does not overflow. -/
def sum? (m n : Nat) : Option Nat := if m + n < 0x10000000000000000 then some (m + n) else none

/-- A sum that must not overflow. -/
def sum (m n : Nat) : StoreM Nat :=
  match sum? m n with
  | some k => pure k
  | none => throw .crash

/-- The cell at a position, which has to be inside the pool. -/
def cellAt (pool i : Nat) : StoreM Cell := do
  match ((← get).cells pool)[i]? with
  | some c => pure c
  | none => throw .crash

/-- Replaces the cell at a position, which has to be inside the pool. -/
def replaceAt (pool i : Nat) (c : Cell) : StoreM Unit := do
  if i < (← get).size pool then modify fun s => s.poke pool i c else throw .crash

/-- The end of `count` cells from `start` on, which must not be behind `bound`. -/
def stop (bound start count : Nat) (cause : Error) : StoreM Nat :=
  match sum? start count with
  | some stop => if stop ≤ bound then pure stop else throw (.error cause)
  | none => throw (.error cause)

/-- The ends of a stretch of a pool have to be in order and inside it. -/
def stretch (pool low high : Nat) : StoreM Unit := do
  if low ≤ high ∧ high ≤ (← get).size pool then pure () else throw .crash

/-- The cells of a pool from a position on. -/
def cellsFrom (pool : Nat) : (i n : Nat) → StoreM (List Cell)
  | _, 0 => pure []
  | i, n + 1 => return (← cellAt pool i) :: (← cellsFrom pool (i + 1) n)

/-- Replaces the cells of a pool from a position on. -/
def replaceFrom (pool : Nat) : (i : Nat) → List Cell → StoreM Unit
  | _, [] => pure ()
  | i, c :: rest => do
    replaceAt pool i c
    replaceFrom pool (i + 1) rest

/-! ### Windows, reading and writing -/

/-- The window `[start, start + length)` of a pool, if the pool is long enough. -/
def window (pool start length : Nat) : StoreM Window := do
  let size := (← get).size pool
  let _ ← stop size start length (.misuse (.windowExceedsPool start length size))
  pure ⟨pool, start, length⟩

/-- The window for bounds that come from a script. -/
def windowOfInts (pool : Option Nat) (start length : Int) : StoreM Window :=
  match pool with
  | none => throw (.error (.misuse .absentPool))
  | some pool =>
    if start < 0 then throw (.error (.misuse (.negativeStart start)))
    else if length < 0 then throw (.error (.misuse (.negativeLength length)))
    else window pool start.toNat length.toNat

/-- The position in the pool of a window's cell. -/
def position (w : Window) (index : Nat) : StoreM Nat :=
  if index < w.length then sum w.offset index else throw (.error (.outOfRange index w.length))

/-- The cell at an index of a window. -/
def cell (w : Window) (index : Nat) : StoreM Cell := do cellAt w.pool (← position w index)

/-- The cells of a window, in order. -/
def read (w : Window) : StoreM (List Cell) := do
  let high ← sum w.offset w.length
  stretch w.pool w.offset high
  cellsFrom w.pool w.offset (high - w.offset)

/-- Replaces the cell at an index of a window. -/
def set (w : Window) (index : Nat) (c : Cell) : StoreM Unit := do
  replaceAt w.pool (← position w index) c

/-- Puts `f` of the cell at an index of a window in its place. -/
def update (w : Window) (index : Nat) (f : Cell → Cell) : StoreM Cell := do
  let i ← position w index
  let c ← cellAt w.pool i
  replaceAt w.pool i (f c)
  pure c

/-- Writes `values` into a window from `start` on. The stretch written has to have as many cells. -/
def write (w : Window) (start : Nat) (values : List Cell) : StoreM Unit := do
  let finish ← stop w.length start values.length (.outOfRange start w.length)
  let low ← sum w.offset start
  let high ← sum w.offset finish
  stretch w.pool low high
  if values.length = high - low then replaceFrom w.pool low values else throw .crash

/-- Sets every cell of a window to zero bits and no object. -/
def clear (w : Window) : StoreM Unit := do
  let high ← sum w.offset w.length
  stretch w.pool w.offset high
  replaceFrom w.pool w.offset (List.replicate (high - w.offset) Cell.zero)

/-- A write of any kind. -/
def edit (w : Window) : Edit → StoreM Unit
  | .set index c => set w index c
  | .update index f => do
    let _ ← update w index f
    pure ()
  | .write start values => write w start values
  | .clear => clear w

/-- Writes one after the other. One that is refused does not keep the others from being done. -/
def editAll : List (Window × Edit) → StoreM Unit
  | [] => pure ()
  | (w, e) :: rest => fun s =>
    match (edit w e).run s with
    | .ok () s' => (editAll rest).run s'
    | .error (.error _) s' => (editAll rest).run s'
    | .error .crash s' => .error .crash s'

/-- How work ends that leaves the pools alone. -/
def outcome {α : Type} (s : Store) : Except Error α → EStateM.Result Fault Store α
  | .ok a => .ok a s
  | .error e => .error (.error e) s

variable {s : Store} {w : Window} {pool : Nat}

/-! ### Accesses inside the pool -/

theorem sum?_of_lt {m n : Nat} (h : m + n < 0x10000000000000000) : sum? m n = some (m + n) :=
  if_pos h

theorem sum_run {m n : Nat} (h : m + n < 0x10000000000000000) :
    (sum m n).run s = .ok (m + n) s := by
  rw [sum, sum?_of_lt h]
  rfl

theorem cellAt_run {i : Nat} (h : i < s.size pool) :
    (cellAt pool i).run s = .ok (s.peek pool i) s := by
  unfold cellAt
  rw [run_bind_ok (EStateM.run_get s), getElem?_eq_look h]
  rfl

theorem replaceAt_run {i : Nat} (c : Cell) (h : i < s.size pool) :
    (replaceAt pool i c).run s = .ok () (s.poke pool i c) := by
  unfold replaceAt
  rw [run_bind_ok (EStateM.run_get s), if_pos h]
  rfl

theorem stop_run {bound start count : Nat} (cause : Error) (hbound : bound < 0x10000000000000000)
    (hle : start + count ≤ bound) :
    (stop bound start count cause).run s = .ok (start + count) s := by
  simp only [stop, sum?_of_lt (Nat.lt_of_le_of_lt hle hbound), if_pos hle]
  rfl

/-- An end that is too far out is refused, and so is one whose sum overflows. -/
theorem stop_refused {bound start count : Nat} (cause : Error) (h : ¬ start + count ≤ bound) :
    (stop bound start count cause).run s = .error (.error cause) s := by
  by_cases hlt : start + count < 0x10000000000000000
  · simp only [stop, sum?_of_lt hlt, if_neg h]
    rfl
  · simp only [stop, sum?, if_neg hlt]
    rfl

theorem stretch_run {low high : Nat} (hle : low ≤ high) (hin : high ≤ s.size pool) :
    (stretch pool low high).run s = .ok () s := by
  unfold stretch
  rw [run_bind_ok (EStateM.run_get s), if_pos ⟨hle, hin⟩]
  rfl

theorem cellsFrom_run {i n : Nat} (h : i + n ≤ s.size pool) :
    (cellsFrom pool i n).run s = .ok (s.read ⟨pool, i, n⟩) s := by
  induction n generalizing i with
  | zero => simp [cellsFrom, Store.read]
  | succ n ih =>
    unfold cellsFrom
    rw [run_bind_ok (cellAt_run (by omega)), run_bind_ok (ih (by omega)), Store.read_succ h]
    rfl

theorem replaceFrom_run {i : Nat} {values : List Cell} (h : i + values.length ≤ s.size pool) :
    (replaceFrom pool i values).run s = .ok () (s.overwritten pool i values) := by
  induction values generalizing s i with
  | nil => exact congrArg _ (Store.overwritten_nil s pool i).symm
  | cons c rest ih =>
    have hsize : (s.poke pool i c).size pool = s.size pool :=
      (Store.touches_poke (w := ⟨pool, i, 1⟩) c
        ⟨rfl, Nat.le_refl _, Nat.lt_succ_self _⟩).size pool
    rw [List.length_cons] at h
    unfold replaceFrom
    rw [run_bind_ok (replaceAt_run c (by omega)), Store.overwritten_cons, ih (by omega)]

/-! ### Through a window -/

theorem window_run (hs : s.Addressable) (start length : Nat) :
    (window pool start length).run s = outcome s (s.window pool start length) := by
  unfold window Store.window
  rw [run_bind_ok (EStateM.run_get s)]
  by_cases hle : start + length ≤ s.size pool
  · rw [run_bind_ok (stop_run _ (hs.size_lt pool) hle), if_pos hle]
    rfl
  · rw [run_bind_error (stop_refused _ hle), if_neg hle]
    rfl

theorem windowOfInts_run (hs : s.Addressable) (pool : Option Nat) (start length : Int) :
    (windowOfInts pool start length).run s = outcome s (s.windowOfInts pool start length) := by
  unfold windowOfInts Store.windowOfInts
  match pool with
  | none => rfl
  | some pool =>
    dsimp only
    by_cases hstart : start < 0
    · rw [if_pos hstart, if_pos hstart]
      rfl
    · rw [if_neg hstart, if_neg hstart]
      by_cases hlength : length < 0
      · rw [if_pos hlength, if_pos hlength]
        rfl
      · rw [if_neg hlength, if_neg hlength]
        exact window_run hs _ _

theorem position_refused {index : Nat} (hi : ¬ index < w.length) :
    (position w index).run s = .error (.error (.outOfRange index w.length)) s := by
  rw [position, if_neg hi]
  rfl

/-- **A write that does not fit is refused before anything is written.** -/
theorem edit_run_of_not_fits {e : Edit} (h : ¬ e.Fits w) :
    (edit w e).run s = .error (.error (.outOfRange e.start w.length)) s := by
  cases e with
  | set index c => exact run_bind_error (position_refused h) _
  | update index f => exact run_bind_error (run_bind_error (position_refused h) _) _
  | write start values => exact run_bind_error (stop_refused _ h) _
  | clear => exact absurd (Edit.fits_clear w) h

section
variable (hs : s.Addressable) (hw : w.Within s)
include hs hw

/-- A window ends where an unsigned word can say. -/
theorem end_lt : w.offset + w.length < 0x10000000000000000 :=
  Nat.lt_of_le_of_lt hw (hs.size_lt w.pool)

theorem position_run {index : Nat} (hi : index < w.length) :
    (position w index).run s = .ok (w.offset + index) s := by
  have hend := end_lt hs hw
  rw [position, if_pos hi]
  exact sum_run (by omega)

/-- **Reading a cell through a window never leaves its pool.** -/
theorem cell_run (index : Nat) : (cell w index).run s = outcome s (s.get w index) := by
  by_cases hi : index < w.length
  · rw [cell, run_bind_ok (position_run hs hw hi), cellAt_run (hw.lt_size hi), Store.get_of_lt hi]
    rfl
  · rw [cell, run_bind_error (position_refused hi), Store.get_of_not_lt hi]
    rfl

/-- **Neither does reading all of its cells.** -/
theorem read_run : (read w).run s = .ok (s.read w) s := by
  unfold read
  rw [run_bind_ok (sum_run (end_lt hs hw)), run_bind_ok (stretch_run (Nat.le_add_right _ _) hw),
    Nat.add_sub_cancel_left]
  exact cellsFrom_run hw

theorem set_run {index : Nat} (hi : index < w.length) (c : Cell) :
    (set w index c).run s = .ok () (s.poke w.pool (w.offset + index) c) := by
  rw [set, run_bind_ok (position_run hs hw hi)]
  exact replaceAt_run c (hw.lt_size hi)

theorem update_run {index : Nat} (hi : index < w.length) (f : Cell → Cell) :
    (update w index f).run s = .ok (s.peek w.pool (w.offset + index))
      (s.poke w.pool (w.offset + index) (f (s.peek w.pool (w.offset + index)))) := by
  rw [update, run_bind_ok (position_run hs hw hi), run_bind_ok (cellAt_run (hw.lt_size hi)),
    run_bind_ok (replaceAt_run _ (hw.lt_size hi))]
  rfl

theorem write_run {start : Nat} {values : List Cell} (hle : start + values.length ≤ w.length) :
    (write w start values).run s = .ok () (s.overwritten w.pool (w.offset + start) values) := by
  have hend := end_lt hs hw
  have hin : w.offset + (start + values.length) ≤ s.size w.pool :=
    Nat.le_trans (Nat.add_le_add_left hle _) hw
  have hlength : w.length < 0x10000000000000000 := by omega
  unfold write
  rw [run_bind_ok (stop_run _ hlength hle), run_bind_ok (sum_run (by omega)),
    run_bind_ok (sum_run (by omega)), run_bind_ok (stretch_run (by omega) hin), if_pos (by omega)]
  exact replaceFrom_run (by omega)

theorem clear_run : (clear w).run s = .ok () (s.clear w) := by
  unfold clear
  rw [run_bind_ok (sum_run (end_lt hs hw)), run_bind_ok (stretch_run (Nat.le_add_right _ _) hw),
    Nat.add_sub_cancel_left, Store.clear_eq_overwritten]
  exact replaceFrom_run (by rw [List.length_replicate]; exact hw)

/-- **Nor does any write that fits.** -/
theorem edit_run_of_fits {e : Edit} (h : e.Fits w) : (edit w e).run s = .ok () (e.apply s w) := by
  cases e with
  | set index c =>
    rw [Edit.apply_set h]
    exact set_run hs hw h c
  | update index f =>
    have hi : index < w.length := h
    rw [Edit.apply_update h, edit, run_bind_ok (update_run hs hw hi f), EStateM.run_pure]
  | write start values =>
    rw [Edit.apply_write h]
    exact write_run hs hw h
  | clear => exact clear_run hs hw

end

theorem editAll_cons (w : Window) (e : Edit) (rest : List (Window × Edit)) :
    (editAll ((w, e) :: rest)).run s = match (edit w e).run s with
      | .ok () s' => (editAll rest).run s'
      | .error (.error _) s' => (editAll rest).run s'
      | .error .crash s' => .error .crash s' := rfl

/-- **No write of a history leaves its pool**, whether it is done or refused. -/
theorem editAll_run {history : List (Window × Edit)} (hs : s.Addressable)
    (h : ∀ x ∈ history, x.1.Within s) : (editAll history).run s = .ok () (s.edited history) := by
  induction history generalizing s with
  | nil => rfl
  | cons x rest ih =>
    obtain ⟨w, e⟩ := x
    obtain ⟨hw, hrest⟩ := List.forall_mem_cons.1 h
    have hlater : (editAll rest).run (e.apply s w) = .ok () ((e.apply s w).edited rest) :=
      ih hs.apply fun y hy => Edit.within_apply.2 (hrest y hy)
    rw [editAll_cons]
    by_cases hfits : e.Fits w
    · rw [edit_run_of_fits hs hw hfits]
      exact hlater
    · -- the rest starts from the store as it was
      rw [Edit.apply_of_not_fits hfits] at hlater
      rw [edit_run_of_not_fits hfits]
      dsimp only
      rw [hlater, Store.edited, Store.edited, List.foldl_cons, Edit.apply_of_not_fits hfits]

end Checked

/-! ## One window seen through another -/

/-- What a write through `a` does, seen through `b`. -/
structure Window.Exact (s : Store) (a b : Window) (e : Edit) : Prop where
  /-- A write that does not fit is refused, and no pool changes. -/
  refused : ¬ e.Fits a → e.attempt s a = .error (.outOfRange e.start a.length) ∧
    (Checked.edit a e).run s = .error (.error (.outOfRange e.start a.length)) s ∧ e.apply s a = s
  /-- A write that fits is done, and does nothing outside the pool. -/
  done : e.Fits a → e.attempt s a = .ok (e.apply s a) ∧
    (Checked.edit a e).run s = .ok () (e.apply s a)
  /-- What was written is read where the write was for. -/
  written : e.Fits a → ∀ j < b.length, (e.target a).Has b.pool (b.offset + j) →
    ∃ old, s.get b j = .ok old ∧
      (e.apply s a).get b j = .ok (e.put (b.offset + j - (a.offset + e.start)) old)
  /-- Everything else is read as before. -/
  kept : ∀ j < b.length, ¬ (e.target a).Has b.pool (b.offset + j) →
    ∃ old, s.get b j = .ok old ∧ (e.apply s a).get b j = .ok old
  /-- Reading does nothing outside the pool. -/
  reads : ∀ j, (Checked.cell b j).run s = Checked.outcome s (s.get b j)
  readsAll : (Checked.read b).run s = .ok (s.read b) s
  /-- Windows are made as a machine makes them, also for bounds whose sum overflows. -/
  makes : ∀ pool start length,
    (Checked.window pool start length).run s = Checked.outcome s (s.window pool start length)
  makesOfInts : ∀ pool start length, (Checked.windowOfInts pool start length).run s =
    Checked.outcome s (s.windowOfInts pool start length)
  /-- After the write all this holds again. -/
  still : (e.apply s a).Addressable ∧ ∀ w, Window.Made (e.apply s a) w ↔ Window.Made s w

/-- **Windows are exact.** Take two windows of any pools, however they were made and however they
overlap, and a write of any kind through the first. If what the write is for does not lie inside
the window, also because its end is more than a word can hold, the write is refused and no pool
changes. Otherwise the second window has what was written in the cells that the write was for, and
in all others what it had before. With machine words and with every access checked it is the same,
so that no access through a window ever leaves its pool. -/
theorem windows_are_exact {s : Store} (hs : s.Addressable) {a b : Window} (ha : Window.Made s a)
    (hb : Window.Made s b) (e : Edit) : Window.Exact s a b e := by
  rw [Window.made_iff] at ha hb
  have hbefore : ∀ j < b.length, s.get b j = .ok (s.peek b.pool (b.offset + j)) :=
    fun j hj => Store.get_of_lt hj
  have hafter : ∀ j < b.length, (e.apply s a).get b j =
      .ok (e.leaves a b.pool (b.offset + j) (s.peek b.pool (b.offset + j))) := by
    intro j hj
    rw [Store.get_of_lt hj, Edit.peek_apply ha]
  have hwritten : ∀ j, e.Fits a → (e.target a).Has b.pool (b.offset + j) →
      e.leaves a b.pool (b.offset + j) = e.put (b.offset + j - (a.offset + e.start)) :=
    fun j hfits hhas => funext fun old => if_pos ⟨hfits, hhas⟩
  have hkept : ∀ j, ¬ (e.target a).Has b.pool (b.offset + j) →
      e.leaves a b.pool (b.offset + j) = id :=
    fun j hhas => funext fun old => if_neg fun h => hhas h.2
  exact {
    refused := fun h => ⟨Edit.attempt_of_not_fits h, Checked.edit_run_of_not_fits h,
      Edit.apply_of_not_fits h⟩
    done := fun h => ⟨Edit.attempt_of_fits h, Checked.edit_run_of_fits hs ha h⟩
    written := fun h j hj hhas => ⟨_, hbefore j hj, by rw [hafter j hj, hwritten j h hhas]⟩
    kept := fun j hj hhas => ⟨_, hbefore j hj, by rw [hafter j hj, hkept j hhas, id]⟩
    reads := Checked.cell_run hs hb
    readsAll := Checked.read_run hs hb
    makes := fun pool => Checked.window_run hs
    makesOfInts := Checked.windowOfInts_run hs
    still := ⟨hs.apply, fun w => Edit.made_apply⟩ }

/-- Three cells written from the fourth on, through a window whose last two cells are the first two
of another one; and two cells from a start so large that the end is more than a word can hold. -/
theorem windows_are_exact_overlap : ∃ (s : Store) (a b : Window), s.Addressable ∧
    s.window 0 0 6 = .ok a ∧ s.window 0 4 6 = .ok b ∧
    (Window.Exact s a b (.write 3 [Cell.ofToken 1, Cell.ofToken 2, Cell.ofToken 3]) ∧
      ((Edit.write 3 [Cell.ofToken 1, Cell.ofToken 2, Cell.ofToken 3]).apply s a).get b 1 =
        .ok (Cell.ofToken 3)) ∧
    Window.Exact s a b (.write 0xffffffffffffffff [Cell.zero, Cell.zero]) ∧
      (Checked.edit a (.write 0xffffffffffffffff [Cell.zero, Cell.zero])).run s =
        .error (.error (.outOfRange 0xffffffffffffffff 6)) s := by
  let s : Store := ⟨#[Array.replicate 10 Cell.zero, Array.replicate 3 Cell.zero]⟩
  have hs : s.Addressable := by decide
  have ha : s.window 0 0 6 = .ok ⟨0, 0, 6⟩ := Store.window_eq_ok.2 ⟨rfl, by decide⟩
  have hb : s.window 0 4 6 = .ok ⟨0, 4, 6⟩ := Store.window_eq_ok.2 ⟨rfl, by decide⟩
  have hfits := windows_are_exact hs (.bounds ha) (.bounds hb)
    (.write 3 [Cell.ofToken 1, Cell.ofToken 2, Cell.ofToken 3])
  have hover := windows_are_exact hs (.bounds ha) (.bounds hb)
    (.write 0xffffffffffffffff [Cell.zero, Cell.zero])
  obtain ⟨old, -, hread⟩ := hfits.written (by decide) 1 (by decide) (by decide)
  exact ⟨s, _, _, hs, ha, hb, ⟨hfits, hread⟩, hover, (hover.refused (by decide)).2.1⟩

/-- **A window after any history.** Writes through any windows, one after the other, some done and
some refused, take every cell through what they leave in it, and never leave a pool. -/
theorem window_after_any_history {s : Store} (hs : s.Addressable)
    {history : List (Window × Edit)} (h : ∀ x ∈ history, Window.Made s x.1) {b : Window}
    (hb : Window.Made s b) {j : Nat} (hj : j < b.length) :
    ∃ s' old, (Checked.editAll history).run s = .ok () s' ∧ s.get b j = .ok old ∧
      (Checked.cell b j).run s' =
        .ok (history.foldl (fun c x => x.2.leaves x.1 b.pool (b.offset + j) c) old) s' := by
  have hin : ∀ x ∈ history, x.1.Within s := fun x hx => Window.made_iff.1 (h x hx)
  have hb' : b.Within (s.edited history) := Store.within_edited.2 (Window.made_iff.1 hb)
  refine ⟨s.edited history, s.peek b.pool (b.offset + j), Checked.editAll_run hs hin,
    Store.get_of_lt hj, ?_⟩
  rw [Checked.cell_run hs.edited hb', Store.get_of_lt hj, Store.peek_edited hin]
  rfl

end CellMachine
