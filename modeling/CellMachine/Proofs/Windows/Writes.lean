import CellMachine.Proofs.Aliasing

/-!
# What a write does to each cell

A write through a window is for some consecutive cells of it (`Edit.target`). When they all lie
inside the window it is done (`Edit.Fits`), and otherwise it is refused.

* `Edit.attempt_of_fits`, `Edit.attempt_of_not_fits`: what becomes of a write;
* `Edit.peek_apply`: what each cell of each pool holds after a write, from what it held before
  (`Edit.leaves`);
* `Store.peek_edited`: the same after any history of writes. Each cell goes through the history by
  itself.
-/

namespace CellMachine

open Allocator

/-! ## What a write is for -/

namespace Allocator.Edit

/-- The index of the first cell a write is for. -/
def start : Edit → Nat
  | .set index _ => index
  | .update index _ => index
  | .write start _ => start
  | .clear => 0

/-- The number of cells a write through a window is for. -/
def count (w : Window) : Edit → Nat
  | .set _ _ => 1
  | .update _ _ => 1
  | .write _ values => values.length
  | .clear => w.length

/-- The cells a write through a window is for. -/
def target (w : Window) (e : Edit) : Window := ⟨w.pool, w.offset + e.start, e.count w⟩

/-- The cells a write is for lie inside its window. -/
def Fits (w : Window) (e : Edit) : Prop := e.start + e.count w ≤ w.length

instance (w : Window) (e : Edit) : Decidable (e.Fits w) := inferInstanceAs (Decidable (_ ≤ _))

/-- What a write puts in the place of `old`, which is the `k`-th cell it is for. -/
def put (k : Nat) (old : Cell) : Edit → Cell
  | .set _ c => c
  | .update _ f => f old
  | .write _ values => values.getD k old
  | .clear => Cell.zero

/-- What a write through a window leaves in the cell at a position of a pool. -/
def leaves (w : Window) (e : Edit) (pool i : Nat) (old : Cell) : Cell :=
  if e.Fits w ∧ (e.target w).Has pool i then e.put (i - (w.offset + e.start)) old else old

/-- The store after a write, or why it is refused. -/
def attempt (s : Store) (w : Window) : Edit → Except Error Store
  | .set index c => s.set w index c
  | .update index f => (s.update w index f).map Prod.snd
  | .write start values => s.write w start values
  | .clear => .ok (s.clear w)

variable {s : Store} {w : Window} {e : Edit}

theorem fits_clear (w : Window) : clear.Fits w := Nat.le_of_eq (Nat.zero_add _)

theorem apply_set {index : Nat} {c : Cell} (h : (set index c).Fits w) :
    (set index c).apply s w = s.poke w.pool (w.offset + index) c := by
  have hi : index < w.length := h
  rw [apply, Store.set_of_lt hi]

theorem apply_update {index : Nat} {f : Cell → Cell} (h : (update index f).Fits w) :
    (update index f).apply s w =
      s.poke w.pool (w.offset + index) (f (s.peek w.pool (w.offset + index))) := by
  have hi : index < w.length := h
  rw [apply, Store.update_of_lt hi]

theorem apply_write {start : Nat} {values : List Cell} (h : (write start values).Fits w) :
    (write start values).apply s w = s.overwritten w.pool (w.offset + start) values := by
  have hle : start + values.length ≤ w.length := h
  rw [apply, Store.write_of_le hle]

theorem attempt_of_fits (h : e.Fits w) : e.attempt s w = .ok (e.apply s w) := by
  cases e with
  | set index c =>
    rw [apply_set h]
    exact Store.set_of_lt h c
  | update index f =>
    have hi : index < w.length := h
    rw [apply_update h, attempt, Store.update_of_lt hi]
    rfl
  | write start values =>
    rw [apply_write h]
    exact Store.write_of_le h
  | clear => rfl

theorem attempt_of_not_fits (h : ¬ e.Fits w) :
    e.attempt s w = .error (.outOfRange e.start w.length) := by
  cases e with
  | set index c => exact Store.set_of_not_lt h c
  | update index f =>
    have hi : ¬ index < w.length := h
    rw [attempt, Store.update_of_not_lt hi]
    rfl
  | write start values => exact Store.write_of_not_le h
  | clear => exact absurd (fits_clear w) h

/-- A refused write changes nothing. -/
theorem apply_of_not_fits (h : ¬ e.Fits w) : e.apply s w = s := by
  cases e with
  | set index c =>
    have hi : ¬ index < w.length := h
    rw [apply, Store.set_of_not_lt hi]
  | update index f =>
    have hi : ¬ index < w.length := h
    rw [apply, Store.update_of_not_lt hi]
  | write start values =>
    have hle : ¬ start + values.length ≤ w.length := h
    rw [apply, Store.write_of_not_le hle]
  | clear => exact absurd (fits_clear w) h

/-! ## What the pools hold after a write -/

/-- A write touches the cells it is for, and none if it is refused. -/
theorem touches_target (s : Store) (w : Window) (e : Edit) :
    Store.Touches (e.target w) s (e.apply s w) := by
  by_cases hfits : e.Fits w
  · cases e with
    | set index c =>
      rw [apply_set hfits]
      exact Store.touches_poke c ⟨rfl, Nat.le_refl _, Nat.lt_succ_self _⟩
    | update index f =>
      rw [apply_update hfits]
      exact Store.touches_poke _ ⟨rfl, Nat.le_refl _, Nat.lt_succ_self _⟩
    | write start values =>
      have hwhole : 0 + values.length ≤ (target w (write start values)).length :=
        Nat.le_of_eq (Nat.zero_add _)
      rw [apply_write hfits]
      exact Store.touches_overwritten hwhole
    | clear => exact Store.touches_clear s w
  · rw [apply_of_not_fits hfits]
    exact .refl _ s

/-- The cells that a write is for, after it. -/
theorem peek_target (hw : w.Within s) (hfits : e.Fits w) {k : Nat} (hk : k < e.count w) :
    (e.apply s w).peek w.pool (w.offset + e.start + k) =
      e.put k (s.peek w.pool (w.offset + e.start + k)) := by
  cases e with
  | set index c =>
    obtain rfl : k = 0 := Nat.lt_one_iff.1 hk
    rw [apply_set hfits]
    exact Store.peek_poke_self c (hw.lt_size hfits)
  | update index f =>
    obtain rfl : k = 0 := Nat.lt_one_iff.1 hk
    rw [apply_update hfits]
    exact Store.peek_poke_self _ (hw.lt_size hfits)
  | write start values =>
    have hin : w.offset + start + values.length ≤ (s.cells w.pool).size := by
      rw [Nat.add_assoc]
      exact Nat.le_trans (Nat.add_le_add_left hfits _) hw
    have hread : some ((s.overwritten w.pool (w.offset + start) values).peek w.pool
        (w.offset + start + k)) = values[k]? := Store.peek_overwritten hk hin
    rw [apply_write hfits, Edit.start, put, List.getD_eq_getElem?_getD, ← hread, Option.getD_some]
  | clear => exact Store.peek_clear hw hk

/-- **What the pools hold after a write**: a cell that the write is for holds what the write puts
there, and every other one what it held before. -/
theorem peek_apply (hw : w.Within s) (e : Edit) (pool i : Nat) :
    (e.apply s w).peek pool i = e.leaves w pool i (s.peek pool i) := by
  unfold leaves
  by_cases hhas : (e.target w).Has pool i
  · by_cases hfits : e.Fits w
    · rw [if_pos ⟨hfits, hhas⟩]
      -- the position is that of the `k`-th cell the write is for
      obtain ⟨rfl, hlow, hhigh⟩ := hhas
      obtain ⟨k, rfl⟩ := Nat.exists_eq_add_of_le hlow
      have hk : k < e.count w := Nat.lt_of_add_lt_add_left hhigh
      rw [show (e.target w).offset = w.offset + e.start from rfl, Nat.add_sub_cancel_left]
      exact peek_target hw hfits hk
    · rw [if_neg fun h => hfits h.1, apply_of_not_fits hfits]
  · rw [if_neg fun h => hhas h.2, (e.touches_target s w).keep pool i hhas]

theorem within_apply {v : Window} : v.Within (e.apply s w) ↔ v.Within s := by
  unfold Window.Within
  rw [(e.touches s w).size]

/-- No write makes or unmakes a window. -/
theorem made_apply {v : Window} : Window.Made (e.apply s w) v ↔ Window.Made s v := by
  rw [Window.made_iff, Window.made_iff, within_apply]

end Allocator.Edit

namespace Store

variable {s : Store} {w : Window}

/-! ## Histories of writes -/

/-- The store after writes through windows, one after the other. -/
def edited (s : Store) (history : List (Window × Edit)) : Store :=
  history.foldl (fun s x => x.2.apply s x.1) s

theorem within_edited {history : List (Window × Edit)} :
    w.Within (s.edited history) ↔ w.Within s := by
  induction history generalizing s with
  | nil => rfl
  | cons x rest ih => exact ih.trans Edit.within_apply

/-- **What the pools hold after a history of writes**, which each cell goes through by itself. -/
theorem peek_edited {history : List (Window × Edit)} (h : ∀ x ∈ history, x.1.Within s)
    (pool i : Nat) :
    (s.edited history).peek pool i =
      history.foldl (fun c x => x.2.leaves x.1 pool i c) (s.peek pool i) := by
  induction history generalizing s with
  | nil => rfl
  | cons x rest ih =>
    obtain ⟨hx, hrest⟩ := List.forall_mem_cons.1 h
    have hstep := ih (s := x.2.apply s x.1) fun y hy => Edit.within_apply.2 (hrest y hy)
    rw [Edit.peek_apply hx] at hstep
    exact hstep

end Store

end CellMachine
