import CellMachine.Store

/-!
# Cells seen through windows

Reading the cells of a store by position, and what the writes through a window leave alone:

* `Window.Has`: a window has a cell, named by its pool and position;
* `Store.Touches w s s'`: `s'` is `s` after a write through `w`, which keeps the sizes of all pools
  and every cell that `w` does not have. All four ways to write are of this kind
  (`touches_set`, `touches_update`, `touches_write`, `touches_clear`).
-/

namespace CellMachine

/-! ## Looking at cells -/

/-- The cell at a position; a zero cell outside. -/
def look (cells : Array Cell) (i : Nat) : Cell := cells.getD i Cell.zero

theorem getElem?_eq_look {cells : Array Cell} {i : Nat} (h : i < cells.size) :
    cells[i]? = some (look cells i) := by
  simp [look, h]

theorem look_setIfInBounds_self {cells : Array Cell} {i : Nat} (c : Cell) (h : i < cells.size) :
    look (cells.setIfInBounds i c) i = c := by
  simp [look, h]

theorem look_setIfInBounds_ne {cells : Array Cell} {i j : Nat} (c : Cell) (h : j ≠ i) :
    look (cells.setIfInBounds i c) j = look cells j := by
  simp only [look, Array.getD_eq_getD_getElem?, Array.getElem?_setIfInBounds_ne (Ne.symm h)]

/-- The window has the cell at a position of a pool. -/
def Window.Has (w : Window) (pool i : Nat) : Prop :=
  pool = w.pool ∧ w.offset ≤ i ∧ i < w.offset + w.length

/-- The window lies inside its pool. -/
def Window.Within (w : Window) (s : Store) : Prop :=
  w.offset + w.length ≤ (s.cells w.pool).size

instance (w : Window) (pool i : Nat) : Decidable (w.Has pool i) :=
  inferInstanceAs (Decidable (_ ∧ _))

instance (w : Window) (s : Store) : Decidable (w.Within s) := inferInstanceAs (Decidable (_ ≤ _))

theorem Window.position_of_lt {w : Window} {index : Nat} (h : index < w.length) :
    w.position index = .ok (w.offset + index) := if_pos h

theorem Window.position_of_not_lt {w : Window} {index : Nat} (h : ¬ index < w.length) :
    w.position index = .error (.outOfRange index w.length) := if_neg h

theorem Window.position_eq_ok {w : Window} {index i : Nat} (h : w.position index = .ok i) :
    i = w.offset + index ∧ index < w.length := by
  unfold Window.position at h
  split at h
  · rename_i hlt
    exact ⟨(Except.ok.inj h).symm, hlt⟩
  · cases h

theorem Window.has_of_position {w : Window} {index i : Nat} (h : w.position index = .ok i) :
    w.Has w.pool i := by
  obtain ⟨rfl, hlt⟩ := Window.position_eq_ok h
  exact ⟨rfl, Nat.le_add_right _ _, Nat.add_lt_add_left hlt _⟩

/-- The cells of a window are cells of its pool. -/
theorem Window.Within.lt_size {w : Window} {s : Store} {index : Nat} (hw : w.Within s)
    (hi : index < w.length) : w.offset + index < (s.cells w.pool).size :=
  Nat.lt_of_lt_of_le (Nat.add_lt_add_left hi _) hw

namespace Store

variable {s s' : Store} {w : Window}

theorem peek_eq_look (s : Store) (pool i : Nat) : s.peek pool i = look (s.cells pool) i := rfl

/-! ## Pools by name -/

theorem cells_put_self {pool : Nat} (cells : Array Cell) (h : pool < s.pools.size) :
    (s.put pool cells).cells pool = cells := by
  simp [Store.cells, Store.put, h]

@[simp] theorem pools_size_put (pool : Nat) (cells : Array Cell) :
    (s.put pool cells).pools.size = s.pools.size := by
  simp [Store.put]

/-- A pool whose cells are put back as they were is as it was. -/
theorem put_cells (s : Store) (pool : Nat) : s.put pool (s.cells pool) = s := by
  cases s with
  | mk pools =>
    simp only [Store.put, Store.cells, Store.mk.injEq]
    refine Array.ext (by simp) fun i h₁ h₂ => ?_
    by_cases he : pool = i
    · subst he
      simp [h₂]
    · exact Array.getElem_setIfInBounds_ne h₂ he

@[simp] theorem put_take (s : Store) (pool : Nat) (cells : Array Cell) :
    (s.take pool).2.put pool cells = s.put pool cells := by
  simp [Store.take, Store.put]

theorem cells_modify_self {pool : Nat} (f : Array Cell → Array Cell) (h : pool < s.pools.size) :
    (⟨s.pools.modify pool f⟩ : Store).cells pool = f (s.cells pool) := by
  simp only [Store.cells, Array.getD_eq_getD_getElem?, Array.getElem?_modify]
  simp [h]

theorem cells_modify_ne {pool q : Nat} (f : Array Cell → Array Cell) (h : q ≠ pool) :
    (⟨s.pools.modify pool f⟩ : Store).cells q = s.cells q := by
  simp only [Store.cells, Array.getD_eq_getD_getElem?, Array.getElem?_modify]
  simp [Ne.symm h]

theorem cells_modify_of_le {pool : Nat} (f : Array Cell → Array Cell) (h : s.pools.size ≤ pool) :
    (⟨s.pools.modify pool f⟩ : Store) = s := by
  cases s with
  | mk pools =>
    simp only [Store.mk.injEq]
    refine Array.ext (by simp) fun i h₁ h₂ => ?_
    have hne : pool ≠ i := by
      dsimp only at h
      omega
    simp [Array.getElem_modify, hne]

/-! ## Writes through a window -/

/-- What a write through a window leaves alone. -/
structure Touches (w : Window) (s s' : Store) : Prop where
  pools : s'.pools.size = s.pools.size
  size : ∀ q, (s'.cells q).size = (s.cells q).size
  keep : ∀ q i, ¬ w.Has q i → s'.peek q i = s.peek q i

theorem Touches.refl (w : Window) (s : Store) : Touches w s s :=
  ⟨rfl, fun _ => rfl, fun _ _ _ => rfl⟩

theorem touches_modify {f : Array Cell → Array Cell} (hsize : ∀ cells, (f cells).size = cells.size)
    (hkeep : ∀ cells i, ¬ w.Has w.pool i → look (f cells) i = look cells i) :
    Touches w s ⟨s.pools.modify w.pool f⟩ := by
  by_cases hin : w.pool < s.pools.size
  · refine ⟨by simp, fun q => ?_, fun q i hi => ?_⟩
    · by_cases hq : q = w.pool
      · subst hq
        rw [cells_modify_self f hin, hsize]
      · rw [cells_modify_ne f hq]
    · rw [peek_eq_look, peek_eq_look]
      by_cases hq : q = w.pool
      · subst hq
        rw [cells_modify_self f hin, hkeep _ _ hi]
      · rw [cells_modify_ne f hq]
  · rw [cells_modify_of_le f (Nat.le_of_not_lt hin)]
    exact .refl w s

theorem touches_poke {i : Nat} (c : Cell) (h : w.Has w.pool i) :
    Touches w s (s.poke w.pool i c) := by
  refine touches_modify (fun cells => by simp) fun cells j hj => look_setIfInBounds_ne c ?_
  rintro rfl
  exact hj h

theorem touches_set {index : Nat} {c : Cell} (h : s.set w index c = .ok s') : Touches w s s' := by
  unfold Store.set at h
  split at h
  · rename_i i hi
    obtain rfl := Except.ok.inj h
    exact touches_poke c (Window.has_of_position hi)
  · cases h

theorem touches_update {index : Nat} {f : Cell → Cell} {c : Cell}
    (h : s.update w index f = .ok (c, s')) : Touches w s s' := by
  unfold Store.update at h
  split at h
  · rename_i i hi
    obtain ⟨-, rfl⟩ := Prod.mk.inj (Except.ok.inj h)
    exact touches_poke _ (Window.has_of_position hi)
  · cases h

theorem size_overwrite (cells : Array Cell) (i : Nat) (values : List Cell) :
    (overwrite cells i values).size = cells.size := by
  induction values generalizing cells i with
  | nil => rfl
  | cons c rest ih =>
    rw [overwrite, ih]
    simp

theorem look_overwrite_of_not {cells : Array Cell} {i j : Nat} {values : List Cell}
    (h : ¬ (i ≤ j ∧ j < i + values.length)) : look (overwrite cells i values) j = look cells j := by
  induction values generalizing cells i with
  | nil => rfl
  | cons c rest ih =>
    simp only [List.length_cons] at h
    rw [overwrite, ih (by omega), look_setIfInBounds_ne c (by omega)]

theorem wipe_eq_overwrite (cells : Array Cell) (i n : Nat) :
    wipe cells i n = overwrite cells i (List.replicate n Cell.zero) := by
  induction n generalizing cells i with
  | zero => rfl
  | succ n ih => exact ih _ _

/-- Clearing a window is writing zero cells all over it. -/
theorem clear_eq_overwritten (s : Store) (w : Window) :
    s.clear w = s.overwritten w.pool w.offset (List.replicate w.length Cell.zero) := by
  simp only [clear, overwritten, wipe_eq_overwrite]

theorem touches_overwritten {start : Nat} {values : List Cell}
    (h : start + values.length ≤ w.length) :
    Touches w s (s.overwritten w.pool (w.offset + start) values) := by
  refine touches_modify (fun cells => size_overwrite ..) fun cells j hj =>
    look_overwrite_of_not fun hin => hj ⟨rfl, ?_, ?_⟩ <;> omega

theorem touches_write {start : Nat} {values : List Cell} (h : s.write w start values = .ok s') :
    Touches w s s' := by
  unfold Store.write at h
  split at h
  · rename_i hle
    obtain rfl := Except.ok.inj h
    exact touches_overwritten hle
  · cases h

theorem touches_clear (s : Store) (w : Window) : Touches w s (s.clear w) := by
  have hle : 0 + (List.replicate w.length Cell.zero).length ≤ w.length := by simp
  rw [clear_eq_overwritten]
  exact touches_overwritten hle

/-! ## What a window reads -/

/-- A cell inside a window can be read, whatever it holds. -/
theorem get_of_lt {index : Nat} (h : index < w.length) :
    s.get w index = .ok (s.peek w.pool (w.offset + index)) := by
  rw [get, Window.position_of_lt h]

theorem get_of_not_lt {index : Nat} (h : ¬ index < w.length) :
    s.get w index = .error (.outOfRange index w.length) := by
  rw [get, Window.position_of_not_lt h]

/-- A window seen in two stores has the same cells. -/
structure Agree (w : Window) (s s' : Store) : Prop where
  size : (s'.cells w.pool).size = (s.cells w.pool).size
  keep : ∀ i, w.Has w.pool i → s'.peek w.pool i = s.peek w.pool i

theorem Agree.refl (w : Window) (s : Store) : Agree w s s := ⟨rfl, fun _ _ => rfl⟩

theorem Agree.trans {s'' : Store} (h : Agree w s s') (h' : Agree w s' s'') : Agree w s s'' :=
  ⟨h'.size.trans h.size, fun i hi => (h'.keep i hi).trans (h.keep i hi)⟩

/-- A write through another window, with which it shares no cell, is not seen. -/
theorem Touches.agree {v : Window} (h : Touches v s s')
    (hapart : ∀ q i, w.Has q i → ¬ v.Has q i) : Agree w s s' :=
  ⟨h.size _, fun i hi => h.keep _ i (hapart _ i hi)⟩

theorem Touches.within {v : Window} (h : Touches v s s') (hw : w.Within s) : w.Within s' := by
  unfold Window.Within at *
  rw [h.size]
  exact hw

theorem known_of_lt {pool i : Nat} (h : i < (s.cells pool).size) : pool < s.pools.size := by
  refine Nat.lt_of_not_le fun hle => ?_
  simp [Store.cells, Array.getElem?_eq_none hle] at h

theorem length_read (hw : w.Within s) : (s.read w).length = w.length := by
  unfold Window.Within at hw
  simp only [Store.read, Array.length_toList, Array.size_extract]
  omega

theorem getElem?_read (hw : w.Within s) (i : Nat) :
    (s.read w)[i]? = if i < w.length then some (s.peek w.pool (w.offset + i)) else none := by
  by_cases hi : i < w.length
  · simp [Store.read, hi, hw.lt_size hi, peek_eq_look, look]
  · rw [if_neg hi, List.getElem?_eq_none]
    rw [length_read hw]
    omega

theorem get_eq_read (hw : w.Within s) (index : Nat) :
    s.get w index =
      match (s.read w)[index]? with
      | some c => .ok c
      | none => .error (.outOfRange index (s.read w).length) := by
  rw [getElem?_read hw, length_read hw]
  by_cases hi : index < w.length
  · rw [get_of_lt hi, if_pos hi]
  · rw [get_of_not_lt hi, if_neg hi]

theorem Agree.read_eq (h : Agree w s s') : s'.read w = s.read w := by
  unfold Store.read
  congr 1
  refine Array.ext (by simp [h.size]) fun i h₁ h₂ => ?_
  simp only [Array.size_extract] at h₁ h₂
  have hi := h.keep (w.offset + i) ⟨rfl, by omega, by omega⟩
  have hlt : w.offset + i < (s.cells w.pool).size := by omega
  have hlt' : w.offset + i < (s'.cells w.pool).size := by omega
  simpa [peek_eq_look, look, hlt, hlt'] using hi

/-! ## What becomes of a write -/

theorem set_of_lt {index : Nat} (h : index < w.length) (c : Cell) :
    s.set w index c = .ok (s.poke w.pool (w.offset + index) c) := by
  rw [set, Window.position_of_lt h]

theorem set_of_not_lt {index : Nat} (h : ¬ index < w.length) (c : Cell) :
    s.set w index c = .error (.outOfRange index w.length) := by
  rw [set, Window.position_of_not_lt h]

theorem update_of_lt {index : Nat} (h : index < w.length) (f : Cell → Cell) :
    s.update w index f = .ok (s.peek w.pool (w.offset + index),
      s.poke w.pool (w.offset + index) (f (s.peek w.pool (w.offset + index)))) := by
  rw [update, Window.position_of_lt h]

theorem update_of_not_lt {index : Nat} (h : ¬ index < w.length) (f : Cell → Cell) :
    s.update w index f = .error (.outOfRange index w.length) := by
  rw [update, Window.position_of_not_lt h]

theorem write_of_le {start : Nat} {values : List Cell} (h : start + values.length ≤ w.length) :
    s.write w start values = .ok (s.overwritten w.pool (w.offset + start) values) := if_pos h

theorem write_of_not_le {start : Nat} {values : List Cell}
    (h : ¬ start + values.length ≤ w.length) :
    s.write w start values = .error (.outOfRange start w.length) := if_neg h

/-! ## What a window reads after a write through it -/

theorem peek_poke_self {pool i : Nat} (c : Cell) (h : i < (s.cells pool).size) :
    (s.poke pool i c).peek pool i = c := by
  rw [peek_eq_look, poke, cells_modify_self _ (known_of_lt h), look_setIfInBounds_self c h]

theorem peek_poke_ne {pool i pool' i' : Nat} (c : Cell) (h : (pool', i') ≠ (pool, i)) :
    (s.poke pool i c).peek pool' i' = s.peek pool' i' := by
  have ht : Touches ⟨pool, i, 1⟩ s (s.poke pool i c) :=
    touches_poke (w := ⟨pool, i, 1⟩) c ⟨rfl, Nat.le_refl _, Nat.lt_succ_self _⟩
  refine ht.keep _ _ fun hhas => h ?_
  obtain ⟨hpool, hlow, hhigh⟩ := hhas
  dsimp only at hpool hlow hhigh
  rw [hpool, show i' = i by omega]

theorem read_poke (hw : w.Within s) {index : Nat} (hi : index < w.length) (c : Cell) :
    (s.poke w.pool (w.offset + index) c).read w = (s.read w).set index c := by
  have ht : Touches ⟨w.pool, w.offset + index, 1⟩ s (s.poke w.pool (w.offset + index) c) :=
    touches_poke (w := ⟨w.pool, w.offset + index, 1⟩) c ⟨rfl, Nat.le_refl _, Nat.lt_succ_self _⟩
  refine List.ext_getElem? fun j => ?_
  rw [getElem?_read (ht.within hw), List.getElem?_set, getElem?_read hw, length_read hw]
  by_cases hj : index = j
  · subst hj
    rw [if_pos hi, if_pos rfl, if_pos hi, peek_poke_self c (hw.lt_size hi)]
  · rw [if_neg hj, ht.keep _ _ fun hhas => hj ?_]
    obtain ⟨-, hlow, hhigh⟩ := hhas
    dsimp only at hlow hhigh
    omega

theorem look_overwrite_of_mem {cells : Array Cell} {i j : Nat} {values : List Cell}
    (hj : j < values.length) (h : i + values.length ≤ cells.size) :
    some (look (overwrite cells i values) (i + j)) = values[j]? := by
  induction values generalizing cells i j with
  | nil => simp at hj
  | cons c rest ih =>
    simp only [List.length_cons] at hj h
    have hrest : i + 1 + rest.length ≤ (cells.setIfInBounds i c).size := by
      rw [Array.size_setIfInBounds]
      omega
    rw [overwrite]
    cases j with
    | zero =>
      rw [Nat.add_zero i, look_overwrite_of_not (by omega), look_setIfInBounds_self _ (by omega),
        List.getElem?_cons_zero]
    | succ j =>
      rw [List.getElem?_cons_succ, ← ih (Nat.lt_of_succ_lt_succ hj) hrest,
        show i + (j + 1) = i + 1 + j by omega]

/-- Cells written from a position on are found there. -/
theorem peek_overwritten {pool i j : Nat} {values : List Cell} (hj : j < values.length)
    (h : i + values.length ≤ (s.cells pool).size) :
    some ((s.overwritten pool i values).peek pool (i + j)) = values[j]? := by
  have hlt : i + j < (s.cells pool).size := by omega
  rw [peek_eq_look, overwritten, cells_modify_self _ (known_of_lt hlt), look_overwrite_of_mem hj h]

theorem peek_clear (hw : w.Within s) {j : Nat} (hj : j < w.length) :
    (s.clear w).peek w.pool (w.offset + j) = Cell.zero := by
  have hlength : (List.replicate w.length Cell.zero).length = w.length := List.length_replicate
  have hzero : some ((s.clear w).peek w.pool (w.offset + j)) =
      (List.replicate w.length Cell.zero)[j]? := by
    rw [clear_eq_overwritten]
    exact peek_overwritten (by rwa [hlength]) (by rwa [hlength])
  rw [List.getElem?_replicate, if_pos hj] at hzero
  exact Option.some.inj hzero

theorem read_clear (hw : w.Within s) : (s.clear w).read w = List.replicate w.length Cell.zero := by
  refine List.ext_getElem? fun j => ?_
  rw [getElem?_read ((touches_clear s w).within hw), List.getElem?_replicate]
  by_cases hj : j < w.length
  · rw [if_pos hj, if_pos hj, peek_clear hw hj]
  · rw [if_neg hj, if_neg hj]

/-- Cells written to the front of a window are read there, and the rest is as it was. -/
theorem read_overwritten (hw : w.Within s) {values : List Cell} (h : values.length ≤ w.length) :
    (s.overwritten w.pool w.offset values).read w =
      values ++ (s.read w).drop values.length := by
  have ht : Touches ⟨w.pool, w.offset, values.length⟩ s (s.overwritten w.pool w.offset values) :=
    touches_overwritten (w := ⟨w.pool, w.offset, values.length⟩)
      (by simp : 0 + values.length ≤ values.length)
  refine List.ext_getElem? fun j => ?_
  rw [getElem?_read (ht.within hw), List.getElem?_append, List.getElem?_drop, getElem?_read hw]
  unfold Window.Within at hw
  by_cases hj : j < values.length
  · rw [if_pos (by omega), if_pos hj, peek_overwritten hj (by omega)]
  · rw [if_neg hj, show values.length + (j - values.length) = j by omega]
    rw [ht.keep _ _ fun hhas => hj ?_]
    obtain ⟨-, hlow, hhigh⟩ := hhas
    dsimp only at hlow hhigh
    omega

/-! ## Cell by cell -/

theorem overwritten_nil (s : Store) (pool i : Nat) : s.overwritten pool i [] = s := by
  refine congrArg Store.mk (Array.ext (by simp) fun q h₁ h₂ => ?_)
  simp [Array.getElem_modify, overwrite]

theorem overwritten_cons (s : Store) (pool i : Nat) (c : Cell) (rest : List Cell) :
    s.overwritten pool i (c :: rest) = (s.poke pool i c).overwritten pool (i + 1) rest := by
  simp only [poke, overwritten, Store.mk.injEq]
  refine Array.ext (by simp) fun q h₁ h₂ => ?_
  simp only [Array.getElem_modify, overwrite]
  split <;> rfl

theorem read_succ {pool i n : Nat} (h : i + (n + 1) ≤ s.size pool) :
    s.read ⟨pool, i, n + 1⟩ = s.peek pool i :: s.read ⟨pool, i + 1, n⟩ := by
  have hlong : Window.Within ⟨pool, i, n + 1⟩ s := h
  have hshort : Window.Within ⟨pool, i + 1, n⟩ s := by
    unfold Window.Within
    dsimp only [size] at h ⊢
    omega
  refine List.ext_getElem? fun k => ?_
  rw [getElem?_read hlong]
  cases k with
  | zero => rfl
  | succ k =>
    rw [List.getElem?_cons_succ, getElem?_read hshort]
    simp only [Nat.add_lt_add_iff_right, Nat.add_right_comm i 1 k, Nat.add_assoc]

end Store

end CellMachine
