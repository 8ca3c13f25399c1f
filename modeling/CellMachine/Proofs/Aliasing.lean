import CellMachine.Proofs.Allocator.Clients

/-!
# When windows alias

`Window.aliases` compares the ends of two windows. What it is meant to say is that the windows
share a cell (`Window.Shares`), and whoever writes through one can only be seen through the other
when they do (`shares_iff_setSeen`, `shares_iff_editSeen`).

* `aliases_iff`: it says so of windows that share a cell, and also when an empty window stands
  between two cells of the other one (`Window.Splits`), which share nothing;
* `aliasing_is_sharing`: the two together, for windows however they were made;
* `aliases_of_an_empty_window`: an empty window for which the comparison is wrong.
-/

namespace CellMachine

open Allocator

/-! ## Windows as they are made -/

/-- The windows of a store, in all three ways to make one. -/
inductive Window.Made (s : Store) : Window → Prop where
  | bounds {pool start length : Nat} {w : Window} (h : s.window pool start length = .ok w) :
      Made s w
  | ints {pool : Option Nat} {start length : Int} {w : Window}
      (h : s.windowOfInts pool start length = .ok w) : Made s w
  | whole (pool : Nat) : Made s (s.whole pool)

theorem Store.window_eq_ok {s : Store} {pool start length : Nat} {w : Window} :
    s.window pool start length = .ok w ↔ w = ⟨pool, start, length⟩ ∧ w.Within s := by
  unfold Store.window Window.Within
  by_cases hle : start + length ≤ s.size pool
  · simp only [hle, ↓reduceIte, Except.ok.injEq]
    exact ⟨fun h => h ▸ ⟨rfl, hle⟩, fun h => h.1.symm⟩
  · simp only [hle, ↓reduceIte, reduceCtorEq, false_iff]
    rintro ⟨rfl, hin⟩
    exact hle hin

theorem Store.exists_window_of_ints {s : Store} {pool : Option Nat} {start length : Int}
    {w : Window} (h : s.windowOfInts pool start length = .ok w) :
    ∃ q, s.window q start.toNat length.toNat = .ok w := by
  unfold Store.windowOfInts at h
  split at h
  · simp at h
  · split at h
    · simp at h
    · split at h
      · simp at h
      · exact ⟨_, h⟩

/-- **The windows that can be made are those that lie inside their pools**, so that no write to a
pool unmakes one. -/
theorem Window.made_iff {s : Store} {w : Window} : Made s w ↔ w.Within s := by
  refine ⟨fun h => ?_, fun h => .bounds (Store.window_eq_ok.2 ⟨rfl, h⟩)⟩
  cases h with
  | bounds h => exact (Store.window_eq_ok.1 h).2
  | ints h =>
    obtain ⟨q, hq⟩ := Store.exists_window_of_ints h
    exact (Store.window_eq_ok.1 hq).2
  | whole pool => simp [Window.Within, Store.whole, Store.size]

/-! ## Sharing a cell -/

/-- An index of each window stands for the same cell of the same pool. -/
def Window.Shares (a b : Window) : Prop :=
  a.pool = b.pool ∧ ∃ i j at_, a.position i = .ok at_ ∧ b.position j = .ok at_

/-- An empty window stands between two cells of another one. -/
def Window.Splits (a b : Window) : Prop :=
  a.pool = b.pool ∧ a.length = 0 ∧ b.offset < a.offset ∧ a.offset < b.offset + b.length

instance (a b : Window) : Decidable (a.Splits b) := inferInstanceAs (Decidable (_ ∧ _))

namespace Window

variable {a b : Window}

theorem position_of_has {pool i : Nat} (h : a.Has pool i) : a.position (i - a.offset) = .ok i := by
  obtain ⟨-, hlow, hhigh⟩ := h
  rw [position, if_pos (by omega), Nat.add_sub_cancel' hlow]

theorem shares_iff_has : a.Shares b ↔ ∃ q i, a.Has q i ∧ b.Has q i := by
  constructor
  · rintro ⟨hpool, i, j, at_, hi, hj⟩
    exact ⟨a.pool, at_, has_of_position hi, hpool ▸ has_of_position hj⟩
  · rintro ⟨q, i, ha, hb⟩
    exact ⟨ha.1.symm.trans hb.1, _, _, i, position_of_has ha, position_of_has hb⟩

/-- Windows share a cell when neither is empty and each begins before the other ends. -/
theorem shares_iff : a.Shares b ↔
    a.pool = b.pool ∧ 0 < a.length ∧ 0 < b.length ∧
      a.offset < b.offset + b.length ∧ b.offset < a.offset + a.length := by
  rw [shares_iff_has]
  constructor
  · rintro ⟨q, i, ⟨ha, hlow, hhigh⟩, hb, hlow', hhigh'⟩
    exact ⟨ha.symm.trans hb, by omega, by omega, by omega, by omega⟩
  · rintro ⟨hpool, hposa, hposb, hab, hba⟩
    -- the first cell of the one that begins later
    refine ⟨a.pool, max a.offset b.offset, ⟨rfl, ?_, ?_⟩, hpool, ?_, ?_⟩ <;> omega

theorem not_shares_of_splits (h : a.Splits b) : ¬ a.Shares b := by
  obtain ⟨-, hempty, -⟩ := h
  simp [shares_iff, hempty]

theorem shares_comm : a.Shares b ↔ b.Shares a := by
  rw [shares_iff_has, shares_iff_has]
  simp only [and_comm]

/-- **What the comparison of the ends says.** -/
theorem aliases_iff : a.aliases b = true ↔ a.Shares b ∨ a.Splits b ∨ b.Splits a := by
  simp only [aliases, Bool.and_eq_true, beq_iff_eq, decide_eq_true_eq, shares_iff, Splits]
  omega

end Window

/-! ## Being seen -/

/-- A cell set through one window is seen through another one. -/
def Store.SetSeen (s : Store) (a b : Window) : Prop :=
  ∃ index c s', s.set a index c = .ok s' ∧ ∃ j, s'.get b j ≠ s.get b j

/-- Some write through one window, of any kind, is seen through another one. -/
def Store.EditSeen (s : Store) (a b : Window) : Prop :=
  ∃ e : Edit, ∃ j, (e.apply s a).get b j ≠ s.get b j

namespace Store

variable {s s' : Store} {a b w : Window}

theorem Agree.get_eq (h : Agree w s s') (index : Nat) : s'.get w index = s.get w index := by
  unfold Store.get
  match hi : w.position index with
  | .ok at_ => simp only [h.keep at_ (Window.has_of_position hi)]
  | .error e => rfl

theorem SetSeen.editSeen (h : s.SetSeen a b) : s.EditSeen a b := by
  obtain ⟨index, c, s', hset, j, hj⟩ := h
  refine ⟨.set index c, j, ?_⟩
  simpa only [Edit.apply, hset] using hj

/-- A window that shares no cell with another one does not see what is written through it. -/
theorem EditSeen.shares (h : s.EditSeen a b) : a.Shares b := by
  obtain ⟨e, j, hj⟩ := h
  rw [Window.shares_iff_has]
  refine Classical.byContradiction fun hnone => ?_
  have hapart : ∀ q i, b.Has q i → ¬ a.Has q i := fun q i hb ha => hnone ⟨q, i, ha, hb⟩
  exact hj (((e.touches s a).agree hapart).get_eq j)

theorem exists_cell_ne (c : Cell) : ∃ c' : Cell, c' ≠ c := by
  by_cases hc : c = Cell.zero
  · exact ⟨Cell.ofToken 0, by rw [hc]; decide⟩
  · exact ⟨Cell.zero, Ne.symm hc⟩

/-- Another cell put in a place that two windows share is seen there. -/
theorem setSeen_of_shares (ha : a.Within s) (h : a.Shares b) : s.SetSeen a b := by
  obtain ⟨hpool, i, j, at_, hi, hj⟩ := h
  obtain ⟨c, hc⟩ := exists_cell_ne (s.peek a.pool at_)
  have hlt : at_ < (s.cells a.pool).size := by
    have hhas := (Window.has_of_position hi).2.2
    unfold Window.Within at ha
    omega
  refine ⟨i, c, s.poke a.pool at_ c, by simp only [Store.set, hi], j, ?_⟩
  simp only [Store.get, hj, ← hpool, peek_poke_self c hlt, ne_eq, Except.ok.injEq]
  exact hc

theorem shares_iff_setSeen (ha : a.Within s) : a.Shares b ↔ s.SetSeen a b :=
  ⟨setSeen_of_shares ha, fun h => h.editSeen.shares⟩

theorem shares_iff_editSeen (ha : a.Within s) : a.Shares b ↔ s.EditSeen a b :=
  ⟨fun h => (setSeen_of_shares ha h).editSeen, EditSeen.shares⟩

end Store

/-! ## Aliasing and sharing -/

/-- **Aliasing is sharing, but for an empty window inside another one.** Two windows share a cell if
and only if a cell set through the first can be seen through the second, and if and only if any
write at all can; the second may be any window. They alias if and only if they share a cell, unless
one of them is empty and stands between two cells of the other: then they alias and share
nothing. -/
theorem aliasing_is_sharing {s : Store} {a : Window} (ha : Window.Made s a) (b : Window) :
    (a.Shares b ↔ s.SetSeen a b) ∧ (a.Shares b ↔ s.EditSeen a b) ∧
    (¬ a.Splits b ∧ ¬ b.Splits a → (a.aliases b = true ↔ a.Shares b)) ∧
    (a.Splits b ∨ b.Splits a → a.aliases b = true ∧ ¬ a.Shares b) := by
  have hin := Window.made_iff.1 ha
  refine ⟨Store.shares_iff_setSeen hin, Store.shares_iff_editSeen hin, fun hnot => ?_, fun h => ?_⟩
  · simp only [Window.aliases_iff, hnot, or_false]
  · refine ⟨Window.aliases_iff.2 (.inr h), ?_⟩
    rcases h with h | h
    · exact Window.not_shares_of_splits h
    · rw [Window.shares_comm]
      exact Window.not_shares_of_splits h

/-- Two windows that overlap in the last two cells of the one and the first two of the other. -/
theorem aliasing_is_sharing_overlap :
    (Store.mk #[Array.replicate 10 Cell.zero]).window 0 0 6 = .ok ⟨0, 0, 6⟩ ∧
      Window.aliases ⟨0, 0, 6⟩ ⟨0, 4, 6⟩ = true ∧ Window.Shares ⟨0, 0, 6⟩ ⟨0, 4, 6⟩ ∧
      (Store.mk #[Array.replicate 10 Cell.zero]).SetSeen ⟨0, 0, 6⟩ ⟨0, 4, 6⟩ := by
  have hmade : (Store.mk #[Array.replicate 10 Cell.zero]).window 0 0 6 = .ok ⟨0, 0, 6⟩ :=
    Store.window_eq_ok.2 ⟨rfl, by decide⟩
  obtain ⟨hset, -, hshares, -⟩ := aliasing_is_sharing (.bounds hmade) ⟨0, 4, 6⟩
  have haliases : Window.aliases ⟨0, 0, 6⟩ ⟨0, 4, 6⟩ = true := by decide
  have hshared := (hshares (by decide)).1 haliases
  exact ⟨hmade, haliases, hshared, hset.1 hshared⟩

/-- **An empty window aliases the window around it**, though it has no cell to share and nothing can
be written through it. -/
theorem aliases_of_an_empty_window :
    (Store.mk #[Array.replicate 5 Cell.zero]).window 0 2 0 = .ok ⟨0, 2, 0⟩ ∧
      (Store.mk #[Array.replicate 5 Cell.zero]).window 0 0 5 = .ok ⟨0, 0, 5⟩ ∧
      Window.aliases ⟨0, 2, 0⟩ ⟨0, 0, 5⟩ = true ∧ ¬ Window.Shares ⟨0, 2, 0⟩ ⟨0, 0, 5⟩ ∧
      ¬ (Store.mk #[Array.replicate 5 Cell.zero]).EditSeen ⟨0, 2, 0⟩ ⟨0, 0, 5⟩ := by
  have hnot : ¬ Window.Shares ⟨0, 2, 0⟩ ⟨0, 0, 5⟩ := Window.not_shares_of_splits (by decide)
  exact ⟨Store.window_eq_ok.2 ⟨rfl, by decide⟩, Store.window_eq_ok.2 ⟨rfl, by decide⟩, by decide,
    hnot, fun hseen => hnot hseen.shares⟩

end CellMachine
