import CellMachine.Allocator.Pool
import CellMachine.Proofs.Store

/-!
# Records in cells

What the allocator's reads and writes of records do to the cells of a pool, apart from what the
records mean:

* a record keeps any two half words it is given (`Cell.low_withPair`, `Cell.high_withPair`);
* writing a record or a run cannot fail inside the pool, and it changes no other cell
  (`writeRecord_run`, `writeRun_run`, `look_inscribe_ne`, `look_inscribeRun_of_ne`);
* a run is read back from its two records (`readRun?_of`).

`inscribe` and `inscribeRun` are the writes as functions on cells.
-/

namespace CellMachine

/-! ## Work in order -/

section
variable {ε σ α β : Type} {x : EStateM ε σ α} {s s' : σ}

theorem run_bind_ok {a : α} (h : x.run s = .ok a s') (f : α → EStateM ε σ β) :
    (x >>= f).run s = (f a).run s' := by
  rw [EStateM.run_bind, h]

theorem run_bind_error {e : ε} (h : x.run s = .error e s') (f : α → EStateM ε σ β) :
    (x >>= f).run s = .error e s' := by
  rw [EStateM.run_bind, h]

/-- Work in order that succeeds succeeds in both parts. -/
theorem run_bind_eq_ok {f : α → EStateM ε σ β} {b : β} (h : (x >>= f).run s = .ok b s') :
    ∃ a t, x.run s = .ok a t ∧ (f a).run t = .ok b s' := by
  rw [EStateM.run_bind] at h
  match hx : x.run s with
  | .ok a t =>
    rw [hx] at h
    exact ⟨a, t, rfl, h⟩
  | .error e t =>
    rw [hx] at h
    cases h

end

/-- Whether work succeeds, and with what, is found out by running it. -/
instance decidableExistsOk {ε σ α : Type} (r : EStateM.Result ε σ α) (P : α → σ → Prop)
    [∀ a s, Decidable (P a s)] : Decidable (∃ a s, r = .ok a s ∧ P a s) :=
  match r with
  | .ok a s => decidable_of_iff (P a s) ⟨fun h => ⟨a, s, rfl, h⟩, by
    rintro ⟨_, _, hr, h⟩
    cases hr
    exact h⟩
  | .error _ _ => isFalse (by
    rintro ⟨_, _, hr, -⟩
    cases hr)

/-! ## Half words -/

/-- The numbers a half word holds. -/
def IsHalf (n : Int) : Prop := -0x80000000 ≤ n ∧ n < 0x80000000

theorem bmod_emod_of_isHalf {n : Int} (h : IsHalf n) :
    (n % 0x100000000).bmod 0x100000000 = n := by
  obtain ⟨h1, h2⟩ := h
  have hmod : (n % 0x100000000).bmod 0x100000000 = n.bmod 0x100000000 := Int.emod_bmod n _
  rw [hmod]
  exact Int.bmod_eq_of_le (by omega) (by omega)

theorem Cell.isHalf_high (c : Cell) : IsHalf c.high := by
  have hge := Int.le_bmod (x := ((c.bits.toNat / 0x100000000 : Nat) : Int)) (m := 0x100000000)
    (by decide)
  have hlt := Int.bmod_lt (x := ((c.bits.toNat / 0x100000000 : Nat) : Int)) (m := 0x100000000)
    (by decide)
  unfold Cell.high IsHalf
  omega

theorem Cell.toNat_withPair (c : Cell) (low high : Int) :
    (c.withPair low high).bits.toNat =
      (low % 0x100000000).toNat + 0x100000000 * (high % 0x100000000).toNat := by
  simp only [Cell.withPair, UInt64.toNat_ofNat']
  omega

theorem Cell.low_withPair (c : Cell) {low : Int} (high : Int) (h : IsHalf low) :
    (c.withPair low high).low = low := by
  have hmod : ((low % 0x100000000).toNat + 0x100000000 * (high % 0x100000000).toNat) %
      0x100000000 = (low % 0x100000000).toNat := by omega
  have hnonneg : 0 ≤ low % 0x100000000 := by omega
  unfold Cell.low
  rw [Cell.toNat_withPair, hmod, Int.toNat_of_nonneg hnonneg]
  exact bmod_emod_of_isHalf h

theorem Cell.high_withPair (c : Cell) (low : Int) {high : Int} (h : IsHalf high) :
    (c.withPair low high).high = high := by
  have hdiv : ((low % 0x100000000).toNat + 0x100000000 * (high % 0x100000000).toNat) /
      0x100000000 = (high % 0x100000000).toNat := by omega
  have hnonneg : 0 ≤ high % 0x100000000 := by omega
  unfold Cell.high
  rw [Cell.toNat_withPair, hdiv, Int.toNat_of_nonneg hnonneg]
  exact bmod_emod_of_isHalf h

namespace Allocator

theorem Kind.isHalf_code (k : Kind) : IsHalf k.code := by
  cases k <;> simp [IsHalf, Kind.code]

@[simp] theorem Kind.ofCode_code (k : Kind) : Kind.ofCode k.code = k := by
  cases k <;> rfl

theorem isHalf_noRun : IsHalf noRun := by simp [IsHalf, noRun]

theorem isHalf_natCast {n : Nat} (h : n ≤ maximumPoolCells) : IsHalf n := by
  simp only [maximumPoolCells] at h
  constructor <;> omega

/-! ## Writing one record -/

/-- The cells with the halves of one cell replaced. -/
def inscribe (cells : Array Cell) (position : Nat) (low high : Int) : Array Cell :=
  cells.setIfInBounds position ((look cells position).withPair low high)

@[simp] theorem size_inscribe (cells : Array Cell) (position : Nat) (low high : Int) :
    (inscribe cells position low high).size = cells.size := by
  simp [inscribe]

theorem look_inscribe_ne {cells : Array Cell} {position i : Nat} (low high : Int)
    (h : i ≠ position) : look (inscribe cells position low high) i = look cells i :=
  look_setIfInBounds_ne _ h

theorem look_inscribe_self {cells : Array Cell} {position : Nat} (low high : Int)
    (h : position < cells.size) :
    look (inscribe cells position low high) position = (look cells position).withPair low high :=
  look_setIfInBounds_self _ h

theorem writeRecord_run {a : Arena} {position : Nat} (low high : Int)
    (h : position < a.cells.size) :
    (writeRecord position low high).run a =
      .ok () { a with cells := inscribe a.cells position low high } := by
  simp [writeRecord, EStateM.run, getElem?_eq_look h, inscribe]

/-! ## Writing the records of a run -/

/-- The cells with both records of a run written. -/
def inscribeRun (cells : Array Cell) (head count : Nat) (kind : Kind) (next : Int) : Array Cell :=
  inscribe (inscribe cells head count kind.code) (head + 1 + count) ((count + 2 : Nat) : Int) next

@[simp] theorem size_inscribeRun (cells : Array Cell) (head count : Nat) (kind : Kind)
    (next : Int) : (inscribeRun cells head count kind next).size = cells.size := by
  simp [inscribeRun]

theorem writeRun_run {a : Arena} {head count : Nat} (kind : Kind) (next : Int)
    (h : head + 1 + count < a.cells.size) :
    (writeRun head count kind next).run a =
      .ok () { a with cells := inscribeRun a.cells head count kind next } := by
  have hhead : head < a.cells.size := by omega
  unfold writeRun
  rw [run_bind_ok (writeRecord_run _ _ hhead), writeRecord_run _ _ (by simpa using h)]
  rfl

theorem look_inscribeRun_of_ne {cells : Array Cell} {head count i : Nat} (kind : Kind)
    (next : Int) (hhead : i ≠ head) (htail : i ≠ head + 1 + count) :
    look (inscribeRun cells head count kind next) i = look cells i := by
  rw [inscribeRun, look_inscribe_ne _ _ htail, look_inscribe_ne _ _ hhead]

theorem look_inscribeRun_head {cells : Array Cell} {head count : Nat} (kind : Kind) (next : Int)
    (h : head + 1 + count < cells.size) :
    look (inscribeRun cells head count kind next) head =
      (look cells head).withPair count kind.code := by
  rw [inscribeRun, look_inscribe_ne _ _ (by omega), look_inscribe_self _ _ (by omega)]

theorem look_inscribeRun_tail {cells : Array Cell} {head count : Nat} (kind : Kind) (next : Int)
    (h : head + 1 + count < cells.size) :
    look (inscribeRun cells head count kind next) (head + 1 + count) =
      (look cells (head + 1 + count)).withPair ((count + 2 : Nat) : Int) next := by
  rw [inscribeRun, look_inscribe_self _ _ (by simpa using h), look_inscribe_ne _ _ (by omega)]

/-! ## Reading a run -/

theorem readRun?_of_getElem? {cells : Array Cell} {head count : Nat} {first last : Cell}
    (hfirst : cells[head]? = some first) (hcount : first.low = count)
    (hlast : cells[head + 1 + count]? = some last) :
    readRun? cells head = some ⟨head, count, Kind.ofCode first.high, last.high⟩ := by
  have hneg : ¬ first.low < 0 := by omega
  have hnat : first.low.toNat = count := by omega
  simp only [readRun?, hfirst, hneg, ↓reduceIte, hnat, hlast]

/-- **A run is read back from its records**, wherever they lie inside the pool. -/
theorem readRun?_of {cells : Array Cell} {head count : Nat}
    (hcount : (look cells head).low = count) (h : head + 1 + count < cells.size) :
    readRun? cells head =
      some ⟨head, count, Kind.ofCode (look cells head).high,
        (look cells (head + 1 + count)).high⟩ :=
  readRun?_of_getElem? (getElem?_eq_look (by omega)) hcount (getElem?_eq_look h)

theorem loadRun_run {a : Arena} {head : Nat} {run : Run} (h : readRun? a.cells head = some run) :
    (loadRun head).run a = .ok run a := by
  unfold loadRun
  rw [run_bind_ok (EStateM.run_get a), h]
  rfl

/-- What can be read lies inside the pool, with both of its records. -/
theorem readRun?_eq_some {cells : Array Cell} {head : Nat} {run : Run}
    (h : readRun? cells head = some run) :
    ∃ first last, cells[head]? = some first ∧ 0 ≤ first.low ∧
      cells[head + 1 + first.low.toNat]? = some last ∧
      run = ⟨head, first.low.toNat, Kind.ofCode first.high, last.high⟩ := by
  unfold readRun? at h
  split at h
  · cases h
  next first hfirst =>
    split at h
    · cases h
    next hneg =>
      dsimp only at h
      split at h
      · cases h
      next last hlast =>
        exact ⟨first, last, hfirst, Int.not_lt.1 hneg, hlast, (Option.some.inj h).symm⟩

theorem tail_lt_of_readRun? {cells : Array Cell} {head : Nat} {run : Run}
    (h : readRun? cells head = some run) : run.head = head ∧ head + 1 + run.count < cells.size := by
  obtain ⟨first, last, -, -, hlast, rfl⟩ := readRun?_eq_some h
  obtain ⟨hlt, -⟩ := Array.getElem?_eq_some_iff.1 hlast
  dsimp only
  exact ⟨rfl, hlt⟩

theorem loadRun_eq_ok {a a' : Arena} {head : Nat} {run : Run}
    (h : (loadRun head).run a = .ok run a') :
    readRun? a.cells head = some run ∧ a' = a := by
  unfold loadRun at h
  rw [run_bind_ok (EStateM.run_get a)] at h
  match hread : readRun? a.cells head with
  | none =>
    rw [hread] at h
    cases h
  | some read =>
    rw [hread] at h
    cases h
    exact ⟨rfl, rfl⟩

end Allocator

end CellMachine
