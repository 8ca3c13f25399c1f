import CellMachine.Proofs.Allocators

/-!
# Addresses and cells

What the addresses of a process lead to.

* `Address.decode_eq_ok`: taking an address apart undoes putting it together;
* `AddressSpace.locate`: the cell behind an address, by its pool and position. Reads and writes both
  go there (`read_eq`, `write_eq`), so that all they do is known from `locate`;
* `AddressSpace.exact`: windows that share no cell and are short enough for their addresses have
  exactly one address for every cell;
* `House.Attained.settled`: the windows of processes are like that, whoever lends them, whatever
  the processes do and whatever other clients of the allocator do beside them;
* `address_translation_exact`: both together.
-/

namespace CellMachine

open Allocator Processor

/-! ## Putting addresses together and taking them apart -/

theorem Segment.selector_lt (segment : Segment) : segment.selector < 4 := by
  cases segment <;> decide

theorem Segment.ofSelector?_eq_some {k : Nat} {segment : Segment} :
    ofSelector? k = some segment ↔ k = segment.selector := by
  match k with
  | 0 | 1 | 2 | 3 => cases segment <;> simp [ofSelector?, selector]
  | k + 4 =>
    have hlt := segment.selector_lt
    simp only [ofSelector?, reduceCtorEq, false_iff]
    omega

namespace Address

variable {segment : Segment} {offset : Nat} {a : UInt32}

theorem compose_eq_ok :
    compose segment offset = .ok a ↔
      offset < Segment.maxCells ∧ a.toNat = segment.selector * Segment.maxCells + offset := by
  have hlt := segment.selector_lt
  unfold compose
  by_cases hoffset : offset < Segment.maxCells
  · have hnat : (UInt32.ofNat (segment.selector * Segment.maxCells + offset)).toNat =
        segment.selector * Segment.maxCells + offset := by
      simp only [Segment.maxCells] at hoffset ⊢
      rw [UInt32.toNat_ofNat']
      omega
    simp only [hoffset, ↓reduceIte, Except.ok.injEq, true_and]
    rw [← UInt32.toNat_inj, hnat, eq_comm]
  · simp [hoffset]

/-- **Taking an address apart undoes putting it together.** -/
theorem decode_eq_ok :
    decode a = .ok ⟨segment, offset⟩ ↔ compose segment offset = .ok a := by
  have hdecode : decode a = .ok ⟨segment, offset⟩ ↔
      a.toNat / Segment.maxCells = segment.selector ∧ a.toNat % Segment.maxCells = offset := by
    rw [← Segment.ofSelector?_eq_some]
    unfold decode
    split <;> simp_all
  rw [hdecode, compose_eq_ok]
  simp only [Segment.maxCells]
  omega

end Address

/-! ## The cell behind an address -/

namespace AddressSpace

variable {m : AddressSpace} {s s' : Store} {a b : UInt32}

/-- The cell behind an address: its pool, and its position there. -/
def locate (m : AddressSpace) (a : UInt32) : Except Error (Nat × Nat) :=
  match m.resolve a with
  | .ok (w, index) => (w.position index).map fun i => (w.pool, i)
  | .error e => .error e

theorem read_eq (m : AddressSpace) (s : Store) (a : UInt32) :
    m.read s a = (m.locate a).map fun x => s.peek x.1 x.2 := by
  unfold read locate
  match m.resolve a with
  | .error e => rfl
  | .ok (w, index) =>
    dsimp only
    unfold Store.get
    match w.position index with
    | .error e => rfl
    | .ok i => rfl

theorem write_eq (m : AddressSpace) (s : Store) (a : UInt32) (c : Cell) :
    m.write s a c = (m.locate a).map fun x => s.poke x.1 x.2 c := by
  unfold write locate
  match m.resolve a with
  | .error e => rfl
  | .ok (w, index) =>
    dsimp only
    unfold Store.set
    match w.position index with
    | .error e => rfl
    | .ok i => rfl

theorem locate_eq_ok {q i : Nat} :
    m.locate a = .ok (q, i) ↔ ∃ segment offset, Address.compose segment offset = .ok a ∧
      offset < (m.window segment).length ∧ q = (m.window segment).pool ∧
      i = (m.window segment).offset + offset := by
  constructor
  · intro h
    unfold locate resolve at h
    match hdecode : Address.decode a with
    | .error e =>
      simp only [hdecode] at h
      cases h
    | .ok ⟨segment, offset⟩ =>
      simp only [hdecode, Window.position] at h
      by_cases hlt : offset < (m.window segment).length
      · simp only [hlt, ↓reduceIte] at h
        obtain ⟨hq, hi⟩ := Prod.mk.inj (Except.ok.inj h)
        exact ⟨segment, offset, Address.decode_eq_ok.1 hdecode, hlt, hq.symm, hi.symm⟩
      · simp only [hlt, ↓reduceIte] at h
        cases h
  · intro h
    obtain ⟨segment, offset, hcompose, hlt, rfl, rfl⟩ := h
    have hdecode := Address.decode_eq_ok.2 hcompose
    simp only [locate, resolve, hdecode, Window.position, hlt, ↓reduceIte]
    rfl

theorem read_eq_ok {c : Cell} :
    m.read s a = .ok c ↔ ∃ q i, m.locate a = .ok (q, i) ∧ c = s.peek q i := by
  rw [read_eq]
  match m.locate a with
  | .error e => simp [Except.map]
  | .ok (q, i) =>
    constructor
    · intro h
      exact ⟨q, i, rfl, (Except.ok.inj h).symm⟩
    · intro h
      obtain ⟨q', i', hsame, rfl⟩ := h
      obtain ⟨rfl, rfl⟩ := Prod.mk.inj (Except.ok.inj hsame)
      rfl

/-! ## Exact address spaces -/

/-- Every cell of the four windows has exactly one address, and what is read and written at an
address is that cell. -/
structure Exact (m : AddressSpace) (s : Store) : Prop where
  /-- The addresses that can be read are those inside the windows. -/
  readable : ∀ a, (∃ c, m.read s a = .ok c) ↔
    ∃ segment offset, offset < (m.window segment).length ∧ Address.compose segment offset = .ok a
  decoded : ∀ a segment offset, offset < (m.window segment).length →
    Address.compose segment offset = .ok a → Address.decode a = .ok ⟨segment, offset⟩
  /-- What is read is the cell behind the address, and it is there. -/
  seen : ∀ a c, m.read s a = .ok c ↔
    ∃ q i, m.locate a = .ok (q, i) ∧ i < s.size q ∧ c = s.peek q i
  injective : ∀ a b x, m.locate a = .ok x → m.locate b = .ok x → a = b
  onto : ∀ q i, (∃ a, m.locate a = .ok (q, i)) ↔ ∃ segment, (m.window segment).Has q i
  /-- A write is refused where a read is, for the same reason. -/
  refused : ∀ a v e, m.write s a v = .error e ↔ m.read s a = .error e
  /-- What was written is read back, and everything else is read as before. -/
  written : ∀ a v s', m.write s a v = .ok s' →
    ∀ b, m.read s' b = if b = a then .ok v else m.read s b

theorem has_of_locate {q i : Nat} (h : m.locate a = .ok (q, i)) :
    ∃ segment, (m.window segment).Has q i := by
  obtain ⟨segment, offset, -, hlt, rfl, rfl⟩ := locate_eq_ok.1 h
  exact ⟨segment, rfl, by omega, by omega⟩

theorem locate_of_has (hshort : ∀ segment, (m.window segment).length ≤ Segment.maxCells)
    {segment : Segment} {q i : Nat} (h : (m.window segment).Has q i) :
    ∃ a, m.locate a = .ok (q, i) := by
  obtain ⟨rfl, hlow, hhigh⟩ := h
  have hlt : i - (m.window segment).offset < Segment.maxCells := by
    have := hshort segment
    omega
  have hcompose : Address.compose segment (i - (m.window segment).offset) = .ok _ :=
    if_pos hlt
  exact ⟨_, locate_eq_ok.2 ⟨segment, _, hcompose, by omega, rfl, by omega⟩⟩

theorem locate_injective
    (hapart : ∀ segment segment', segment ≠ segment' → ∀ q i, (m.window segment).Has q i →
      ¬ (m.window segment').Has q i) {x : Nat × Nat} (ha : m.locate a = .ok x)
    (hb : m.locate b = .ok x) : a = b := by
  obtain ⟨segment, offset, hcompose, hlt, hq, hi⟩ := locate_eq_ok.1 ha
  obtain ⟨segment', offset', hcompose', hlt', hq', hi'⟩ := locate_eq_ok.1 hb
  have hsegment : segment = segment' := by
    refine Decidable.not_not.1 fun hne => hapart segment segment' hne x.1 x.2 ?_ ?_
    · exact ⟨hq, by omega, by omega⟩
    · exact ⟨hq', by omega, by omega⟩
  subst hsegment
  obtain rfl : offset = offset' := by omega
  exact Except.ok.inj (hcompose.symm.trans hcompose')

theorem read_of_write (hinj : ∀ a b x, m.locate a = .ok x → m.locate b = .ok x → a = b)
    (hsize : ∀ a q i, m.locate a = .ok (q, i) → i < s.size q) {v : Cell}
    (h : m.write s a v = .ok s') (b : UInt32) :
    m.read s' b = if b = a then .ok v else m.read s b := by
  rw [write_eq] at h
  match ha : m.locate a with
  | .error e =>
    rw [ha] at h
    cases h
  | .ok (q, i) =>
    rw [ha] at h
    obtain rfl := Except.ok.inj h
    rw [read_eq, read_eq]
    by_cases hb : b = a
    · subst hb
      rw [if_pos rfl, ha]
      exact congrArg Except.ok (Store.peek_poke_self v (hsize b q i ha))
    · rw [if_neg hb]
      match hb' : m.locate b with
      | .error e => rfl
      | .ok (q', i') =>
        -- another address leads to another cell
        have hne : (q', i') ≠ (q, i) := fun he => hb (hinj b a (q, i) (he ▸ hb') ha)
        exact congrArg Except.ok (Store.peek_poke_ne v hne)

/-- **Windows that lie apart and are short enough have exact addresses.** -/
theorem exact (hwithin : ∀ segment, (m.window segment).Within s)
    (hshort : ∀ segment, (m.window segment).length ≤ Segment.maxCells)
    (hapart : ∀ segment segment', segment ≠ segment' → ∀ q i, (m.window segment).Has q i →
      ¬ (m.window segment').Has q i) : m.Exact s := by
  have hsize : ∀ a q i, m.locate a = .ok (q, i) → i < s.size q := by
    intro a q i h
    obtain ⟨segment, rfl, hlow, hhigh⟩ := has_of_locate h
    exact Nat.lt_of_lt_of_le hhigh (hwithin segment)
  have hinj : ∀ a b x, m.locate a = .ok x → m.locate b = .ok x → a = b := fun a b x =>
    locate_injective hapart
  refine ⟨fun a => ?_, fun a segment offset _ h => Address.decode_eq_ok.2 h, fun a c => ?_, hinj,
    fun q i => ⟨fun ⟨a, h⟩ => has_of_locate h, fun ⟨segment, h⟩ => locate_of_has hshort h⟩,
    fun a v e => ?_, fun a v s' h b => read_of_write hinj hsize h b⟩
  · constructor
    · intro ⟨c, h⟩
      obtain ⟨q, i, hlocate, -⟩ := read_eq_ok.1 h
      obtain ⟨segment, offset, hcompose, hlt, -, -⟩ := locate_eq_ok.1 hlocate
      exact ⟨segment, offset, hlt, hcompose⟩
    · intro ⟨segment, offset, hlt, hcompose⟩
      have hlocate := locate_eq_ok.2 ⟨segment, offset, hcompose, hlt, rfl, rfl⟩
      exact ⟨_, read_eq_ok.2 ⟨_, _, hlocate, rfl⟩⟩
  · rw [read_eq_ok]
    constructor
    · intro ⟨q, i, hlocate, hc⟩
      exact ⟨q, i, hlocate, hsize a q i hlocate, hc⟩
    · intro ⟨q, i, hlocate, _, hc⟩
      exact ⟨q, i, hlocate, hc⟩
  · rw [read_eq, write_eq]
    cases m.locate a <;> simp [Except.map]

end AddressSpace

/-! ## Windows of processes -/

theorem Segment.selector_inj {segment segment' : Segment}
    (h : segment.selector = segment'.selector) : segment = segment' := by
  have hself := ofSelector?_eq_some.2 (rfl : segment.selector = segment.selector)
  rw [ofSelector?_eq_some.2 h] at hself
  exact (Option.some.inj hself).symm

/-- A process whose windows are short enough has exact addresses. -/
theorem Housed.exact {g : Segments} {s : Store} (h : Housed g s)
    (hshort : ∀ v ∈ g.windows, v.length ≤ Segment.maxCells) : g.toAddressSpace.Exact s := by
  have hmem : ∀ segment, g.window segment ∈ g.windows := fun segment =>
    List.mem_of_getElem? (g.getElem?_windows segment)
  refine AddressSpace.exact (fun segment => h.within _ (hmem segment))
    (fun segment => hshort _ (hmem segment)) fun segment segment' hne q i => ?_
  refine h.apart_of_ne (g.getElem?_windows segment) (g.getElem?_windows segment') fun hsame => ?_
  exact hne (Segment.selector_inj hsame)

/-- No address leads to a register. -/
theorem Housed.not_registers {g : Segments} {s : Store} (h : Housed g s) {a : UInt32} {q i : Nat}
    (hlocate : g.locate a = .ok (q, i)) : ¬ g.registers.Has q i := by
  obtain ⟨segment, hhas⟩ := AddressSpace.has_of_locate hlocate
  exact h.apart_of_ne (g.getElem?_windows segment) rfl (Nat.ne_of_lt segment.selector_lt) hhas

/-- An address leads into one of the leases of its process. -/
theorem Segments.exists_lease {g : Segments} {a : UInt32} {q i : Nat}
    (h : g.locate a = .ok (q, i)) : ∃ l ∈ g.leases, l.window.Has q i := by
  obtain ⟨segment, hhas⟩ := AddressSpace.has_of_locate h
  have hmem := List.mem_of_getElem? (g.getElem?_windows segment)
  rw [← Segments.map_window_leases] at hmem
  obtain ⟨l, hl, hwindow⟩ := List.mem_map.1 hmem
  exact ⟨l, hl, hwindow ▸ hhas⟩

/-! ## Processes and other clients -/

namespace House

variable (host : FunctionId → List Cell → Reply)

/-- The allocator of a house as its other clients see it, who hold some windows. -/
def world (w : House) (held : List Lease) : World := ⟨w.state.1, w.state.2, held⟩

/-- The houses that can come about, with the windows that other clients of the allocator hold
there. The allocator has one pool to lend from or makes a pool for every request; from then on
anything may happen to the processes and anything may be done by the other clients, in any
order. -/
inductive Attained : House → List Lease → Prop
  | shared {store : Store} {pool : Nat} {st : Allocator × Store} :
      Allocator.ofPool store pool = .ok st → Attained ⟨st, []⟩ []
  | separate (store : Store) : Attained ⟨(.separate, store), []⟩ []
  | inside {w : House} {held : List Lease} (e : Event) :
      Attained w held → Attained (w.act host e) held
  | outside {w : House} {held : List Lease} (action : Allocator.Action) :
      Attained w held →
      Attained ⟨((w.world held).act action).state, w.tenants⟩ ((w.world held).act action).live

/-- The leases of all are in order, and every process can address its windows. -/
structure Settled (I : List Lease → Allocator × Store → Prop) (w : House) (held : List Lease) :
    Prop where
  leased : I (w.leases ++ held) w.state
  short : ∀ t, some t ∈ w.tenants → ∀ v ∈ t.segments.windows, v.length ≤ Segment.maxCells

variable {I : List Lease → Allocator × Store → Prop} {w : House} {held : List Lease} {n : Nat}
  {t : Tenant}

theorem mem_tenants (ht : w.tenant? n = some t) : some t ∈ w.tenants :=
  List.mem_of_getElem? (tenants_eq ht)

/-- The process that is there after an event was there before, or it was created just now. -/
theorem mem_tenants_act (hI : Supply I) (h : I w.leases w.state) {e : Event}
    (ht : some t ∈ (w.act host e).tenants) :
    (∃ u, some u ∈ w.tenants ∧ t.segments = u.segments) ∨
      ∃ layout image st, (Carver.create layout image).run w.state = .ok t.segments st := by
  cases e with
  | create layout image =>
    rcases act_create host hI h layout image with ⟨g, st, hrun, hact, -, -, -⟩ |
        ⟨e, st, -, hact, -, -⟩
    · rw [hact] at ht
      rcases List.mem_append.1 ht with ht | ht
      · exact .inl ⟨t, ht, rfl⟩
      · obtain rfl := Option.some.inj (List.mem_singleton.1 ht)
        exact .inr ⟨layout, image, st, hrun⟩
    · rw [hact] at ht
      simp only [List.mem_append, List.mem_singleton, reduceCtorEq, or_false] at ht
      exact .inl ⟨t, ht, rfl⟩
  | release n =>
    match hu : w.tenant? n with
    | none =>
      rw [act, hu] at ht
      exact .inl ⟨t, ht, rfl⟩
    | some u =>
      rw [(act_release host hI h hu).1] at ht
      rcases List.mem_or_eq_of_mem_set ht with ht | ht
      · exact .inl ⟨t, ht, rfl⟩
      · cases ht
  | instruct n control now =>
    match hu : w.tenant? n with
    | none =>
      rw [act, hu] at ht
      exact .inl ⟨t, ht, rfl⟩
    | some u =>
      rw [(act_instruct host hI h hu control now).1] at ht
      rcases List.mem_or_eq_of_mem_set ht with ht | ht
      · exact .inl ⟨t, ht, rfl⟩
      · obtain rfl := Option.some.inj ht
        exact .inl ⟨u, mem_tenants hu, rfl⟩

theorem Settled.inside (hI : Supply I) (h : w.Settled I held) (e : Event) :
    (w.act host e).Settled I held := by
  have hI' := hI.alongside held
  refine ⟨act_supplied host hI' h.leased e, fun t ht v hv => ?_⟩
  rcases mem_tenants_act host hI' h.leased ht with ⟨u, hu, hsame⟩ | ⟨layout, image, st, hrun⟩
  · rw [hsame] at hv
    exact h.short u hu v hv
  · exact Carver.length_le_of_create hI' h.leased hrun v hv

theorem Settled.outside (hI : Supply I) (h : w.Settled I held) (action : Allocator.Action) :
    (⟨((w.world held).act action).state, w.tenants⟩ : House).Settled I
      ((w.world held).act action).live := by
  refine ⟨hI.perm List.perm_append_comm ?_, h.short⟩
  exact World.act_supplied (hI.alongside w.leases) (hI.perm List.perm_append_comm h.leased) action

/-- **Whatever happens, the windows of processes are theirs and can be addressed**, and so they are
whichever way the windows are lent. -/
theorem Attained.settled (h : w.Attained host held) :
    (∃ pool, w.Settled (Lent pool) held) ∨ w.Settled Owned held := by
  induction h with
  | @shared store pool st hst =>
    obtain ⟨hmin, hmax⟩ := ofPool_bounds hst
    obtain ⟨st', p, hst', haccounts⟩ := ofPool_eq_ok hmin hmax
    obtain rfl : st' = st := Except.ok.inj (hst'.symm.trans hst)
    exact .inl ⟨pool, ⟨p, haccounts⟩, by simp⟩
  | separate store => exact .inr ⟨⟨rfl, by simp [leases], .nil⟩, by simp⟩
  | inside e _ ih =>
    rcases ih with ⟨pool, hsettled⟩ | hsettled
    · exact .inl ⟨pool, hsettled.inside host (supply_lent pool) e⟩
    · exact .inr (hsettled.inside host supply_owned e)
  | outside action _ ih =>
    rcases ih with ⟨pool, hsettled⟩ | hsettled
    · exact .inl ⟨pool, hsettled.outside (supply_lent pool) action⟩
    · exact .inr (hsettled.outside supply_owned action)

/-- No address of a process leads to anything that is not in its four segments. -/
structure Secluded (w : House) (held : List Lease) (n : Nat) (g : Segments) : Prop where
  registers : ∀ a q i, g.locate a = .ok (q, i) → ¬ g.registers.Has q i
  neighbours : ∀ m u, m ≠ n → w.tenant? m = some u → ∀ v ∈ u.segments.windows,
    ∀ a q i, g.locate a = .ok (q, i) → ¬ v.Has q i
  held : ∀ l ∈ held, ∀ a q i, g.locate a = .ok (q, i) → ¬ l.window.Has q i
  /-- Neither does one lead to a record of the pool, if there is a pool that is shared. -/
  records : ∀ pool firstFree, w.state.1 = .shared pool firstFree →
    ∃ runs, (w.state.1.arena w.store).runs = some runs ∧ ∀ r ∈ runs,
      ∀ a i, g.locate a = .ok (pool, i) → i ≠ r.head ∧ i ≠ r.tail

theorem Settled.housed (hI : Supply I) (h : w.Settled I held) (ht : w.tenant? n = some t) :
    Housed t.segments w.store :=
  (hI.alongside held).housed (split (hI.alongside held) h.leased ht)

/-- The windows of a process have no cell of anybody else. -/
theorem Settled.apart (hI : Supply I) (h : w.Settled I held) (ht : w.tenant? n = some t)
    {l l' : Lease} (hl : l ∈ t.segments.leases) (hl' : l' ∈ w.others n ++ held) {q i : Nat}
    (hi : l.window.Has q i) : ¬ l'.window.Has q i := by
  have hsplit : I (t.segments.leases ++ (w.others n ++ held)) w.state := by
    rw [← List.append_assoc]
    exact split (hI.alongside held) h.leased ht
  exact (List.pairwise_append.1 (hI.apart hsplit)).2.2 l hl l' hl' q i hi

theorem Settled.secluded (hI : Supply I) (h : w.Settled I held) (ht : w.tenant? n = some t)
    (hrecords : ∀ pool firstFree, w.state.1 = .shared pool firstFree →
      ∃ runs, (w.state.1.arena w.store).runs = some runs ∧ ∀ r ∈ runs,
        ∀ l ∈ w.leases, ¬ l.window.Has pool r.head ∧ ¬ l.window.Has pool r.tail) :
    w.Secluded held n t.segments := by
  refine ⟨fun a q i ha => (h.housed hI ht).not_registers ha, fun m u hne hu v hv a q i ha => ?_,
    fun l' hl' a q i ha => ?_, fun pool firstFree hshared => ?_⟩
  · obtain ⟨l, hl, hi⟩ := Segments.exists_lease ha
    rw [← Segments.map_window_leases] at hv
    obtain ⟨l', hl', rfl⟩ := List.mem_map.1 hv
    exact h.apart hI ht hl (List.mem_append_left _ (leases_subset_others hu hne hl')) hi
  · obtain ⟨l, hl, hi⟩ := Segments.exists_lease ha
    exact h.apart hI ht hl (List.mem_append_right _ hl') hi
  · obtain ⟨runs, hruns, hout⟩ := hrecords pool firstFree hshared
    refine ⟨runs, hruns, fun r hr a i ha => ?_⟩
    obtain ⟨l, hl, hi⟩ := Segments.exists_lease ha
    obtain ⟨hhead, htail⟩ := hout r hr l (leases_subset ht hl)
    constructor
    · rintro rfl
      exact hhead hi
    · rintro rfl
      exact htail hi

end House

/-- **Address translation is exact.** Take a process in any house that can come about, over one
shared pool or over a pool for each window. An address can be read exactly when it was put together
from a segment and an offset inside it, and is taken apart into these. The cells behind such
addresses are those of the four segments, each behind one address: no address leads to a register,
a record of the allocator or anybody else's window. A write is refused where a read is and otherwise
changes what is read at its address and nowhere else. -/
theorem address_translation_exact (host : FunctionId → List Cell → Reply) {w : House}
    {held : List Lease} (hw : w.Attained host held) {n : Nat} {t : Tenant}
    (ht : w.tenant? n = some t) :
    t.segments.toAddressSpace.Exact w.store ∧ w.Secluded held n t.segments := by
  rcases hw.settled with ⟨pool, hsettled⟩ | hsettled
  · refine ⟨(hsettled.housed (supply_lent pool) ht).exact
      (hsettled.short t (House.mem_tenants ht)), hsettled.secluded (supply_lent pool) ht ?_⟩
    intro pool' firstFree hshared
    obtain ⟨runs, hruns, hout⟩ := Lent.exists_runs hsettled.leased
    obtain ⟨p, haccounts⟩ := hsettled.leased
    obtain ⟨firstFree', hshared', -⟩ := haccounts.arena_eq
    obtain ⟨rfl, -⟩ := Allocator.shared.inj (hshared.symm.trans hshared')
    refine ⟨runs, hruns, fun r hr l hl => ?_⟩
    have hmem : l ∈ w.leases ++ held := List.mem_append_left _ hl
    exact ⟨hout r hr l hmem r.head (.inl rfl), hout r hr l hmem r.tail (.inr (.inl rfl))⟩
  · refine ⟨(hsettled.housed supply_owned ht).exact (hsettled.short t (House.mem_tenants ht)),
      hsettled.secluded supply_owned ht ?_⟩
    intro pool firstFree hshared
    rw [hsettled.leased.separate] at hshared
    cases hshared

/-- Two processes in sixty cells, of which another client holds two. -/
theorem address_translation_exact_sixty : ∃ (host : FunctionId → List Cell → Reply) (w : House)
    (held : List Lease) (t : Tenant), w.Attained host held ∧ w.tenant? 1 = some t ∧
      held.length = 1 ∧ (t.segments.toAddressSpace.Exact w.store ∧
        w.Secluded held 1 t.segments) := by
  let host : FunctionId → List Cell → Reply := fun _ _ => .value Cell.zero
  let layout : Layout := ⟨1, 2, 2⟩
  let image : Image := ⟨[.make .movl 0 0 0 7, .make .halt 0 0 0 0], []⟩
  let store : Store := ⟨#[Array.replicate 60 Cell.zero]⟩
  let client (st : Allocator × Store) : World :=
    ((⟨st, []⟩ : House).world []).act (.obtain 16 .heap)
  let house (st : Allocator × Store) : House :=
    ((⟨(client st).state, []⟩ : House).act host (.create layout image)).act host
      (.create layout image)
  have hsize : minimumRunCells ≤ store.size 0 ∧ store.size 0 ≤ maximumPoolCells := by decide
  obtain ⟨st, p, hst, -⟩ := ofPool_eq_ok hsize.1 hsize.2
  have hlives : (Allocator.ofPool store 0).toOption.map (fun st =>
      (((house st).tenant? 1).isSome, (client st).live.length)) = some (true, 1) := by
    decide +kernel
  rw [hst] at hlives
  obtain ⟨hsome, hheld⟩ := Prod.mk.inj (Option.some.inj hlives)
  obtain ⟨t, ht⟩ := Option.isSome_iff_exists.1 hsome
  have hw : (house st).Attained host (client st).live :=
    .inside _ (.inside _ (.outside _ (.shared hst)))
  exact ⟨host, house st, (client st).live, t, hw, ht, hheld, address_translation_exact host hw ht⟩

end CellMachine
