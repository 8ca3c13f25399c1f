import CellMachine.Proofs.Allocator.FirstFit
import CellMachine.Proofs.Allocators
import CellMachine.Proofs.Image

/-!
# A new process

What a process starts from, over a shared pool or over pools of its own, whatever earlier owners of
its cells left in them.

* `supply_followed`: whatever is done with a `Supply`, clients could have done with requests,
  returns and writes, so that processes are clients like others;
* `Carver.started`: the cells of a new process, one by one;
* `Carver.invalid_iff`: when a creation is refused as invalid;
* `process_starts_from_image`: both together, in every world that clients can come to.
-/

namespace CellMachine

open Allocator

/-! ## Any write is one of the writes -/

namespace Store

variable {s s' : Store} {v : Window}

theorem ext_peek (hpools : s'.pools.size = s.pools.size)
    (hsize : ∀ q, (s'.cells q).size = (s.cells q).size)
    (hpeek : ∀ q i, s'.peek q i = s.peek q i) : s' = s := by
  have hcells : ∀ q, s'.cells q = s.cells q := by
    intro q
    refine Array.ext (hsize q) fun i h₁ h₂ => ?_
    have hi := hpeek q i
    simpa [peek_eq_look, look, h₁, h₂] using hi
  cases s with
  | mk pools =>
    cases s' with
    | mk pools' =>
      rw [Store.mk.injEq]
      refine Array.ext hpools fun q h₁ h₂ => ?_
      simpa [Store.cells, h₁, h₂] using hcells q

/-- Whatever is written through a window could be written in one go. -/
theorem Touches.eq_write (h : Touches v s s') (hv : v.Within s) :
    (Edit.write 0 (s'.read v)).apply s v = s' := by
  have hlength := length_read (h.within hv)
  have hwrite : (Edit.write 0 (s'.read v)).apply s v =
      s.overwritten v.pool v.offset (s'.read v) := by
    simp only [Edit.apply, Store.write, hlength, Nat.zero_add, Nat.le_refl, ↓reduceIte,
      Nat.add_zero]
  have ht := Edit.touches s v (.write 0 (s'.read v))
  have hread : ((Edit.write 0 (s'.read v)).apply s v).read v = s'.read v := by
    rw [hwrite, read_overwritten hv (Nat.le_of_eq hlength), hlength, ← length_read hv,
      List.drop_length, List.append_nil]
  refine ext_peek (ht.pools.trans h.pools.symm) (fun q => (ht.size q).trans (h.size q).symm)
    fun q i => ?_
  by_cases hhas : v.Has q i
  · obtain ⟨rfl, hlow, hhigh⟩ := hhas
    have hi := congrArg (fun cells => cells[i - v.offset]?) hread
    rw [getElem?_read (ht.within hv), getElem?_read (h.within hv), if_pos (by omega),
      if_pos (by omega), Nat.add_sub_cancel' hlow] at hi
    exact Option.some.inj hi
  · rw [ht.keep q i hhas, h.keep q i hhas]

end Store

namespace Allocator

/-! ## Processes are clients -/

namespace World

/-- The worlds that clients of an allocator can come to, be it a shared pool or one that makes a
pool for every request. -/
def Reached (w : World) : Prop :=
  (∃ pool, w.Reachable pool) ∨
    ∃ (store : Store) (actions : List Action), w = (⟨.separate, store, []⟩ : World).run actions

theorem Reached.run {w : World} (h : w.Reached) (actions : List Action) :
    (w.run actions).Reached := by
  cases h with
  | inl hshared =>
    obtain ⟨pool, store, st, earlier, hsize, hst, rfl⟩ := hshared
    refine .inl ⟨pool, store, st, earlier ++ actions, hsize, hst, ?_⟩
    exact List.foldl_append.symm
  | inr hseparate =>
    obtain ⟨store, earlier, rfl⟩ := hseparate
    exact .inr ⟨store, earlier ++ actions, List.foldl_append.symm⟩

/-- Clients can bring about the state from the world, and then hold the leases. -/
def Follows (w : World) (live : List Lease) (st : Allocator × Store) : Prop :=
  ∃ actions, (w.run actions).state = st ∧ (w.run actions).live.Perm live

/-- Every world that clients can come to has a supply, which runs out only if it is shared. -/
theorem Reached.supplied {w : World} (h : w.Reached) :
    ∃ I scarce, Supply I ∧ RefusesForWant scarce I ∧ I w.live w.state ∧
      (scarce → w.allocator ≠ .separate) := by
  cases h with
  | inl hshared =>
    obtain ⟨pool, hreach⟩ := hshared
    obtain ⟨p, haccounts⟩ := hreach.kept
    obtain ⟨firstFree, hallocator⟩ := haccounts.shared
    refine ⟨Lent pool, True, supply_lent pool, refusesForWant_lent pool, ⟨p, haccounts⟩, ?_⟩
    intro _ hseparate
    cases hallocator.symm.trans hseparate
  | inr hseparate =>
    obtain ⟨store, actions, rfl⟩ := hseparate
    have hfirst : Owned [] (.separate, store) := ⟨rfl, nofun, .nil⟩
    exact ⟨Owned, False, supply_owned, refusesForWant_owned,
      run_supplied supply_owned hfirst actions, False.elim⟩

end World

/-- **Whatever is done with a supply, clients could have done.** -/
theorem supply_followed {I : List Lease → Allocator × Store → Prop} (hI : Supply I) (w : World) :
    Supply fun live st => I live st ∧ w.Follows live st where
  perm := fun hperm h =>
    ⟨hI.perm hperm h.1, h.2.imp fun _ hfollows => ⟨hfollows.1, hfollows.2.trans hperm⟩⟩
  within := fun h hl => hI.within h.1 hl
  apart := fun h => hI.apart h.1
  touch := fun {live st l s} h hl ht => by
    obtain ⟨actions, rfl, hlive⟩ := h.2
    refine ⟨hI.touch h.1 hl ht, actions ++ [.edit l (.write 0 (s.read l.window))], ?_⟩
    rw [World.run_concat, World.act, if_pos (hlive.symm.subset hl)]
    refine ⟨?_, hlive⟩
    exact congrArg _ (ht.eq_write (hI.within h.1 hl))
  obtained := fun {live st} h size kind => by
    obtain ⟨actions, rfl, hlive⟩ := h.2
    rcases hI.obtained h.1 size kind with ⟨v, st', hrun, hreq, hnew, hspares⟩ | hrefused
    · refine .inl ⟨v, st', hrun, hreq, ⟨hnew, actions ++ [.obtain size kind], ?_⟩, hspares⟩
      rw [World.run_concat, World.act, hrun]
      exact ⟨rfl, hlive.cons _⟩
    · exact .inr hrefused
  givenBack := fun {l live st} h => by
    obtain ⟨actions, rfl, hlive⟩ := h.2
    obtain ⟨st', hrun, hnew, hspares⟩ := hI.givenBack h.1
    refine ⟨st', hrun, ⟨hnew, actions ++ [.giveBack l], ?_⟩, hspares⟩
    rw [World.run_concat, World.act, if_pos (hlive.symm.subset List.mem_cons_self), hrun]
    refine ⟨rfl, ?_⟩
    have herase := hlive.erase l
    rwa [List.erase_cons_head] at herase

end Allocator

/-- The sizes that do not depend on the image, each from one up to what addresses can tell apart. -/
structure Layout.Sized (layout : Layout) : Prop where
  heap : 1 ≤ layout.heapCells ∧ layout.heapCells ≤ Segment.maxCells
  stack : 1 ≤ layout.stackCells ∧ layout.stackCells ≤ Segment.maxCells
  registers : 1 ≤ layout.registerCount ∧ layout.registerCount ≤ Segment.maxCells

namespace Carver

variable {I : List Lease → Allocator × Store → Prop} {live : List Lease} {st : Allocator × Store}
  {layout : Layout} {image : Image} {g : Segments}

/-! ## The cells of a new process -/

/-- A process starts from its image and zeros. -/
structure Started (layout : Layout) (image : Image) (g : Segments) (s : Store) : Prop where
  lengths : g.windows.map Window.length =
    [max 1 image.instructions.length, max 1 image.globals.length, layout.heapCells,
      layout.stackCells, layout.registerCount]
  within : ∀ v ∈ g.windows, v.Within s
  apart : g.windows.Pairwise fun v v' => ∀ q i, v.Has q i → ¬ v'.Has q i
  code : ∀ i instruction, image.instructions[i]? = some instruction →
    ∃ c, s.get g.program i = .ok c ∧ c.instruction = instruction ∧ c.bits = instruction.toWord ∧
      c.object = none
  data : ∀ j value, image.globals[j]? = some value → s.get g.global j = .ok value.toCell
  /-- An empty table has one cell. -/
  empty : (image.instructions = [] → s.get g.program 0 = .ok Cell.zero) ∧
    (image.globals = [] → s.get g.global 0 = .ok Cell.zero)
  clean : ∀ v ∈ [g.heap, g.stack, g.registers], ∀ i < v.length, s.get v i = .ok Cell.zero

theorem get_of_read {s : Store} {v : Window} {cells : List Cell} {i : Nat} {c : Cell}
    (hv : v.Within s) (hread : s.read v = cells) (hi : cells[i]? = some c) :
    s.get v i = .ok c := by
  rw [Store.get_eq_read hv, hread, hi]

theorem getElem?_padded {n i : Nat} {cells : List Cell} {c : Cell} (h : cells[i]? = some c) :
    (padded n cells)[i]? = some c := by
  have hlt := (List.getElem?_eq_some_iff.1 h).1
  rw [padded, List.getElem?_append_left hlt, h]

/-- **The cells of a new process**, one by one. -/
theorem started (hhoused : Housed g st.2)
    (hread : g.windows.map st.2.read = contents layout image) : Started layout image g st.2 := by
  have hlengths : g.windows.map Window.length = (plan layout image).map Prod.fst := by
    rw [← map_length_contents, ← hread, List.map_map]
    exact List.map_congr_left fun v hv => (Store.length_read (hhoused.within v hv)).symm
  have hwithin := hhoused.within
  simp only [Segments.windows, List.mem_cons, List.not_mem_nil, or_false, forall_eq_or_imp,
    forall_eq] at hwithin
  obtain ⟨hprogram, hglobal, hheap, hstack, hregisters⟩ := hwithin
  simp only [Segments.windows, List.map_cons, List.map_nil, contents, List.cons.injEq,
    and_true] at hread
  obtain ⟨hcode, hdata, hzero₁, hzero₂, hzero₃⟩ := hread
  refine ⟨hlengths, hhoused.within, hhoused.apart, fun i instruction hi => ?_,
    fun j value hj => ?_, ⟨fun hnone => ?_, fun hnone => ?_⟩, fun v hv i hi => ?_⟩
  · have hcell : (image.instructions.map Cell.ofInstruction)[i]? =
        some (Cell.ofInstruction instruction) := by
      rw [List.getElem?_map, hi]
      rfl
    refine ⟨_, get_of_read hprogram hcode (getElem?_padded hcell), ?_, rfl, rfl⟩
    exact Instruction.ofWord_toWord instruction
  · have hcell : (image.globals.map Global.toCell)[j]? = some value.toCell := by
      rw [List.getElem?_map, hj]
      rfl
    exact get_of_read hglobal hdata (getElem?_padded hcell)
  · refine get_of_read hprogram hcode ?_
    simp [hnone, padded]
  · refine get_of_read hglobal hdata ?_
    simp [hnone, padded]
  · have hclean : v.Within st.2 ∧ ∃ n, st.2.read v = List.replicate n Cell.zero := by
      simp only [List.mem_cons, List.not_mem_nil, or_false] at hv
      rcases hv with rfl | rfl | rfl
      · exact ⟨hheap, _, hzero₁⟩
      · exact ⟨hstack, _, hzero₂⟩
      · exact ⟨hregisters, _, hzero₃⟩
    obtain ⟨hv, n, hzero⟩ := hclean
    have hn : n = v.length := by
      rw [← Store.length_read hv, hzero, List.length_replicate]
    refine get_of_read hv hzero ?_
    rw [List.getElem?_replicate, if_pos (hn ▸ hi)]

/-! ## Why a process is not created -/

theorem plan_lawful (hl : layout.Sized) (image : Image) :
    ∀ entry ∈ plan layout image, 1 ≤ entry.1 ∧ entry.2 ≠ .free := by
  have hheap := hl.heap
  have hstack := hl.stack
  have hregisters := hl.registers
  simp only [plan, List.mem_cons, List.not_mem_nil, or_false, forall_eq_or_imp, forall_eq, ne_eq,
    reduceCtorEq, not_false_eq_true, and_true]
  omega

/-- With a layout whose sizes can be addressed, only the tables of an image can be too large. -/
theorem tables_of_tooLarge (hl : layout.Sized) {entry : Nat × Kind}
    (hentry : entry ∈ plan layout image) (hlarge : Segment.maxCells < entry.1) :
    Segment.maxCells < image.instructions.length ∨ Segment.maxCells < image.globals.length := by
  have hheap := hl.heap
  have hstack := hl.stack
  have hregisters := hl.registers
  simp only [plan, List.mem_cons, List.not_mem_nil, or_false] at hentry
  simp only [Segment.maxCells] at hlarge hheap hstack hregisters ⊢
  rcases hentry with rfl | rfl | rfl | rfl | rfl <;> dsimp only at hlarge <;> omega

theorem create_refusal (hI : Supply I) {scarce : Prop} (hwant : RefusesForWant scarce I)
    (h : I live st) (hl : layout.Sized) {e : Fault} {st' : Allocator × Store}
    (hrun : (create layout image).run st = .error e st') :
    ∃ entry ∈ plan layout image, Refusal scarce entry.1 entry.2 e := by
  have hnone : I ([] ++ live) st := h
  exact carveAll_refused hI hwant hnone (plan_lawful hl image)
    (carveAll_error_of_create hI h hrun)

/-- Without its first window a process is not created. -/
theorem create_of_program_refused (hI : Supply I) (h : I live st) {e : Error}
    (hrefused : (carve (max 1 image.instructions.length) .program).run st = .error (.error e) st) :
    ∃ st', (create layout image).run st = .error (.error e) st' := by
  have hnone : I ([] ++ live) st := h
  have hcarve : ∃ st', (carveAll (plan layout image) []).run st = .error (.error e) st' ∧
      I live st' ∧ Spares live st.2 st'.2 := carveAll_of_refused hI hnone hrefused _
  obtain ⟨st', hrun, -⟩ := hcarve
  exact ⟨st', create_of_carveAll_error hrun⟩

/-- The same without its second window. -/
theorem create_of_global_refused (hI : Supply I) {v : Window} {st₁ : Allocator × Store}
    (hnew : I (⟨v, .program⟩ :: live) st₁)
    (hserved : (carve (max 1 image.instructions.length) .program).run st = .ok v st₁) {e : Error}
    (hrefused : (carve (max 1 image.globals.length) .global).run st₁ = .error (.error e) st₁) :
    ∃ st', (create layout image).run st = .error (.error e) st' := by
  have hheld : I ([⟨v, .program⟩] ++ live) st₁ := hnew
  obtain ⟨st', hrun, -⟩ := carveAll_of_refused hI hheld hrefused
    [(layout.heapCells, .heap), (layout.stackCells, .stack), (layout.registerCount, .context)]
  refine ⟨st', create_of_carveAll_error ?_⟩
  rw [plan, carveAll, run_bind_ok (attempt_run_ok hserved)]
  exact hrun

/-- **When a creation is refused as invalid**: one of the tables is too large, and the windows
before it could be had. -/
theorem invalid_iff (hI : Supply I) {scarce : Prop} (hwant : RefusesForWant scarce I)
    (h : I live st) (hl : layout.Sized) :
    (∃ misuse st', (create layout image).run st =
      .error (.error (.invalidArgument misuse)) st') ↔
      Segment.maxCells < image.instructions.length ∨
        (Segment.maxCells < image.globals.length ∧
          ¬ ∃ n st', (carve (max 1 image.instructions.length) .program).run st =
            .error (.error (.outOfMemory n)) st') := by
  have hprogram := carve_run hI h (max 1 image.instructions.length) .program
  constructor
  · intro hinvalid
    obtain ⟨misuse, st', hrun⟩ := hinvalid
    obtain ⟨entry, hentry, hrefusal⟩ := create_refusal hI hwant h hl hrun
    have hlarge : Segment.maxCells < entry.1 := by
      cases hrefusal with
      | tooLarge hlarge => exact hlarge
    cases tables_of_tooLarge hl hentry hlarge with
    | inl hcode => exact .inl hcode
    | inr hdata =>
      refine .inr ⟨hdata, fun hfull => ?_⟩
      -- without room for the first window that would have been the reason
      obtain ⟨n, st₁, hcarve⟩ := hfull
      rcases hprogram with ⟨v, st₂, hserved, -⟩ | ⟨e, hrefused⟩
      · cases hserved.symm.trans hcarve
      · cases hrefused.symm.trans hcarve
        obtain ⟨st₂, hcreate⟩ := create_of_program_refused hI h hrefused
        cases hcreate.symm.trans hrun
  · intro hlarge
    by_cases hcode : Segment.maxCells < max 1 image.instructions.length
    · obtain ⟨st', hcreate⟩ := create_of_program_refused hI h (carve_tooLarge hcode .program)
      exact ⟨_, st', hcreate⟩
    · rcases hlarge with hlarge | ⟨hdata, hroom⟩
      · exact absurd (Nat.lt_of_lt_of_le hlarge (Nat.le_max_right ..)) hcode
      · have hlarge := Nat.lt_of_lt_of_le hdata (Nat.le_max_right 1 image.globals.length)
        rcases hprogram with ⟨v, st₁, hserved, -, -, hnew, -⟩ | ⟨e, hrefused⟩
        · obtain ⟨st', hcreate⟩ :=
            create_of_global_refused hI hnew hserved (carve_tooLarge hlarge .global)
          exact ⟨_, st', hcreate⟩
        · have hrefusal := carve_refused hwant h (Nat.le_max_left ..) (by decide) hrefused
          cases hrefusal with
          | tooLarge hcode' => exact absurd hcode' hcode
          | outOfMemory _ _ => exact absurd ⟨_, _, hrefused⟩ hroom

end Carver

/-! ## In every world -/

/-- What comes of the creation of a process. -/
structure Allocator.World.Creates (w : World) (layout : Layout) (image : Image) : Prop where
  created : ∀ g st, (Carver.create layout image).run w.state = .ok g st →
    Carver.Started layout image g st.2 ∧
    (∀ v ∈ g.windows, ∀ l ∈ w.live, ∀ q i, v.Has q i → ¬ l.window.Has q i) ∧
    ∃ w' : World, w'.Reached ∧ w'.state = st ∧ w'.live.Perm (g.leases ++ w.live)
  refused : ∀ e st, (Carver.create layout image).run w.state = .error e st →
    ((∃ misuse, e = .error (.invalidArgument misuse)) ∨
      ∃ n, e = .error (.outOfMemory n) ∧ w.allocator ≠ .separate) ∧
    ∃ w' : World, w'.Reached ∧ w'.state = st ∧ w'.live.Perm w.live
  /-- Only a table can be too large, and the global table comes second. -/
  invalid : (∃ misuse st, (Carver.create layout image).run w.state =
      .error (.error (.invalidArgument misuse)) st) ↔
    Segment.maxCells < image.instructions.length ∨
      (Segment.maxCells < image.globals.length ∧
        ¬ ∃ n st, (Carver.carve (max 1 image.instructions.length) .program).run w.state =
          .error (.error (.outOfMemory n)) st)

/-- **A process starts from its image and nothing else.** Take any world that clients of a shared
pool, or of an allocator that makes a pool for every request, can come to, with anything left in the
cells that were given back; processes that were created and released are such clients. If a process
is created there, its windows have the lengths that were asked for, its instructions and globals are
those of its image, one by one, every other cell has zero bits and no object, and no cell is shared
with another of its windows or with a window that is held. If it is not, then because a table is too
large, or for want of memory, which pools of one's own never are. -/
theorem process_starts_from_image {w : World} (h : w.Reached) {layout : Layout}
    (hl : layout.Sized) (image : Image) : w.Creates layout image := by
  obtain ⟨I, scarce, hI, hwant, hlive, hscarce⟩ := h.supplied
  have hcreate := Carver.create_run (supply_followed hI w)
    ⟨hlive, [], rfl, List.Perm.refl w.live⟩ layout image
  refine ⟨fun g st hrun => ?_, fun e st hrun => ⟨?_, ?_⟩, Carver.invalid_iff hI hwant hlive hl⟩
  · rcases hcreate with ⟨g', st', hrun', hread, ⟨hnew, actions, hstate, hheld⟩, -⟩ |
        ⟨e, st', hrun', -⟩
    · obtain ⟨rfl, rfl⟩ := EStateM.Result.ok.inj (hrun.symm.trans hrun')
      refine ⟨Carver.started (hI.housed hnew) hread, fun v hv l hl => ?_,
        w.run actions, h.run actions, hstate, hheld⟩
      rw [← Segments.map_window_leases] at hv
      obtain ⟨l', hl', rfl⟩ := List.mem_map.1 hv
      exact (List.pairwise_append.1 (hI.apart hnew)).2.2 l' hl' l hl
    · cases hrun.symm.trans hrun'
  · obtain ⟨entry, -, hrefusal⟩ := Carver.create_refusal hI hwant hlive hl hrun
    cases hrefusal with
    | tooLarge _ => exact .inl ⟨_, rfl⟩
    | outOfMemory _ hshort => exact .inr ⟨_, rfl, hscarce hshort⟩
  · rcases hcreate with ⟨g, st', hrun', -⟩ | ⟨e', st', hrun', ⟨-, actions, hstate, hheld⟩, -⟩
    · cases hrun.symm.trans hrun'
    · obtain ⟨-, rfl⟩ := EStateM.Result.error.inj (hrun.symm.trans hrun')
      exact ⟨w.run actions, h.run actions, hstate, hheld⟩

/-- Forty-seven cells, of which two windows were lent. Through the first one an object and a number
were written, and it was given back: both are still there when a process is created, and its run is
the only one that is free. -/
theorem process_starts_from_image_forty_seven : ∃ (w : World) (layout : Layout) (image : Image)
    (g : Segments) (st : Allocator × Store), w.Reached ∧ layout.Sized ∧
    w.arena.runs.map (List.map Run.extent) = some [⟨0, 38, .free⟩, ⟨40, 5, .stack⟩] ∧
    w.store.peek 0 1 = Cell.ofToken 9 ∧ w.store.peek 0 20 = ⟨7, none⟩ ∧
    (Carver.create layout image).run w.state = .ok g st ∧ w.Creates layout image := by
  let layout : Layout := ⟨3, 4, 2⟩
  let image : Image := ⟨[.make .movl 0 0 0 7, .make .halt 0 0 0 0], []⟩
  let store : Store := ⟨#[Array.replicate 47 Cell.zero]⟩
  let l : Lease := ⟨⟨0, 1, 38⟩, .heap⟩
  let actions : List Action := [.obtain 304 .heap, .obtain 40 .stack,
    .edit l (.set 0 (Cell.ofToken 9)), .edit l (.set 19 ⟨7, none⟩), .giveBack l]
  obtain ⟨w, hreach, hruns, hobject, hnumber, g, st, hcreate, -⟩ :=
    World.exists_reachable 0 store actions
      (P := fun w => w.arena.runs.map (List.map Run.extent) =
          some [⟨0, 38, .free⟩, ⟨40, 5, .stack⟩] ∧
        w.store.peek 0 1 = Cell.ofToken 9 ∧ w.store.peek 0 20 = ⟨7, none⟩ ∧
        ∃ g st, (Carver.create layout image).run w.state = .ok g st ∧ True)
      (by decide) (by decide +kernel)
  have hreached : w.Reached := .inl ⟨0, hreach⟩
  have hl : layout.Sized := ⟨by decide, by decide, by decide⟩
  exact ⟨w, layout, image, g, st, hreached, hl, hruns, hobject, hnumber, hcreate,
    process_starts_from_image hreached hl image⟩

end CellMachine
