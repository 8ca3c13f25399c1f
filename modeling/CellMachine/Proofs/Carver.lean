import CellMachine.Carver
import CellMachine.Proofs.Allocator.Leases

/-!
# Carving and releasing

What becomes of the leases when segments are carved and given back, for any `Supply` of windows:

* `create_run`: a process gets five windows whose cells are those of its image and zeros, or its
  creation is refused and nothing is leased that was not before;
* `carveAll_refused`: it is refused for the reason one of its windows is, which is too large or
  finds no room;
* `release_run`: its windows can be given back.

In either case everybody else's windows keep their cells.
-/

namespace CellMachine

open Allocator

/-- The five windows of a process as leases, in the order they are carved. -/
def Segments.leases (g : Segments) : List Lease :=
  [⟨g.program, .program⟩, ⟨g.global, .global⟩, ⟨g.heap, .heap⟩, ⟨g.stack, .stack⟩,
    ⟨g.registers, .context⟩]

@[simp] theorem Segments.map_window_leases (g : Segments) :
    g.leases.map Lease.window = g.windows :=
  rfl

namespace Carver

/-- Cells followed by zeros, `n` together. -/
def padded (n : Nat) (cells : List Cell) : List Cell :=
  cells ++ List.replicate (n - cells.length) Cell.zero

/-- The cells of a new process, window by window. -/
def contents (layout : Layout) (image : Image) : List (List Cell) :=
  [padded (max 1 image.instructions.length) (image.instructions.map Cell.ofInstruction),
    padded (max 1 image.globals.length) (image.globals.map Global.toCell),
    List.replicate layout.heapCells Cell.zero,
    List.replicate layout.stackCells Cell.zero,
    List.replicate layout.registerCount Cell.zero]

section
variable {α : Type} {work : AllocM α} {st st' : Allocator × Store}

theorem attempt_run_ok {a : α} (h : work.run st = .ok a st') :
    (attempt work).run st = .ok (.ok a) st' := by
  have h' : work st = .ok a st' := h
  simp only [EStateM.run, attempt, h']

theorem attempt_run_error {e : Error} (h : work.run st = .error (.error e) st') :
    (attempt work).run st = .ok (.error e) st' := by
  have h' : work st = .error (.error e) st' := h
  simp only [EStateM.run, attempt, h']

end

theorem requestedCells_mul {cells n : Nat} {kind : Kind}
    (h : requestedCells ((cells * 8 : Nat) : Int) kind = .ok n) : n = cells := by
  unfold requestedCells at h
  split at h
  · cases h
  · split at h
    · cases h
    · have hn := Except.ok.inj h
      simp only [cellsForBytes, Int.toNat_natCast] at hn
      omega

theorem requestedCells_of_pos {cells : Nat} {kind : Kind} (hpos : 1 ≤ cells)
    (hkind : kind ≠ .free) : requestedCells ((cells * 8 : Nat) : Int) kind = .ok cells := by
  have hcells : cellsForBytes (((cells * 8 : Nat) : Int)).toNat = cells := by
    simp only [cellsForBytes, Int.toNat_natCast]
    omega
  rw [requestedCells_eq_ok (by omega) hkind, hcells]

/-- A window of so many cells can be asked for. -/
def Admitted (cells : Nat) (kind : Kind) : Prop :=
  cells ≤ Segment.maxCells ∧ ∃ n, requestedCells ((cells * 8 : Nat) : Int) kind = .ok n

theorem Admitted.requested {cells : Nat} {kind : Kind} (h : Admitted cells kind) :
    requestedCells ((cells * 8 : Nat) : Int) kind = .ok cells := by
  obtain ⟨-, n, hn⟩ := h
  rw [hn, requestedCells_mul hn]

section
variable {I : List Lease → Allocator × Store → Prop} {live : List Lease} {st : Allocator × Store}

/-! ## One window -/

/-- **A window is carved clean**, or nothing happens. -/
theorem carve_run (hI : Supply I) (h : I live st) (cells : Nat) (kind : Kind) :
    (∃ w st', (carve cells kind).run st = .ok w st' ∧ w.length = cells ∧
      st'.2.read w = List.replicate cells Cell.zero ∧ I (⟨w, kind⟩ :: live) st' ∧
      Spares live st.2 st'.2) ∨
    ∃ e, (carve cells kind).run st = .error (.error e) st := by
  unfold carve
  by_cases hlarge : cells > Segment.maxCells
  · exact .inr ⟨_, by rw [if_pos hlarge]; rfl⟩
  · rw [if_neg hlarge]
    rcases hI.obtained h ((cells * 8 : Nat) : Int) kind with
      ⟨w, st', hrun, hreq, hnew, hspares⟩ | ⟨e, hrun⟩
    · have hw := hI.within hnew List.mem_cons_self
      have hlength := requestedCells_mul hreq
      have ht := Store.touches_clear st'.2 w
      refine .inl ⟨w, (st'.1, st'.2.clear w), run_bind_ok hrun _, hlength, ?_,
        hI.touch hnew List.mem_cons_self ht, hspares.trans (hI.spares_touch hnew ht)⟩
      rw [← hlength]
      exact Store.read_clear hw
    · exact .inr ⟨e, run_bind_error hrun _⟩

/-- **A clean window is filled from the front**, and stays zero behind. -/
theorem fill_run (hI : Supply I) {l : Lease} {cells : List Cell} (h : I (l :: live) st)
    (hle : cells.length ≤ l.window.length)
    (hzero : st.2.read l.window = List.replicate l.window.length Cell.zero) :
    ∃ st', (fill l.window cells).run st = .ok () st' ∧
      st'.2.read l.window = padded l.window.length cells ∧ I (l :: live) st' ∧
      Spares live st.2 st'.2 := by
  have ht : Store.Touches l.window st.2 (st.2.overwritten l.window.pool l.window.offset cells) :=
    Store.touches_overwritten (by omega : 0 + cells.length ≤ l.window.length)
  refine ⟨(st.1, st.2.overwritten l.window.pool l.window.offset cells), ?_, ?_,
    hI.touch h List.mem_cons_self ht, hI.spares_touch h ht⟩
  · unfold fill
    rw [if_neg (by omega)]
    rfl
  · rw [Store.read_overwritten (hI.within h List.mem_cons_self) hle, hzero, List.drop_replicate,
      padded]

/-- Filling a second window does not disturb the first. -/
theorem fill_two_run (hI : Supply I) {l m : Lease} {first second : List Cell}
    (h : I (l :: m :: live) st) (hfirst : first.length ≤ l.window.length)
    (hsecond : second.length ≤ m.window.length)
    (hl : st.2.read l.window = List.replicate l.window.length Cell.zero)
    (hm : st.2.read m.window = List.replicate m.window.length Cell.zero) :
    ∃ st₁ st₂, (fill l.window first).run st = .ok () st₁ ∧
      (fill m.window second).run st₁ = .ok () st₂ ∧
      st₂.2.read l.window = padded l.window.length first ∧
      st₂.2.read m.window = padded m.window.length second ∧ I (l :: m :: live) st₂ ∧
      Spares live st.2 st₂.2 := by
  obtain ⟨st₁, hrun₁, hread₁, hkept₁, hspares₁⟩ := fill_run hI h hfirst hl
  have hswapped : I (m :: l :: live) st₁ := hI.perm (List.Perm.swap ..) hkept₁
  have hclean : st₁.2.read m.window = List.replicate m.window.length Cell.zero := by
    rw [(hspares₁ m List.mem_cons_self).read_eq, hm]
  obtain ⟨st₂, hrun₂, hread₂, hkept₂, hspares₂⟩ := fill_run hI hswapped hsecond hclean
  refine ⟨st₁, st₂, hrun₁, hrun₂, ?_, hread₂, hI.perm (List.Perm.swap ..) hkept₂, ?_⟩
  · rw [(hspares₂ l List.mem_cons_self).read_eq, hread₁]
  · exact (hspares₁.mono (List.subset_cons_self ..)).trans
      (hspares₂.mono (List.subset_cons_self ..))

/-! ## Several windows -/

theorem giveBackAll_cons {w : Window} {ws : List Window} {st₁ st₂ : Allocator × Store}
    (hback : (giveBack w).run st = .ok () st₁) (hrest : (giveBackAll ws).run st₁ = .ok none st₂) :
    (giveBackAll (w :: ws)).run st = .ok none st₂ := by
  rw [giveBackAll, run_bind_ok (attempt_run_ok hback), run_bind_ok hrest]
  rfl

/-- **Leased windows can be given back**, whatever else is leased. -/
theorem giveBackAll_run (hI : Supply I) {held : List Lease} (h : I (held ++ live) st) :
    ∃ st', (giveBackAll (held.map Lease.window)).run st = .ok none st' ∧ I live st' ∧
      Spares live st.2 st'.2 := by
  induction held generalizing st with
  | nil => exact ⟨st, rfl, h, .refl live st.2⟩
  | cons l rest ih =>
    obtain ⟨st₁, hrun, hnext, hspares⟩ := hI.givenBack h
    obtain ⟨st₂, hrest, hlast, hspares'⟩ := ih hnext
    refine ⟨st₂, giveBackAll_cons hrun hrest, hlast, ?_⟩
    exact (hspares.mono (List.subset_append_right ..)).trans hspares'

theorem held_concat (hI : Supply I) {l : Lease} {held : List Lease}
    (h : I (l :: (held ++ live)) st) : I ((held ++ [l]) ++ live) st := by
  refine hI.perm ?_ h
  rw [List.append_assoc, List.singleton_append]
  exact List.perm_middle.symm

/-- When one window cannot be carved, the windows held are given back and the reason is reported. -/
theorem carveAll_of_refused (hI : Supply I) {held : List Lease} (h : I (held ++ live) st)
    {cells : Nat} {kind : Kind} {e : Error}
    (hrun : (carve cells kind).run st = .error (.error e) st) (rest : List (Nat × Kind)) :
    ∃ st', (carveAll ((cells, kind) :: rest) (held.map Lease.window)).run st =
        .error (.error e) st' ∧ I live st' ∧ Spares live st.2 st'.2 := by
  obtain ⟨st', hback, hlast, hspares⟩ := giveBackAll_run hI h
  refine ⟨st', ?_, hlast, hspares⟩
  rw [carveAll, run_bind_ok (attempt_run_error hrun)]
  dsimp only
  rw [run_bind_ok hback]
  rfl

/-- **All windows of a plan are carved, or none is.** -/
theorem carveAll_run (hI : Supply I) {held : List Lease} (h : I (held ++ live) st)
    (plan : List (Nat × Kind)) :
    (∃ new st', (carveAll plan (held.map Lease.window)).run st =
        .ok ((held ++ new).map Lease.window) st' ∧
      new.map (fun l => (l.window.length, l.kind)) = plan ∧
      (∀ l ∈ new, st'.2.read l.window = List.replicate l.window.length Cell.zero) ∧
      I (held ++ new ++ live) st' ∧ Spares (held ++ live) st.2 st'.2) ∨
    ∃ e st', (carveAll plan (held.map Lease.window)).run st = .error (.error e) st' ∧
      I live st' ∧ Spares live st.2 st'.2 := by
  induction plan generalizing held st with
  | nil =>
    refine .inl ⟨[], st, ?_, rfl, nofun, by simpa using h, .refl _ _⟩
    rw [List.append_nil]
    rfl
  | cons entry rest ih =>
    obtain ⟨cells, kind⟩ := entry
    rw [carveAll]
    rcases carve_run hI h cells kind with ⟨w, st₁, hrun, hlength, hzero, hnew, hspares⟩ | ⟨e, hrun⟩
    · -- the window joins those that are held
      have hheld := held_concat hI hnew
      rw [run_bind_ok (attempt_run_ok hrun)]
      have hmap : held.map Lease.window ++ [w] =
          (held ++ [(⟨w, kind⟩ : Lease)]).map Lease.window := by
        rw [List.map_append]
        rfl
      dsimp only
      rw [hmap]
      rcases ih hheld with ⟨new, st₂, hrest, hplan, hzeros, hlast, hspares'⟩ |
          ⟨e, st₂, hrest, hlast, hspares'⟩
      · refine .inl ⟨⟨w, kind⟩ :: new, st₂, ?_, ?_, ?_, ?_, ?_⟩
        · rw [hrest, List.append_assoc, List.singleton_append]
        · rw [List.map_cons, hplan, hlength]
        · intro l hl
          rcases List.mem_cons.1 hl with rfl | hl
          · rw [(hspares' _ (by simp)).read_eq, hzero, hlength]
          · exact hzeros l hl
        · rw [List.append_assoc held, List.singleton_append] at hlast
          exact hlast
        · exact hspares.trans (hspares'.mono fun l hl => by
            rcases List.mem_append.1 hl with hl | hl <;> simp [hl])
      · refine .inr ⟨e, st₂, hrest, hlast, ?_⟩
        exact (hspares.mono (List.subset_append_right ..)).trans hspares'
    · obtain ⟨st₁, hrefused, hlast, hspares⟩ := carveAll_of_refused hI h hrun rest
      rw [carveAll] at hrefused
      exact .inr ⟨e, st₁, hrefused, hlast, hspares⟩

/-! ## What was carved could be asked for -/

theorem admitted_of_carve (hI : Supply I) (h : I live st) {cells : Nat} {kind : Kind} {w : Window}
    {st' : Allocator × Store} (hrun : (carve cells kind).run st = .ok w st') :
    Admitted cells kind := by
  unfold carve at hrun
  by_cases hlarge : cells > Segment.maxCells
  · rw [if_pos hlarge] at hrun
    cases hrun
  · rw [if_neg hlarge] at hrun
    refine ⟨Nat.le_of_not_lt hlarge, ?_⟩
    rcases hI.obtained h ((cells * 8 : Nat) : Int) kind with ⟨w', st₁, -, hreq, -⟩ | ⟨e, hobtain⟩
    · exact ⟨_, hreq⟩
    · have herror := run_bind_error hobtain fun w => do wipe w; pure w
      rw [hrun] at herror
      cases herror

theorem admitted_of_carveAll (hI : Supply I) {held : List Lease} (h : I (held ++ live) st)
    {plan : List (Nat × Kind)} {ws : List Window} {st' : Allocator × Store}
    (hrun : (carveAll plan (held.map Lease.window)).run st = .ok ws st') :
    ∀ entry ∈ plan, Admitted entry.1 entry.2 := by
  induction plan generalizing held st with
  | nil => exact nofun
  | cons entry rest ih =>
    obtain ⟨cells, kind⟩ := entry
    rw [carveAll] at hrun
    rcases carve_run hI h cells kind with ⟨w, st₁, hcarve, -, -, hnew, -⟩ | ⟨e, hcarve⟩
    · rw [run_bind_ok (attempt_run_ok hcarve)] at hrun
      have hrest := ih (held_concat hI hnew) (by rw [List.map_append]; exact hrun)
      intro entry hentry
      rcases List.mem_cons.1 hentry with rfl | hentry
      · exact admitted_of_carve hI h hcarve
      · exact hrest entry hentry
    · obtain ⟨st₁, hrefused, -⟩ := carveAll_of_refused hI h hcarve rest
      rw [carveAll] at hrefused
      cases hrefused.symm.trans hrun

/-! ## Why a window is not carved -/

/-- The reasons for which a window of `cells` cells is not carved. -/
inductive Refusal (scarce : Prop) (cells : Nat) (kind : Kind) : Fault → Prop
  /-- Its cells could not all be addressed. -/
  | tooLarge : Segment.maxCells < cells →
      Refusal scarce cells kind (.error (.invalidArgument (.segmentTooLarge kind.name cells)))
  /-- There is no room for it. -/
  | outOfMemory : cells ≤ Segment.maxCells → scarce →
      Refusal scarce cells kind (.error (.outOfMemory cells))

theorem carve_tooLarge {cells : Nat} (h : Segment.maxCells < cells) (kind : Kind) :
    (carve cells kind).run st =
      .error (.error (.invalidArgument (.segmentTooLarge kind.name cells))) st := by
  unfold carve
  rw [if_pos h]
  rfl

theorem carve_refused {scarce : Prop} (hwant : RefusesForWant scarce I) (h : I live st)
    {cells : Nat} {kind : Kind} (hpos : 1 ≤ cells) (hkind : kind ≠ .free) {e : Fault}
    {st' : Allocator × Store} (hrun : (carve cells kind).run st = .error e st') :
    Refusal scarce cells kind e := by
  by_cases hlarge : Segment.maxCells < cells
  · rw [carve_tooLarge hlarge] at hrun
    cases hrun
    exact .tooLarge hlarge
  · unfold carve at hrun
    rw [if_neg hlarge] at hrun
    have hreq := requestedCells_of_pos hpos hkind
    match hobtain : (Allocator.obtain ((cells * 8 : Nat) : Int) kind).run st with
    | .ok w st₁ =>
      rw [run_bind_ok hobtain] at hrun
      cases hrun
    | .error e₁ st₁ =>
      rw [run_bind_error hobtain] at hrun
      cases hrun
      obtain ⟨rfl, hscarce⟩ := hwant live st h _ _ _ _ _ hreq hobtain
      exact .outOfMemory (Nat.le_of_not_lt hlarge) hscarce

/-- **Windows are refused for the reason one of them is**: it is too large, or there is no room. -/
theorem carveAll_refused (hI : Supply I) {scarce : Prop} (hwant : RefusesForWant scarce I)
    {held : List Lease} (h : I (held ++ live) st) {plan : List (Nat × Kind)}
    (hplan : ∀ entry ∈ plan, 1 ≤ entry.1 ∧ entry.2 ≠ .free) {e : Fault} {st' : Allocator × Store}
    (hrun : (carveAll plan (held.map Lease.window)).run st = .error e st') :
    ∃ entry ∈ plan, Refusal scarce entry.1 entry.2 e := by
  induction plan generalizing held st with
  | nil => cases hrun
  | cons entry rest ih =>
    obtain ⟨cells, kind⟩ := entry
    obtain ⟨hpos, hkind⟩ := hplan _ List.mem_cons_self
    rcases carve_run hI h cells kind with ⟨w, st₁, hcarve, -, -, hnew, -⟩ | ⟨reason, hcarve⟩
    · rw [carveAll, run_bind_ok (attempt_run_ok hcarve)] at hrun
      obtain ⟨entry, hentry, hrefusal⟩ := ih (held_concat hI hnew)
        (fun entry hentry => hplan entry (List.mem_cons_of_mem _ hentry))
        (by rw [List.map_append]; exact hrun)
      exact ⟨entry, List.mem_cons_of_mem _ hentry, hrefusal⟩
    · obtain ⟨st₁, hrefused, -⟩ := carveAll_of_refused hI h hcarve rest
      obtain ⟨rfl, -⟩ := EStateM.Result.error.inj (hrefused.symm.trans hrun)
      exact ⟨_, List.mem_cons_self, carve_refused hwant h hpos hkind hcarve⟩

/-! ## A process -/

theorem exists_segments {layout : Layout} {image : Image} {new : List Lease}
    (h : new.map (fun l => (l.window.length, l.kind)) = plan layout image) :
    ∃ g : Segments, new = g.leases ∧ g.program.length = max 1 image.instructions.length ∧
      g.global.length = max 1 image.globals.length ∧ g.heap.length = layout.heapCells ∧
      g.stack.length = layout.stackCells ∧ g.registers.length = layout.registerCount := by
  match new with
  | [a, b, c, d, e] =>
    simp only [plan, List.map_cons, List.map_nil, List.cons.injEq, Prod.mk.injEq, and_true] at h
    obtain ⟨⟨ha, ha'⟩, ⟨hb, hb'⟩, ⟨hc, hc'⟩, ⟨hd, hd'⟩, he, he'⟩ := h
    refine ⟨⟨⟨a.window, b.window, c.window, d.window⟩, e.window⟩, ?_, ha, hb, hc, hd, he⟩
    simp only [Segments.leases, ← ha', ← hb', ← hc', ← hd', ← he']
  | [] | [_] | [_, _] | [_, _, _] | [_, _, _, _] | _ :: _ :: _ :: _ :: _ :: _ :: _ =>
    simp [plan] at h

theorem image_fits {image : Image} {g : Segments}
    (hprogram : g.program.length = max 1 image.instructions.length)
    (hglobal : g.global.length = max 1 image.globals.length) :
    (image.instructions.map Cell.ofInstruction).length ≤ g.program.length ∧
      (image.globals.map Global.toCell).length ≤ g.global.length := by
  rw [List.length_map, List.length_map, hprogram, hglobal]
  exact ⟨Nat.le_max_right .., Nat.le_max_right ..⟩

theorem create_of_fills {layout : Layout} {image : Image} {g : Segments}
    {st₁ st₂ st₃ : Allocator × Store}
    (hcarve : (carveAll (plan layout image) []).run st = .ok g.windows st₁)
    (hcode : (fill g.program (image.instructions.map Cell.ofInstruction)).run st₁ = .ok () st₂)
    (hdata : (fill g.global (image.globals.map Global.toCell)).run st₂ = .ok () st₃) :
    (create layout image).run st = .ok g st₃ := by
  have hcarve' : (carveAll (plan layout image) []).run st =
      .ok [g.program, g.global, g.heap, g.stack, g.registers] st₁ := hcarve
  unfold create
  rw [run_bind_ok hcarve']
  dsimp only
  rw [run_bind_ok hcode, run_bind_ok hdata]
  rfl

/-- Once all windows are carved, the process is created: its image is written into the first two. -/
theorem create_carved (hI : Supply I) {layout : Layout} {image : Image} {new : List Lease}
    {st₁ : Allocator × Store}
    (hrun : (carveAll (plan layout image) []).run st = .ok (new.map Lease.window) st₁)
    (hplan : new.map (fun l => (l.window.length, l.kind)) = plan layout image)
    (hzeros : ∀ l ∈ new, st₁.2.read l.window = List.replicate l.window.length Cell.zero)
    (hnew : I (new ++ live) st₁) :
    ∃ g st', (create layout image).run st = .ok g st' ∧
      g.windows.map st'.2.read = contents layout image ∧ I (g.leases ++ live) st' ∧
      Spares live st₁.2 st'.2 := by
  obtain ⟨g, rfl, hprogram, hglobal, hheap, hstack, hregisters⟩ := exists_segments hplan
  obtain ⟨hcode, hdata⟩ := image_fits hprogram hglobal
  have hclean : ∀ l ∈ g.leases,
      st₁.2.read l.window = List.replicate l.window.length Cell.zero := hzeros
  obtain ⟨st₂, st₃, hfill₁, hfill₂, hread₁, hread₂, hfilled, hspares⟩ :=
    fill_two_run hI hnew hcode hdata (hclean _ (by simp [Segments.leases]))
      (hclean _ (by simp [Segments.leases]))
  -- heap, stack and registers stay as they were carved
  have hrest : ∀ l ∈ [(⟨g.heap, .heap⟩ : Lease), ⟨g.stack, .stack⟩, ⟨g.registers, .context⟩],
      st₃.2.read l.window = List.replicate l.window.length Cell.zero := by
    intro l hl
    rw [(hspares l (List.mem_append_left live hl)).read_eq]
    exact hclean l (List.mem_cons_of_mem _ (List.mem_cons_of_mem _ hl))
  simp only [List.mem_cons, List.not_mem_nil, or_false, forall_eq_or_imp, forall_eq] at hrest
  refine ⟨g, st₃, create_of_fills hrun hfill₁ hfill₂, ?_, hfilled, ?_⟩
  · simp only [Segments.windows, List.map_cons, List.map_nil, contents]
    rw [hread₁, hread₂, hrest.1, hrest.2.1, hrest.2.2, hprogram, hglobal, hheap, hstack,
      hregisters]
  · exact hspares.mono (List.subset_append_right ..)

theorem create_of_carveAll_error {layout : Layout} {image : Image} {e : Fault}
    {st' : Allocator × Store}
    (h : (carveAll (plan layout image) []).run st = .error e st') :
    (create layout image).run st = .error e st' := by
  unfold create
  rw [run_bind_error h]

/-- A process is not created because its windows are not carved: once they are, nothing fails. -/
theorem carveAll_error_of_create (hI : Supply I) (h : I live st) {layout : Layout} {image : Image}
    {e : Fault} {st' : Allocator × Store} (hrun : (create layout image).run st = .error e st') :
    (carveAll (plan layout image) []).run st = .error e st' := by
  have hnone : I ([] ++ live) st := h
  rcases carveAll_run hI hnone (plan layout image) with
    ⟨new, st₁, hcarved, hplan, hzeros, hnew, -⟩ | ⟨reason, st₁, hrefused, -⟩
  · obtain ⟨g, st₂, hcreate, -⟩ := create_carved hI hcarved hplan hzeros hnew
    cases hcreate.symm.trans hrun
  · cases (create_of_carveAll_error hrefused).symm.trans hrun
    exact hrefused

theorem admitted_of_create (hI : Supply I) (h : I live st) {layout : Layout} {image : Image}
    {g : Segments} {st' : Allocator × Store} (hrun : (create layout image).run st = .ok g st') :
    ∀ entry ∈ plan layout image, Admitted entry.1 entry.2 := by
  have hnone : I ([] ++ live) st := h
  rcases carveAll_run hI hnone (plan layout image) with ⟨new, st₁, hcarved, -⟩ |
      ⟨e, st₁, hrefused, -⟩
  · exact admitted_of_carveAll hI hnone hcarved
  · rw [create_of_carveAll_error hrefused] at hrun
    cases hrun

/-- **A process starts from its image and nothing else**, or it is not created and leaves nothing
behind. -/
theorem create_run (hI : Supply I) (h : I live st) (layout : Layout) (image : Image) :
    (∃ g st', (create layout image).run st = .ok g st' ∧
      g.windows.map st'.2.read = contents layout image ∧ I (g.leases ++ live) st' ∧
      Spares live st.2 st'.2) ∨
    ∃ e st', (create layout image).run st = .error (.error e) st' ∧ I live st' ∧
      Spares live st.2 st'.2 := by
  have hnone : I ([] ++ live) st := h
  rcases carveAll_run hI hnone (plan layout image) with
    ⟨new, st₁, hrun, hplan, hzeros, hnew, hspares⟩ | ⟨e, st₁, hrun, hlast, hspares⟩
  · obtain ⟨g, st₂, hcreate, hread, hfilled, hspares'⟩ :=
      create_carved hI hrun hplan hzeros hnew
    exact .inl ⟨g, st₂, hcreate, hread, hfilled, Spares.trans hspares hspares'⟩
  · exact .inr ⟨e, st₁, create_of_carveAll_error hrun, hlast, hspares⟩

theorem length_padded {n : Nat} {cells : List Cell} (h : cells.length ≤ n) :
    (padded n cells).length = n := by
  rw [padded, List.length_append, List.length_replicate]
  omega

theorem map_length_contents (layout : Layout) (image : Image) :
    (contents layout image).map List.length = (plan layout image).map Prod.fst := by
  simp only [contents, plan, List.map_cons, List.map_nil, List.length_replicate]
  rw [length_padded (by rw [List.length_map]; exact Nat.le_max_right ..),
    length_padded (by rw [List.length_map]; exact Nat.le_max_right ..)]

/-- **A process gets no window that is too long for its addresses.** -/
theorem length_le_of_create (hI : Supply I) (h : I live st) {layout : Layout} {image : Image}
    {g : Segments} {st' : Allocator × Store} (hrun : (create layout image).run st = .ok g st') :
    ∀ v ∈ g.windows, v.length ≤ Segment.maxCells := by
  have hadmitted := admitted_of_create hI h hrun
  rcases create_run hI h layout image with ⟨g', st₁, hrun', hread, hnew, -⟩ | ⟨e, st₁, hrefused, -⟩
  · obtain ⟨rfl, rfl⟩ := EStateM.Result.ok.inj (hrun.symm.trans hrun')
    intro v hv
    have hlength : (st'.2.read v).length ∈ (contents layout image).map List.length := by
      rw [← hread]
      exact List.mem_map_of_mem (List.mem_map_of_mem hv)
    rw [← Segments.map_window_leases] at hv
    obtain ⟨l, hl, rfl⟩ := List.mem_map.1 hv
    have hwithin := hI.within hnew (List.mem_append_left _ hl)
    rw [Store.length_read hwithin, map_length_contents] at hlength
    obtain ⟨entry, hentry, hcells⟩ := List.mem_map.1 hlength
    rw [← hcells]
    exact (hadmitted entry hentry).1
  · rw [hrun] at hrefused
    cases hrefused

/-- **The segments of a process can be given back.** -/
theorem release_run (hI : Supply I) {g : Segments} (h : I (g.leases ++ live) st) :
    ∃ st', (release g).run st = .ok () st' ∧ I live st' ∧ Spares live st.2 st'.2 := by
  obtain ⟨st', hrun, hlast, hspares⟩ := giveBackAll_run hI h
  refine ⟨st', ?_, hlast, hspares⟩
  rw [Segments.map_window_leases] at hrun
  unfold release
  rw [run_bind_ok hrun]
  rfl

end

end Carver

end CellMachine
