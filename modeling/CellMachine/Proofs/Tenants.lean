import CellMachine.Proofs.Allocator.Clients
import CellMachine.Proofs.Carver
import CellMachine.Proofs.Processor

/-!
# Processes side by side

Several processes share one pool. A `House` holds them, in the order they were created; processes
are created and released and execute instructions in any order (`Event`).

* `isolated_from_neighbours`: what a process comes to after `k` instructions is what it comes to
  when nobody else does anything, wherever its windows lie; and no instruction of anybody changes a
  record, a free cell or a cell of somebody else.

The proof follows one process through a history. Its own instructions are those of the process
alone (`Processor.instruct_mirrors`), and whatever else happens spares its windows.
-/

namespace CellMachine

open Allocator Processor

/-! ## Houses -/

/-- A process in its windows. -/
structure Tenant where
  segments : Segments
  status : Status := .running {}

/-- What happens in a house. -/
inductive Event where
  | create (layout : Layout) (image : Image)
  | release (n : Nat)
  /-- One instruction of a process, with its control block and the time as they are then. -/
  | instruct (n : Nat) (control : Control) (now : Nat)

/-- The event is an instruction of the process. -/
def Event.isOf (n : Nat) : Event → Bool
  | .instruct m _ _ => m == n
  | _ => false

/-- The event does not end the process from outside: it is neither released nor stopped. -/
def Event.Leaves (n : Nat) : Event → Prop
  | .create _ _ => True
  | .release m => m ≠ n
  | .instruct m control now => m = n → Calm control now

/-- An allocator with its pools, and the processes that live there. A process keeps its number; the
place of one that is gone, or was never created, is empty. -/
structure House where
  state : Allocator × Store
  tenants : List (Option Tenant) := []

/-- The leases of a place. -/
def leasesAt : Option Tenant → List Lease
  | some t => t.segments.leases
  | none => []

namespace House

/-- The process of a number, while it lives. -/
def tenant? (w : House) (n : Nat) : Option Tenant := w.tenants[n]?.join

/-- The pools of a house. -/
def store (w : House) : Store := w.state.2

/-- The leases of all processes. -/
def leases (w : House) : List Lease := w.tenants.flatMap leasesAt

/-- The leases of all processes but one. -/
def others (w : House) (n : Nat) : List Lease := (w.tenants.set n none).flatMap leasesAt

/-- One event. Only processes that live are released and execute. -/
def act (host : FunctionId → List Cell → Reply) (w : House) : Event → House
  | .create layout image =>
    match (Carver.create layout image).run w.state with
    | .ok g st => ⟨st, w.tenants ++ [some { segments := g }]⟩
    | .error _ st => ⟨st, w.tenants ++ [none]⟩
  | .release n =>
    match w.tenant? n with
    | none => w
    | some t =>
      match (Carver.release t.segments).run w.state with
      | .ok _ st => ⟨st, w.tenants.set n none⟩
      | .error _ st => ⟨st, w.tenants.set n none⟩
  | .instruct n control now =>
    match w.tenant? n with
    | none => w
    | some t =>
      let (status, store) := instruct host control now t.segments (t.status, w.store)
      ⟨(w.state.1, store), w.tenants.set n (some { t with status })⟩

/-- A history of events. -/
def run (host : FunctionId → List Cell → Reply) (w : House) (events : List Event) : House :=
  events.foldl (act host) w

/-- Every process has its windows to itself. -/
def Kept (pool : Nat) (w : House) : Prop := Lent pool w.leases w.state

/-! ## Places -/

variable {n : Nat} {w : House} {t : Tenant}

theorem tenants_eq (h : w.tenant? n = some t) : w.tenants[n]? = some (some t) := by
  unfold tenant? at h
  match hn : w.tenants[n]? with
  | none => simp [hn] at h
  | some o => simpa [hn] using h

end House

theorem flatMap_perm_set {tenants : List (Option Tenant)} {n : Nat} {t : Tenant}
    (h : tenants[n]? = some (some t)) :
    (tenants.flatMap leasesAt).Perm
      (t.segments.leases ++ (tenants.set n none).flatMap leasesAt) := by
  induction tenants generalizing n with
  | nil => simp at h
  | cons o rest ih =>
    cases n with
    | zero =>
      obtain rfl : o = some t := by simpa using h
      exact .refl _
    | succ n =>
      have hrest := ih (by simpa using h)
      rw [List.set_cons_succ, List.flatMap_cons, List.flatMap_cons]
      exact (hrest.append_left _).trans (List.perm_append_comm_assoc ..)

theorem mem_flatMap_set {tenants : List (Option Tenant)} {n m : Nat} {t : Tenant}
    (h : tenants[m]? = some (some t)) (hne : m ≠ n) :
    t.segments.leases ⊆ (tenants.set n none).flatMap leasesAt := by
  intro l hl
  refine List.mem_flatMap.2 ⟨some t, ?_, hl⟩
  refine List.mem_of_getElem? (i := m) ?_
  rw [List.getElem?_set_ne (Ne.symm hne), h]

/-- Whoever leases the windows of a process has them to himself. -/
theorem Allocator.Supply.housed {I : List Lease → Allocator × Store → Prop} (hI : Supply I)
    {g : Segments} {live : List Lease} {st : Allocator × Store} (h : I (g.leases ++ live) st) :
    Housed g st.2 := by
  refine ⟨fun v hv => ?_, ?_⟩
  · rw [← Segments.map_window_leases] at hv
    obtain ⟨l, hl, rfl⟩ := List.mem_map.1 hv
    exact hI.within h (List.mem_append_left _ hl)
  · rw [← Segments.map_window_leases, List.pairwise_map]
    exact (List.pairwise_append.1 (hI.apart h)).1

namespace House

variable (host : FunctionId → List Cell → Reply) {pool n m : Nat} {w : House} {t u : Tenant}
  {I : List Lease → Allocator × Store → Prop}

/-- The leases of one process stand apart from those of the others. -/
theorem split (hI : Supply I) (h : I w.leases w.state) (ht : w.tenant? n = some t) :
    I (t.segments.leases ++ w.others n) w.state :=
  hI.perm (flatMap_perm_set (tenants_eq ht)) h

theorem Kept.split (h : w.Kept pool) (ht : w.tenant? n = some t) :
    Lent pool (t.segments.leases ++ w.others n) w.state :=
  House.split (supply_lent pool) h ht

theorem leases_subset_others (hu : w.tenant? m = some u) (hne : m ≠ n) :
    u.segments.leases ⊆ w.others n :=
  mem_flatMap_set (tenants_eq hu) hne

/-- **A process that lives has its windows.** -/
theorem Kept.housed (h : w.Kept pool) (ht : w.tenant? n = some t) : Housed t.segments w.store :=
  (supply_lent pool).housed (h.split ht)

theorem map_read_eq {g : Segments} {live : List Lease} {s s' : Store} (h : Spares live s s')
    (hsub : g.leases ⊆ live) : g.windows.map s'.read = g.windows.map s.read := by
  rw [← Segments.map_window_leases, List.map_map, List.map_map]
  exact List.map_congr_left fun l hl => (h l (hsub hl)).read_eq

/-! ## What one event does -/

theorem act_create (hI : Supply I) (h : I w.leases w.state) (layout : Layout) (image : Image) :
    (∃ g st, (Carver.create layout image).run w.state = .ok g st ∧
      w.act host (.create layout image) = ⟨st, w.tenants ++ [some ⟨g, .running {}⟩]⟩ ∧
      g.windows.map st.2.read = Carver.contents layout image ∧
      I (w.act host (.create layout image)).leases (w.act host (.create layout image)).state ∧
      Spares w.leases w.store st.2) ∨
    ∃ e st, (Carver.create layout image).run w.state = .error e st ∧
      w.act host (.create layout image) = ⟨st, w.tenants ++ [none]⟩ ∧
      I (w.act host (.create layout image)).leases (w.act host (.create layout image)).state ∧
      Spares w.leases w.store st.2 := by
  rcases Carver.create_run hI h layout image with
    ⟨g, st, hrun, hread, hnew, hspares⟩ | ⟨e, st, hrun, hnew, hspares⟩
  · refine .inl ⟨g, st, hrun, ?_, hread, ?_, hspares⟩
    · rw [act, hrun]
    · rw [act, hrun]
      refine hI.perm ?_ hnew
      simp only [leases, List.flatMap_append, List.flatMap_singleton, leasesAt]
      exact List.perm_append_comm
  · refine .inr ⟨_, st, hrun, ?_, ?_, hspares⟩
    · rw [act, hrun]
    · rw [act, hrun]
      simpa [leases, leasesAt] using hnew

theorem act_release (hI : Supply I) (h : I w.leases w.state) (ht : w.tenant? n = some t) :
    (w.act host (.release n)).tenants = w.tenants.set n none ∧
      I (w.act host (.release n)).leases (w.act host (.release n)).state ∧
      Spares (w.others n) w.store (w.act host (.release n)).store := by
  obtain ⟨st, hrun, hnew, hspares⟩ := Carver.release_run hI (split hI h ht)
  rw [act, ht]
  dsimp only
  rw [hrun]
  exact ⟨rfl, hnew, hspares⟩

theorem tenants_set (ht : w.tenant? n = some t) (o : Option Tenant) :
    (w.tenants.set n o)[n]? = some o := by
  have hlt := (List.getElem?_eq_some_iff.1 (tenants_eq ht)).1
  rw [List.getElem?_set_self hlt]

theorem leases_set (ht : w.tenant? n = some t) (status : Status) :
    (t.segments.leases ++ w.others n).Perm
      ((w.tenants.set n (some ⟨t.segments, status⟩)).flatMap leasesAt) := by
  have hperm := flatMap_perm_set (tenants_set ht (some ⟨t.segments, status⟩))
  rw [List.set_set] at hperm
  exact hperm.symm

theorem act_instruct (hI : Supply I) (h : I w.leases w.state) (ht : w.tenant? n = some t)
    (control : Control) (now : Nat) :
    w.act host (.instruct n control now) =
        ⟨(w.state.1, (instruct host control now t.segments (t.status, w.store)).2),
          w.tenants.set n
            (some ⟨t.segments, (instruct host control now t.segments (t.status, w.store)).1⟩)⟩ ∧
      I (w.act host (.instruct n control now)).leases
        (w.act host (.instruct n control now)).state ∧
      (∃ l ∈ t.segments.leases,
        Store.Touches l.window w.store (w.act host (.instruct n control now)).store) ∧
      Spares (w.others n) w.store (w.act host (.instruct n control now)).store := by
  obtain ⟨v, hv, htouch⟩ := instruct_touches host control now t.segments (t.status, w.store)
  rw [← Segments.map_window_leases] at hv
  obtain ⟨l, hl, rfl⟩ := List.mem_map.1 hv
  have hsplit := split hI h ht
  have hact : w.act host (.instruct n control now) =
      ⟨(w.state.1, (instruct host control now t.segments (t.status, w.store)).2),
        w.tenants.set n
          (some ⟨t.segments, (instruct host control now t.segments (t.status, w.store)).1⟩)⟩ := by
    rw [act, ht]
  rw [hact]
  refine ⟨rfl, ?_, ⟨l, hl, htouch⟩, fun l' hl' => htouch.agree fun q i hi' hi => ?_⟩
  · exact hI.perm (leases_set ht _) (hI.touch hsplit (List.mem_append_left _ hl) htouch)
  · exact (List.pairwise_append.1 (hI.apart hsplit)).2.2 l hl l' hl' q i hi hi'

/-- **Whatever happens, every process has its windows to itself**, whoever lends them. -/
theorem act_supplied (hI : Supply I) (h : I w.leases w.state) (e : Event) :
    I (w.act host e).leases (w.act host e).state := by
  cases e with
  | create layout image =>
    rcases act_create host hI h layout image with ⟨g, st, -, -, -, hnew, -⟩ | ⟨e, st, -, -, hnew, -⟩
    · exact hnew
    · exact hnew
  | release n =>
    match ht : w.tenant? n with
    | some t => exact (act_release host hI h ht).2.1
    | none =>
      rw [act, ht]
      exact h
  | instruct n control now =>
    match ht : w.tenant? n with
    | some t => exact (act_instruct host hI h ht control now).2.1
    | none =>
      rw [act, ht]
      exact h

theorem act_kept (h : w.Kept pool) (e : Event) : (w.act host e).Kept pool :=
  act_supplied host (supply_lent pool) h e

theorem run_kept (h : w.Kept pool) (events : List Event) : (w.run host events).Kept pool := by
  induction events generalizing w with
  | nil => exact h
  | cons e rest ih => exact ih (act_kept host h e)

/-! ## Following one process -/

/-- A process in a house stands where another one stands by itself: with the same status, and with
the same cells in its windows. -/
structure Tracks (w : House) (n : Nat) (own g : Segments) (x : Status × Store) : Prop where
  lives : w.tenant? n = some ⟨own, x.1⟩
  cells : own.windows.map w.store.read = g.windows.map x.2.read
  housed : Housed g x.2

/-- An event that leaves a process alone and spares its windows is not noticed. -/
theorem Tracks.of_spares {w' : House} {own g : Segments} {x : Status × Store} {live : List Lease}
    (h : w.Tracks n own g x) (hsame : w'.tenant? n = w.tenant? n)
    (hspares : Spares live w.store w'.store) (hsub : own.leases ⊆ live) : w'.Tracks n own g x := by
  refine ⟨hsame.trans h.lives, ?_, h.housed⟩
  rw [map_read_eq hspares hsub, h.cells]

theorem tenant?_append (ht : w.tenant? n = some t) (st : Allocator × Store) (o : Option Tenant) :
    (⟨st, w.tenants ++ [o]⟩ : House).tenant? n = w.tenant? n := by
  have hlt := (List.getElem?_eq_some_iff.1 (tenants_eq ht)).1
  simp only [tenant?, List.getElem?_append_left hlt]

theorem tenant?_set_ne (st : Allocator × Store) (o : Option Tenant) (hne : n ≠ m) :
    (⟨st, w.tenants.set m o⟩ : House).tenant? n = w.tenant? n := by
  simp only [tenant?, List.getElem?_set_ne (Ne.symm hne)]

theorem leases_subset (ht : w.tenant? n = some t) : t.segments.leases ⊆ w.leases := fun _ hl =>
  (flatMap_perm_set (tenants_eq ht)).symm.subset (List.mem_append_left _ hl)

end House

/-! ## A process alone -/

/-- The control block of a process that may run for as long as it likes. -/
def Control.unlimited : Control := { state := .running, watchdogMs := 0 }

theorem calm_unlimited (now : Nat) : Calm Control.unlimited now :=
  ⟨rfl, by simp [Control.expired, Control.unlimited]⟩

/-- `k` instructions of a process, with nobody else doing anything. -/
def solo (host : FunctionId → List Cell → Reply) (g : Segments) :
    (k : Nat) → Status × Store → Status × Store
  | 0, x => x
  | k + 1, x => solo host g k (instruct host Control.unlimited 0 g x)

namespace House

variable (host : FunctionId → List Cell → Reply) {pool n : Nat} {w : House} {own g : Segments}
  {x : Status × Store}

/-- One event of a history: an instruction of the process is one instruction of the process alone,
and anything else is nothing to it. -/
theorem act_tracks (h : w.Kept pool) (htracks : w.Tracks n own g x) {e : Event}
    (he : e.Leaves n) :
    (w.act host e).Tracks n own g
      (if e.isOf n then instruct host Control.unlimited 0 g x else x) := by
  have ht := htracks.lives
  cases e with
  | create layout image =>
    show (w.act host (.create layout image)).Tracks n own g x
    rcases act_create host (supply_lent pool) h layout image with ⟨g', st, -, hact, -, -, hspares⟩ |
        ⟨e, st, -, hact, -, hspares⟩
    · rw [hact]
      exact htracks.of_spares (tenant?_append ht ..) hspares (leases_subset ht)
    · rw [hact]
      exact htracks.of_spares (tenant?_append ht ..) hspares (leases_subset ht)
  | release m =>
    show (w.act host (.release m)).Tracks n own g x
    have hne : n ≠ m := Ne.symm he
    match hm : w.tenant? m with
    | none =>
      rw [act, hm]
      exact htracks
    | some u =>
      obtain ⟨htenants, -, hspares⟩ := act_release host (supply_lent pool) h hm
      refine htracks.of_spares ?_ hspares (leases_subset_others ht hne)
      rw [tenant?, htenants]
      exact tenant?_set_ne w.state none hne
  | instruct m control now =>
    by_cases hm : m = n
    · -- the process itself: it does what the process alone does
      subst hm
      have hof : (Event.instruct m control now).isOf m = true := by simp [Event.isOf]
      obtain ⟨hact, -, -, -⟩ := act_instruct host (supply_lent pool) h ht control now
      obtain ⟨hsame, hcells⟩ := instruct_mirrors host (he rfl) (calm_unlimited 0) x.1
        (h.housed ht) htracks.housed htracks.cells
      obtain ⟨v, -, htouch⟩ := instruct_touches host Control.unlimited 0 g x
      rw [if_pos hof, hact]
      refine ⟨?_, hcells, htracks.housed.touch htouch⟩
      simp only [tenant?, tenants_set ht, Option.join_some]
      rw [hsame]
    · have hof : ¬ (Event.instruct m control now).isOf n = true := by simp [Event.isOf, hm]
      rw [if_neg hof]
      match hu : w.tenant? m with
      | none =>
        rw [act, hu]
        exact htracks
      | some u =>
        obtain ⟨hact, -, -, hspares⟩ := act_instruct host (supply_lent pool) h hu control now
        refine htracks.of_spares ?_ hspares (leases_subset_others ht (Ne.symm hm))
        rw [hact]
        exact tenant?_set_ne _ _ (Ne.symm hm)

/-- **A process in a history goes the way it goes alone.** -/
theorem run_tracks (h : w.Kept pool) (htracks : w.Tracks n own g x) {events : List Event}
    (hleaves : ∀ e ∈ events, e.Leaves n) :
    (w.run host events).Tracks n own g (solo host g (events.countP (Event.isOf n)) x) := by
  induction events generalizing w x with
  | nil => exact htracks
  | cons e rest ih =>
    have hstep := act_tracks host h htracks (hleaves e List.mem_cons_self)
    have hrest := ih (act_kept host h e) hstep fun e' he' => hleaves e' (List.mem_cons_of_mem _ he')
    rw [List.countP_cons]
    by_cases hof : e.isOf n = true
    · rw [if_pos hof] at hrest ⊢
      exact hrest
    · rw [if_neg hof] at hrest ⊢
      exact hrest

/-! ## Isolation -/

/-- The houses that a pool of a lawful size can come to, whatever happens there. -/
def Reachable (pool : Nat) (w : House) : Prop :=
  ∃ (store : Store) (st : Allocator × Store) (events : List Event),
    (minimumRunCells ≤ store.size pool ∧ store.size pool ≤ maximumPoolCells) ∧
      Allocator.ofPool store pool = .ok st ∧ w = (⟨st, []⟩ : House).run host events

theorem Reachable.kept (h : w.Reachable host pool) : w.Kept pool := by
  obtain ⟨store, st, events, ⟨hmin, hmax⟩, hst, rfl⟩ := h
  obtain ⟨st', p, hst', haccounts⟩ := ofPool_eq_ok hmin hmax
  obtain rfl : st' = st := Except.ok.inj (hst'.symm.trans hst)
  exact run_kept host ⟨p, haccounts⟩ events

/-- An instruction of a process changes nothing that is not its own. -/
structure Confined (pool : Nat) (w : House) (n : Nat) (control : Control) (now : Nat) : Prop where
  allocator : (w.act host (.instruct n control now)).state.1 = w.state.1
  /-- No record and no cell of a free run changes. -/
  records : ∃ runs, (w.state.1.arena w.store).runs = some runs ∧ ∀ r ∈ runs, ∀ i,
    i = r.head ∨ i = r.tail ∨ (r.kind = .free ∧ r.head ≤ i ∧ i < r.stop) →
      (w.act host (.instruct n control now)).store.peek pool i = w.store.peek pool i
  /-- No other process changes, and neither do its cells. -/
  others : ∀ m u, m ≠ n → w.tenant? m = some u →
    (w.act host (.instruct n control now)).tenant? m = some u ∧
      u.segments.windows.map (w.act host (.instruct n control now)).store.read =
        u.segments.windows.map w.store.read

theorem Kept.confined (h : w.Kept pool) (n : Nat) (control : Control) (now : Nat) :
    w.Confined host pool n control now := by
  obtain ⟨runs, hruns, hout⟩ := Lent.exists_runs h
  match ht : w.tenant? n with
  | none =>
    have hact : w.act host (.instruct n control now) = w := by rw [act, ht]
    refine ⟨?_, ⟨runs, hruns, fun r hr i hi => ?_⟩, fun m u hne hu => ?_⟩ <;> rw [hact]
    exact ⟨hu, rfl⟩
  | some t =>
    obtain ⟨hact, -, ⟨l, hl, htouch⟩, hspares⟩ :=
      act_instruct host (supply_lent pool) h ht control now
    refine ⟨?_, ⟨runs, hruns, fun r hr i hi => ?_⟩, fun m u hne hu => ⟨?_, ?_⟩⟩
    · rw [hact]
    · exact htouch.keep pool i (hout r hr l (leases_subset ht hl) i hi)
    · rw [hact]
      exact (tenant?_set_ne _ _ hne).trans hu
    · exact map_read_eq hspares (leases_subset_others hu hne)

theorem act_created {layout : Layout} {image : Image} {st : Allocator × Store} (h : w.Kept pool)
    (hg : (Carver.create layout image).run w.state = .ok g st) :
    (w.act host (.create layout image)).tenant? w.tenants.length = some ⟨g, .running {}⟩ ∧
      (w.act host (.create layout image)).store = st.2 ∧
      g.windows.map st.2.read = Carver.contents layout image := by
  rcases act_create host (supply_lent pool) h layout image with ⟨g', st', hrun, hact, hread, -, -⟩ |
      ⟨e, st', hrun, -, -, -⟩
  · obtain ⟨rfl, rfl⟩ := EStateM.Result.ok.inj (hg.symm.trans hrun)
    rw [hact]
    refine ⟨?_, rfl, hread⟩
    simp [tenant?]
  · rw [hg] at hrun
    cases hrun

/-- A process that was just created stands at its start. -/
theorem tracks_created {pool₀ : Nat} {w₀ : House} (h : w.Kept pool) (h₀ : w₀.Kept pool₀)
    {layout : Layout} {image : Image} {st st₀ : Allocator × Store}
    (hg : (Carver.create layout image).run w.state = .ok own st)
    (hg₀ : (Carver.create layout image).run w₀.state = .ok g st₀) :
    (w.act host (.create layout image)).Tracks w.tenants.length own g (.running {}, st₀.2) := by
  obtain ⟨hlives, hstore, hread⟩ := act_created host h hg
  obtain ⟨hlives₀, hstore₀, hread₀⟩ := act_created host h₀ hg₀
  have hhoused := (act_kept host h₀ (.create layout image)).housed hlives₀
  rw [hstore₀] at hhoused
  refine ⟨hlives, ?_, hhoused⟩
  rw [hstore, hread, hread₀]

theorem length_act_create (w : House) (layout : Layout) (image : Image) :
    (w.act host (.create layout image)).tenants.length = w.tenants.length + 1 := by
  rw [act]
  split <;> simp

theorem exists_created {layout : Layout} {image : Image} (h : w.Kept pool)
    (hall : (w.act host (.create layout image)).tenants.all Option.isSome) :
    ∃ g st, (Carver.create layout image).run w.state = .ok g st := by
  rcases act_create host (supply_lent pool) h layout image with ⟨g, st, hrun, -, -, -, -⟩ |
      ⟨e, st, -, hact, -, -⟩
  · exact ⟨g, st, hrun⟩
  · rw [hact] at hall
    simp at hall

end House

/-- **Processes are isolated from their neighbours.** A process is created in a house in which
anything may have happened, and from then on anything but its release may happen there, in any
order with its own instructions. After `k` of them it is where the same process is that was created
in any house, its own or another, and then executed `k` instructions with nobody else doing
anything: with the same outcome, and with the same cells in its five windows. And at no time does
an instruction of any process change a record, a free cell or another process. -/
theorem isolated_from_neighbours (host : FunctionId → List Cell → Reply) {pool pool₀ : Nat}
    {w w₀ : House} (hw : w.Reachable host pool) (hw₀ : w₀.Reachable host pool₀) {layout : Layout}
    {image : Image} {g g₀ : Segments} {st st₀ : Allocator × Store}
    (hg : (Carver.create layout image).run w.state = .ok g st)
    (hg₀ : (Carver.create layout image).run w₀.state = .ok g₀ st₀) {events : List Event}
    (hleaves : ∀ e ∈ events, e.Leaves w.tenants.length) {w' : House} {alone : Status × Store}
    (hw' : w' = w.run host (.create layout image :: events))
    (halone : alone = solo host g₀ (events.countP (Event.isOf w.tenants.length))
      (.running {}, st₀.2)) :
    (w'.tenant? w.tenants.length = some ⟨g, alone.1⟩ ∧
      g.windows.map w'.store.read = g₀.windows.map alone.2.read) ∧
    ∀ n control now, w'.Confined host pool n control now := by
  subst hw' halone
  have hkept := hw.kept
  have hcreated := House.tracks_created host hkept hw₀.kept hg hg₀
  have htracks := House.run_tracks host (House.act_kept host hkept _) hcreated hleaves
  exact ⟨⟨htracks.lives, htracks.cells⟩,
    (House.run_kept host hkept (.create layout image :: events)).confined host⟩

/-- Three processes in sixty cells, of which the second executes three instructions while the first
is released, and the same process alone in thirty cells. -/
theorem isolated_from_neighbours_three : ∃ (host : FunctionId → List Cell → Reply)
    (layout : Layout) (image : Image) (w w₀ : House) (g g₀ : Segments) (st st₀ : Allocator × Store)
    (events : List Event), w.Reachable host 0 ∧ w₀.Reachable host 0 ∧
      (Carver.create layout image).run w.state = .ok g st ∧
      (Carver.create layout image).run w₀.state = .ok g₀ st₀ ∧
      (∀ e ∈ events, e.Leaves w.tenants.length) ∧ w.tenants.length = 1 ∧
      Event.release 0 ∈ events ∧
      (((w.run host (.create layout image :: events)).tenant? w.tenants.length =
          some ⟨g, (solo host g₀ 3 (.running {}, st₀.2)).1⟩ ∧
        g.windows.map (w.run host (.create layout image :: events)).store.read =
          g₀.windows.map (solo host g₀ 3 (.running {}, st₀.2)).2.read) ∧
      ∀ n control now,
        (w.run host (.create layout image :: events)).Confined host 0 n control now) := by
  let host : FunctionId → List Cell → Reply := fun _ _ => .value Cell.zero
  let layout : Layout := ⟨1, 1, 2⟩
  let image : Image := ⟨[.make .movl 0 0 0 7, .make .mov 1 0 0 0, .make .halt 0 0 0 0], []⟩
  let step (n : Nat) : Event := .instruct n Control.unlimited 0
  let events : List Event :=
    [step 0, step 1, .create layout image, step 1, .release 0, step 2, step 1]
  let large : Store := ⟨#[Array.replicate 60 Cell.zero]⟩
  let small : Store := ⟨#[Array.replicate 30 Cell.zero]⟩
  have hlarge : minimumRunCells ≤ large.size 0 ∧ large.size 0 ≤ maximumPoolCells := by decide
  have hsmall : minimumRunCells ≤ small.size 0 ∧ small.size 0 ≤ maximumPoolCells := by decide
  obtain ⟨st, p, hst, hp⟩ := ofPool_eq_ok hlarge.1 hlarge.2
  obtain ⟨st₀, p₀, hst₀, hp₀⟩ := ofPool_eq_ok hsmall.1 hsmall.2
  let w := (⟨st, []⟩ : House).run host [.create layout image]
  let w₀ : House := ⟨st₀, []⟩
  have hw : w.Reachable host 0 := ⟨large, st, _, hlarge, hst, rfl⟩
  have hw₀ : w₀.Reachable host 0 := ⟨small, st₀, [], hsmall, hst₀, rfl⟩
  -- both creations succeed, and so did the one before
  have hall : (Allocator.ofPool large 0).toOption.map (fun st =>
      ((⟨st, []⟩ : House).run host [.create layout image, .create layout image]).tenants.all
        Option.isSome) = some true := by
    decide +kernel
  have hall₀ : (Allocator.ofPool small 0).toOption.map (fun st =>
      ((⟨st, []⟩ : House).run host [.create layout image]).tenants.all Option.isSome) =
        some true := by
    decide +kernel
  rw [hst] at hall
  rw [hst₀] at hall₀
  obtain ⟨g, st', hg⟩ := House.exists_created host hw.kept (Option.some.inj hall)
  obtain ⟨g₀, st₀', hg₀⟩ := House.exists_created host hw₀.kept (Option.some.inj hall₀)
  have hlength : w.tenants.length = 1 := House.length_act_create host ⟨st, []⟩ layout image
  have hleaves : ∀ e ∈ events, e.Leaves w.tenants.length := by
    rw [hlength]
    simp [events, step, Event.Leaves, calm_unlimited]
  have hcount : events.countP (Event.isOf w.tenants.length) = 3 := by
    rw [hlength]
    rfl
  refine ⟨host, layout, image, w, w₀, g, g₀, st', st₀', events, hw, hw₀, hg, hg₀, hleaves, hlength,
    by simp [events], ?_⟩
  exact isolated_from_neighbours host hw hw₀ hg hg₀ hleaves rfl (by rw [hcount])

end CellMachine
