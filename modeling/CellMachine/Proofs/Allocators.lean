import CellMachine.Proofs.Execution
import CellMachine.Proofs.Tenants

/-!
# Two allocators, one machine

A process cannot tell whether its windows lie in a pool that it shares or in pools of its own.

* `supply_owned`: an allocator that makes a pool for every request keeps to the rules, and it serves
  whatever a shared pool serves (`create_owned`);
* `Execution.run_paired`: two processes with the same cells in their windows execute in step;
* `same_machine_on_both_allocators`: both together, down to what `Host.execute` reports.
-/

namespace CellMachine

open Allocator Processor

/-! ## Pools of one's own -/

namespace Store

variable {s : Store} {cells : Array Cell}

theorem cells_add_of_lt {pool : Nat} (h : pool < s.pools.size) :
    (s.add cells).2.cells pool = s.cells pool := by
  simp [Store.cells, Store.add, Array.getElem?_push_lt, h]

theorem cells_add_self : (s.add cells).2.cells s.pools.size = cells := by
  simp [Store.cells, Store.add]

end Store

namespace Allocator

/-- The leases when every request gets a pool of its own. -/
structure Owned (live : List Lease) (st : Allocator × Store) : Prop where
  separate : st.1 = .separate
  within : ∀ l ∈ live, l.window.pool < st.2.pools.size ∧ l.window.Within st.2
  apart : live.Pairwise fun l l' => l.window.pool ≠ l'.window.pool

theorem obtain_separate {s : Store} {size : Int} {kind : Kind} {n : Nat}
    (hreq : requestedCells size kind = .ok n) :
    (Allocator.obtain size kind).run (.separate, s) =
      .ok ⟨s.pools.size, 0, n⟩ (.separate, (s.addZero n).2) := by
  unfold Allocator.obtain
  rw [run_bind_ok (EStateM.run_get _)]
  dsimp only
  rw [hreq]
  rfl

namespace Owned

variable {live : List Lease} {s : Store}

theorem add (h : Owned live (.separate, s)) (n : Nat) (kind : Kind) :
    Owned (⟨⟨s.pools.size, 0, n⟩, kind⟩ :: live) (.separate, (s.addZero n).2) ∧
      Spares live s (s.addZero n).2 := by
  have hkeep : ∀ l ∈ live, (s.addZero n).2.cells l.window.pool = s.cells l.window.pool :=
    fun l hl => Store.cells_add_of_lt (h.within l hl).1
  have hsize : (s.addZero n).2.pools.size = s.pools.size + 1 := by
    simp [Store.addZero, Store.add]
  refine ⟨⟨rfl, fun l hl => ?_, .cons (fun l hl => ?_) h.apart⟩, fun l hl => ⟨?_, fun i _ => ?_⟩⟩
  · rcases List.mem_cons.1 hl with rfl | hl
    · refine ⟨by rw [hsize]; exact Nat.lt_succ_self _, ?_⟩
      show 0 + n ≤ ((s.addZero n).2.cells s.pools.size).size
      have hnew : ((s.addZero n).2.cells s.pools.size).size = n := by
        rw [Store.addZero, Store.cells_add_self, Array.size_replicate]
      omega
    · obtain ⟨hlt, hin⟩ := h.within l hl
      refine ⟨by rw [hsize]; exact Nat.lt_succ_of_lt hlt, ?_⟩
      unfold Window.Within at hin ⊢
      rw [hkeep l hl]
      exact hin
  · exact Nat.ne_of_gt (h.within l hl).1
  · rw [hkeep l hl]
  · rw [Store.peek_eq_look, Store.peek_eq_look, hkeep l hl]

theorem touch (h : Owned live (.separate, s)) {l : Lease} {s' : Store}
    (ht : Store.Touches l.window s s') : Owned live (.separate, s') := by
  refine ⟨rfl, fun l' hl' => ?_, h.apart⟩
  obtain ⟨hlt, hin⟩ := h.within l' hl'
  refine ⟨?_, ht.within hin⟩
  show l'.window.pool < s'.pools.size
  rw [ht.pools]
  exact hlt

end Owned

/-- **Pools of one's own keep to the rules.** -/
theorem supply_owned : Supply Owned where
  perm := fun hperm h =>
    ⟨h.separate, fun l hl => h.within l (hperm.symm.subset hl), hperm.pairwise h.apart Ne.symm⟩
  within := fun h hl => (h.within _ hl).2
  apart := fun h => h.apart.imp fun hne q i hi hi' => hne (hi.1.symm.trans hi'.1)
  touch := fun {live st l s} h _ ht => by
    obtain ⟨a, s₀⟩ := st
    obtain rfl := h.separate
    exact h.touch ht
  obtained := fun {live st} h size kind => by
    obtain ⟨a, s⟩ := st
    obtain rfl := h.separate
    match hreq : requestedCells size kind with
    | .ok n =>
      obtain ⟨hnew, hspares⟩ := h.add n kind
      exact .inl ⟨_, _, obtain_separate hreq, rfl, hnew, hspares⟩
    | .error e =>
      refine .inr ⟨e, ?_⟩
      unfold Allocator.obtain
      rw [run_bind_ok (EStateM.run_get _)]
      dsimp only
      rw [hreq]
      rfl
  givenBack := fun {l live st} h => by
    obtain ⟨a, s⟩ := st
    obtain rfl := h.separate
    refine ⟨(.separate, s), ?_, ⟨rfl, fun l' hl' => h.within l' (List.mem_cons_of_mem _ hl'),
      (List.pairwise_cons.1 h.apart).2⟩, .refl live s⟩
    unfold giveBack
    rw [run_bind_ok (EStateM.run_get _)]
    rfl

/-- A pool of one's own is always to be had. -/
theorem refusesForWant_owned : RefusesForWant False Owned := by
  intro live st h size kind n e st' hreq hrun
  obtain ⟨a, s⟩ := st
  obtain rfl := h.separate
  rw [obtain_separate hreq] at hrun
  cases hrun

end Allocator

/-! ## Creation over pools of one's own -/

namespace Carver

theorem carve_separate {s : Store} {cells : Nat} {kind : Kind} (h : Admitted cells kind) :
    ∃ w s', (carve cells kind).run (.separate, s) = .ok w (.separate, s') := by
  obtain ⟨hsmall, n, hreq⟩ := h
  unfold carve
  rw [if_neg (Nat.not_lt.2 hsmall)]
  exact ⟨_, _, run_bind_ok (obtain_separate hreq) _⟩

theorem carveAll_separate {s : Store} {plan : List (Nat × Kind)} (ws : List Window)
    (h : ∀ entry ∈ plan, Admitted entry.1 entry.2) :
    ∃ ws' s', (carveAll plan ws).run (.separate, s) = .ok ws' (.separate, s') := by
  induction plan generalizing s ws with
  | nil => exact ⟨ws, s, rfl⟩
  | cons entry rest ih =>
    obtain ⟨cells, kind⟩ := entry
    obtain ⟨w, s₁, hcarve⟩ := @carve_separate s cells kind (h _ List.mem_cons_self)
    rw [carveAll, run_bind_ok (attempt_run_ok hcarve)]
    exact ih _ fun entry hentry => h entry (List.mem_cons_of_mem _ hentry)

/-- **Pools of one's own serve whatever anybody serves.** -/
theorem create_owned {I : List Lease → Allocator × Store → Prop} (hI : Supply I)
    {live : List Lease} {st st' : Allocator × Store} (h : I live st) {layout : Layout}
    {image : Image} {g : Segments} (hrun : (create layout image).run st = .ok g st') (s : Store) :
    ∃ g₀ st₀, (create layout image).run (.separate, s) = .ok g₀ st₀ ∧
      g₀.windows.map st₀.2.read = contents layout image ∧ Owned (g₀.leases ++ []) st₀ := by
  have hadmitted := admitted_of_create hI h hrun
  have hempty : Owned ([] ++ []) (.separate, s) := ⟨rfl, nofun, .nil⟩
  obtain ⟨ws, s', hserved⟩ := @carveAll_separate s _ [] hadmitted
  rcases carveAll_run supply_owned hempty (plan layout image) with
    ⟨new, st₁, hcarved, hplan, hzeros, hnew, -⟩ | ⟨e, st₁, hrefused, -⟩
  · obtain ⟨g₀, st₀, hcreate, hread, hlast, -⟩ :=
      create_carved supply_owned hcarved hplan hzeros hnew
    exact ⟨g₀, st₀, hcreate, hread, hlast⟩
  · rw [List.map_nil] at hrefused
    rw [hserved] at hrefused
    cases hrefused

end Carver

/-! ## Executions in step -/

namespace Execution

/-- A new process that was started and has not executed anything yet. -/
def first (s : Store) (watchdogMs now : Nat) : Execution where
  store := s
  control := { state := .running, clock := ({} : Stopwatch).start now, watchdogMs }
  now

/-- A new process after `k` instructions. -/
def since (host : FunctionId → List Cell → Reply) (g : Segments) (s : Store)
    (watchdogMs now : Nat) (d : Nat → Nat) (k : Nat) : Execution :=
  run host g d k (first s watchdogMs now)

/-- The watchdog is about to end the run. -/
def Fires (x : Execution) : Prop :=
  ∃ frame, x.status = .running frame ∧ frame.budget - 1 = 0 ∧ x.control.expired x.now = true

/-- Two executions have come to the same: the same status and with it the same result, the same
host calls, the same cells and the same state of the process. -/
structure Alike (g g' : Segments) (x x' : Execution) : Prop where
  status : x.status = x'.status
  calls : x.calls = x'.calls
  cells : g.windows.map x.store.read = g'.windows.map x'.store.read
  state : x.control.state = x'.control.state

/-- Two executions in step, with what keeps them in step. -/
structure Paired (g g' : Segments) (x x' : Execution) : Prop extends Alike g g' x x' where
  left : Housed g x.store
  right : Housed g' x'.store
  running : x.Goes → x.control.state = .running

section
variable {host : FunctionId → List Cell → Reply} {g g' : Segments} {x x' : Execution}

theorem quiet_of_not_fires {frame : Frame} (hframe : x.status = .running frame)
    (hstate : x.control.state = .running) (h : ¬ x.Fires) : Quiet x.control x.now frame := by
  refine ⟨hstate, fun hlook => ?_⟩
  cases hexpired : x.control.expired x.now with
  | false => rfl
  | true => exact absurd ⟨frame, hframe, hlook, hexpired⟩ h

theorem asks_eq {t t' : Turn} (h : t.Parallel g g' t') : t.asks = t'.asks := by
  cases h <;> rfl

theorem state_leave {control control' : Control} (now now' : Nat) (status : Status)
    (hstate : control.state = control'.state) :
    (status.leave control now).state = (status.leave control' now').state := by
  unfold Status.leave Control.leave
  match status with
  | .running _ | .crashed => exact hstate
  | .ended (.ok _) | .ended (.error _) =>
    by_cases hrunning : control.state = .running
    · simp only [hrunning, ← hstate, ↓reduceIte]
    · simp only [hrunning, ← hstate, ↓reduceIte]

/-- **One instruction keeps two executions in step**, whatever time it takes on either side. -/
theorem step_paired (h : Paired g g' x x') (hquiet : ¬ x.Fires) (hquiet' : ¬ x'.Fires)
    (d d' : Nat) : Paired g g' (x.step host g d) (x'.step host g' d') := by
  by_cases hgoes : x.Goes
  · have hstate := h.running hgoes
    have hstate' : x'.control.state = .running := h.state ▸ hstate
    obtain ⟨frame, hframe⟩ := hgoes
    have hframe' : x'.status = .running frame := h.status ▸ hframe
    have hturn := turn_of_quiet (g := g) (s := x.store) (quiet_of_not_fires hframe hstate hquiet)
    have hturn' := turn_of_quiet (g := g') (s := x'.store)
      (quiet_of_not_fires hframe' hstate' hquiet')
    have hparallel := fetch_mirrors (h.left.mirrors h.right h.cells) frame.pc frame.spend
    rw [← hturn, ← hturn'] at hparallel
    obtain ⟨hstatus, hcells⟩ :=
      answered_mirrors host hstate hstate' hparallel h.left h.right h.cells
    rw [step_of_running d hframe, step_of_running d' hframe']
    dsimp only
    refine ⟨⟨hstatus, ?_, hcells, ?_⟩, ?_, ?_, ?_⟩
    · rw [h.calls, asks_eq hparallel]
    · rw [hstatus]
      exact state_leave _ _ _ h.state
    · obtain ⟨v, hv, htouch⟩ := instruct_touches host x.control x.now g (.running frame, x.store)
      exact h.left.touch htouch
    · obtain ⟨v, hv, htouch⟩ :=
        instruct_touches host x'.control x'.now g' (.running frame, x'.store)
      exact h.right.touch htouch
    · rintro ⟨next, hnext⟩
      dsimp only at hnext ⊢
      rw [hnext]
      exact hstate
  · have hgoes' : ¬ x'.Goes := by
      rintro ⟨frame, hframe⟩
      exact hgoes ⟨frame, h.status.trans hframe⟩
    rw [step_of_not_goes d hgoes, step_of_not_goes d' hgoes']
    exact h

theorem run_paired (h : Paired g g' x x') (d d' : Nat → Nat) {k : Nat}
    (hquiet : ∀ j < k, ¬ (run host g d j x).Fires)
    (hquiet' : ∀ j < k, ¬ (run host g' d' j x').Fires) :
    Paired g g' (run host g d k x) (run host g' d' k x') := by
  induction k with
  | zero => exact h
  | succ k ih =>
    have hpaired := ih (fun j hj => hquiet j (Nat.lt_succ_of_lt hj))
      fun j hj => hquiet' j (Nat.lt_succ_of_lt hj)
    exact step_paired hpaired (hquiet k (Nat.lt_succ_self k)) (hquiet' k (Nat.lt_succ_self k)) _ _

/-- **New processes with the same cells come to the same**, as long as no watchdog fires. -/
theorem since_alike {s s' : Store} (hg : Housed g s) (hg' : Housed g' s')
    (hread : g.windows.map s.read = g'.windows.map s'.read) {limit limit' now now' : Nat}
    {d d' : Nat → Nat} {k : Nat} (hquiet : ∀ j < k, ¬ (since host g s limit now d j).Fires)
    (hquiet' : ∀ j < k, ¬ (since host g' s' limit' now' d' j).Fires) :
    Alike g g' (since host g s limit now d k) (since host g' s' limit' now' d' k) := by
  have hfirst : Paired g g' (first s limit now) (first s' limit' now') :=
    ⟨⟨rfl, rfl, hread, rfl⟩, hg, hg', fun _ => rfl⟩
  exact (run_paired hfirst d d' hquiet hquiet').toAlike

/-- Without a limit the watchdog never fires. -/
theorem since_not_fires {s : Store} {now : Nat} {d : Nat → Nat} {k : Nat} :
    ¬ (since host g s 0 now d k).Fires := by
  rintro ⟨frame, hframe, -, hexpired⟩
  have hcontrol : (since host g s 0 now d k).control =
      (since host g s 0 now d k).status.leave (first s 0 now).control
        (since host g s 0 now d k).now :=
    control_run d k ⟨_, rfl⟩
  rw [hcontrol, hframe] at hexpired
  cases hexpired

end

end Execution

/-! ## What is seen from outside -/

namespace Host

/-- What whoever executes a process gets to see: the result, and the state the process is in. -/
def seen (p : Nat) : EStateM.Result Fault Host Unit → Except Fault Unit × Option ProcessState
  | .ok _ h => (.ok (), h.processes[p]?.map fun q => q.control.state)
  | .error e h => (.error e, h.processes[p]?.map fun q => q.control.state)

/-- The host has a new process, whose host functions answer at once. -/
structure Holds (h : Host) (p : Nat) (q : Process) (host : FunctionId → List Cell → Reply)
    (g : Segments) (s : Store) (watchdogMs : Nat) : Prop where
  attends : h.Attends p q host
  segments : q.segments = g
  fresh : q.control = { watchdogMs }
  store : h.store = s

section
variable {h : Host} {p : Nat} {q : Process} {host : FunctionId → List Cell → Reply} {g : Segments}
  {s : Store} {limit : Nat}

theorem seen_reported (hq : h.processes[p]? = some q) (status : Status) :
    seen p (h.reported status) = (status.report, some q.control.state) := by
  unfold reported
  match status.report with
  | .ok _ | .error _ => simp [seen, hq]

theorem Holds.seen_execute (hh : h.Holds p q host g s limit) {k fuel : Nat} {y : Execution}
    (hy : y = .since host g s limit h.now (fun _ => turnTime) k) (hover : ¬ y.Goes)
    (hfuel : k < fuel) :
    seen p ((execute p fuel).run h) = (y.status.report, some y.control.state) := by
  have hstart : q.control.start q.id h.now = .ok (Execution.first s limit h.now).control := by
    rw [hh.fresh]
    rfl
  have hy' : y = .run host q.segments (fun _ => turnTime) k
      { store := h.store, control := (Execution.first s limit h.now).control, now := h.now } := by
    rw [hy, hh.segments, hh.store]
    rfl
  have hq : ((h.withControl p y.control).during y.store y.now).processes[p]? =
      some { q with control := y.control } :=
    process_withControl hh.attends.process y.control
  rw [execute_eq hh.attends hstart hy' hover hfuel, seen_reported hq]

end

end Host

/-- **The two allocators give the same machine.** A process that can be created over a shared pool,
in whatever state that is, can be created over pools of its own. From then on, whatever time their
instructions take, both have made the same host calls after `k` instructions, have the same cells in
their windows, and are at the same place or at the same end, as long as the watchdog ends neither
run. And once they are at the end, executing them on two hosts gives the same result and leaves both
processes in the same state. -/
theorem same_machine_on_both_allocators (host : FunctionId → List Cell → Reply) {pool : Nat}
    {w : World} (hw : w.Reachable pool) {layout : Layout} {image : Image} {g : Segments}
    {st : Allocator × Store} (hg : (Carver.create layout image).run w.state = .ok g st)
    (s₀ : Store) :
    ∃ g₀ st₀, (Carver.create layout image).run (.separate, s₀) = .ok g₀ st₀ ∧
      (∀ (limit limit₀ now now₀ : Nat) (d d₀ : Nat → Nat) (k : Nat),
        (∀ j < k, ¬ (Execution.since host g st.2 limit now d j).Fires) →
        (∀ j < k, ¬ (Execution.since host g₀ st₀.2 limit₀ now₀ d₀ j).Fires) →
        Execution.Alike g g₀ (.since host g st.2 limit now d k)
          (.since host g₀ st₀.2 limit₀ now₀ d₀ k)) ∧
      ∀ (h h₀ : Host) (p p₀ : Nat) (q q₀ : Process) (limit limit₀ k fuel fuel₀ : Nat),
        h.Holds p q host g st.2 limit → h₀.Holds p₀ q₀ host g₀ st₀.2 limit₀ →
        (∀ j < k, ¬ (Execution.since host g st.2 limit h.now (fun _ => turnTime) j).Fires) →
        (∀ j < k, ¬ (Execution.since host g₀ st₀.2 limit₀ h₀.now (fun _ => turnTime) j).Fires) →
        ¬ (Execution.since host g st.2 limit h.now (fun _ => turnTime) k).Goes →
        k < fuel → k < fuel₀ →
          Host.seen p ((Host.execute p fuel).run h) =
            Host.seen p₀ ((Host.execute p₀ fuel₀).run h₀) := by
  have hkept : Lent pool w.live w.state := hw.kept
  obtain ⟨g₀, st₀, hg₀, hread₀, howned⟩ := Carver.create_owned (supply_lent pool) hkept hg s₀
  have hhoused₀ : Housed g₀ st₀.2 := supply_owned.housed howned
  have hcreated : g.windows.map st.2.read = Carver.contents layout image ∧ Housed g st.2 := by
    rcases Carver.create_run (supply_lent pool) hkept layout image with
      ⟨g', st', hrun, hread, hnew, -⟩ | ⟨e, st', hrun, -, -⟩
    · obtain ⟨rfl, rfl⟩ := EStateM.Result.ok.inj (hg.symm.trans hrun)
      exact ⟨hread, (supply_lent pool).housed hnew⟩
    · rw [hg] at hrun
      cases hrun
  obtain ⟨hread, hhoused⟩ := hcreated
  have hsame : g.windows.map st.2.read = g₀.windows.map st₀.2.read := hread.trans hread₀.symm
  refine ⟨g₀, st₀, hg₀, fun limit limit₀ now now₀ d d₀ k hquiet hquiet₀ => ?_,
    fun h h₀ p p₀ q q₀ limit limit₀ k fuel fuel₀ hh hh₀ hquiet hquiet₀ hover hfuel hfuel₀ => ?_⟩
  · exact Execution.since_alike hhoused hhoused₀ hsame hquiet hquiet₀
  · have halike := Execution.since_alike hhoused hhoused₀ hsame hquiet hquiet₀
    have hover₀ : ¬ (Execution.since host g₀ st₀.2 limit₀ h₀.now (fun _ => turnTime) k).Goes := by
      rintro ⟨frame, hframe⟩
      exact hover ⟨frame, halike.status.trans hframe⟩
    rw [hh.seen_execute rfl hover hfuel, hh₀.seen_execute rfl hover₀ hfuel₀, halike.status,
      halike.state]

/-- A process that ends with an unknown host function, in sixty cells of which some were lent,
written to and given back before, and over pools of its own. -/
theorem same_machine_on_both_allocators_sixty : ∃ (host : FunctionId → List Cell → Reply)
    (layout : Layout) (image : Image) (w : World) (g g₀ : Segments) (st st₀ : Allocator × Store)
    (h h₀ : Host), w.Reachable 0 ∧ (Carver.create layout image).run w.state = .ok g st ∧
      (Carver.create layout image).run (.separate, {}) = .ok g₀ st₀ ∧
      Execution.Alike g g₀ (.since host g st.2 0 0 (fun _ => turnTime) 2)
        (.since host g₀ st₀.2 0 7 (fun k => k) 2) ∧
      ¬ (Execution.since host g st.2 0 0 (fun _ => turnTime) 2).Goes ∧
      Host.seen 0 ((Host.execute 0 3).run h) = Host.seen 0 ((Host.execute 0 4).run h₀) := by
  let host : FunctionId → List Cell → Reply := fun id _ => .refuse (.unknownFunction id.raw.toInt)
  let layout : Layout := ⟨1, 1, 2⟩
  let image : Image := ⟨[.make .movl 0 0 0 7, .make .callp 0 1 0 5], []⟩
  let store : Store := ⟨#[Array.replicate 60 Cell.zero]⟩
  let actions : List Allocator.Action := [.obtain 24 .heap, .obtain 16 .stack,
    .edit ⟨⟨0, 1, 3⟩, .heap⟩ (.set 1 ⟨9, none⟩), .giveBack ⟨⟨0, 1, 3⟩, .heap⟩]
  let hostWith (g : Segments) (st : Allocator × Store) (now : Nat) : Host :=
    { store := st.2, now
      machines := #[{ parts := some ⟨st.1, layout, {}, .table []⟩ }]
      processes :=
        #[{ id := 0, segments := g, machine := some 0, control := { watchdogMs := 0 } }] }
  have hholds (g : Segments) (st : Allocator × Store) (now : Nat) :
      (hostWith g st now).Holds 0 ⟨0, g, some 0, { watchdogMs := 0 }, true⟩ host g st.2 0 :=
    ⟨⟨rfl, rfl, 0, _, rfl, rfl, fun _ _ => rfl⟩, rfl, rfl, rfl⟩
  have hsize : minimumRunCells ≤ store.size 0 ∧ store.size 0 ≤ maximumPoolCells := by decide
  obtain ⟨st, hst, -⟩ := World.exists_opened hsize.1 hsize.2
  have hw : ((World.opened st).run actions).Reachable 0 := ⟨store, st, actions, hsize, hst, rfl⟩
  have hserved : (Allocator.ofPool store 0).toOption.map (fun st =>
      decide (∃ g st', (Carver.create layout image).run ((World.opened st).run actions).state =
        .ok g st' ∧ ¬ (Execution.since host g st'.2 0 0 (fun _ => turnTime) 2).Goes)) =
          some true := by
    decide +kernel
  rw [hst] at hserved
  obtain ⟨g, st', hg, hover⟩ := of_decide_eq_true (Option.some.inj hserved)
  obtain ⟨g₀, st₀, hg₀, halike, hseen⟩ := same_machine_on_both_allocators host hw hg {}
  refine ⟨host, layout, image, _, g, g₀, st', st₀, hostWith g st' 0, hostWith g₀ st₀ 7, hw, hg,
    hg₀, ?_, hover, ?_⟩
  · exact halike 0 0 0 7 _ _ 2 (fun _ _ => Execution.since_not_fires)
      fun _ _ => Execution.since_not_fires
  · exact hseen _ _ 0 0 _ _ 0 0 2 3 4 (hholds g st' 0) (hholds g₀ st₀ 7)
      (fun _ _ => Execution.since_not_fires) (fun _ _ => Execution.since_not_fires) hover
      (by decide) (by decide)

end CellMachine
