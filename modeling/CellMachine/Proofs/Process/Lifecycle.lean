import CellMachine.Proofs.Process.Deferral

/-!
# The life of a process, access by access

Whatever calls are made and however their accesses fall, a process is started once and ends once.

* `Parties.life_cycle`: the state moves as `Shifts` says and in no other way, a start succeeds at
  most once, at most one thread is ever spawned, and a process that was disposed of stays stopped.

What one party does is said once, in `Alters`; a spawn is the only step that moves two. No state
leads back to `ready`, so whoever finds the process ready is the first, and that carries the rest.
-/

namespace CellMachine.Process

/-! ## What a step alters -/

/-- One party goes from one place to another, and alters what all share. -/
inductive Alters (s : Shared) : Place → Shared × Place → Prop where
  | access (now : Nat) (p : Place) : Alters s p (access now s p)
  | call (c : Call) : Alters s .idle (s, c.entry)
  | refuse : Alters s .spawning (s, .unspawned)
  | finish (who : Who) (ending : Ending) : Alters s (.dispatching who) (s, .leaving ending who)
  | crash (who : Who) : Alters s (.dispatching who) (s, who.crashed)

/-- How the state of a process shifts, and at which place of the party that shifts it. -/
inductive Shifts : Place → ProcessState → ProcessState → Prop where
  | start (why : Purpose) : Shifts (.entering why) .ready .running
  | leave (ending : Ending) (who : Who) : Shifts (.leaving ending who) .running ending.state
  | unspawned : Shifts .unspawned .running .faulted
  | dispose (state : ProcessState) : Shifts .stopping state .stopped

/-- A thread that was spawned, whether it has returned or not. -/
@[simp]
def Place.OfThread : Place → Prop
  | .lowering .thread => True
  | .holding .thread => True
  | .releasing .thread => True
  | .handing .thread => True
  | .gone => True
  | place => place.UnderWay

/-- A run that started the process, or the thread it spawned. -/
@[simp]
def Place.RunStarted : Place → Prop
  | .spawning => True
  | place => place.OfThread

theorem Place.OfThread.runStarted {place : Place} (h : place.OfThread) : place.RunStarted := by
  cases place with
  | spawning => trivial
  | _ => exact h

theorem Shifts.ready {p : Place} {a : ProcessState} (h : Shifts p a .ready) : False := by
  generalize hb : ProcessState.ready = b at h
  cases h with
  | leave ending => cases ending <;> cases hb
  | _ => cases hb

/-- A stopped process stays so: what shifts it can only be another disposal. -/
theorem Shifts.stopped {p : Place} {b : ProcessState} (h : Shifts p .stopped b) : b = .stopped := by
  cases h
  rfl

theorem access_shifts (now : Nat) (s : Shared) (p : Place) :
    (access now s p).1.control.state = s.control.state ∨
      Shifts p s.control.state (access now s p).1.control.state := by
  cases p with
  | entering why =>
    by_cases hs : s.control.state = .ready
    · rw [access, Control.enterRunning, if_pos hs, hs]
      exact .inr (.start why)
    · rw [access, Control.enterRunning, if_neg hs]
      exact .inl rfl
  | unspawned =>
    by_cases hs : s.control.state = .running
    · rw [access, Control.leave, if_pos hs, hs]
      exact .inr .unspawned
    · rw [access, Control.leave, if_neg hs]
      exact .inl rfl
  | leaving ending who =>
    by_cases hs : s.control.state = .running
    · rw [access, Control.leave, if_pos hs, hs]
      exact .inr (.leave ending who)
    · rw [access, Control.leave, if_neg hs]
      exact .inl rfl
  | stopping => exact .inr (.dispose _)
  | _ => exact .inl rfl

/-- A run has started the process after an access if it had before, or if it found the process
ready just now. -/
theorem access_runStarted (now : Nat) (s : Shared) (p : Place)
    (h : (access now s p).2.RunStarted) :
    p.RunStarted ∨ s.control.state = .ready ∧ (access now s p).1.control.state = .running := by
  cases p with
  | checking why =>
    by_cases hd : s.control.disposed = true
    · rcases why with _ | _ | (_ | _) <;> simp_all [access, Purpose.refused, Who.executed]
    · rcases why with _ | _ | (_ | _) <;> simp_all [access]
  | entering why =>
    by_cases hs : s.control.state = .ready
    · rcases why with _ | _ | (_ | _) <;> simp_all [access, Control.enterRunning]
    · rcases why with _ | _ | (_ | _) <;>
        simp_all [access, Control.enterRunning, Purpose.refused, Who.executed]
  | looking who =>
    by_cases hs : s.control.state = .ready <;> cases who <;> simp_all [access]
  | leaving ending who => cases who <;> simp_all [access, Who.executed]
  | lowering who => cases who <;> simp_all [access]
  | holding who =>
    by_cases hd : s.control.disposed = true <;> cases who <;> simp_all [access, Who.done]
  | releasing who =>
    by_cases hr : s.control.released = true <;> cases who <;>
      simp_all [access, Control.swapReleased, Who.done]
  | handing who => cases who <;> simp_all [access, Who.done]
  | disposing =>
    by_cases hd : s.control.disposed = true <;> simp_all [access, Control.swapDisposed]
  | deciding => by_cases ha : s.control.runActive = true <;> simp_all [access]
  | _ => simp_all [access]

namespace Alters

variable {s : Shared} {p : Place} {next : Shared × Place}

theorem shifts (h : Alters s p next) :
    next.1.control.state = s.control.state ∨ Shifts p s.control.state next.1.control.state := by
  cases h with
  | access now => exact access_shifts now s p
  | _ => exact .inl rfl

theorem runStarted (h : Alters s p next) (hq : next.2.RunStarted) :
    p.RunStarted ∨ s.control.state = .ready ∧ next.1.control.state = .running := by
  cases h with
  | access now => exact access_runStarted now s p hq
  | call c => cases c <;> simp_all [Call.entry]
  | refuse => simp at hq
  | finish who => cases who <;> simp_all
  | crash who => cases who <;> simp_all [Who.crashed]

end Alters

namespace Parties

variable {s s' t : Parties} {i j : Nat}

/-- A step lets one party alter what all share, or spawns a thread. -/
theorem Step.alters_or_spawns (h : Step s i s') :
    (∃ next, Alters s.shared (s.place i) next ∧ s' = s.put i next) ∨
      ∃ j, s.place i = .spawning ∧ s.place j = .unborn ∧
        s' = (s.send i .idle).send j (.looking .thread) := by
  cases h with
  | access now => exact .inl ⟨_, .access now _, rfl⟩
  | call c idle => exact .inl ⟨_, idle ▸ .call c, rfl⟩
  | spawn j here unborn => exact .inr ⟨j, here, unborn, rfl⟩
  | refuse here => exact .inl ⟨_, here ▸ .refuse, rfl⟩
  | finish who ending here => exact .inl ⟨_, here ▸ .finish who ending, rfl⟩
  | crash who here => exact .inl ⟨_, here ▸ .crash who, rfl⟩

/-- What is so of some place after a spawn is so of the new thread, of the caller that returned, or
was so before of somebody else. -/
theorem place_spawn_cases {P : Place → Prop} {k : Nat}
    (h : P (((s.send i .idle).send j (.looking .thread)).place k)) :
    k = j ∧ P (.looking .thread) ∨ P .idle ∨ k ≠ i ∧ P (s.place k) := by
  rcases place_put_cases h with hk | ⟨-, hk⟩
  · exact .inl hk
  · rcases place_put_cases hk with ⟨-, hk⟩ | hk
    · exact .inr (.inl hk)
    · exact .inr (.inr hk)

theorem Step.shifts (h : Step s i s') :
    s'.control.state = s.control.state ∨
      Shifts (s.place i) s.control.state s'.control.state := by
  rcases h.alters_or_spawns with ⟨next, halters, rfl⟩ | ⟨j, -, -, rfl⟩
  · exact halters.shifts
  · exact .inl rfl

/-! ## States that last -/

theorem Leads.not_ready (h : Leads s t) (hs : s.control.state ≠ .ready) :
    t.control.state ≠ .ready := by
  induction h with
  | refl => exact hs
  | step _ hi ih =>
    intro hready
    rcases hi.shifts with hsame | hshift
    · exact ih (hsame ▸ hready)
    · rw [hready] at hshift
      exact hshift.ready

theorem Leads.stopped (h : Leads s t) (hs : s.control.state = .stopped) :
    t.control.state = .stopped := by
  induction h with
  | refl => exact hs
  | step _ hi ih =>
    rcases hi.shifts with hsame | hshift
    · exact hsame.trans ih
    · rw [ih] at hshift
      exact hshift.stopped

/-! ## One start, one thread -/

/-- The next access of a party starts the process. -/
def Starts (s : Parties) (i : Nat) : Prop :=
  s.control.state = .ready ∧ ∃ why, s.place i = .entering why

theorem Starts.running (hs : s.Starts i) (h : Step s i s') : s'.control.state = .running := by
  obtain ⟨hready, why, hwhy⟩ := hs
  have hready' : s.shared.control.state = .ready := hready
  cases h with
  | access now =>
    rw [control, shared_put, hwhy, access, Control.enterRunning, if_pos hready']
  | _ => simp_all

/-- At most one run has started the process, and none while it is ready. -/
structure Sole (s : Parties) : Prop where
  single : ∀ i j, (s.place i).RunStarted → (s.place j).RunStarted → i = j
  ready : s.control.state = .ready → ∀ i, ¬ (s.place i).RunStarted

namespace Sole

theorem alter (hs : s.Sole) {next : Shared × Place} (h : Alters s.shared (s.place i) next) :
    (s.put i next).Sole where
  single a b ha hb := by
    have hfirst : ∀ k, next.2.RunStarted → k ≠ i → (s.place k).RunStarted → False := by
      intro k hq hki hk
      rcases h.runStarted hq with hp | ⟨hready, -⟩
      · exact hki (hs.single k i hk hp)
      · exact hs.ready hready k hk
    rcases place_put_cases ha with ⟨rfl, hqa⟩ | ⟨hai, hpa⟩
    · rcases place_put_cases hb with ⟨rfl, -⟩ | ⟨hbi, hpb⟩
      · rfl
      · exact (hfirst b hqa hbi hpb).elim
    · rcases place_put_cases hb with ⟨rfl, hqb⟩ | ⟨-, hpb⟩
      · exact (hfirst a hqb hai hpa).elim
      · exact hs.single a b hpa hpb
  ready hready k hk := by
    have hbefore : s.control.state = .ready := by
      rcases h.shifts with hsame | hshift
      · exact hsame.symm.trans hready
      · exact absurd (hready ▸ hshift) Shifts.ready
    rcases place_put_cases hk with ⟨rfl, hq⟩ | ⟨-, hp⟩
    · rcases h.runStarted hq with hp | ⟨-, hrunning⟩
      · exact hs.ready hbefore k hp
      · cases hready.symm.trans hrunning
    · exact hs.ready hbefore k hp

/-- The thread that is spawned is the only one left of the run that started the process. -/
theorem spawn (hs : s.Sole) (hi : s.place i = .spawning) :
    ((s.send i .idle).send j (.looking .thread)).Sole where
  single a b ha hb := by
    have hthread : ∀ k, (((s.send i .idle).send j (.looking .thread)).place k).RunStarted →
        k = j := by
      intro k hk
      rcases place_spawn_cases hk with ⟨hkj, -⟩ | hidle | ⟨hki, hk⟩
      · exact hkj
      · exact hidle.elim
      · exact absurd (hs.single k i hk (by simp [hi])) hki
    exact (hthread a ha).trans (hthread b hb).symm
  ready hready := absurd (by simp [hi]) (hs.ready hready i)

theorem step (hs : s.Sole) (h : Step s i s') : s'.Sole := by
  rcases h.alters_or_spawns with ⟨next, halters, rfl⟩ | ⟨j, hi, -, rfl⟩
  · exact hs.alter halters
  · exact hs.spawn hi

end Sole

theorem sole_fresh (watchdogMs : Nat) : (fresh watchdogMs).Sole := by
  have hnone : ∀ i, ¬ ((fresh watchdogMs).place i).RunStarted := by
    intro i
    rcases place_fresh (i := i) watchdogMs with h | h <;> simp [h]
  exact ⟨fun i _ hi => absurd hi (hnone i), fun _ => hnone⟩

theorem Leads.sole (h : Leads s t) (hs : s.Sole) : t.Sole := by
  induction h with
  | refl => exact hs
  | step _ hi ih => exact ih.step hi

/-! ## The life cycle -/

/-- **The life of a process**, over every history of accesses. A step leaves the state as it is or
shifts it from ready to running, from running to an end, or by a disposal to stopped; a start that
succeeds is the last one; there is at most one thread, those that returned included; and once a
disposal has made the process stopped, it is stopped for good. -/
theorem life_cycle (watchdogMs : Nat) (h : Leads (fresh watchdogMs) s) (hi : Step s i s') :
    (s'.control.state = s.control.state ∨
      Shifts (s.place i) s.control.state s'.control.state) ∧
    (s.Starts i → s'.control.state = .running ∧ ∀ t, Leads s' t → ∀ j, ¬ t.Starts j) ∧
    (∀ j k, (s'.place j).OfThread → (s'.place k).OfThread → j = k) ∧
    (s.place i = .stopping → ∀ t, Leads s' t → t.control.state = .stopped) := by
  refine ⟨hi.shifts, fun hstarts => ?_, fun j k hj hk => ?_, fun hstopping t ht => ?_⟩
  · have hrunning := hstarts.running hi
    refine ⟨hrunning, fun t ht j hagain => ?_⟩
    have hnot : s'.control.state ≠ .ready := by
      rw [hrunning]
      exact nofun
    exact ht.not_ready hnot hagain.1
  · exact ((h.sole (sole_fresh watchdogMs)).step hi).single j k hj.runStarted hk.runStarted
  · apply ht.stopped
    cases hi with
    | access now => rw [control, shared_put, hstopping, access, Control.writeStopped]
    | _ => simp_all

/-- A process that caller 0 is about to start. -/
def aboutToStart : Parties := (fresh 1000).put 0 (alone 0 2 (fresh 1000).shared .raising)

/-- A process that caller 2 is about to stop for good. -/
def aboutToStop : Parties := (fresh 1000).put 2 (alone 0 1 (fresh 1000).shared .disposing)

theorem life_cycle_two_callers :
    aboutToStart.Starts 0 ∧ (aboutToStart.go 0).control.state = .running ∧
      (∀ t, Leads (aboutToStart.go 0) t → ∀ j, ¬ t.Starts j) ∧
      aboutToStop.place 2 = .stopping ∧
      ∀ t, Leads (aboutToStop.go 2) t → t.control.state = .stopped := by
  have hrun : Leads (fresh 1000) aboutToStart :=
    leads_call 0 2 (fun k _ => free_fresh 1000 k) rfl .run
  have hdispose : Leads (fresh 1000) aboutToStop :=
    leads_call 0 1 (fun k _ => free_fresh 1000 k) rfl .dispose
  have hstarts : aboutToStart.Starts 0 := ⟨rfl, .run, rfl⟩
  obtain ⟨hrunning, hlast⟩ := (life_cycle 1000 hrun (.access 0 False.elim)).2.1 hstarts
  have hstopped := (life_cycle (i := 2) 1000 hdispose (.access 0 False.elim)).2.2.2 rfl
  exact ⟨hstarts, hrunning, hlast, rfl, hstopped⟩

end Parties

end CellMachine.Process
