import CellMachine.Proofs.Process.Lifecycle

/-!
# The segments of a process go back once

Three parties may find that the segments are to be handed over: whoever disposes of the process, the
thread of its run when that is over, and a run that was refused. Each decides by flags it read at
another time.

* `Parties.segments_returned_once`: they are handed over at most once, never before the process is
  disposed of, and once it is and nobody is left who could do so, they have been.

That they are not lost is a matter of who still owes something: while the flag of the run is up,
somebody is pledged to lower it (`Place.Pledged`), and from the disposal to the release either the
flag is up or somebody is due to look (`Place.Due`). That they do not go twice is decided where the
released flag is set, and `Custody` says where they are from then on.
-/

namespace CellMachine.Process

/-! ## Who owes what -/

/-- A party that has raised the flag of the background run, or took it over, and goes on to lower
it. A thread that crashed stays here for good. -/
@[simp]
def Place.Pledged : Place → Prop
  | .checking .run => True
  | .entering .run => True
  | .spawning => True
  | .unspawned => True
  | .lowering _ => True
  | place => place.UnderWay

/-- A party that goes on to find out whether the segments are to be handed over. -/
@[simp]
def Place.Due : Place → Prop
  | .stopping => True
  | .clocking => True
  | .deciding => True
  | .holding _ => True
  | .releasing _ => True
  | _ => False

/-- Sets the released flag next. -/
@[simp]
def Place.Releasing : Place → Prop
  | .releasing _ => True
  | _ => False

/-- Hands the segments over next. -/
@[simp]
def Place.Handing : Place → Prop
  | .handing _ => True
  | _ => False

/-- A call to run or to dispose of the process that has not returned, or a thread that has not. -/
@[simp]
def Place.Pending : Place → Prop
  | .raising => True
  | .disposing => True
  | .handing _ => True
  | place => place.Pledged ∨ place.Due

theorem Place.Pledged.pending {place : Place} (h : place.Pledged) : place.Pending := by
  cases place with
  | raising => trivial
  | disposing => trivial
  | handing who => trivial
  | _ => exact .inl h

theorem Place.Due.pending {place : Place} (h : place.Due) : place.Pending := by
  cases place with
  | raising => trivial
  | disposing => trivial
  | handing who => trivial
  | _ => exact .inr h

theorem Place.Handing.pending {place : Place} (h : place.Handing) : place.Pending := by
  cases place with
  | handing who => trivial
  | _ => exact h.elim

/-- What a party that goes on does to the flags, and what it owes then. -/
structure Duty (s : Shared) (p : Place) (next : Shared × Place) : Prop where
  raised : next.1.control.runActive = true → s.control.runActive = true ∨ next.2.Pledged
  pledged : p.Pledged → next.2.Pledged ∨ next.1.control.runActive = false
  lowered : s.control.runActive = true → next.1.control.runActive = true ∨ next.2.Due
  disposed : next.1.control.disposed = true ↔ s.control.disposed = true ∨ p = .disposing
  first : p = .disposing → s.control.disposed = false → next.2.Due
  due : p.Due → next.1.control.disposed = true →
    next.1.control.released = true ∨ next.1.control.runActive = true ∨ next.2.Due
  released : next.1.control.released = true ↔ s.control.released = true ∨ p.Releasing
  handing : next.2.Handing ↔ p.Releasing ∧ s.control.released = false
  handed : p.Handing → next.1.handed = s.handed + 1
  kept : ¬ p.Handing → next.1.handed = s.handed

theorem access_duty (now : Nat) (s : Shared) (p : Place) : Duty s p (access now s p) := by
  cases p with
  | raising => constructor <;> simp [access, Control.raiseActive]
  | checking why =>
    by_cases hd : s.control.disposed = true
    · rcases why with _ | _ | (_ | _) <;> constructor <;>
        simp [access, hd, Purpose.refused, Who.executed]
    · rcases why with _ | _ | (_ | _) <;> constructor <;> simp [access, hd]
  | entering why =>
    by_cases hs : s.control.state = .ready
    · rcases why with _ | _ | (_ | _) <;> constructor <;>
        simp [access, Control.enterRunning, hs, Purpose.started]
    · rcases why with _ | _ | (_ | _) <;> constructor <;>
        simp [access, Control.enterRunning, hs, Purpose.refused, Who.executed]
  | unspawned =>
    by_cases hs : s.control.state = .running <;> constructor <;> simp [access, Control.leave, hs]
  | looking who =>
    by_cases hs : s.control.state = .ready <;> cases who <;> constructor <;> simp [access, hs]
  | dispatching who => cases who <;> constructor <;> simp [access]
  | leaving ending who =>
    by_cases hs : s.control.state = .running <;> cases who <;> constructor <;>
      simp [access, Control.leave, Who.executed, hs]
  | lowering who => constructor <;> simp [access, Control.lowerActive]
  | holding who =>
    by_cases hd : s.control.disposed = true <;> cases who <;> constructor <;>
      simp [access, Who.done, hd]
  | releasing who =>
    by_cases hr : s.control.released = true <;> cases who <;> constructor <;>
      simp [access, Control.swapReleased, Who.done, hr]
  | handing who => cases who <;> constructor <;> simp [access, Who.done]
  | disposing =>
    by_cases hd : s.control.disposed = true <;> constructor <;>
      simp [access, Control.swapDisposed, hd]
  | stopping => constructor <;> simp [access, Control.writeStopped]
  | clocking => constructor <;> simp [access, Control.stopClock]
  | deciding =>
    by_cases ha : s.control.runActive = true <;> constructor <;> simp [access, ha]
  | _ => constructor <;> simp [access]

namespace Alters

variable {s : Shared} {p : Place} {next : Shared × Place}

theorem duty (h : Alters s p next) : Duty s p next := by
  cases h with
  | access now => exact access_duty now s p
  | call c => cases c <;> constructor <;> simp [Call.entry]
  | refuse => constructor <;> simp
  | finish who => cases who <;> constructor <;> simp
  | crash who => cases who <;> constructor <;> simp [Who.crashed]

theorem move (h : Alters s p next) : Move s.control p next.1.control next.2 := by
  cases h with
  | access now => exact access_move now s p
  | call c => exact .of_call c
  | refuse => exact .of_refuse
  | finish who ending => exact .of_finish who ending
  | crash who => exact .of_crash who

end Alters

namespace Parties

variable {s s' t : Parties} {i j : Nat} {next : Shared × Place}

/-! ## The release is never lost -/

/-- What is owed is owed by somebody. -/
structure Owed (s : Parties) : Prop where
  raised : s.control.runActive = true → ∃ i, (s.place i).Pledged
  disposed : s.control.disposed = true →
    s.control.released = true ∨ s.control.runActive = true ∨ ∃ i, (s.place i).Due
  sawDisposed : ∀ i, (s.place i).SawDisposed → s.control.disposed = true
  released : s.control.released = true → s.control.disposed = true

/-- Whoever does not move stays where it is. -/
theorem exists_place_put {P : Place → Prop} (h : P next.2) : ∃ k, P ((s.put i next).place k) :=
  ⟨i, by rwa [place_put_self]⟩

namespace Owed

theorem alter (hs : s.Owed) (h : Alters s.shared (s.place i) next) : (s.put i next).Owed where
  raised hraised := by
    rcases h.duty.raised hraised with hbefore | hq
    · obtain ⟨k, hk⟩ := hs.raised hbefore
      by_cases hki : k = i
      · subst hki
        rcases h.duty.pledged hk with hq | hdown
        · exact exists_place_put hq
        · exact absurd (hraised.symm.trans hdown) nofun
      · exact ⟨k, by rwa [place_put_ne _ _ _ hki]⟩
    · exact exists_place_put hq
  disposed hdisposed := by
    by_cases hbefore : s.control.disposed = true
    · rcases hs.disposed hbefore with hreleased | hraised | ⟨k, hk⟩
      · exact .inl (h.duty.released.2 (.inl hreleased))
      -- Whoever lowers the flag is the next to look.
      · rcases h.duty.lowered hraised with hstill | hq
        · exact .inr (.inl hstill)
        · exact .inr (.inr (exists_place_put hq))
      · by_cases hki : k = i
        · subst hki
          rcases h.duty.due hk hdisposed with hreleased | hraised | hq
          · exact .inl hreleased
          · exact .inr (.inl hraised)
          · exact .inr (.inr (exists_place_put hq))
        · exact .inr (.inr ⟨k, by rwa [place_put_ne _ _ _ hki]⟩)
    · rcases h.duty.disposed.1 hdisposed with habsurd | hi
      · exact absurd habsurd hbefore
      · have hq := h.duty.first hi (Bool.eq_false_iff.2 hbefore)
        exact .inr (.inr (exists_place_put hq))
  sawDisposed k hk := by
    rcases place_put_cases hk with ⟨rfl, hq⟩ | ⟨-, hp⟩
    · rcases h.move.sawDisposed hq with hdisposed | hp
      · exact hdisposed
      · exact h.move.disposed (hs.sawDisposed k hp)
    · exact h.move.disposed (hs.sawDisposed k hp)
  released hreleased := by
    rcases h.move.released hreleased with hbefore | ⟨who, hwho⟩
    · exact h.move.disposed (hs.released hbefore)
    · exact h.move.disposed (hs.sawDisposed i (by simp [hwho]))

/-- The thread takes over the pledge of the run that spawned it. -/
theorem spawn (hs : s.Owed) (hi : s.place i = .spawning) (hj : s.place j = .unborn) :
    ((s.send i .idle).send j (.looking .thread)).Owed where
  raised _ := exists_place_put trivial
  disposed hdisposed := by
    rcases hs.disposed hdisposed with hreleased | hraised | ⟨k, hk⟩
    · exact .inl hreleased
    · exact .inr (.inl hraised)
    · have hki : k ≠ i := by
        rintro rfl
        simp [hi] at hk
      have hkj : k ≠ j := by
        rintro rfl
        simp [hj] at hk
      refine .inr (.inr ⟨k, ?_⟩)
      rwa [send, place_put_ne _ _ _ hkj, send, place_put_ne _ _ _ hki]
  sawDisposed k hk := by
    rcases place_spawn_cases hk with ⟨-, hk⟩ | hk | ⟨-, hk⟩
    · exact hk.elim
    · exact hk.elim
    · exact hs.sawDisposed k hk
  released := hs.released

theorem step (hs : s.Owed) (h : Step s i s') : s'.Owed := by
  rcases h.alters_or_spawns with ⟨next, halters, rfl⟩ | ⟨j, hi, hj, rfl⟩
  · exact hs.alter halters
  · exact hs.spawn hi hj

end Owed

theorem owed_fresh (watchdogMs : Nat) : (fresh watchdogMs).Owed where
  raised := nofun
  disposed := nofun
  sawDisposed i hi := by
    rcases place_fresh (i := i) watchdogMs with h | h <;> simp [h] at hi
  released := nofun

theorem Leads.owed (h : Leads s t) (hs : s.Owed) : t.Owed := by
  induction h with
  | refl => exact hs
  | step _ hi ih => exact ih.step hi

/-! ## The release is made once -/

/-- Where the segments are: with the process, on their way with one party, or back. -/
inductive Custody (s : Parties) : Prop where
  | kept (released : s.control.released = false) (handed : s.handed = 0)
    (nobody : ∀ k, ¬ (s.place k).Handing)
  | passing (i : Nat) (released : s.control.released = true) (handed : s.handed = 0)
    (here : (s.place i).Handing) (only : ∀ k, (s.place k).Handing → k = i)
  | returned (released : s.control.released = true) (handed : s.handed = 1)
    (nobody : ∀ k, ¬ (s.place k).Handing)

namespace Custody

theorem alter (hs : s.Custody) (h : Alters s.shared (s.place i) next) : (s.put i next).Custody := by
  have hothers : ∀ k, ((s.put i next).place k).Handing →
      k = i ∧ (s.place i).Releasing ∧ s.control.released = false ∨
        k ≠ i ∧ (s.place k).Handing := by
    intro k hk
    rcases place_put_cases hk with ⟨hki, hq⟩ | hk
    · exact .inl ⟨hki, h.duty.handing.1 hq⟩
    · exact .inr hk
  cases hs with
  | kept hkept handed nobody =>
    have hsame : next.1.handed = 0 := (h.duty.kept (nobody i)).trans handed
    by_cases hi : (s.place i).Releasing
    · refine .passing i (h.duty.released.2 (.inr hi)) hsame ?_ fun k hk => ?_
      · rw [place_put_self]
        exact h.duty.handing.2 ⟨hi, hkept⟩
      · rcases hothers k hk with ⟨hki, -⟩ | ⟨-, hk⟩
        · exact hki
        · exact absurd hk (nobody k)
    · refine .kept (Bool.eq_false_iff.2 fun hr => ?_) hsame fun k hk => ?_
      · rcases h.duty.released.1 hr with hr | hi'
        · exact absurd (hkept.symm.trans hr) nofun
        · exact hi hi'
      · rcases hothers k hk with ⟨-, hi', -⟩ | ⟨-, hk⟩
        · exact hi hi'
        · exact nobody k hk
  | passing j hr handed here only =>
    have hr' := h.duty.released.2 (.inl hr)
    by_cases hij : i = j
    · subst hij
      refine .returned hr' ((h.duty.handed here).trans (congrArg (· + 1) handed)) fun k hk => ?_
      rcases hothers k hk with ⟨-, -, hfalse⟩ | ⟨hki, hk⟩
      · exact absurd (hr.symm.trans hfalse) nofun
      · exact hki (only k hk)
    · have hi : ¬ (s.place i).Handing := fun hi => hij (only i hi)
      refine .passing j hr' ((h.duty.kept hi).trans handed) ?_ fun k hk => ?_
      · rwa [place_put_ne _ _ _ (Ne.symm hij)]
      · rcases hothers k hk with ⟨-, -, hfalse⟩ | ⟨-, hk⟩
        · exact absurd (hr.symm.trans hfalse) nofun
        · exact only k hk
  | returned hr handed nobody =>
    refine .returned (h.duty.released.2 (.inl hr)) ((h.duty.kept (nobody i)).trans handed)
      fun k hk => ?_
    rcases hothers k hk with ⟨-, -, hfalse⟩ | ⟨-, hk⟩
    · exact absurd (hr.symm.trans hfalse) nofun
    · exact nobody k hk

theorem spawn (hs : s.Custody) (hi : s.place i = .spawning) (hj : s.place j = .unborn) :
    ((s.send i .idle).send j (.looking .thread)).Custody := by
  have hothers : ∀ k, (((s.send i .idle).send j (.looking .thread)).place k).Handing →
      (s.place k).Handing := by
    intro k hk
    rcases place_spawn_cases hk with ⟨-, hk⟩ | hk | ⟨-, hk⟩
    · exact hk.elim
    · exact hk.elim
    · exact hk
  cases hs with
  | kept hr handed nobody => exact .kept hr handed fun k hk => nobody k (hothers k hk)
  | passing a hr handed here only =>
    have hai : a ≠ i := by
      rintro rfl
      simp [hi] at here
    have haj : a ≠ j := by
      rintro rfl
      simp [hj] at here
    refine .passing a hr handed ?_ fun k hk => only k (hothers k hk)
    rwa [send, place_put_ne _ _ _ haj, send, place_put_ne _ _ _ hai]
  | returned hr handed nobody => exact .returned hr handed fun k hk => nobody k (hothers k hk)

theorem step (hs : s.Custody) (h : Step s i s') : s'.Custody := by
  rcases h.alters_or_spawns with ⟨next, halters, rfl⟩ | ⟨j, hi, hj, rfl⟩
  · exact hs.alter halters
  · exact hs.spawn hi hj

theorem handed_le_one (hs : s.Custody) : s.handed ≤ 1 := by
  cases hs with
  | kept _ handed => exact handed ▸ Nat.zero_le 1
  | passing _ _ handed => exact handed ▸ Nat.zero_le 1
  | returned _ handed => exact Nat.le_of_eq handed

theorem released_of_handed (hs : s.Custody) (h : s.handed ≠ 0) : s.control.released = true := by
  cases hs with
  | kept _ handed => exact absurd handed h
  | passing _ hr => exact hr
  | returned hr => exact hr

end Custody

theorem custody_fresh (watchdogMs : Nat) : (fresh watchdogMs).Custody := by
  refine .kept rfl rfl fun i => ?_
  rcases place_fresh (i := i) watchdogMs with h | h <;> simp [h]

theorem Leads.custody (h : Leads s t) (hs : s.Custody) : t.Custody := by
  induction h with
  | refl => exact hs
  | step _ hi ih => exact ih.step hi

/-! ## Exactly once -/

/-- The disposed flag says whether somebody has begun to dispose of the process. -/
theorem Step.disposed_iff (h : Step s i s') :
    s'.control.disposed = true ↔ s.control.disposed = true ∨ s.place i = .disposing := by
  rcases h.alters_or_spawns with ⟨next, halters, rfl⟩ | ⟨j, hi, -, rfl⟩
  · exact halters.duty.disposed
  · simp [hi, send, control]

/-- What is owed has been paid when nobody is left who owes it. -/
theorem handed_of_nothing_pending (howed : s.Owed) (hs : s.Custody)
    (hdisposed : s.control.disposed = true) (hpending : ∀ i, ¬ (s.place i).Pending) :
    s.handed = 1 := by
  have hreleased : s.control.released = true := by
    rcases howed.disposed hdisposed with hreleased | hraised | ⟨i, hi⟩
    · exact hreleased
    · obtain ⟨i, hi⟩ := howed.raised hraised
      exact absurd hi.pending (hpending i)
    · exact absurd hi.pending (hpending i)
  cases hs with
  | kept hkept => exact absurd (hkept.symm.trans hreleased) nofun
  | passing i _ _ here => exact absurd here.pending (hpending i)
  | returned _ handed => exact handed

/-- **Segments are returned exactly once**, over every history of accesses: never twice, never
before somebody has begun to dispose of the process, and once that has happened and no call to run
or to dispose of it and no thread is left in the middle, they have been returned. -/
theorem segments_returned_once (watchdogMs : Nat) (h : Leads (fresh watchdogMs) s) :
    s.handed ≤ 1 ∧
    (s.handed ≠ 0 → s.control.disposed = true) ∧
    (s.control.disposed = true → (∀ i, ¬ (s.place i).Pending) → s.handed = 1) ∧
    ∀ i s', Step s i s' →
      (s'.control.disposed = true ↔ s.control.disposed = true ∨ s.place i = .disposing) := by
  have howed := h.owed (owed_fresh watchdogMs)
  have hcustody := h.custody (custody_fresh watchdogMs)
  refine ⟨hcustody.handed_le_one, fun hhanded => ?_, ?_, fun i s' hi => hi.disposed_iff⟩
  · exact howed.released (hcustody.released_of_handed hhanded)
  · exact handed_of_nothing_pending howed hcustody

/-- Caller 2 disposes of the process that `started` runs on thread 1. -/
def disposedMidRun : Parties := started.put 2 (alone 0 6 started.shared .disposing)

/-- Then the run comes to its end. -/
def returnedLate : Parties :=
  let s := (disposedMidRun.go 1).send 1 (.leaving .stopped .thread)
  s.put 1 (alone 0 5 s.shared (.leaving .stopped .thread))

theorem segments_returned_once_late :
    Leads (fresh 1000) returnedLate ∧ disposedMidRun.handed = 0 ∧ returnedLate.handed = 1 := by
  obtain ⟨hstarted, hfree⟩ := orderly_started
  have hdispose : Leads started disposedMidRun := leads_call 0 6 (fun k _ => hfree k) rfl .dispose
  have hothers : ∀ k, k ≠ 1 → ∀ who, disposedMidRun.place k ≠ .holding who := by
    intro k _ who
    by_cases hk : k = 2
    · subst hk
      rintro ⟨⟩
    · rw [disposedMidRun, place_put_ne _ _ _ hk]
      exact hfree k who
  have hlook : Step disposedMidRun 1 (disposedMidRun.go 1) := .access 0 False.elim
  have hend : Step (disposedMidRun.go 1) 1 _ := .finish .thread .stopped rfl
  have hlast := leads_alone (s := (disposedMidRun.go 1).send 1 (.leaving .stopped .thread))
    (i := 1) 0 5 fun k hk who => by
      rw [send, place_put_ne _ _ _ hk, go, place_put_ne _ _ _ hk]
      exact hothers k hk who
  have hleads : Leads (fresh 1000) returnedLate :=
    (((hstarted.leads.trans hdispose).step hlook).step hend).trans hlast
  have hpending : ∀ i, ¬ (returnedLate.place i).Pending := by
    intro i
    rcases i with _ | _ | _ | i
    · rintro (h | h) <;> exact h
    · rintro (h | h) <;> exact h
    · rintro (h | h) <;> exact h
    · have hsame : returnedLate.place (i + 3) = (fresh 1000).place (i + 3) := by
        simp only [returnedLate, disposedMidRun, started, go, send]
        repeat rw [place_put_ne _ _ _ (by omega)]
      rcases place_fresh (i := i + 3) 1000 with h | h <;> simp [hsame, h]
  exact ⟨hleads, rfl, (segments_returned_once 1000 hleads).2.2.1 rfl hpending⟩

end Parties

end CellMachine.Process
