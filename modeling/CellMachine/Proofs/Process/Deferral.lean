import CellMachine.Proofs.Process.Parties

/-!
# Release is left to the end of a run

A process may be disposed of while a background run executes in its segments. They are to be handed
over when that run is over, and not before.

* `Parties.release_waits_for_run`: no access hands them over while a run is under way, unless a run
  that was refused has lowered the flag of another; and once that has happened, it may well be that
  they are handed over too early.

A party that reads the flag or lowers it acts on what it found later, when others have gone on. The
invariant `Parties.Guarded` therefore says of the parties that are past the flag (`Place.Resolved`)
that no run is on, and of the runs that are on (`Place.Live`) that the flag is up. What one move can
do is said once, in `Move`.
-/

namespace CellMachine.Process

/-! ## Where a run stands -/

/-- A thread that was spawned and has not returned from executing the process. One that crashed
never returns. -/
@[simp]
def Place.UnderWay : Place → Prop
  | .looking .thread => True
  | .checking (.execute .thread) => True
  | .entering (.execute .thread) => True
  | .dispatching .thread => True
  | .leaving _ .thread => True
  | .lost => True
  | _ => False

/-- A run that is under way, or will be unless somebody else starts or disposes of the process. -/
@[simp]
def Place.Live (c : Control) : Place → Prop
  | .checking .run => c.state = .ready ∧ c.disposed = false
  | .entering .run => c.state = .ready
  | .spawning => True
  | place => place.UnderWay

/-- A run that started the process and has not lowered its flag. -/
@[simp]
def Place.Started : Place → Prop
  | .spawning => True
  | .lowering .thread => True
  | place => place.UnderWay

/-- A party that may hand the segments over without looking at the flag of the run again. -/
@[simp]
def Place.Resolved : Place → Prop
  | .holding _ => True
  | .releasing _ => True
  | .handing _ => True
  | _ => False

/-- A party that found or made the process disposed of. -/
@[simp]
def Place.SawDisposed : Place → Prop
  | .releasing _ => True
  | .handing _ => True
  | .stopping => True
  | .clocking => True
  | .deciding => True
  | _ => False

theorem Place.UnderWay.live {c : Control} {place : Place} (h : place.UnderWay) :
    place.Live c := by
  fun_cases UnderWay <;> simp_all

theorem Place.UnderWay.started {place : Place} (h : place.UnderWay) : place.Started := by
  fun_cases UnderWay <;> simp_all

theorem Place.Live.started {c : Control} {place : Place} (h : place.Live c)
    (hc : c.state ≠ .ready) : place.Started := by
  unfold Live at h
  split at h
  · exact absurd h.1 hc
  · exact absurd h hc
  · trivial
  · exact UnderWay.started h

theorem Place.Live.mono {c c' : Control} {place : Place} (h : place.Live c')
    (hready : c'.state = .ready → c.state = .ready)
    (hdisposed : c.disposed = true → c'.disposed = true) : place.Live c := by
  unfold Live at h ⊢
  split at h
  · exact ⟨hready h.1, Bool.eq_false_iff.2 fun hd => by simp [hdisposed hd] at h⟩
  · exact hready h
  · trivial
  · exact h

theorem Place.Resolved.holds_or_saw {place : Place} (h : place.Resolved) :
    (∃ who, place = .holding who) ∨ place.SawDisposed := by
  unfold Resolved at h
  split at h
  · next who => exact .inl ⟨who, rfl⟩
  · exact .inr trivial
  · exact .inr trivial
  · exact h.elim

/-! ## What one move can do -/

/-- What the move of one party, from `p` to `q`, does to a control block that was `c` and is `c'`.
Everything about whole histories is derived from this. -/
structure Move (c : Control) (p : Place) (c' : Control) (q : Place) : Prop where
  ready : c'.state = .ready → c.state = .ready
  disposed : c.disposed = true → c'.disposed = true
  active : c.runActive = true → c'.runActive = true ∨ ∃ who, p = .lowering who
  released : c'.released = true → c.released = true ∨ ∃ who, p = .releasing who
  live : q.Live c' → p.Live c ∨ p = .raising ∧ c'.runActive = true ∧ c.disposed = false
  started : q.Started → p.Started ∨ c.state = .ready ∧ c'.state ≠ .ready
  resolved : q.Resolved →
    p.Resolved ∨ (∃ who, p = .lowering who) ∨ p = .deciding ∧ c.runActive = false
  sawDisposed : q.SawDisposed → c'.disposed = true ∨ p.SawDisposed

theorem Move.of_call {c : Control} (call : Call) : Move c .idle c call.entry := by
  cases call <;> constructor <;> simp [Call.entry]

theorem Move.of_refuse {c : Control} : Move c .spawning c .unspawned := by
  constructor <;> simp

theorem Move.of_finish {c : Control} (who : Who) (ending : Ending) :
    Move c (.dispatching who) c (.leaving ending who) := by
  cases who <;> constructor <;> simp

theorem Move.of_crash {c : Control} (who : Who) : Move c (.dispatching who) c who.crashed := by
  cases who <;> constructor <;> simp [Who.crashed]

theorem access_move (now : Nat) (s : Shared) (p : Place) :
    Move s.control p (access now s p).1.control (access now s p).2 := by
  cases p with
  | unborn => constructor <;> simp [access]
  | idle => constructor <;> simp [access]
  | gone => constructor <;> simp [access]
  | lost => constructor <;> simp [access]
  | raising => constructor <;> simp [access, Control.raiseActive]
  | checking why =>
    by_cases hd : s.control.disposed = true
    · rcases why with _ | _ | (_ | _) <;> constructor <;>
        simp [access, hd, Purpose.refused, Who.executed]
    · rcases why with _ | _ | (_ | _) <;> constructor <;> simp [access, hd]
  | entering why =>
    by_cases hs : s.control.state = .ready
    · rcases why with _ | _ | (_ | _) <;> constructor <;>
        simp [access, Control.enterRunning, hs, Purpose.started]
    · rcases why with _ | _ | (_ | _) <;> constructor <;>
        simp [access, Control.enterRunning, hs, Purpose.refused, Who.executed]
  | spawning => constructor <;> simp [access]
  | unspawned =>
    by_cases hs : s.control.state = .running <;> constructor <;> simp [access, Control.leave, hs]
  | looking who =>
    by_cases hs : s.control.state = .ready <;> cases who <;> constructor <;> simp [access, hs]
  | dispatching who => constructor <;> simp [access]
  | leaving ending who =>
    by_cases hs : s.control.state = .running <;> cases ending <;> cases who <;> constructor <;>
      simp [access, Control.leave, Ending.state, Who.executed, hs]
  | lowering who => constructor <;> simp [access, Control.lowerActive]
  | holding who =>
    by_cases hd : s.control.disposed = true <;> cases who <;> constructor <;>
      simp [access, Who.done, hd]
  | releasing who =>
    by_cases hr : s.control.released = true <;> cases who <;> constructor <;>
      simp [access, Control.swapReleased, Who.done, hr]
  | handing who => cases who <;> constructor <;> simp [access, Who.done]
  | disposing =>
    by_cases hd : s.control.disposed = true <;> constructor <;>
      simp [access, Control.swapDisposed, hd]
  | stopping => constructor <;> simp [access, Control.writeStopped]
  | clocking => constructor <;> simp [access, Control.stopClock]
  | deciding =>
    by_cases ha : s.control.runActive = true <;> constructor <;> simp [access, ha]

namespace Parties

/-- A run is on. -/
def Busy (s : Parties) : Prop := ∃ i, (s.place i).Live s.control

/-- A refused run is about to lower the flag of a run that is on. -/
def Disturbs (s : Parties) (i : Nat) : Prop := s.place i = .lowering .caller ∧ s.Busy

/-- What keeps the segments where they are while a run is on. -/
structure Guarded (s : Parties) : Prop where
  single : ∀ i j, (s.place i).Started → (s.place j).Started → i = j
  ready : s.control.state = .ready → ∀ i, ¬ (s.place i).Started
  raised : s.Busy → s.control.runActive = true
  resolved : ∀ i, (s.place i).Resolved → ¬ s.Busy
  sawDisposed : ∀ i, (s.place i).SawDisposed → s.control.disposed = true
  released : s.control.released = true → s.control.disposed = true ∧ ¬ s.Busy

variable {s s' : Parties} {i : Nat} {next : Shared × Place}

/-! ## Moves keep the guard -/

theorem busy_of_put (hm : Move s.control (s.place i) next.1.control next.2)
    (h : (s.put i next).Busy) :
    s.Busy ∨ s.place i = .raising ∧ next.1.control.runActive = true ∧
      s.control.disposed = false := by
  obtain ⟨k, hk⟩ := h
  by_cases hki : k = i
  · subst hki
    rw [place_put_self] at hk
    rcases hm.live hk with hlive | hraise
    · exact .inl ⟨k, hlive⟩
    · exact .inr hraise
  · rw [place_put_ne _ _ _ hki] at hk
    exact .inl ⟨k, hk.mono hm.ready hm.disposed⟩

/-- What is so of a place after a move was so before, or is so of the place the party went to. -/
theorem place_put_cases {P : Place → Prop} {k : Nat} (h : P ((s.put i next).place k)) :
    k = i ∧ P next.2 ∨ k ≠ i ∧ P (s.place k) := by
  by_cases hki : k = i
  · subst hki
    exact .inl ⟨rfl, by simpa using h⟩
  · exact .inr ⟨hki, by rwa [place_put_ne _ _ _ hki] at h⟩

namespace Guarded

/-- The guard survives any move, as long as the flag is raised with the lock free and lowered with
no run on. -/
theorem move (hg : s.Guarded) (hm : Move s.control (s.place i) next.1.control next.2)
    (hraise : s.place i = .raising → s.Free)
    (hlower : ∀ who, s.place i = .lowering who → ¬ s.Busy) : (s.put i next).Guarded where
  single a b ha hb := by
    -- Whoever starts the process finds it ready, and then nobody else has started it.
    have hfirst : ∀ k, next.2.Started → k ≠ i → (s.place k).Started → False := by
      intro k hq hki hk
      rcases hm.started hq with hp | ⟨hready, -⟩
      · exact hki (hg.single k i hk hp)
      · exact hg.ready hready k hk
    rcases place_put_cases ha with ⟨rfl, hqa⟩ | ⟨hai, hpa⟩ <;>
      rcases place_put_cases hb with ⟨rfl, hqb⟩ | ⟨hbi, hpb⟩
    · rfl
    · exact (hfirst b hqa hbi hpb).elim
    · exact (hfirst a hqb hai hpa).elim
    · exact hg.single a b hpa hpb
  ready hready k hk := by
    have hnone := hg.ready (hm.ready hready)
    rcases place_put_cases hk with ⟨rfl, hq⟩ | ⟨-, hp⟩
    · rcases hm.started hq with hp | ⟨-, hleft⟩
      · exact hnone k hp
      · exact hleft hready
    · exact hnone k hp
  raised hbusy := by
    rcases busy_of_put hm hbusy with hon | ⟨-, hactive, -⟩
    · rcases hm.active (hg.raised hon) with hactive | ⟨who, hwho⟩
      · exact hactive
      · exact absurd hon (hlower who hwho)
    · exact hactive
  resolved k hk hbusy := by
    rcases busy_of_put hm hbusy with hon | ⟨hraising, -, hdisposed⟩
    · rcases place_put_cases hk with ⟨rfl, hq⟩ | ⟨-, hp⟩
      · rcases hm.resolved hq with hp | ⟨who, hwho⟩ | ⟨-, hactive⟩
        · exact hg.resolved k hp hon
        · exact hlower who hwho hon
        · simp [hg.raised hon] at hactive
      · exact hg.resolved k hp hon
    -- A run that comes on found the lock free and the process not disposed of.
    · rcases place_put_cases hk with ⟨rfl, hq⟩ | ⟨-, hp⟩
      · rcases hm.resolved hq with hp | ⟨who, hwho⟩ | ⟨hp, -⟩ <;> simp_all
      · rcases hp.holds_or_saw with ⟨who, hwho⟩ | hsaw
        · exact hraise hraising k who hwho
        · simp [hg.sawDisposed k hsaw] at hdisposed
  sawDisposed k hk := by
    rcases place_put_cases hk with ⟨rfl, hq⟩ | ⟨-, hp⟩
    · rcases hm.sawDisposed hq with hdisposed | hp
      · exact hdisposed
      · exact hm.disposed (hg.sawDisposed k hp)
    · exact hm.disposed (hg.sawDisposed k hp)
  released hr := by
    have hbefore : s.control.disposed = true ∧ ¬ s.Busy := by
      rcases hm.released hr with hr | ⟨who, hwho⟩
      · exact hg.released hr
      · have hsaw : (s.place i).SawDisposed := by simp [hwho]
        have hresolved : (s.place i).Resolved := by simp [hwho]
        exact ⟨hg.sawDisposed i hsaw, hg.resolved i hresolved⟩
    refine ⟨hm.disposed hbefore.1, fun hbusy => ?_⟩
    rcases busy_of_put hm hbusy with hbusy | ⟨-, -, hdisposed⟩
    · exact hbefore.2 hbusy
    · simp [hbefore.1] at hdisposed

/-- The thread takes the place of the call that spawned it. -/
theorem spawn (hg : s.Guarded) {j : Nat} (hi : s.place i = .spawning) :
    ((s.send i .idle).send j (.looking .thread)).Guarded := by
  have hstarted : (s.place i).Started := by simp [hi]
  have hbusy : s.Busy := ⟨i, by simp [hi]⟩
  have hplace : ∀ {P : Place → Prop} {k : Nat},
      P (((s.send i .idle).send j (.looking .thread)).place k) →
        k = j ∧ P (.looking .thread) ∨ P .idle ∨ k ≠ i ∧ P (s.place k) := by
    intro P k hk
    rcases place_put_cases hk with hk | ⟨-, hk⟩
    · exact .inl hk
    · rcases place_put_cases hk with ⟨-, hk⟩ | hk
      · exact .inr (.inl hk)
      · exact .inr (.inr hk)
  have hthread : ∀ k, (((s.send i .idle).send j (.looking .thread)).place k).Started → k = j := by
    intro k hk
    rcases hplace hk with ⟨hkj, -⟩ | hidle | ⟨hki, hk⟩
    · exact hkj
    · exact hidle.elim
    · exact absurd (hg.single k i hk hstarted) hki
  refine ⟨fun a b ha hb => (hthread a ha).trans (hthread b hb).symm, fun hready => ?_,
    fun _ => hg.raised hbusy, fun k hk => ?_, fun k hk => ?_, fun hr => ?_⟩
  · exact absurd hstarted (hg.ready hready i)
  · rcases hplace hk with ⟨-, hk⟩ | hk | ⟨-, hk⟩
    · exact hk.elim
    · exact hk.elim
    · exact absurd hbusy (hg.resolved k hk)
  · rcases hplace hk with ⟨-, hk⟩ | hk | ⟨-, hk⟩
    · exact hk.elim
    · exact hk.elim
    · exact hg.sawDisposed k hk
  · exact absurd hbusy (hg.released hr).2

theorem not_busy_of_lowering (hg : s.Guarded) (hi : s.place i = .lowering .thread) :
    ¬ s.Busy := by
  rintro ⟨j, hj⟩
  have hstarted : (s.place i).Started := by simp [hi]
  have hstate : s.control.state ≠ .ready := fun hready => hg.ready hready i hstarted
  obtain rfl := hg.single j i (hj.started hstate) hstarted
  simp [hi] at hj

theorem step (hg : s.Guarded) (h : Step s i s') (hd : ¬ s.Disturbs i) : s'.Guarded := by
  cases h with
  | access now free =>
    refine hg.move (access_move now s.shared (s.place i)) (fun hi => free (by simp [hi])) ?_
    intro who hwho
    cases who with
    | caller => exact fun hbusy => hd ⟨hwho, hbusy⟩
    | thread => exact hg.not_busy_of_lowering hwho
  | call c idle => exact hg.move (idle ▸ .of_call c) (by simp [idle]) (by simp [idle])
  | spawn j here unborn => exact hg.spawn here
  | refuse here => exact hg.move (here ▸ .of_refuse) (by simp [here]) (by simp [here])
  | finish who ending here =>
    exact hg.move (here ▸ .of_finish who ending) (by simp [here]) (by simp [here])
  | crash who here => exact hg.move (here ▸ .of_crash who) (by simp [here]) (by simp [here])

end Guarded

/-! ## Histories -/

/-- One state leads to another without a refused run lowering the flag of a run that is on. -/
inductive Orderly : Parties → Parties → Prop where
  | refl (s : Parties) : Orderly s s
  | step {s t u : Parties} {i : Nat} (h : Orderly s t) (hi : Step t i u) (hd : ¬ t.Disturbs i) :
    Orderly s u

theorem place_fresh (watchdogMs : Nat) :
    (fresh watchdogMs).place i = .idle ∨ (fresh watchdogMs).place i = .unborn := by
  by_cases hi : i % 2 = 0
  · exact .inl (if_pos hi)
  · exact .inr (if_neg hi)

theorem free_fresh (watchdogMs : Nat) : (fresh watchdogMs).Free := by
  intro i who
  rcases place_fresh (i := i) watchdogMs with h | h <;> simp [h]

theorem guarded_fresh (watchdogMs : Nat) : (fresh watchdogMs).Guarded := by
  have hidle : ¬ (fresh watchdogMs).Busy := by
    rintro ⟨i, hi⟩
    rcases place_fresh (i := i) watchdogMs with h | h <;> simp [h] at hi
  refine ⟨fun i _ hi => ?_, fun _ i hi => ?_, fun hbusy => absurd hbusy hidle, fun _ _ => hidle,
    fun i hi => ?_, fun hr => by simp [fresh, control] at hr⟩
  · rcases place_fresh (i := i) watchdogMs with h | h <;> simp [h] at hi
  · rcases place_fresh (i := i) watchdogMs with h | h <;> simp [h] at hi
  · rcases place_fresh (i := i) watchdogMs with h | h <;> simp [h] at hi

theorem Orderly.trans {t u : Parties} (h : Orderly s t) (h' : Orderly t u) : Orderly s u := by
  induction h' with
  | refl => exact h
  | step _ hi hd ih => exact .step ih hi hd

theorem Orderly.leads {t : Parties} (h : Orderly s t) : Leads s t := by
  induction h with
  | refl => exact .refl _
  | step _ hi _ ih => exact .step ih hi

theorem Orderly.guarded {t : Parties} (h : Orderly s t) (hs : s.Guarded) : t.Guarded := by
  induction h with
  | refl => exact hs
  | step _ hi hd ih => exact ih.step hi hd

/-- Only one access hands segments over. -/
theorem Step.handed (h : Step s i s') :
    s'.handed = s.handed ∨ ∃ who, s.place i = .handing who := by
  cases h with
  | access now free =>
    rw [handed_put]
    cases hi : s.place i with
    | handing who => exact .inr ⟨who, rfl⟩
    | entering why =>
      refine .inl ?_
      simp only [Process.access]
      split <;> rfl
    | _ => exact .inl rfl
  | _ => exact .inl rfl

theorem Guarded.handed_eq (hg : s.Guarded) {j : Nat} (hj : (s.place j).UnderWay)
    (h : Step s i s') : s'.handed = s.handed := by
  rcases h.handed with hsame | ⟨who, hwho⟩
  · exact hsame
  · have hresolved : (s.place i).Resolved := by simp [hwho]
    exact absurd ⟨j, hj.live⟩ (hg.resolved i hresolved)

/-! ## Threads that are still to be spawned -/

/-- There are threads without end. -/
def Roomy (s : Parties) : Prop := ∃ n, ∀ k, n ≤ k → k % 2 = 1 → s.place k = .unborn

theorem Roomy.put (h : s.Roomy) : (s.put i next).Roomy := by
  obtain ⟨n, hn⟩ := h
  refine ⟨max n (i + 1), fun k hk hodd => ?_⟩
  rw [place_put_ne _ _ _ (by omega)]
  exact hn k (by omega) hodd

theorem Orderly.roomy {t : Parties} (h : Orderly s t) (hs : s.Roomy) : t.Roomy := by
  induction h with
  | refl => exact hs
  | step _ hi _ ih =>
    cases hi with
    | spawn j here unborn => exact ih.put.put
    | _ => exact ih.put

theorem roomy_fresh (watchdogMs : Nat) : (fresh watchdogMs).Roomy :=
  ⟨0, fun k _ hodd => if_neg (by omega)⟩

/-! ## What a disturbance leads to -/

/-- A run that is on and not yet under way comes to spawn its thread. -/
theorem exists_alone_spawning {shared : Shared} {place : Place} (h : place.Live shared.control)
    (hnot : ¬ place.UnderWay) :
    ∃ n next, alone 0 n shared place = (next, .spawning) ∧
      next.control.runActive = shared.control.runActive ∧
      next.control.released = shared.control.released ∧
      next.control.disposed = shared.control.disposed := by
  have henter : shared.control.state = .ready →
      ∃ next, alone 0 1 shared (.entering .run) = (next, .spawning) ∧
        next.control.runActive = shared.control.runActive ∧
        next.control.released = shared.control.released ∧
        next.control.disposed = shared.control.disposed := by
    intro hready
    simp [alone, access, Control.enterRunning, hready, Purpose.started]
  unfold Place.Live at h
  split at h
  · obtain ⟨next, hnext, hflags⟩ := henter h.1
    refine ⟨2, next, ?_, hflags⟩
    have hpass : access 0 shared (.checking .run) = (shared, .entering .run) := by
      simp [access, h.2]
    rw [alone, hpass]
    exact hnext
  · exact ⟨1, henter h⟩
  · exact ⟨0, shared, rfl, rfl, rfl, rfl⟩
  · exact absurd h hnot

/-- A run that is on comes to be under way, with nothing else changed. -/
theorem exists_underWay (hfree : s.Free) {j k : Nat} (hj : (s.place j).Live s.control)
    (hk : s.place k = .unborn) :
    ∃ t m, Leads s t ∧ t.Free ∧ (t.place m).UnderWay ∧ (t.place m = .lost → s.place m = .lost) ∧
      (∀ i, i ≠ j → i ≠ k → t.place i = s.place i) ∧
      t.control.runActive = s.control.runActive ∧ t.control.released = s.control.released ∧
      t.control.disposed = s.control.disposed := by
  by_cases hway : (s.place j).UnderWay
  · exact ⟨s, j, .refl s, hfree, hway, fun hlost => hlost, fun _ _ _ => rfl, rfl, rfl, rfl⟩
  obtain ⟨n, shared, halone, hflags⟩ := exists_alone_spawning hj hway
  have hkj : k ≠ j := by
    rintro rfl
    simp [hk] at hj
  have hlead := leads_alone 0 n fun i (_ : i ≠ j) => hfree i
  rw [halone] at hlead
  have hspawn : Step (s.put j (shared, .spawning)) j _ :=
    .spawn k (place_put_self ..) (by rw [place_put_ne _ _ _ hkj, hk])
  refine ⟨_, k, .step hlead hspawn, ?_, ?_, ?_, ?_, hflags⟩
  · exact ((hfree.put (by simp)).put (by simp)).put (by simp)
  · simp [send]
  · simp [send]
  · intro i hij hik
    simp only [send, place_put_ne _ _ _ hik, place_put_ne _ _ _ hij]

/-- With the flag down, a party that is releasing or disposing comes to hand the segments over. -/
theorem exists_alone_handing {shared : Shared} {place : Place}
    (hreleased : shared.control.released = false)
    (h : place = .releasing .caller ∨
      place = .disposing ∧ shared.control.disposed = false ∧ shared.control.runActive = false) :
    ∃ n next, alone 0 n shared place = (next, .handing .caller) := by
  rcases h with rfl | ⟨rfl, hdisposed, hactive⟩
  · refine ⟨1, ⟨shared.control.swapReleased.2, shared.handed⟩, ?_⟩
    simp [alone, access, Control.swapReleased, hreleased]
  · refine ⟨5, ⟨(shared.control.close 0).swapReleased.2, shared.handed⟩, ?_⟩
    simp [alone, access, Control.close, Control.swapDisposed, Control.writeStopped,
      Control.stopClock, Control.swapReleased, hreleased, hdisposed, hactive]

theorem exists_handing (hfree : s.Free) {m : Nat} (hm : (s.place m).UnderWay)
    (hactive : s.control.runActive = false) (hreleased : s.control.released = false)
    (hi : s.place i = .releasing .caller ∨ s.place i = .idle ∧ s.control.disposed = false) :
    ∃ t t', Leads s t ∧ t.place m = s.place m ∧ Step t i t' ∧ t'.handed = t.handed + 1 := by
  have hmi : m ≠ i := by
    rintro rfl
    rcases hi with hi | ⟨hi, -⟩ <;> simp [hi] at hm
  have hlast : ∃ shared, Leads s (s.put i (shared, .handing .caller)) := by
    rcases hi with hi | ⟨hi, hdisposed⟩
    · obtain ⟨n, next, hnext⟩ := exists_alone_handing hreleased (.inl hi)
      have hlead := leads_alone 0 n fun k (_ : k ≠ i) => hfree k
      rw [hnext] at hlead
      exact ⟨next, hlead⟩
    · obtain ⟨n, next, hnext⟩ := exists_alone_handing hreleased (.inr ⟨rfl, hdisposed, hactive⟩)
      have hlead := leads_call 0 n (fun k (_ : k ≠ i) => hfree k) hi .dispose
      rw [Call.entry, hnext] at hlead
      exact ⟨next, hlead⟩
  obtain ⟨shared, hlead⟩ := hlast
  exact ⟨_, _, hlead, place_put_ne _ _ _ hmi, .access 0 (by simp), by simp [access]⟩

/-- Shared data and place of a refused run that has lowered the flag and given up the lock. -/
def refused (s : Parties) : Shared × Place :=
  (⟨s.control.lowerActive, s.handed⟩, if s.control.disposed then .releasing .caller else .idle)

theorem leads_refused (now : Nat) (hfree : s.Free) (hi : s.place i = .lowering .caller) :
    Leads (s.put i (access now s.shared (s.place i))) (s.put i s.refused) ∧
      (s.put i s.refused).Free := by
  constructor
  · have hleads := leads_alone (s := s.put i (access now s.shared (s.place i))) 0 1
      fun k (hk : k ≠ i) => by
        rw [place_put_ne _ _ _ hk]
        exact hfree k
    rw [put_put, shared_put, place_put_self] at hleads
    rwa [hi] at hleads ⊢
  · refine hfree.put fun who => ?_
    unfold refused
    split <;> simp

/-- **A disturbance can be fatal**: once the flag of a run that is on has been lowered, the
segments can be handed over while that run is under way. -/
theorem Guarded.exists_early_release (hg : s.Guarded) (hroom : s.Roomy) (hd : s.Disturbs i)
    (h : Step s i s') :
    ∃ t t' m, Leads s' t ∧ (t.place m).UnderWay ∧ (t.place m = .lost → s'.place m = .lost) ∧
      Step t i t' ∧ t'.handed = t.handed + 1 := by
  obtain ⟨hi, j, hj⟩ := hd
  obtain ⟨n, hn⟩ := hroom
  have hreleased : s.control.released = false :=
    Bool.eq_false_iff.2 fun hr => (hg.released hr).2 ⟨j, hj⟩
  have hji : j ≠ i := by
    rintro rfl
    simp [hi] at hj
  have hunborn := hn (2 * n + 1) (by omega) (by omega)
  have hki : 2 * n + 1 ≠ i := by
    rintro rfl
    simp [hi] at hunborn
  cases h with
  | access now free =>
    -- First the lock is given up, then the run that is on goes on, and then the segments go.
    obtain ⟨hunlock, hfree⟩ := leads_refused now (free (by simp [hi])) hi
    obtain ⟨t, m, hleads, hfreet, hway, hlost, hplace, hactive, hkept, hdisposed⟩ :=
      exists_underWay hfree (j := j) (k := 2 * n + 1)
        (by rw [place_put_ne _ _ _ hji]; exact hj.mono (fun h => h) fun h => h)
        (by rw [place_put_ne _ _ _ hki]; exact hunborn)
    have hthreshold : t.place i = .releasing .caller ∨
        t.place i = .idle ∧ t.control.disposed = false := by
      rw [hplace i hji.symm hki.symm, place_put_self, hdisposed]
      by_cases hd : s.control.disposed = true
      · exact .inl (if_pos hd)
      · exact .inr ⟨if_neg hd, Bool.eq_false_iff.2 hd⟩
    have hmi : m ≠ i := by
      rintro rfl
      rcases hthreshold with h | ⟨h, -⟩ <;> simp [h] at hway
    obtain ⟨u, u', hleads', hsame, hstep, hhanded⟩ :=
      exists_handing hfreet hway hactive (hkept.trans hreleased) hthreshold
    rw [place_put_ne _ _ _ hmi] at hlost
    refine ⟨u, u', m, (hunlock.trans hleads).trans hleads', hsame ▸ hway, ?_, hstep, hhanded⟩
    rwa [hsame, place_put_ne _ _ _ hmi]
  | _ => simp_all

/-! ## Every run can be disturbed -/

/-- One access of a party, at the start of time. -/
def go (s : Parties) (i : Nat) : Parties := s.put i (access 0 s.shared (s.place i))

theorem go_put : (s.put i next).go i = s.put i (access 0 next.1 next.2) := by
  rw [go, shared_put, place_put_self, put_put]

theorem Orderly.go {t : Parties} (h : Orderly s t) (hfree : t.Free)
    (hi : t.place i ≠ .lowering .caller) : Orderly s (t.go i) :=
  .step h (.access 0 fun _ => hfree) fun hd => hi hd.1

/-- **Anybody can disturb**: a caller that finds the lock free disturbs a run that is under way by
calling for another. -/
theorem Guarded.exists_disturbing (hg : s.Guarded) (hfree : s.Free) {j : Nat}
    (hj : (s.place j).UnderWay) (hi : s.place i = .idle) :
    ∃ t t', Orderly s t ∧ t.Disturbs i ∧ Step t i t' := by
  have hji : j ≠ i := by
    rintro rfl
    simp [hi] at hj
  have hstate : s.control.state ≠ .ready := fun hready => hg.ready hready j hj.started
  let raised : Shared := ⟨s.control.raiseActive, s.handed⟩
  have hcall : Orderly s (s.put i (s.shared, .raising)) :=
    .step (.refl s) (.call .run hi) fun hd => by simp [hd.1] at hi
  have hchecking : Orderly s (s.put i (raised, .checking .run)) := by
    have h := hcall.go (i := i) (hfree.put (by simp)) (by simp)
    rwa [go_put] at h
  have hlowering : Orderly s (s.put i (raised, .lowering .caller)) := by
    have h := hchecking.go (i := i) (hfree.put (by simp)) (by simp)
    rw [go_put] at h
    by_cases hd : s.control.disposed = true
    · rwa [show access 0 raised (.checking .run) = (raised, .lowering .caller) from
        congrArg (Prod.mk raised) (if_pos hd)] at h
    · rw [show access 0 raised (.checking .run) = (raised, .entering .run) from
        congrArg (Prod.mk raised) (if_neg hd)] at h
      have h' := h.go (i := i) (hfree.put (by simp)) (by simp)
      have hrefused : access 0 raised (.entering .run) = (raised, .lowering .caller) := by
        have hraised : raised.control.state ≠ .ready := hstate
        simp [access, Control.enterRunning, hraised, Purpose.refused]
      rwa [go_put, hrefused] at h'
  refine ⟨_, _, hlowering, ⟨place_put_self .., j, ?_⟩, .access 0 fun _ => hfree.put (by simp)⟩
  rw [place_put_ne _ _ _ hji]
  exact hj.live

/-! ## Release and runs -/

/-- **Segments stay while a run is under way**, unless a run that was refused lowered the flag of
another: no access hands them over before then. The condition is exact. Whenever a refused run
lowers the flag of a run that is on, the segments may be handed over while that run is under way;
and whenever a run is under way, any idle caller may do so. -/
theorem release_waits_for_run (watchdogMs : Nat) :
    (∀ s i s' j, Orderly (fresh watchdogMs) s → (s.place j).UnderWay → Step s i s' →
      s'.handed = s.handed) ∧
    (∀ s i s', Orderly (fresh watchdogMs) s → s.Disturbs i → Step s i s' →
      ∃ t t' j, Leads s' t ∧ (t.place j).UnderWay ∧ (t.place j = .lost → s'.place j = .lost) ∧
        Step t i t' ∧ t'.handed = t.handed + 1) ∧
    (∀ s i j, Orderly (fresh watchdogMs) s → (s.place j).UnderWay → s.Free → s.place i = .idle →
      ∃ t t', Orderly s t ∧ t.Disturbs i ∧ Step t i t') := by
  have hguard : ∀ {s}, Orderly (fresh watchdogMs) s → s.Guarded := fun hs =>
    hs.guarded (guarded_fresh watchdogMs)
  refine ⟨fun s i s' j hs hj h => ?_, fun s i s' hs hd h => ?_, fun s i j hs hj hfree hi => ?_⟩
  · exact (hguard hs).handed_eq hj h
  · exact (hguard hs).exists_early_release (hs.roomy (roomy_fresh watchdogMs)) hd h
  · exact (hguard hs).exists_disturbing hfree hj hi

/-- A process that caller 0 runs on thread 1. -/
def started : Parties :=
  (((((fresh 1000).send 0 .raising).go 0).go 0).go 0 |>.send 0 .idle).send 1 (.looking .thread)

theorem orderly_started : Orderly (fresh 1000) started ∧ started.Free := by
  have hcall : Orderly (fresh 1000) ((fresh 1000).send 0 .raising) :=
    .step (.refl _) (.call .run rfl) fun hd => by cases hd.1
  have hfree : ((fresh 1000).send 0 .raising).Free := (free_fresh 1000).put nofun
  have hfree₁ : (((fresh 1000).send 0 .raising).go 0).Free := hfree.put fun who => by
    cases who <;> decide
  have hfree₂ : ((((fresh 1000).send 0 .raising).go 0).go 0).Free := hfree₁.put fun who => by
    cases who <;> decide
  have hrun := ((hcall.go (i := 0) hfree (by decide)).go (i := 0) hfree₁ (by decide)).go (i := 0)
    hfree₂ (by decide)
  have hspawn : Orderly (fresh 1000) started := .step hrun (.spawn 1 rfl rfl) fun hd => by
    cases hd.1
  have hfree₃ : (((((fresh 1000).send 0 .raising).go 0).go 0).go 0).Free :=
    hfree₂.put fun who => by cases who <;> decide
  exact ⟨hspawn, (hfree₃.put (by simp)).put (by simp)⟩

theorem release_waits_for_run_started :
    (∀ i s', Step started i s' → s'.handed = 0) ∧
      ∃ t t', Orderly started t ∧ t.Disturbs 2 ∧ Step t 2 t' ∧
        ∃ u u' j, Leads t' u ∧ (u.place j).UnderWay ∧ (u.place j = .lost → t'.place j = .lost) ∧
          Step u 2 u' ∧ u'.handed = u.handed + 1 := by
  obtain ⟨hstay, hearly, hdisturb⟩ := release_waits_for_run 1000
  obtain ⟨hstarted, hfree⟩ := orderly_started
  refine ⟨fun i s' h => hstay started i s' 1 hstarted trivial h, ?_⟩
  obtain ⟨t, t', ht, hd, hstep⟩ := hdisturb started 2 1 hstarted trivial hfree rfl
  exact ⟨t, t', ht, hd, hstep, hearly t 2 t' (hstarted.trans ht) hd hstep⟩

/-- Caller 2 calls for another run, which is refused, and then disposes of the process. -/
theorem segments_handed_over_under_a_run :
    ∃ s s', Leads (fresh 1000) s ∧ s.place 1 = .looking .thread ∧ Step s 2 s' ∧ s.handed = 0 ∧
      s'.handed = 1 := by
  obtain ⟨hstarted, hfree⟩ := orderly_started
  let rejected := started.put 2 (alone 0 5 started.shared .raising)
  have hrun : Leads started rejected := leads_call 0 5 (fun k _ => hfree k) rfl .run
  have hothers : ∀ k, k ≠ 2 → ∀ who, rejected.place k ≠ .holding who := by
    intro k hk
    rw [place_put_ne _ _ _ hk]
    exact hfree k
  have hdispose := leads_call 0 5 hothers rfl .dispose
  exact ⟨_, _, (hstarted.leads.trans hrun).trans hdispose, rfl, .access 0 False.elim, rfl, rfl⟩

end Parties

end CellMachine.Process
