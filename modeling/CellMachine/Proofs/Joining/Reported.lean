import CellMachine.Proofs.Joining.Watch

/-!
# How a job ends is reported once

The result of a job travels by two routes: a crash by the thread itself, which only the first to
join attends to, and a returned result by the job, where whoever comes first takes it. A caller who
joins later may overtake the first on the second route. `Account` says of both routes together what
is still to be told and what has been told.

* `Inv.step`: what every step keeps, whoever takes it;
* `nobody_left_asleep`: no one who waits is forgotten;
* `failure_reported_once`: nobody hears of the end before the work is over, and of all joins exactly
  one has what the work ended with.
-/

namespace CellMachine.Joining

/-! ## The invariant -/

namespace Work

/-- The flag has been raised. -/
def Raised : Work → Prop
  | .notifying _ | .exiting _ | .gone _ => True
  | _ => False

/-- Everyone has been woken. -/
def Woke : Work → Prop
  | .exiting _ | .gone _ => True
  | _ => False

theorem Woke.raised {w : Work} (h : w.Woke) : w.Raised := by
  cases w <;> trivial

/-- The result that nobody has taken from the job, also while it is to be stored. -/
def owed (outcome : Option (Except Error Unit)) : Work → Option (Except Error Unit)
  | .storing result => some result
  | _ => outcome

theorem ended_of_raised {w : Work} (h : w.Raised) :
    ∃ e, w.ending? = some e ∧ ∀ outcome, w.owed outcome = outcome := by
  cases w <;> first | exact ⟨_, rfl, fun _ => rfl⟩ | exact h.elim

end Work

/-- One of the joins has the verdict, and all others succeeded. -/
def ReportedOnce (verdict : Except Error Unit) (joins : List (Except Error Unit)) : Prop :=
  ∃ later earlier, joins = later ++ verdict :: earlier ∧ ∀ r ∈ later ++ earlier, r = .ok ()

/-- What a job that ended so has to tell. -/
def verdict (name : String) : Ending → Except Error Unit
  | .returned result => result
  | .crashed => .error (.crashed name)

/-- What is still to be told of an end, and what the joins have told. A returned result is to be
taken from the job, a crash to be learned from the thread while that is possible. -/
def Told (name : String) (pending : Prop) (owed : Option (Except Error Unit))
    (joins : List (Except Error Unit)) : Ending → Prop
  | .returned result =>
    owed = some result ∧ joins = [] ∨ owed = none ∧ ReportedOnce result joins
  | .crashed =>
    owed = none ∧ (pending ∧ (∀ r ∈ joins, r = .ok ()) ∨
      ¬ pending ∧ ReportedOnce (.error (.crashed name)) joins)

/-- The same for work that may not have ended. -/
def Account (name : String) (pending : Prop) (owed : Option (Except Error Unit))
    (joins : List (Except Error Unit)) : Option Ending → Prop
  | none => pending ∧ owed = none ∧ joins = []
  | some e => Told name pending owed joins e

namespace Place

/-- Knows that the flag is up. -/
def Assured (p : Place) : Prop := p = .roused ∨ p = .collecting

/-- Joining. -/
def InJoin (p : Place) : Prop :=
  p = .taking ∨ p = .attending ∨ p = .looking ∨ p = .waiting ∨ p = .collecting

/-- What a caller has seen of the job is so. -/
structure Fits (j : Job) (p : Place) : Prop where
  assured : p.Assured → j.done = true
  detached : p.InJoin → p ≠ .taking → j.attached = false

/-- Until it is woken. -/
def Asleep (p : Place) : Prop := p = .dozing ∨ p = .waiting

instance : DecidablePred Asleep := fun _ => inferInstanceAs (Decidable (_ ∨ _))

instance : DecidablePred Assured := fun _ => inferInstanceAs (Decidable (_ ∨ _))

instance : DecidablePred InJoin := fun _ => inferInstanceAs (Decidable (_ ∨ _))

theorem Fits.of_new {j : Job} {p : Place} (hassured : ¬ p.Assured)
    (hjoin : p.InJoin → p = .taking) : p.Fits j :=
  ⟨fun h => absurd h hassured, fun h hne => absurd (hjoin h) hne⟩

theorem fits_idle (j : Job) : Fits j .idle := .of_new (by decide) (by decide)

theorem Fits.woken {j : Job} {p : Place} (h : p.Fits j) (hdone : j.done = true) :
    p.woken.Fits j := by
  refine ⟨fun _ => hdone, fun hjoin hne => ?_⟩
  cases p <;> first
    | exact h.detached hjoin hne
    | exact h.detached (by decide) nofun
    | exact absurd hjoin (by decide)

theorem woken_eq_attending {p : Place} : p.woken = .attending ↔ p = .attending := by
  cases p <;> decide

theorem not_asleep_woken (p : Place) : ¬ p.woken.Asleep := by cases p <;> decide

theorem InJoin.woken {p : Place} (h : p.InJoin) : p.woken.InJoin := by
  cases p <;> first | decide | exact absurd h (by decide)

end Place

namespace Watch

/-- Someone may still learn from the thread how it ended. -/
def Pending (s : Watch) : Prop := s.job.attached = true ∨ ∃ i, s.place i = .attending

/-- The result that nobody has taken. -/
def owed (s : Watch) : Option (Except Error Unit) := s.work.owed s.job.outcome

/-- What holds of every job and its callers. -/
structure Inv (name : String) (s : Watch) : Prop where
  name_eq : s.job.name = name
  done_iff : s.job.done = true ↔ s.work.Raised
  lost_iff : s.job.lost = true ↔ s.work = .gone .crashed
  fits : ∀ i, (s.place i).Fits s.job
  single : ∀ i k, s.place i = .attending → s.place k = .attending → i = k
  late : ∀ a ∈ s.answers, a.Late → s.job.done = true
  ordered : s.answers.Pairwise fun later earlier => earlier.Late → later.Late
  untold : s.job.attached = true → s.joins = []
  called : s.called = true → s.joins ≠ [] ∨ ∃ i, (s.place i).InJoin
  account : Account name s.Pending s.owed s.joins s.work.ending?

end Watch

/-! ## What is told -/

section
variable {name : String} {pending : Prop} {owed outcome : Option (Except Error Unit)}
  {joins : List (Except Error Unit)} {result : Except Error Unit} {e : Ending}

theorem ReportedOnce.cons_ok (h : ReportedOnce result joins) :
    ReportedOnce result (.ok () :: joins) := by
  obtain ⟨later, earlier, rfl, hothers⟩ := h
  refine ⟨.ok () :: later, earlier, rfl, ?_⟩
  simpa only [List.cons_append, List.forall_mem_cons, true_and] using hothers

theorem ReportedOnce.of_ok (h : ∀ r ∈ joins, r = .ok ()) : ReportedOnce result (result :: joins) :=
  ⟨[], joins, rfl, h⟩

/-- Whoever takes the result has been told what was owed. -/
theorem Told.collect (h : Told name pending owed joins e) :
    Told name pending none (owed.getD (.ok ()) :: joins) e := by
  cases e with
  | returned result =>
    refine .inr ⟨rfl, ?_⟩
    obtain ⟨rfl, rfl⟩ | ⟨rfl, hreported⟩ := h
    · exact .of_ok nofun
    · exact hreported.cons_ok
  | crashed =>
    obtain ⟨rfl, ⟨hpending, hok⟩ | ⟨hnot, hreported⟩⟩ := h
    · refine ⟨rfl, .inl ⟨hpending, ?_⟩⟩
      simpa only [Option.getD_none, List.forall_mem_cons, true_and] using hok
    · exact ⟨rfl, .inr ⟨hnot, hreported.cons_ok⟩⟩

/-- When some join has been answered and nobody can learn from the thread any more, all has been
told. -/
theorem Told.reported (h : Told name pending owed joins e) (hjoins : joins ≠ [])
    (hnot : ¬ pending) : ReportedOnce (verdict name e) joins := by
  cases e with
  | returned result =>
    obtain ⟨-, hnone⟩ | ⟨-, hreported⟩ := h
    · exact absurd hnone hjoins
    · exact hreported
  | crashed =>
    obtain ⟨-, ⟨hpending, -⟩ | ⟨-, hreported⟩⟩ := h
    · exact absurd hpending hnot
    · exact hreported

/-- Whoever attended to a thread that crashed tells so. -/
theorem Told.crash (h : Told name pending owed joins .crashed) (hpending : pending)
    {pending' : Prop} (hnot : ¬ pending') :
    Told name pending' owed (.error (.crashed name) :: joins) .crashed := by
  obtain ⟨howed, ⟨-, hok⟩ | ⟨hno, -⟩⟩ := h
  · exact ⟨howed, .inr ⟨hnot, .of_ok hok⟩⟩
  · exact absurd hpending hno

end

/-! ## What every step keeps -/

namespace Watch

variable {name : String} {s s' : Watch} {i k : Nat} {next : Job × Place × Option Answer}

/-- What an access has to do with the rest, but for what is told of the end. -/
structure Turn (s : Watch) (i : Nat) (next : Job × Place × Option Answer) : Prop where
  name_eq : next.1.name = s.job.name
  done_eq : next.1.done = s.job.done
  lost_eq : next.1.lost = s.job.lost
  attached : next.1.attached = true → s.job.attached = true
  fits : next.2.1.Fits next.1
  single : next.2.1 = .attending → ∀ k, k ≠ i → s.place k ≠ .attending
  late : ∀ a ∈ next.2.2, (a.Late ↔ s.job.done = true)
  untold : next.1.attached = true → next.2.2.bind Answer.joined? = none
  joining : (s.place i).InJoin → next.2.1.InJoin ∨ next.2.2.bind Answer.joined? ≠ none

theorem joins_put : (s.put i next).joins = (next.2.2.bind Answer.joined?).toList ++ s.joins := by
  obtain ⟨j, q, a⟩ := next
  cases a with
  | none => rfl
  | some a => cases a <;> rfl

theorem pending_put : (s.put i next).Pending ↔
    next.1.attached = true ∨ next.2.1 = .attending ∨ ∃ k, k ≠ i ∧ s.place k = .attending := by
  unfold Pending
  constructor
  · rintro (h | ⟨k, hk⟩)
    · exact .inl h
    · by_cases hki : k = i
      · subst hki
        exact .inr (.inl (by simpa using hk))
      · rw [place_put_ne hki] at hk
        exact .inr (.inr ⟨k, hki, hk⟩)
  · rintro (h | h | ⟨k, hki, hk⟩)
    · exact .inl h
    · exact .inr ⟨i, by simpa using h⟩
    · exact .inr ⟨k, by rwa [place_put_ne hki]⟩

/-- Who neither has the thread nor takes it changes nothing about that. -/
theorem pending_put_iff (hattached : next.1.attached = s.job.attached)
    (hi : s.place i ≠ .attending) (hq : next.2.1 ≠ .attending) :
    (s.put i next).Pending ↔ s.Pending := by
  rw [pending_put, hattached]
  refine or_congr_right ⟨?_, fun ⟨k, hk⟩ => .inr ⟨k, ?_, hk⟩⟩
  · rintro (hattending | ⟨k, -, hk⟩)
    · exact absurd hattending hq
    · exact ⟨k, hk⟩
  · rintro rfl
    exact hi hk

namespace Inv

theorem put (h : s.Inv name) (ht : s.Turn i next)
    (haccount : Account name (s.put i next).Pending (s.put i next).owed (s.put i next).joins
      s.work.ending?) : (s.put i next).Inv name where
  name_eq := ht.name_eq.trans h.name_eq
  done_iff := by
    show next.1.done = true ↔ s.work.Raised
    rw [ht.done_eq, h.done_iff]
  lost_iff := by
    show next.1.lost = true ↔ s.work = .gone .crashed
    rw [ht.lost_eq, h.lost_iff]
  fits := by
    refine forall_place_put (fun k => ⟨fun hk => ?_, fun hk hne => ?_⟩) ht.fits
    · exact ht.done_eq.trans ((h.fits k).assured hk)
    · have hdetached := (h.fits k).detached hk hne
      exact Bool.eq_false_iff.2 fun hattached => by simp [ht.attached hattached] at hdetached
  single := by
    intro k l hk hl
    by_cases hki : k = i <;> by_cases hli : l = i
    · rw [hki, hli]
    · subst hki
      rw [place_put_self] at hk
      rw [place_put_ne hli] at hl
      exact absurd hl (ht.single hk l hli)
    · subst hli
      rw [place_put_self] at hl
      rw [place_put_ne hki] at hk
      exact absurd hk (ht.single hl k hki)
    · rw [place_put_ne hki] at hk
      rw [place_put_ne hli] at hl
      exact h.single k l hk hl
  late := by
    intro a ha hlate
    refine ht.done_eq.trans ?_
    rcases List.mem_append.1 ha with ha | ha
    · exact (ht.late a (by simpa using ha)).1 hlate
    · exact h.late a ha hlate
  ordered := by
    refine List.pairwise_append.2 ⟨by cases next.2.2 <;> simp, h.ordered, fun a ha b hb hlate => ?_⟩
    exact (ht.late a (by simpa using ha)).2 (h.late b hb hlate)
  untold := by
    intro hattached
    rw [joins_put, ht.untold hattached, h.untold (ht.attached hattached)]
    rfl
  called := by
    intro hcalled
    rw [joins_put]
    rcases h.called hcalled with hne | ⟨k, hk⟩
    · exact .inl (by simp [hne])
    · by_cases hki : k = i
      · subst hki
        rcases ht.joining hk with hq | hanswer
        · exact .inr ⟨k, by simpa using hq⟩
        · exact .inl (by simp [hanswer])
      · exact .inr ⟨k, by rwa [place_put_ne hki]⟩
  account := haccount

/-- A caller who neither has the thread nor takes anything leaves everything to be told as it
was. -/
theorem quiet (h : s.Inv name) {q : Place} {a : Option Answer} (hi : s.place i ≠ .attending)
    (hq : q ≠ .attending) (hfits : q.Fits s.job) (hlate : ∀ b ∈ a, (b.Late ↔ s.job.done = true))
    (ha : a.bind Answer.joined? = none) (hjoin : (s.place i).InJoin → q.InJoin) :
    (s.put i (s.job, q, a)).Inv name := by
  refine h.put ⟨rfl, rfl, rfl, id, hfits, fun h => absurd h hq, hlate, fun _ => ha,
    fun hin => .inl (hjoin hin)⟩ ?_
  rw [pending_put_iff rfl hi hq, joins_put, ha]
  exact h.account

theorem detached (h : s.Inv name) (hjoin : (s.place i).InJoin) (hi : s.place i ≠ .taking) :
    s.job.attached = false :=
  (h.fits i).detached hjoin hi

theorem lost_eq_false (h : s.Inv name) (hw : s.work ≠ .gone .crashed) : s.job.lost = false := by
  rw [Bool.eq_false_iff, ne_eq, h.lost_iff]
  exact hw

/-- The first to join takes the thread. -/
theorem take (h : s.Inv name) (hattached : s.job.attached = true) :
    (s.put i ({ s.job with attached := false }, .attending, none)).Inv name := by
  have hnobody : ∀ k, s.place k ≠ .attending := by
    intro k hk
    have hdetached := h.detached (i := k) (by rw [hk]; decide) (by simp [hk])
    simp [hattached] at hdetached
  refine h.put ⟨rfl, rfl, rfl, by simp, ⟨by simp [Place.Assured], fun _ _ => rfl⟩,
    fun _ k _ => hnobody k, by simp, by simp, fun _ => .inl (.inr (.inl rfl))⟩ ?_
  have hpending : (s.put i ({ s.job with attached := false }, .attending, none)).Pending ↔
      s.Pending := iff_of_true (pending_put.2 (.inr (.inl rfl))) (.inl hattached)
  rw [hpending]
  exact h.account

/-- Who has the thread learns how it ended, and is done or goes on to the result. -/
theorem attend (h : s.Inv name) (hi : s.place i = .attending) {e : Ending}
    (hgone : s.work = .gone e) : (s.put i (Joining.access s.job .attending)).Inv name := by
  have hattached : s.job.attached = false := h.detached (by rw [hi]; decide) (by simp [hi])
  have hdone : s.job.done = true := h.done_iff.2 (by rw [hgone]; trivial)
  have haccount := h.account
  rw [hgone] at haccount
  cases e with
  | crashed =>
    have hlost : s.job.lost = true := h.lost_iff.2 hgone
    have hnobody : ¬ (s.put i (s.job, .idle, some (.joined (.error (.crashed name))))).Pending := by
      rw [pending_put]
      rintro (hstill | hq | ⟨k, hki, hk⟩)
      · simp [hattached] at hstill
      · simp at hq
      · exact hki (h.single k i hk hi)
    simp only [Joining.access, hlost, ↓reduceIte, h.name_eq]
    refine h.put ⟨rfl, rfl, rfl, id, Place.fits_idle _, by simp, by simp [Answer.Late, hdone],
      by simp [hattached], fun _ => .inr (by simp [Answer.joined?])⟩ ?_
    rw [joins_put, hgone]
    exact Told.crash haccount (.inr ⟨i, hi⟩) hnobody
  | returned result =>
    have hlost := h.lost_eq_false (by simp [hgone])
    simp only [Joining.access, hlost, Bool.false_eq_true, ↓reduceIte]
    refine h.put ⟨rfl, rfl, rfl, id, ⟨by simp [Place.Assured], fun _ _ => hattached⟩, by simp,
      by simp, by simp [hattached], fun _ => .inl (.inr (.inr (.inl rfl)))⟩ ?_
    rw [hgone]
    exact haccount

/-- Whoever comes first takes the result, and who comes later succeeds. -/
theorem collect (h : s.Inv name) (hi : s.place i = .collecting) :
    (s.put i (Joining.access s.job .collecting)).Inv name := by
  have hattached : s.job.attached = false := h.detached (by rw [hi]; decide) (by simp [hi])
  have hdone : s.job.done = true := (h.fits i).assured (.inr hi)
  obtain ⟨e, he, howed⟩ := Work.ended_of_raised (h.done_iff.1 hdone)
  have haccount := h.account
  rw [he, owed, howed] at haccount
  simp only [Joining.access]
  refine h.put ⟨rfl, rfl, rfl, id, Place.fits_idle _, by simp, by simp [Answer.Late, hdone],
    by simp [hattached], fun _ => .inr (by simp [Answer.joined?])⟩ ?_
  rw [pending_put_iff rfl (by simp [hi]) (by simp), joins_put, he]
  show Account name s.Pending (s.work.owed none) _ _
  rw [howed]
  exact haccount.collect

/-- An answer that is not to a join. -/
theorem answer (h : s.Inv name) {a : Answer} (hi : ¬ (s.place i).InJoin)
    (hlate : a.Late ↔ s.job.done = true) (ha : a.joined? = none) :
    (s.put i (s.job, .idle, some a)).Inv name :=
  h.quiet (fun heq => hi (.inr (.inl heq))) (by simp) (Place.fits_idle _) (by simpa using hlate) ha
    fun hjoin => absurd hjoin hi

/-- Who joins after the first one passes on to the result. -/
theorem pass (h : s.Inv name) (hi : s.place i = .taking) (hattached : s.job.attached = false) :
    (s.put i ({ s.job with attached := false }, .looking, none)).Inv name := by
  have hsame : { s.job with attached := false } = s.job := by rw [← hattached]
  rw [hsame]
  exact h.quiet (by simp [hi]) (by simp) ⟨by simp [Place.Assured], fun _ _ => hattached⟩
    (by simp) rfl fun _ => .inr (.inr (.inl rfl))

/-- Whoever finds the flag up goes on to the result. -/
theorem look (h : s.Inv name) (hi : s.place i = .looking) :
    (s.put i (Joining.access s.job .looking)).Inv name := by
  have hattached : s.job.attached = false := h.detached (by rw [hi]; decide) (by simp [hi])
  simp only [Joining.access]
  by_cases hdone : s.job.done = true
  · rw [if_pos hdone]
    exact h.quiet (by simp [hi]) (by simp) ⟨fun _ => hdone, fun _ _ => hattached⟩
      (by simp) rfl fun _ => .inr (.inr (.inr (.inr rfl)))
  · rw [if_neg hdone]
    exact h.quiet (by simp [hi]) (by simp) ⟨by simp [Place.Assured], fun _ _ => hattached⟩
      (by simp) rfl fun _ => .inr (.inr (.inr (.inl rfl)))

/-- **Every access keeps the invariant.** -/
theorem access (h : s.Inv name) (i : Nat) (free : s.place i = .attending → ∃ e, s.work = .gone e) :
    (s.go i).Inv name := by
  unfold go
  match hp : s.place i with
  | .idle | .dozing | .waiting =>
    have hstay :=
      h.quiet (i := i) (a := none) (by simp [hp]) (by simp [hp]) (h.fits i) (by simp) rfl id
    rw [hp] at hstay
    exact hstay
  | .asking | .expired => exact h.answer (by rw [hp]; decide) .rfl rfl
  | .roused =>
    have hdone : s.job.done = true := (h.fits i).assured (.inl hp)
    exact h.answer (by rw [hp]; decide) (iff_of_true rfl hdone) rfl
  | .peeking | .checking =>
    simp only [Joining.access]
    split
    next hdone => exact h.answer (by rw [hp]; decide) (iff_of_true rfl hdone) rfl
    next =>
      exact h.quiet (by simp [hp]) (by simp) (.of_new (by decide) (by decide)) (by simp) rfl
        (by rw [hp]; decide)
  | .taking =>
    cases hattached : s.job.attached with
    | true => simpa only [Joining.access, hattached, ↓reduceIte] using h.take hattached
    | false =>
      simpa only [Joining.access, hattached, Bool.false_eq_true, ↓reduceIte] using
        h.pass hp hattached
  | .attending =>
    obtain ⟨e, hgone⟩ := free hp
    exact h.attend hp hgone
  | .looking => exact h.look hp
  | .collecting => exact h.collect hp

/-- Calling, and being done with waiting, are accesses that change nothing but the place. -/
theorem send (h : s.Inv name) {q : Place} (hi : ¬ (s.place i).InJoin) (hassured : ¬ q.Assured)
    (hq : q.InJoin → q = .taking) : (s.send i q).Inv name :=
  h.quiet (a := none) (fun heq => hi (.inr (.inl heq)))
    (fun heq => nomatch heq.symm.trans (hq (.inr (.inl heq)))) (.of_new hassured hq) nofun rfl
    fun hjoin => absurd hjoin hi

theorem call (h : s.Inv name) (hi : s.place i = .idle) (c : Call) : (s.ask i c).Inv name := by
  have hsend : (s.send i c.entry).Inv name :=
    h.send (by rw [hi]; decide) (by cases c <;> decide) (by cases c <;> decide)
  refine { hsend with called := fun hcalled => ?_ }
  cases c with
  | join => exact .inr ⟨i, .inl (Function.update_self ..)⟩
  | finished | waitFor => exact hsend.called (show s.called = true by simpa [ask] using hcalled)

/-- The thread goes on with the job as it was taken or not, and with the same to be told. -/
theorem work (h : s.Inv name) {j : Job} {w : Work} (hname : j.name = s.job.name)
    (hattached : j.attached = s.job.attached) (hdone : j.done = true ↔ w.Raised)
    (hmono : s.job.done = true → j.done = true) (hlost : j.lost = true ↔ w = .gone .crashed)
    (haccount : Account name s.Pending (w.owed j.outcome) s.joins w.ending?) :
    Inv name { s with job := j, work := w } where
  name_eq := hname.trans h.name_eq
  done_iff := hdone
  lost_iff := hlost
  fits i := ⟨fun hi => hmono ((h.fits i).assured hi), fun hi hne =>
    hattached.trans ((h.fits i).detached hi hne)⟩
  single := h.single
  late a ha hlate := hmono (h.late a ha hlate)
  ordered := h.ordered
  untold hj := h.untold (hattached.symm.trans hj)
  called := h.called
  account := by
    show Account name (j.attached = true ∨ ∃ i, s.place i = .attending) (w.owed j.outcome) s.joins
      w.ending?
    rw [hattached]
    exact haccount

/-- Those asleep are woken when the flag is up. -/
theorem wake (h : s.Inv name) (hdone : s.job.done = true) :
    Inv name { s with place := fun i => (s.place i).woken } where
  name_eq := h.name_eq
  done_iff := h.done_iff
  lost_iff := h.lost_iff
  fits i := (h.fits i).woken hdone
  single i k hi hk :=
    h.single i k (Place.woken_eq_attending.1 hi) (Place.woken_eq_attending.1 hk)
  late := h.late
  ordered := h.ordered
  untold := h.untold
  called hcalled := (h.called hcalled).imp id fun ⟨i, hi⟩ => ⟨i, hi.woken⟩
  account := by
    show Account name (s.job.attached = true ∨ ∃ i, (s.place i).woken = .attending) s.owed s.joins
      s.work.ending?
    simp only [Place.woken_eq_attending]
    exact h.account

/-- The work ends, and all of its end is still to be told. -/
theorem finish (h : s.Inv name) (hw : s.work = .working) (e : Ending) :
    (s.finish e).Inv name := by
  have hdone : ¬ s.job.done = true := by
    rw [h.done_iff, hw]
    exact id
  have haccount := h.account
  rw [hw, owed, hw] at haccount
  obtain ⟨hpending, howed, hjoins⟩ := haccount
  refine h.work rfl rfl ?_ id ?_ ?_
  · cases e <;> exact iff_of_false hdone id
  · have hlost := h.lost_eq_false (by simp [hw])
    cases e <;> simp [hlost, Work.after]
  · rw [Work.ending?_after]
    cases e with
    | returned result => exact .inl ⟨rfl, hjoins⟩
    | crashed => exact ⟨howed, .inl ⟨hpending, by simp [hjoins]⟩⟩

/-- **Every access of the thread keeps the invariant.** -/
theorem advance (h : s.Inv name) : s.advance.Inv name := by
  have hdone := h.done_iff
  have haccount := h.account
  rw [owed] at haccount
  unfold Watch.advance
  match hw : s.work with
  | .working | .gone _ => simpa only [proceed, ← hw] using h
  | .storing result =>
    rw [hw] at hdone haccount
    have hlost := h.lost_eq_false (by simp [hw])
    exact h.work rfl rfl hdone id (by simp [proceed, hlost]) haccount
  | .raising e =>
    rw [hw] at haccount
    have hlost := h.lost_eq_false (by simp [hw])
    exact h.work rfl rfl (iff_of_true rfl trivial) (fun _ => rfl) (by simp [proceed, hlost])
      haccount
  | .notifying e =>
    rw [hw] at hdone
    have hwoken := h.wake (hdone.2 trivial)
    have haccount := hwoken.account
    have hlost := h.lost_eq_false (by simp [hw])
    rw [owed] at haccount
    simp only [hw] at haccount
    exact hwoken.work rfl rfl hdone id (by simp [proceed, hlost]) haccount
  | .exiting .crashed =>
    rw [hw] at hdone haccount
    exact h.work rfl rfl hdone id (iff_of_true rfl rfl) haccount
  | .exiting (.returned result) =>
    rw [hw] at hdone haccount
    have hlost := h.lost_eq_false (by simp [hw])
    exact h.work rfl rfl hdone id (by simp [proceed, hlost]) haccount

/-- **Every step keeps the invariant.** -/
theorem step (h : s.Inv name) (hs : Step s s') : s'.Inv name := by
  cases hs with
  | call i c idle => exact h.call idle c
  | access i free => exact h.access i free
  | expire i here => exact h.send (by rw [here]; decide) (by decide) (by decide)
  | finish e here => exact h.finish here e
  | proceed => exact h.advance

end Inv

/-- A job that nobody has called for. -/
def fresh (job : Job) : Watch := { job }

theorem inv_fresh {job : Job} (h : Job.spawn name = .ok job) : (fresh job).Inv name := by
  obtain rfl : { name } = job := by
    unfold Job.spawn at h
    split at h
    · cases h
    · exact Except.ok.inj h
  exact {
    name_eq := rfl
    done_iff := iff_of_false nofun id
    lost_iff := iff_of_false nofun nofun
    fits := fun _ => Place.fits_idle _
    single := nofun
    late := nofun
    ordered := .nil
    untold := fun _ => rfl
    called := nofun
    account := ⟨.inl rfl, rfl, rfl⟩ }

theorem Leads.inv (h : Leads s s') (hs : s.Inv name) : s'.Inv name := by
  induction h with
  | refl => exact hs
  | step _ ht ih => exact ih.step ht

/-! ## Those asleep -/

/-- Nobody falls asleep when the flag is up. -/
theorem not_asleep_access {j : Job} {p : Place} (hdone : j.done = true) (hp : ¬ p.Asleep) :
    ¬ (Joining.access j p).2.1.Asleep := by
  obtain ⟨name, attached, done, outcome, lost⟩ := j
  obtain rfl : done = true := hdone
  cases p <;> cases attached <;> cases lost <;> first | exact hp | exact nofun

/-- Nobody sleeps on when the thread has woken everyone. -/
def Awake (s : Watch) : Prop := s.work.Woke → ∀ i, ¬ (s.place i).Asleep

theorem Inv.awake_step (h : s.Inv name) (hawake : s.Awake) (hs : Step s s') : s'.Awake := by
  intro hwoke
  cases hs with
  | call i c idle =>
    have hentry : ¬ c.entry.Asleep := by cases c <;> decide
    show ∀ k, ¬ ((s.put i (s.job, c.entry, none)).place k).Asleep
    exact forall_place_put (P := fun p => ¬ p.Asleep) (hawake hwoke) hentry
  | access i free =>
    have hdone : s.job.done = true := h.done_iff.2 (Work.Woke.raised hwoke)
    exact forall_place_put (P := fun p => ¬ p.Asleep) (hawake hwoke)
      (not_asleep_access hdone (hawake hwoke i))
  | expire i here => exact absurd (.inl here) (hawake hwoke i)
  | finish e here => cases e <;> exact hwoke.elim
  | proceed =>
    unfold Watch.advance at hwoke ⊢
    match hw : s.work with
    | .working | .storing _ | .raising _ => simp [hw, proceed, Work.Woke] at hwoke
    | .notifying _ => exact fun i => Place.not_asleep_woken _
    | .exiting .crashed | .exiting (.returned _) | .gone _ =>
      exact hawake (by rw [hw]; trivial)

/-- **No one who waits is forgotten**, be it until the end of the job or for a while: when the
thread is at its end, nobody is asleep. -/
theorem nobody_left_asleep {job : Job} (hspawn : Job.spawn name = .ok job)
    (h : Leads (fresh job) s) : s.Awake := by
  induction h with
  | refl => exact nofun
  | step h ht ih => exact (h.inv (inv_fresh hspawn)).awake_step ih ht

/-- **How a job ends is reported once.** Whatever the callers and the thread do in whatever order:
nothing answers that the work is over before it is; once something has, everything does, and the
flag stays up; and when all joins that were called for have been answered, one of them has been told
how the work ended and all others succeeded. -/
theorem failure_reported_once {job : Job} (hspawn : Job.spawn name = .ok job)
    (h : Leads (fresh job) s) :
    (∀ a ∈ s.answers, a.Late → s.work.ending? ≠ none) ∧
    (s.answers.Pairwise fun later earlier => earlier.Late → later.Late) ∧
    (∀ s', Leads s s' → s.job.done = true → s'.job.done = true) ∧
    (s.called = true → (∀ i, ¬ (s.place i).InJoin) →
      ∃ e, s.work.ending? = some e ∧ ReportedOnce (verdict name e) s.joins) := by
  have hinv := h.inv (inv_fresh hspawn)
  have hended : ∀ a ∈ s.answers, a.Late → ∃ e, s.work.ending? = some e := by
    intro a ha hlate
    obtain ⟨e, he, -⟩ := Work.ended_of_raised (hinv.done_iff.1 (hinv.late a ha hlate))
    exact ⟨e, he⟩
  refine ⟨fun a ha hlate => ?_, hinv.ordered, fun s' h' => h'.done, fun hcalled hnobody => ?_⟩
  · obtain ⟨e, he⟩ := hended a ha hlate
    simp [he]
  · have hjoins : s.joins ≠ [] := (hinv.called hcalled).resolve_right fun ⟨i, hi⟩ => hnobody i hi
    obtain ⟨r, hr⟩ := List.exists_mem_of_ne_nil _ hjoins
    obtain ⟨a, ha, har⟩ := List.mem_filterMap.1 hr
    obtain ⟨e, he⟩ := hended a ha (by cases a <;> simp_all [Answer.joined?, Answer.Late])
    have hpending : ¬ s.Pending := by
      rintro (hattached | ⟨i, hi⟩)
      · exact hjoins (hinv.untold hattached)
      · exact hnobody i (.inr (.inl hi))
    have haccount := hinv.account
    rw [he] at haccount
    exact ⟨e, he, haccount.reported hjoins hpending⟩

/-- Two callers join work that returns an error, and the second takes it while the first still
attends to the thread. -/
def overtaken : Watch :=
  ((((((fresh { name := "worker" }).ask 0 .join).ask 1 .join).go 0).go 1).finish
    (.returned (.error .disposed))).advance.advance.go 1 |>.go 1 |>.advance.advance.go 0 |>.go 0
    |>.go 0

theorem leads_overtaken : Leads (fresh { name := "worker" }) overtaken := by
  have hcalls : Leads (fresh { name := "worker" })
      (((fresh { name := "worker" }).ask 0 .join).ask 1 .join) :=
    .step (.step (.refl _) (.call 0 .join rfl)) (.call 1 .join rfl)
  have hfirst := (hcalls.step (.access 0 nofun)).step (.access 1 nofun)
  have hraised := ((hfirst.step (.finish (.returned (.error .disposed)) rfl)).step .proceed).step
    .proceed
  have hsecond := (hraised.step (.access 1 nofun)).step (.access 1 nofun)
  have hgone := (hsecond.step .proceed).step .proceed
  exact ((hgone.step (.access 0 fun _ => ⟨_, rfl⟩)).step (.access 0 nofun)).step (.access 0 nofun)

theorem failure_reported_once_overtaken :
    Job.spawn "worker" = .ok { name := "worker" } ∧
      overtaken.joins = [.ok (), .error .disposed] ∧
      ReportedOnce (.error .disposed) overtaken.joins := by
  have hspawn : Job.spawn "worker" = .ok { name := "worker" } := by
    rw [Job.spawn, if_neg (by decide)]
  have hidle : ∀ i, overtaken.place i = .idle
    | 0 | 1 | _ + 2 => rfl
  have hnobody : ∀ i, ¬ (overtaken.place i).InJoin := by
    intro i
    rw [hidle]
    decide
  obtain ⟨-, -, -, hreported⟩ := failure_reported_once hspawn leads_overtaken
  obtain ⟨e, he, hreported⟩ := hreported rfl hnobody
  obtain rfl : .returned (.error .disposed) = e := Option.some.inj he
  exact ⟨hspawn, rfl, hreported⟩

end Watch

end CellMachine.Joining
