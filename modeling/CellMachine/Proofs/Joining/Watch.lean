import CellMachine.Job
import Mathlib.Data.List.Basic
import Mathlib.Logic.Function.Iterate

/-!
# A job, its thread and its callers

The thread of a job and those who wait for it share the job and take turns access by access. Each
is known by where it stands: the thread by its `Work`, a caller by its `Place`. `proceed` and
`access` are the access made there, and `Step` lets any of them go on.

* `finish_alone`, `join_alone`: `Job.finish` and `Job.join` are the accesses of one of them that
  nobody interrupts;
* `Leads.done`: the flag that the work is over is never lowered.
-/

namespace CellMachine.Joining

/-! ## The thread -/

/-- Where the thread of a job stands. -/
inductive Work where
  /-- At its work. -/
  | working
  /-- The work returned; stores the result. -/
  | storing (result : Except Error Unit)
  /-- Raises the flag that the work is over. -/
  | raising (ending : Ending)
  /-- Wakes everyone who waits for the flag. -/
  | notifying (ending : Ending)
  /-- Ends. -/
  | exiting (ending : Ending)
  | gone (ending : Ending)

namespace Work

/-- Where the thread stands when its work has ended. Work that crashed has no result to store. -/
def after : Ending → Work
  | .returned result => .storing result
  | .crashed => .raising .crashed

/-- How the work ended. -/
def ending? : Work → Option Ending
  | .working => none
  | .storing result => some (.returned result)
  | .raising e | .notifying e | .exiting e | .gone e => some e

@[simp] theorem ending?_after (e : Ending) : (after e).ending? = some e := by cases e <;> rfl

end Work

/-- The access the thread makes where it stands, and where it stands then. -/
def proceed (j : Job) : Work → Job × Work
  | .working => (j, .working)
  | .storing result => ({ j with outcome := some result }, .raising (.returned result))
  | .raising e => ({ j with done := true }, .notifying e)
  | .notifying e => (j, .exiting e)
  | .exiting .crashed => ({ j with lost := true }, .gone .crashed)
  | .exiting (.returned result) => (j, .gone (.returned result))
  | .gone e => (j, .gone e)

/-! ## The callers -/

/-- What a caller may call. -/
inductive Call where
  /-- Asks whether the job is over. -/
  | finished
  /-- Waits for the job, for a while. -/
  | waitFor
  | join
  deriving DecidableEq

/-- What a call answers. -/
inductive Answer where
  | finished (done : Bool)
  | waited (done : Bool)
  | joined (result : Except Error Unit)

/-- Where a caller stands. -/
inductive Place where
  /-- Between calls. -/
  | idle
  /-- Asking, reads the flag. -/
  | asking
  /-- Waiting for a while, reads the flag first. -/
  | peeking
  /-- Reads the flag again, and falls asleep if it is down. -/
  | checking
  /-- Asleep, for a while. -/
  | dozing
  /-- Woken before the time was over. -/
  | roused
  /-- The time is over; reads the flag. -/
  | expired
  /-- Joining, takes the thread if nobody has it. -/
  | taking
  /-- Has the thread, and learns how it ended. -/
  | attending
  /-- Reads the flag, and falls asleep if it is down. -/
  | looking
  /-- Asleep until it is woken. -/
  | waiting
  /-- Takes the result. -/
  | collecting
  deriving DecidableEq

/-- Where a call begins. -/
def Call.entry : Call → Place
  | finished => .asking
  | waitFor => .peeking
  | join => .taking

/-- Where someone stands who has been woken. -/
def Place.woken : Place → Place
  | dozing => .roused
  | waiting => .looking
  | place => place

/-- The access a caller makes where it stands, where it stands then, and what it answers. Someone
asleep makes none. -/
def access (j : Job) : Place → Job × Place × Option Answer
  | .asking => (j, .idle, some (.finished j.done))
  | .peeking => if j.done then (j, .idle, some (.waited true)) else (j, .checking, none)
  | .checking => if j.done then (j, .idle, some (.waited true)) else (j, .dozing, none)
  | .roused => (j, .idle, some (.waited true))
  | .expired => (j, .idle, some (.waited j.done))
  | .taking => ({ j with attached := false }, if j.attached then .attending else .looking, none)
  | .attending =>
    if j.lost then (j, .idle, some (.joined (.error (.crashed j.name)))) else (j, .looking, none)
  | .looking => (j, if j.done then .collecting else .waiting, none)
  | .collecting =>
    ({ j with outcome := none }, .idle, some (.joined (j.outcome.getD (.ok ()))))
  | place => (j, place, none)

/-! ## Alone -/

/-- `n` accesses of a caller in a row, up to its answer. -/
def alone : (n : Nat) → Job → Place → Job × Option Answer
  | 0, j, _ => (j, none)
  | n + 1, j, place =>
    match access j place with
    | (j, _, some a) => (j, some a)
    | (j, place, none) => alone n j place

/-- **A job is finished by the accesses of its thread.** -/
theorem finish_alone (j : Job) (e : Ending) :
    (fun p : Job × Work => proceed p.1 p.2)^[4] (j, .after e) = (j.finish e, .gone e) := by
  cases e <;> rfl

/-- **A job that is over is joined by the accesses of one caller.** -/
theorem join_alone {j : Job} (hdone : j.done = true) :
    alone 4 j .taking = (j.join.2, some (.joined j.join.1)) := by
  obtain ⟨name, attached, done, outcome, lost⟩ := j
  obtain rfl : done = true := hdone
  cases attached <;> cases lost <;> rfl

/-! ## Steps -/

/-- A job with its thread and its callers. -/
structure Watch where
  job : Job
  work : Work := .working
  place : Nat → Place := fun _ => .idle
  /-- What calls have answered, the latest first. -/
  answers : List Answer := []
  /-- Whether someone has called for a join. -/
  called : Bool := false

def Answer.joined? : Answer → Option (Except Error Unit)
  | joined result => some result
  | _ => none

/-- The answer says that the work is over. -/
def Answer.Late : Answer → Prop
  | finished done | waited done => done = true
  | joined _ => True

namespace Watch

/-- What the joins have answered, the latest first. -/
def joins (s : Watch) : List (Except Error Unit) := s.answers.filterMap Answer.joined?

/-- The state after a caller made an access. -/
def put (s : Watch) (i : Nat) (next : Job × Place × Option Answer) : Watch :=
  { s with
    job := next.1
    place := Function.update s.place i next.2.1
    answers := next.2.2.toList ++ s.answers }

/-- The state after a caller went to another place. -/
def send (s : Watch) (i : Nat) (place : Place) : Watch :=
  { s with place := Function.update s.place i place }

/-- The state after the thread made an access. -/
def advance (s : Watch) : Watch :=
  { s with
    job := (proceed s.job s.work).1
    work := (proceed s.job s.work).2
    place := match s.work with
      | .notifying _ => fun i => (s.place i).woken
      | _ => s.place }

/-- The state after a call. -/
def ask (s : Watch) (i : Nat) (c : Call) : Watch :=
  { s.send i c.entry with called := s.called || c == .join }

/-- The state after a caller made its next access. -/
def go (s : Watch) (i : Nat) : Watch := s.put i (access s.job (s.place i))

/-- The state after the work ended. -/
def finish (s : Watch) (e : Ending) : Watch := { s with work := .after e }

/-- The thread or a caller goes on. -/
inductive Step (s : Watch) : Watch → Prop where
  | call (i : Nat) (c : Call) (idle : s.place i = .idle) : Step s (s.ask i c)
  /-- A caller makes its next access. Who has the thread waits for it to be gone. -/
  | access (i : Nat) (free : s.place i = .attending → ∃ e, s.work = .gone e) : Step s (s.go i)
  /-- The time is over for which a caller waits. -/
  | expire (i : Nat) (here : s.place i = .dozing) : Step s (s.send i .expired)
  /-- The work ends. -/
  | finish (e : Ending) (here : s.work = .working) : Step s (s.finish e)
  | proceed : Step s s.advance

/-- One state leads to another. -/
inductive Leads : Watch → Watch → Prop where
  | refl (s : Watch) : Leads s s
  | step {s t u : Watch} (h : Leads s t) (ht : Step t u) : Leads s u

variable {s s' : Watch} {i k : Nat} {next : Job × Place × Option Answer}

@[simp] theorem place_put_self : (s.put i next).place i = next.2.1 := Function.update_self ..

theorem place_put_ne (h : k ≠ i) : (s.put i next).place k = s.place k := Function.update_of_ne h ..

/-- Nobody but the caller itself is moved by its access. -/
theorem forall_place_put {P : Place → Prop} (hothers : ∀ k, P (s.place k)) (hself : P next.2.1) :
    ∀ k, P ((s.put i next).place k) := by
  intro k
  by_cases hki : k = i
  · subst hki
    simpa using hself
  · rw [place_put_ne hki]
    exact hothers k

/-! ## The flag -/

theorem done_access (j : Job) (p : Place) : (Joining.access j p).1.done = j.done := by
  cases p <;> simp only [Joining.access] <;> split <;> rfl

theorem done_proceed {j : Job} (w : Work) (h : j.done = true) : (proceed j w).1.done = true := by
  match w with
  | .working | .storing _ | .notifying _ | .gone _ => exact h
  | .raising _ => rfl
  | .exiting .crashed | .exiting (.returned _) => exact h

/-- **The flag is never lowered.** -/
theorem Leads.done (h : Leads s s') (hdone : s.job.done = true) : s'.job.done = true := by
  induction h with
  | refl => exact hdone
  | step _ ht ih =>
    cases ht with
    | call | expire | finish => exact ih
    | access => exact (done_access ..).trans ih
    | proceed => exact done_proceed _ ih

end Watch

end CellMachine.Joining
