import CellMachine.Error
import CellMachine.Text.Quoted

/-!
# Jobs

A job is work on a named thread that ends with a result or crashes. Whoever waits for it can ask
whether it is over or join it. The first to join learns about an error or a crash; every later
join succeeds.
-/

namespace CellMachine

/-- How a job's work ends. -/
inductive Ending where
  | returned (result : Except Error Unit)
  | crashed

/-- A job as its owner sees it. -/
structure Job where
  name : String
  /-- Whether the thread has not been joined yet. -/
  attached : Bool := true
  /-- Whether the work is over. -/
  done : Bool := false
  /-- The result, until a join takes it. -/
  outcome : Option (Except Error Unit) := none
  /-- Whether the thread crashed. -/
  lost : Bool := false

namespace Job

/-- A new job; a name with a NUL character is refused by a crash. -/
def spawn (name : String) : Except Fault Job :=
  if name.toList.any fun c => c.toNat = 0 then .error .crash else .ok { name }

/-- The job when its work has ended. -/
def finish (j : Job) : Ending → Job
  | .returned result => { j with done := true, outcome := some result }
  | .crashed => { j with done := true, lost := true }

/-- Joins a job that is over. -/
def join (j : Job) : Except Error Unit × Job :=
  if j.attached && j.lost then (.error (.crashed j.name), { j with attached := false })
  else (j.outcome.getD (.ok ()), { j with attached := false, outcome := none })

/-- The name of the thread while it has not been joined. -/
def threadName? (j : Job) : Option String := if j.attached then some j.name else none

/-- A job for people. -/
def describe (j : Job) : String :=
  "NativeThread \x7b name: " ++ Text.quote j.name ++ ", finished: "
    ++ (if j.done then "true" else "false") ++ " \x7d"

end Job

/-- A job whose ending is known beforehand and which may have to be let go first. -/
structure PlannedJob where
  job : Job
  ending : Ending
  /-- Whether the work waits to be let go. -/
  held : Bool

namespace PlannedJob

/-- Lets the work go; whether it was waiting. -/
def letGo (p : PlannedJob) : Bool × PlannedJob := (p.held, { p with held := false })

/-- The job after its owner has waited for a while: over, unless the work has not been let go. -/
def settle (p : PlannedJob) : PlannedJob :=
  if p.held || p.job.done then p else { p with job := p.job.finish p.ending }

/-- Waits for the job and joins it; waiting for work that was never let go does not end. -/
def join (p : PlannedJob) : Except Fault (Except Error Unit × PlannedJob) :=
  let p := p.settle
  if p.job.done then
    let (result, job) := p.job.join
    .ok (result, { p with job })
  else .error .crash

end PlannedJob

end CellMachine
