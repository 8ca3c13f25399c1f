import CellMachine.Host.Step

/-!
# Background runs

`run` hands a process to a thread of its own. Runs make progress while somebody waits, in slices
taken in turn; a run that sleeps or stands at a gate keeps its place. When nothing can go on, time
passes to the next moment at which something happens.
-/

namespace CellMachine.Host

/-- The turns of one slice. -/
def sliceLength : Nat := 1024

/-- Hands a process to a background run; the number of the run. -/
def run (p : Nat) : HostM Nat := do
  let q ← process p
  match q.machine with
  | none => refuse .disposed
  | some m => let _ ← parts m
  modifyControl p Control.raiseActive
  match ← attempt (start p) with
  | .ok _ => pure ()
  | .error e =>
    finishRun p
    throw e
  let h ← get
  set { h with
    runs := h.runs.push
      { process := p, job := { name := "burrow-process-" ++ Int.repr q.id } } }
  pure h.runs.size

/-- Ends a run: the process ends as its result says, gives its segments back if it was disposed of,
and goes itself if nobody holds on to it. -/
def conclude (r p : Nat) (result : Except Error Unit) : HostM Unit := do
  match result with
  | .ok _ => stop p
  | .error _ => fault p
  match ← attempt (do finishRun p; collect p) with
  | .ok _ =>
    modifyRun r fun run =>
      { run with activity := .finished, job := run.job.finish (.returned result) }
  | .error _ =>
    modifyRun r fun run => { run with activity := .finished, job := run.job.finish .crashed }

/-- The thread of a run crashes: the process stays as it is, its run still counted as under way. -/
def collapse (r p : Nat) : HostM Unit := do
  let _ ← attempt (collect p)
  modifyRun r fun run => { run with activity := .finished, job := run.job.finish .crashed }

/-- Carries on with a run after a fault of the call it was in. -/
def faulted (r p : Nat) : Fault → HostM Unit
  | .error e => conclude r p (.error e)
  | .crash => collapse r p

/-- Carries on with a run after a round of the dispatch loop. -/
def turned (r p : Nat) : Processor.Turn → HostM Unit
  | .ended result => conclude r p result
  | .next frame write => do
    match write with
    | some a => modifyStore a.apply
    | none => pure ()
    modifyRun r fun run => { run with activity := .executing frame }
  | .calling _ _ _ frame => modifyRun r fun run => { run with activity := .executing frame }

/-- Takes turns for a run. -/
def advance (r p : Nat) (frame : Processor.Frame) : HostM Unit := do
  match ← burst p sliceLength frame with
  | .ended result => conclude r p result
  | .tired frame => modifyRun r fun run => { run with activity := .executing frame }
  | .calling function args result frame =>
    match ← attempt (reaction p function args) with
    | .error e => faulted r p e
    | .ok reaction =>
      let service : Service := ⟨reaction.effects, reaction.reply, frame, result⟩
      modifyRun r fun run => { run with activity := .serving service }

/-- Goes on with a host call. -/
def serve (r p : Nat) (s : Service) : HostM Unit := do
  match s.effects with
  | [] =>
    match ← attempt (replied s.reply) with
    | .error e => faulted r p e
    | .ok value =>
      let q ← process p
      turned r p (Processor.resume q.segments q.control s.frame s.result value)
  | .sleep ms :: rest =>
    let now := (← get).now
    modifyRun r fun run =>
      { run with activity := .sleeping (now + ms * millisecond) { s with effects := rest } }
  | .wait gate :: rest =>
    let ticket ← arrive gate
    modifyRun r fun run => { run with activity := .waiting gate ticket { s with effects := rest } }
  | .deed d :: rest =>
    match ← attempt (carryOut p d) with
    | .error e => faulted r p e
    | .ok _ => modifyRun r fun run => { run with activity := .serving { s with effects := rest } }

/-- One slice of a run; whether it could go on. -/
def slice (r : Nat) : HostM Bool := do
  match (← get).runs[r]? with
  | none => pure false
  | some run =>
    match run.activity with
    | .finished => pure false
    | .executing frame =>
      advance r run.process frame
      pure true
    | .serving s =>
      serve r run.process s
      pure true
    | .sleeping wakeAt s =>
      if wakeAt ≤ (← get).now then
        modifyRun r fun run => { run with activity := .serving s }
        pure true
      else pure false
    | .waiting gate ticket s =>
      if isOpenTo gate ticket (← get) then
        modifyRun r fun run => { run with activity := .serving s }
        pure true
      else pure false

/-- A slice for each of the first `n` runs; whether any could go on. -/
def round : (n : Nat) → HostM Bool
  | 0 => pure false
  | n + 1 => do
    let earlier ← round n
    let last ← slice n
    pure (earlier || last)

/-- The next moment at which a sleeping run wakes. -/
def nextWake? (h : Host) : Option Nat :=
  h.runs.foldl (fun least run =>
    match run.activity, least with
    | .sleeping t _, some u => some (min t u)
    | .sleeping t _, none => some t
    | _, least => least) none

/-- Whether a deadline has come. -/
def hasPassed (h : Host) : Option Nat → Bool
  | some t => t ≤ h.now
  | none => false

/-- Lets runs go on until `enough` holds or the deadline has come; whether `enough` holds. Without
a deadline, waiting for what can never happen is a crash. `fuel` bounds the rounds. -/
def waitUntil (enough : Host → Bool) (deadline : Option Nat) : (fuel : Nat) → HostM Bool
  | 0 => throw .crash
  | fuel + 1 => do
    let h ← get
    if enough h then return true
    if hasPassed h deadline then return false
    if ← round h.runs.size then waitUntil enough deadline fuel
    else
      match nextWake? (← get), deadline with
      | some t, some d =>
        modify fun h => { h with now := max h.now (min t d) }
        waitUntil enough deadline fuel
      | some t, none =>
        modify fun h => { h with now := max h.now t }
        waitUntil enough deadline fuel
      | none, some d =>
        modify fun h => { h with now := max h.now d }
        return enough (← get)
      | none, none => throw .crash

/-! ## Waiting for runs and gates -/

/-- Whether a run is over. -/
def isDone (r : Nat) (h : Host) : Bool := (h.runs[r]?.map fun run => run.job.done).getD true

/-- Waits for a run and learns its result. -/
def join (r fuel : Nat) : HostM Unit := do
  let _ ← waitUntil (isDone r) none fuel
  match (← get).runs[r]? with
  | none => throw .crash
  | some run =>
    let (result, job) := run.job.join
    modifyRun r fun run => { run with job }
    accept result

/-- Waits for a run for some time; whether it is over. -/
def joinFor (r ms fuel : Nat) : HostM Bool := do
  waitUntil (isDone r) (some ((← get).now + ms * millisecond)) fuel

/-- Whether a call has arrived at a gate that nobody has asked about yet. -/
def hasArrival (gate : Nat) (h : Host) : Bool :=
  match h.gates[gate]? with
  | some g => g.noticed < g.arrived
  | none => false

/-- Waits until a call has arrived at a gate, for at most `ms` milliseconds. -/
def awaitArrival (gate ms fuel : Nat) : HostM Bool := do
  let arrived ← waitUntil (hasArrival gate) (some ((← get).now + ms * millisecond)) fuel
  if arrived then
    modify fun h =>
      { h with gates := h.gates.modify gate fun g => { g with noticed := g.noticed + 1 } }
  pure arrived

/-- Lets one call pass a gate. -/
def openGate (gate : Nat) : HostM Unit :=
  modify fun h =>
    { h with gates := h.gates.modify gate fun g => { g with opened := g.opened + 1 } }

end CellMachine.Host
