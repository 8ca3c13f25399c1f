import CellMachine.Peripheral.Firmware

/-!
# Peripherals to try machines out with

`probe` offers one function for everything a call can do: compute from its arguments, refuse, crash,
sleep, write the caller's memory, and end the process or the machine it runs on. `gate` holds a
call until it is let through. `table` offers named functions that answer with their number.
-/

namespace CellMachine.Probe

/-- The value that functions answer after they interfered with their caller. -/
def mark : Cell := Cell.ofInt 64 0xBAD

/-- Answers zero. -/
def noop : HostFunction := fun _ => .answer Cell.zero

/-- The sum of the first two arguments. -/
def add : HostFunction := fun call => .ofExcept do
  let a ← call.arg 0
  let b ← call.arg 1
  pure (.answer ⟨a.bits + b.bits, none⟩)

/-- The sum of all arguments. -/
def sum : HostFunction := fun call =>
  .answer ⟨call.args.foldl (fun acc c => acc + c.bits) 0, none⟩

/-- Refuses every call. -/
def fail : HostFunction := fun _ => ⟨[], .refuse (.misuse (.refused "refused"))⟩

/-- Has an effect and answers `mark`. -/
def interfere (effect : Effect) : HostFunction := fun _ => ⟨[effect], .value mark⟩

/-- Crashes. -/
def crash : HostFunction := fun _ => ⟨[], .crash⟩

/-- The first argument. -/
def echo : HostFunction := fun call => .ofExcept do
  let a ← call.arg 0
  pure (.answer a)

/-- The texts among the arguments, one after the other. -/
def concat : HostFunction := fun call =>
  .answer (Cell.ofText (String.join (call.args.filterMap Cell.text?)))

/-- Sleeps for as many milliseconds as the first argument says. -/
def sleep : HostFunction := fun call => .ofExcept do
  let a ← call.arg 0
  pure ⟨[.sleep a.bits.toNat], .value Cell.zero⟩

/-- The id of the calling process. -/
def processId : HostFunction := fun call => .answer (Cell.ofInt 32 call.processId)

/-- Writes the second argument to the address that is the first. -/
def poke : HostFunction := fun call => .ofExcept do
  let a ← call.arg 0
  let b ← call.arg 1
  pure ⟨[.deed (.write a.bits.toUInt32 b)], .value Cell.zero⟩

/-- The argument whose number is the first argument. -/
def pick : HostFunction := fun call => .ofExcept do
  let a ← call.arg 0
  let b ← call.arg a.bits.toNat
  pure (.answer b)

/-- Refuses after it had already found a result. -/
def lateFail : HostFunction := fun _ =>
  ⟨[], .refuse (.misuse (.refused ("after result " ++ Int.repr mark.toInt64.toInt)))⟩

/-- One function for everything a call can do. -/
def probe : Peripheral where
  name := "host"
  kind := .probe
  functions :=
    [("noop", noop), ("add", add), ("sum", sum), ("fail", fail),
     ("dispose", interfere (.deed .dispose)), ("stop", interfere (.deed .stop)),
     ("fault", interfere (.deed .fault)), ("panic", crash), ("echo", echo), ("concat", concat),
     ("sleep", sleep), ("pid", processId), ("poke", poke),
     ("dispose_machine", interfere (.deed .disposeMachine)), ("pick", pick),
     ("late_fail", lateFail)]

/-- Holds every call at a gate. -/
def gate (gate : Nat) : Peripheral where
  name := "gate"
  kind := .gate
  functions := [("wait", interfere (.wait gate))]

/-- Named functions, the `i`-th of which answers `100 + i`. -/
def table (name : String) (functions : List String) : Peripheral where
  name := name
  kind := .table
  functions := functions.zipIdx.map fun (f, i) => (f, fun _ => .answer (Cell.ofInt 64 (100 + i)))

end CellMachine.Probe
