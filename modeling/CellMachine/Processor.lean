import CellMachine.Address
import CellMachine.Process.Control

/-!
# The processor

An instruction first reads everything it needs and then makes at most one write: `decide` gives
that write, or the place to continue at, or a call of the host, or the error. So a failing
instruction changes nothing.

`turn` is one round of the dispatch loop. Before every 64th instruction it looks at the control
block: a process that is no longer running ends its run there without an error, and one that has
been running for too long ends it with the watchdog's. `burst` takes turns until something outside
the processor has to happen.
-/

namespace CellMachine

/-- The host function an instruction names: the peripheral in the upper half of the number, the
function in the lower. -/
structure FunctionId where
  raw : Int32
  deriving DecidableEq, Repr

namespace FunctionId

/-- The id of a function of a peripheral. -/
def make (peripheral function : UInt16) : FunctionId :=
  ⟨(UInt32.ofNat (peripheral.toNat * 65536 + function.toNat)).toInt32⟩

/-- The number of the peripheral. -/
def peripheral (f : FunctionId) : Nat := f.raw.toUInt32.toNat / 65536

/-- The number of the function in its peripheral. -/
def function (f : FunctionId) : Nat := f.raw.toUInt32.toNat % 65536

/-- A function id for people. -/
def describe (f : FunctionId) : String := "PeripheralFunctionId(" ++ Int.repr f.raw.toInt ++ ")"

end FunctionId

namespace Processor

/-- A write to one cell. -/
structure Assignment where
  pool : Nat
  position : Nat
  value : Cell
  deriving DecidableEq, Repr

/-- The store after a write. -/
def Assignment.apply (a : Assignment) (store : Store) : Store :=
  store.poke a.pool a.position a.value

/-- What an instruction does once it has read its operands. -/
inductive Action where
  | halt
  /-- Continue at another instruction. -/
  | goto (pc : Nat)
  /-- Write a cell and continue with the next instruction. -/
  | assign (a : Assignment)
  /-- Call the host; the result goes to register `result`. -/
  | call (function : FunctionId) (args : List Cell) (result : Nat)
  deriving DecidableEq, Repr

/-- The write of `value` to the cell of a window. -/
def assignment (w : Window) (index : Nat) (value : Cell) : Except Error Assignment := do
  let position ← w.position index
  pure ⟨w.pool, position, value⟩

/-- The address `rb + immediate`; refused when the sum is not a 32 bit number. -/
def effectiveAddress (s : Segments) (store : Store) (i : Instruction) : Except Error UInt32 := do
  let base ← store.get s.registers i.rb.toNat
  let address := base.bits + i.immediate.toInt64.toUInt64
  if address < 0x100000000 then pure address.toUInt32
  else throw (.addressing address.toUInt32)

/-- The place a branch leads to: an instruction of the program, or its end. -/
def branchTarget (s : Segments) (target : Int32) : Except Error Nat :=
  if 0 ≤ target.toInt ∧ target.toInt.toNat ≤ s.program.length then .ok target.toInt.toNat
  else .error (.invalidBranch target.toInt s.program.length)

/-- The contents of `count` registers from `first` on. -/
def arguments (s : Segments) (store : Store) : (first count : Nat) → Except Error (List Cell)
  | _, 0 => .ok []
  | first, count + 1 => do
    let c ← store.get s.registers first
    let rest ← arguments s store (first + 1) count
    pure (c :: rest)

/-- What the instruction `i` at `pc` does. -/
def perform (s : Segments) (store : Store) (pc : Nat) (i : Instruction) : Except Error Action := do
  match i.opcode? with
  | none => throw (.invalidInstruction i.op)
  | some .halt => pure .halt
  | some .nop => pure (.goto (pc + 1))
  | some .mov =>
    let value ← store.get s.registers i.rb.toNat
    let a ← assignment s.registers i.ra.toNat value
    pure (.assign a)
  | some .movl =>
    let a ← assignment s.registers i.ra.toNat ⟨i.immediate.toInt64.toUInt64, none⟩
    pure (.assign a)
  | some .add =>
    let lhs ← store.get s.registers i.rb.toNat
    let rhs ← store.get s.registers i.rc.toNat
    let a ← assignment s.registers i.ra.toNat ⟨lhs.bits + rhs.bits, none⟩
    pure (.assign a)
  | some .sub =>
    let lhs ← store.get s.registers i.rb.toNat
    let rhs ← store.get s.registers i.rc.toNat
    let a ← assignment s.registers i.ra.toNat ⟨lhs.bits - rhs.bits, none⟩
    pure (.assign a)
  | some .ldr =>
    let address ← effectiveAddress s store i
    let value ← s.read store address
    let a ← assignment s.registers i.ra.toNat value
    pure (.assign a)
  | some .str =>
    let address ← effectiveAddress s store i
    let value ← store.get s.registers i.ra.toNat
    let (w, index) ← s.resolve address
    let a ← assignment w index value
    pure (.assign a)
  | some .br =>
    let pc ← branchTarget s i.immediate
    pure (.goto pc)
  | some .bnz =>
    let c ← store.get s.registers i.ra.toNat
    if c.bits = 0 then pure (.goto (pc + 1))
    else
      let pc ← branchTarget s i.immediate
      pure (.goto pc)
  | some .callp =>
    let args ← arguments s store i.ra.toNat i.rb.toNat
    pure (.call ⟨i.immediate⟩ args i.rc.toNat)

/-- What the instruction at `pc` does, read from the program segment. -/
def decide (s : Segments) (store : Store) (pc : Nat) : Except Error Action := do
  let c ← store.get s.program pc
  perform s store pc c.instruction

/-! ## The dispatch loop -/

/-- The number of instructions from one look at the control block to the next. -/
def interval : Nat := 64

/-- Where a run stands: the next instruction, and the instructions left until the next look. -/
structure Frame where
  pc : Nat := 0
  budget : Nat := interval
  deriving DecidableEq, Repr, Inhabited

/-- What one round of the dispatch loop comes to. -/
inductive Turn where
  /-- The run is over. -/
  | ended (result : Except Error Unit)
  /-- The run goes on, after a write if there is one. -/
  | next (frame : Frame) (write : Option Assignment)
  /-- The run waits for the host. -/
  | calling (function : FunctionId) (args : List Cell) (result : Nat) (frame : Frame)

/-- Fetches and performs the instruction of a frame whose look, if one was due, is done. -/
def fetch (s : Segments) (store : Store) (pc budget : Nat) : Turn :=
  if s.program.length ≤ pc then .ended (.ok ())
  else
    match decide s store pc with
    | .error e => .ended (.error e)
    | .ok .halt => .ended (.ok ())
    | .ok (.goto pc) => .next ⟨pc, budget⟩ none
    | .ok (.assign a) => .next ⟨pc + 1, budget⟩ (some a)
    | .ok (.call function args result) => .calling function args result ⟨pc + 1, budget⟩

/-- One round of the dispatch loop. -/
def turn (s : Segments) (control : Control) (now : Nat) (store : Store) (frame : Frame) : Turn :=
  if frame.budget - 1 = 0 then
    if control.state ≠ .running then .ended (.ok ())
    else if control.expired now then .ended (.error (control.watchdogError now))
    else fetch s store frame.pc interval
  else fetch s store frame.pc (frame.budget - 1)

/-- How a run goes on when the host returned a value: a process that is no longer running ends
there, and the value is dropped. -/
def resume (s : Segments) (control : Control) (frame : Frame) (result : Nat) (value : Cell) :
    Turn :=
  if control.state ≠ .running then .ended (.ok ())
  else
    match assignment s.registers result value with
    | .ok a => .next frame (some a)
    | .error e => .ended (.error e)

/-- The nanoseconds one turn is charged. -/
def turnTime : Nat := 250

/-- Why a burst of turns came to an end. -/
inductive Pause where
  | ended (result : Except Error Unit)
  | calling (function : FunctionId) (args : List Cell) (result : Nat) (frame : Frame)
  /-- The burst was long enough. -/
  | tired (frame : Frame)

/-- At most `fuel` turns, with the store and the time they lead to. -/
def burst (s : Segments) (control : Control) :
    (fuel now : Nat) → Store → Frame → Pause × Store × Nat
  | 0, now, store, frame => (.tired frame, store, now)
  | fuel + 1, now, store, frame =>
    match turn s control now store frame with
    | .ended result => (.ended result, store, now + turnTime)
    | .calling function args result frame =>
      (.calling function args result frame, store, now + turnTime)
    | .next frame none => burst s control fuel (now + turnTime) store frame
    | .next frame (some a) => burst s control fuel (now + turnTime) (a.apply store) frame

end Processor

end CellMachine
