import CellMachine.Decimal.Layout
import CellMachine.Peripheral.Firmware

/-!
# The console

Writes script output to a stream: the arguments of a call separated by blanks, and a line feed. A
cell that carries a text is written as the text, any other cell as a signed whole number (`print`)
or as a floating point number (`print_float`). The result is the number of arguments.
-/

namespace CellMachine.Console

/-- A cell as `print` writes it. -/
def wholeText (c : Cell) : String :=
  match c.text? with
  | some s => s
  | none => Int.repr c.toInt64.toInt

/-- A cell as `print_float` writes it. -/
def floatText (c : Cell) : String :=
  match c.text? with
  | some s => s
  | none => Decimal.render Decimal.plain c.bits

/-- Writes one line with all arguments. -/
def line (stream : Nat) (text : Cell → String) : HostFunction := fun call =>
  { effects := [.deed (.print stream (String.intercalate " " (call.args.map text) ++ "\n"))]
    reply := .value (Cell.ofInt 64 call.args.length) }

/-- The console on a stream. -/
def peripheral (stream : Nat) : Peripheral where
  name := "console"
  kind := .console
  functions := [("print", line stream wholeText), ("print_float", line stream floatText)]

end CellMachine.Console
