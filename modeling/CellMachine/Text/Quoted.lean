import CellMachine.Text.Numeral
import CellMachine.Text.Unprintable
import CellMachine.Text.GraphemeExtend

/-!
# Quoted text

A text between double quotes, on one line and with every character visible: the quote and the
backslash are written after a backslash, tab, line feed, carriage return and NUL by their letter,
and any other character that has no visible form or extends the one before it by its code point.
The single quote stands for itself.
-/

namespace CellMachine.Text

/-- Whether a code point lies in one of the ranges. -/
def inRanges (ranges : Array (Nat × Nat)) (n : Nat) : Bool :=
  ranges.any fun r => r.1 ≤ n && n ≤ r.2

/-- Whether a character is shown as itself inside quoted text (escapes by letter apart). -/
def isVisible (c : Char) : Bool :=
  if c.toNat < 0x7f then 0x20 ≤ c.toNat
  else !inRanges graphemeExtend c.toNat && !inRanges unprintable c.toNat

/-- One character of quoted text. -/
def quoteChar (c : Char) : List Char :=
  match c with
  | '"' => ['\\', '"']
  | '\\' => ['\\', '\\']
  | '\t' => ['\\', 't']
  | '\n' => ['\\', 'n']
  | '\r' => ['\\', 'r']
  | c =>
    if c.toNat = 0 then ['\\', '0']
    else if isVisible c then [c]
    else ['\\', 'u', '\x7b'] ++ Nat.toDigits 16 c.toNat ++ ['\x7d']

/-- The text in double quotes with escapes. -/
def quote (s : String) : String :=
  String.ofList (['"'] ++ s.toList.flatMap quoteChar ++ ['"'])

end CellMachine.Text
