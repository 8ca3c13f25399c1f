import CellMachine.Text.Numeral

/-!
# Byte strings in hexadecimal

Two lower case digits a byte, without any separator. Reading takes either case and refuses an odd
number of digits.
-/

namespace CellMachine.Text

/-- The bytes as hexadecimal text. -/
def ofBytes (bytes : List UInt8) : String :=
  String.ofList (bytes.flatMap fun b => [hexDigit (b.toNat / 16), hexDigit (b.toNat % 16)])

/-- The value of a hexadecimal digit of either case. -/
def hexValue? (c : Char) : Option Nat :=
  if '0' ≤ c ∧ c ≤ '9' then some (c.toNat - 48)
  else if 'a' ≤ c ∧ c ≤ 'f' then some (c.toNat - 87)
  else if 'A' ≤ c ∧ c ≤ 'F' then some (c.toNat - 55)
  else none

/-- The bytes that a list of hexadecimal digits stands for. -/
def bytesOfDigits? : List Char → Option (List UInt8)
  | [] => some []
  | hi :: lo :: rest => do
    let h ← hexValue? hi
    let l ← hexValue? lo
    let bytes ← bytesOfDigits? rest
    pure (UInt8.ofNat (16 * h + l) :: bytes)
  | [_] => none

/-- The bytes that hexadecimal text stands for. -/
def bytes? (s : String) : Option (List UInt8) := bytesOfDigits? s.toList

/-- The number that a nonempty run of hexadecimal digits stands for. -/
def hexNumber? (digits : List Char) : Option Nat :=
  if digits.isEmpty then none
  else digits.foldlM (fun acc c => (hexValue? c).map (acc * 16 + ·)) 0

end CellMachine.Text
