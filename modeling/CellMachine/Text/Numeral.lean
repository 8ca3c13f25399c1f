/-!
# Numerals and padding

How numbers are written in messages, dumps and listings: decimal, zero padded decimal, hexadecimal
of a fixed width in either case, and blanks up to a column.
-/

namespace CellMachine.Text

/-- The digit `d` of base sixteen, in lower case. -/
def hexDigit (d : Nat) : Char :=
  if d < 10 then Char.ofNat (48 + d) else Char.ofNat (87 + d)

/-- The digit `d` of base sixteen, in upper case. -/
def hexDigitUpper (d : Nat) : Char :=
  if d < 10 then Char.ofNat (48 + d) else Char.ofNat (55 + d)

/-- The `width` low digits of `n` in base sixteen, the most significant first. -/
def hexDigits : (width : Nat) → (n : Nat) → List Nat
  | 0, _ => []
  | width + 1, n => hexDigits width (n / 16) ++ [n % 16]

/-- `n` as `width` lower case hexadecimal digits. -/
def hex (width n : Nat) : String := String.ofList ((hexDigits width n).map hexDigit)

/-- `n` as `width` upper case hexadecimal digits. -/
def hexUpper (width n : Nat) : String := String.ofList ((hexDigits width n).map hexDigitUpper)

/-- `n` in lower case hexadecimal without leading zeros. -/
def hexShort (n : Nat) : String := String.ofList (Nat.toDigits 16 n)

/-- `s` followed by blanks up to `width` characters. -/
def padRight (width : Nat) (s : String) : String :=
  s ++ String.ofList (List.replicate (width - s.length) ' ')

/-- `s` after blanks up to `width` characters. -/
def padLeft (width : Nat) (s : String) : String :=
  String.ofList (List.replicate (width - s.length) ' ') ++ s

/-- `n` in decimal, with leading zeros up to `width` digits. -/
def zeroPadded (width n : Nat) : String :=
  let s := Nat.repr n
  String.ofList (List.replicate (width - s.length) '0') ++ s

/-- The value of a decimal digit. -/
def digitValue? (c : Char) : Option Nat :=
  if '0' ≤ c ∧ c ≤ '9' then some (c.toNat - 48) else none

/-- The value of a run of decimal digits continuing `acc`; `none` when another character occurs. -/
def digitsValue? : (acc : Nat) → List Char → Option Nat
  | acc, [] => some acc
  | acc, c :: rest =>
    match digitValue? c with
    | some d => digitsValue? (acc * 10 + d) rest
    | none => none

/-- A natural number in decimal: at least one digit, an optional plus sign before it. -/
def natural? (s : String) : Option Nat :=
  match s.toList with
  | [] => none
  | ['+'] => none
  | '+' :: digits => digitsValue? 0 digits
  | digits => digitsValue? 0 digits

/-- An integer in decimal: a natural number, or a minus sign and at least one digit. -/
def integer? (s : String) : Option Int :=
  match s.toList with
  | ['-'] => none
  | '-' :: digits => (digitsValue? 0 digits).map fun n => -(n : Int)
  | _ => (natural? s).map Int.ofNat

end CellMachine.Text
