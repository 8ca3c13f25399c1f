import CellMachine.Decimal.Shortest

/-!
# Layouts of floating point numbers

`render` writes the shortest decimal of a double in a `Layout`: whether a whole number keeps a
final `.0`, and from which magnitudes on an exponent is written. Scripts print with `plain`, which
never writes an exponent; listings show constants with `listing`.
-/

namespace CellMachine.Decimal

/-- How a floating point number is written. -/
structure Layout where
  /-- Whether a number without fraction ends in `.0` when it has no exponent. -/
  keepsPoint : Bool
  /-- Numbers below `10 ^ smallest` are written with an exponent. -/
  smallest : Option Int
  /-- Numbers from `10 ^ largest` on are written with an exponent. -/
  largest : Option Int

/-- What scripts print: digits and a point, never an exponent. -/
def plain : Layout := ⟨false, none, none⟩

/-- What listings show: `.0` kept, an exponent below `1e-4` and from `1e16` on. -/
def listing : Layout := ⟨true, some (-4), some 16⟩

/-- `n` zero digits. -/
def zeros (n : Nat) : String := String.ofList (List.replicate n '0')

/-- A decimal with a point and no exponent. -/
def positional (layout : Layout) (d : Decimal) : String :=
  let digits := Nat.repr d.digits
  if 0 ≤ d.exponent then
    digits ++ zeros d.exponent.toNat ++ if layout.keepsPoint then ".0" else ""
  else
    let places := (-d.exponent).toNat
    if digits.length ≤ places then "0." ++ zeros (places - digits.length) ++ digits
    else
      let (whole, fraction) := digits.toList.splitAt (digits.length - places)
      String.ofList whole ++ "." ++ String.ofList fraction

/-- A decimal with one digit before the point and an exponent. -/
def scientific (d : Decimal) : String :=
  match (Nat.repr d.digits).toList with
  | [] => ""
  | first :: rest =>
    let exponent := d.exponent + rest.length
    let fraction := if rest.isEmpty then "" else "." ++ String.ofList rest
    String.ofList [first] ++ fraction ++ "e" ++ Int.repr exponent

/-- A decimal without its sign. -/
def written (layout : Layout) (d : Decimal) : String :=
  let order : Int := d.exponent + digitCount d.digits
  let small := match layout.smallest with
    | some e => order ≤ e
    | none => false
  let large := match layout.largest with
    | some e => e < order
    | none => false
  if small || large then scientific d else positional layout d

/-- The double with the given bits. -/
def render (layout : Layout) (bits : UInt64) : String :=
  let sign := if isNegative bits then "-" else ""
  match magnitude bits with
  | .zero => sign ++ positional layout ⟨0, 0⟩
  | .finite mantissa exponent closeBelow =>
    sign ++ written layout (shortest mantissa exponent closeBelow)
  | .infinite => sign ++ "inf"
  | .notANumber => "NaN"

end CellMachine.Decimal
