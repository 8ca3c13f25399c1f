/-!
# The shortest decimal of a binary floating point number

A finite double is `m * 2 ^ q`. Its neighbours leave an interval of reals that round to it, with
the ends included exactly when `m` is even. `shortest` gives the decimal with the fewest digits in
that interval and, among those, the one nearest to the number; a tie goes up. Everything is exact
arithmetic on natural numbers: for `n = 1, 2, …` digits only the two neighbours of the number on the
grid of `n` digit decimals can qualify.
-/

namespace CellMachine

/-- A decimal `digits * 10 ^ exponent`. -/
structure Decimal where
  digits : Nat
  exponent : Int
  deriving DecidableEq, Repr

namespace Decimal

/-- A double taken apart: its sign and what its magnitude is. -/
inductive Magnitude where
  | zero
  /-- `mantissa * 2 ^ exponent`; `closeBelow` when the number below is only half as far away as
  the number above. -/
  | finite (mantissa : Nat) (exponent : Int) (closeBelow : Bool)
  | infinite
  | notANumber
  deriving DecidableEq, Repr

/-- Whether the sign bit is set. -/
def isNegative (bits : UInt64) : Bool := bits.toNat >>> 63 == 1

/-- The magnitude of the double with the given bits. -/
def magnitude (bits : UInt64) : Magnitude :=
  let fraction : Nat := bits.toNat % (1 <<< 52)
  let biased : Nat := (bits.toNat >>> 52) % (1 <<< 11)
  if biased = 2047 then if fraction = 0 then .infinite else .notANumber
  else if biased = 0 then if fraction = 0 then .zero else .finite fraction (-1074) false
  else .finite ((1 <<< 52) + fraction) ((biased : Int) - 1075) (fraction = 0 && biased > 1)

/-- The interval of reals that round to a number, over the common denominator `scale`. -/
structure Interval where
  low : Nat
  exact : Nat
  high : Nat
  scale : Nat
  closed : Bool

/-- The interval of a finite double. -/
def interval (mantissa : Nat) (exponent : Int) (closeBelow : Bool) : Interval :=
  let quarter : Nat := 1 <<< exponent.toNat
  { low := (4 * mantissa - if closeBelow then 1 else 2) * quarter
    exact := 4 * mantissa * quarter
    high := (4 * mantissa + 2) * quarter
    scale := 4 <<< (-exponent).toNat
    closed := mantissa % 2 = 0 }

/-- Whether `n * 10 ^ e` lies in the interval. -/
def Interval.holds (i : Interval) (n : Nat) (e : Int) : Bool :=
  let v := n * Nat.pow 10 e.toNat * i.scale
  let t := Nat.pow 10 (-e).toNat
  if i.closed then i.low * t ≤ v && v ≤ i.high * t else i.low * t < v && v < i.high * t

/-- The number of decimal digits of `n`. -/
def digitCount (n : Nat) : Nat := (Nat.toDigits 10 n).length

/-- The exponent `k` with `10 ^ (k - 1) ≤ exact / scale < 10 ^ k`, searched from an estimate that
is at most one too high. -/
def Interval.order (i : Interval) : Int :=
  let guess : Int := (digitCount i.exact : Int) - digitCount i.scale + 1
  let above (k : Int) : Bool := i.exact * Nat.pow 10 (-k).toNat < i.scale * Nat.pow 10 k.toNat
  if above (guess - 1) then guess - 1 else guess

/-- The nearest decimal of `n` digits in the interval, if there is one. -/
def Interval.nearest? (i : Interval) (n : Nat) : Option Decimal :=
  let e : Int := i.order - n
  let num := i.exact * Nat.pow 10 (-e).toNat
  let den := i.scale * Nat.pow 10 e.toNat
  let below := num / den
  let down := below ≠ 0 && i.holds below e
  let up := i.holds (below + 1) e
  if down && up then
    if 2 * (num % den) < den then some ⟨below, e⟩ else some ⟨below + 1, e⟩
  else if down then some ⟨below, e⟩
  else if up then some ⟨below + 1, e⟩
  else none

/-- The nearest decimal with the fewest digits, tried from `n` digits on. -/
def Interval.search (i : Interval) : (fuel n : Nat) → Decimal
  | 0, n => (i.nearest? n).getD ⟨0, 0⟩
  | fuel + 1, n =>
    match i.nearest? n with
    | some d => d
    | none => i.search fuel (n + 1)

/-- The same value without trailing zero digits; `fuel` bounds the zeros taken off. -/
def trim : (fuel : Nat) → Decimal → Decimal
  | 0, d => d
  | fuel + 1, d =>
    if d.digits % 10 = 0 && d.digits ≠ 0 then trim fuel ⟨d.digits / 10, d.exponent + 1⟩ else d

/-- The shortest decimal that rounds to a finite double. -/
def shortest (mantissa : Nat) (exponent : Int) (closeBelow : Bool) : Decimal :=
  trim 17 ((interval mantissa exponent closeBelow).search 17 1)

end Decimal

end CellMachine
