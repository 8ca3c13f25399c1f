/-!
# Numbers as bytes

A number of a fixed width is written as its digits in base 256, either end first. `digits` and
`value` work from the least significant byte; a `ByteOrder` says which way round the bytes stand.
-/

namespace CellMachine.Codec

/-- The `width` low digits of `v` in base 256, the least significant first. -/
def digits : (width : Nat) → (v : Nat) → List UInt8
  | 0, _ => []
  | width + 1, v => UInt8.ofNat v :: digits width (v / 256)

/-- The number with the given digits in base 256, the least significant first. -/
def value : List UInt8 → Nat
  | [] => 0
  | b :: rest => b.toNat + 256 * value rest

/-- Which end of a number comes first. -/
inductive ByteOrder where
  | little
  | big
  deriving DecidableEq, Repr

namespace ByteOrder

/-- The `width` low bytes of `v` in this order. -/
def encode (order : ByteOrder) (width v : Nat) : List UInt8 :=
  match order with
  | little => digits width v
  | big => (digits width v).reverse

/-- The number that bytes in this order stand for. -/
def decode (order : ByteOrder) (bytes : List UInt8) : Nat :=
  match order with
  | little => value bytes
  | big => value bytes.reverse

end ByteOrder

end CellMachine.Codec
