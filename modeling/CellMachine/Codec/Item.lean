import CellMachine.Codec.Bytes
import CellMachine.Codec.Utf8
import CellMachine.Error

/-!
# Typed items in a byte stream

Integers of four widths with and without sign, floating point numbers as their bit patterns, and
texts: a signed 32 bit length in bytes, then the text in UTF-8. A `Reader` consumes bytes from the
front of a list and keeps its place when it fails, so that reading can go on after a bad item.
-/

namespace CellMachine.Codec

/-- Reads a value from the front of a byte string. -/
abbrev Reader := EStateM Error (List UInt8)

/-- The next `n` bytes; `short` is the error when there are fewer. -/
def takeBytes (n : Nat) (short : IoError) : Reader (List UInt8) := fun bytes =>
  let front := bytes.take n
  if front.length = n then .ok front (bytes.drop n) else .error (.io short) bytes

/-- The next number of `width` bytes. -/
def readWord (order : ByteOrder) (width : Nat) : Reader Nat := do
  let bytes ← takeBytes width .endOfBuffer
  pure (order.decode bytes)

/-- The next signed 32 bit number. -/
def readInt32 (order : ByteOrder) : Reader Int := do
  let n ← readWord order 4
  pure (UInt32.ofNat n).toInt32.toInt

/-- The greatest length a text or table can announce. -/
def maxLength : Nat := 0x7fffffff

/-- The bytes of a text in UTF-8. -/
def textBytes (s : String) : List UInt8 := s.toUTF8.toList

/-- The text that bytes stand for, or where they stop being UTF-8. -/
def textOfBytes (bytes : List UInt8) : Except IoError String :=
  match String.fromUTF8? bytes.toByteArray with
  | some s => .ok s
  | none =>
    match Utf8.firstDefect? bytes with
    | some (index, width) => .error (.badUtf8 index width)
    | none => .error (.badUtf8 0 none)

/-- A text with its length before it. -/
def writeText (order : ByteOrder) (s : String) : Except Error (List UInt8) :=
  let body := textBytes s
  if body.length ≤ maxLength then .ok (order.encode 4 body.length ++ body)
  else .error (.io .textTooLong)

/-- The next text. -/
def readText (order : ByteOrder) : Reader String := do
  let length ← readInt32 order
  if length < 0 then throw (.io (.negativeLength length))
  let body ← takeBytes length.toNat .endOfText
  match textOfBytes body with
  | .ok s => pure s
  | .error e => throw (.io e)

/-- One item of a stream. -/
inductive Item where
  | i8 (v : Int8)
  | u8 (v : UInt8)
  | i16 (v : Int16)
  | u16 (v : UInt16)
  | i32 (v : Int32)
  | u32 (v : UInt32)
  | i64 (v : Int64)
  | u64 (v : UInt64)
  /-- A 32 bit float by its bits. -/
  | f32 (bits : UInt32)
  /-- A 64 bit float by its bits. -/
  | f64 (bits : UInt64)
  | text (s : String)
  deriving DecidableEq, Repr

/-- The types of items. -/
inductive ItemType where
  | i8
  | u8
  | i16
  | u16
  | i32
  | u32
  | i64
  | u64
  | f32
  | f64
  | text
  deriving DecidableEq, Repr

/-- The type of an item. -/
def Item.type : Item → ItemType
  | i8 _ => .i8
  | u8 _ => .u8
  | i16 _ => .i16
  | u16 _ => .u16
  | i32 _ => .i32
  | u32 _ => .u32
  | i64 _ => .i64
  | u64 _ => .u64
  | f32 _ => .f32
  | f64 _ => .f64
  | text _ => .text

/-- All types of items. -/
def ItemType.all : List ItemType := [i8, u8, i16, u16, i32, u32, i64, u64, f32, f64, text]

/-- The name of a type. -/
def ItemType.name : ItemType → String
  | i8 => "i8"
  | u8 => "u8"
  | i16 => "i16"
  | u16 => "u16"
  | i32 => "i32"
  | u32 => "u32"
  | i64 => "i64"
  | u64 => "u64"
  | f32 => "f32"
  | f64 => "f64"
  | text => "str"

/-- The type of a name, if any. -/
def ItemType.ofName? (s : String) : Option ItemType := all.find? fun type => type.name == s

/-- The bits of a type of whole numbers, and whether it has a sign. -/
def ItemType.integer? : ItemType → Option (Nat × Bool)
  | i8 => some (8, true)
  | u8 => some (8, false)
  | i16 => some (16, true)
  | u16 => some (16, false)
  | i32 => some (32, true)
  | u32 => some (32, false)
  | i64 => some (64, true)
  | u64 => some (64, false)
  | _ => none

/-- Whether a type of whole numbers has the number `v`. -/
def ItemType.holds (type : ItemType) (v : Int) : Bool :=
  match type.integer? with
  | some (width, true) => -((1 <<< (width - 1) : Nat) : Int) ≤ v && v < (1 <<< (width - 1) : Nat)
  | some (width, false) => 0 ≤ v && v < (1 <<< width : Nat)
  | none => false

/-- The item of a type of whole numbers that holds `v`, if the type has it. -/
def Item.ofInt? (type : ItemType) (v : Int) : Option Item :=
  if type.holds v then
    match type with
    | .i8 => some (.i8 (Int8.ofInt v))
    | .u8 => some (.u8 (UInt8.ofInt v))
    | .i16 => some (.i16 (Int16.ofInt v))
    | .u16 => some (.u16 (UInt16.ofInt v))
    | .i32 => some (.i32 (Int32.ofInt v))
    | .u32 => some (.u32 (UInt32.ofInt v))
    | .i64 => some (.i64 (Int64.ofInt v))
    | .u64 => some (.u64 (UInt64.ofInt v))
    | _ => none
  else none

/-- The number an item holds, if it is a whole number. -/
def Item.toInt? : Item → Option Int
  | i8 v => some v.toInt
  | u8 v => some v.toNat
  | i16 v => some v.toInt
  | u16 v => some v.toNat
  | i32 v => some v.toInt
  | u32 v => some v.toNat
  | i64 v => some v.toInt
  | u64 v => some v.toNat
  | _ => none

/-- The bytes of an item. -/
def Item.write (order : ByteOrder) : Item → Except Error (List UInt8)
  | i8 v => .ok (order.encode 1 v.toUInt8.toNat)
  | u8 v => .ok (order.encode 1 v.toNat)
  | i16 v => .ok (order.encode 2 v.toUInt16.toNat)
  | u16 v => .ok (order.encode 2 v.toNat)
  | i32 v => .ok (order.encode 4 v.toUInt32.toNat)
  | u32 v => .ok (order.encode 4 v.toNat)
  | i64 v => .ok (order.encode 8 v.toUInt64.toNat)
  | u64 v => .ok (order.encode 8 v.toNat)
  | f32 bits => .ok (order.encode 4 bits.toNat)
  | f64 bits => .ok (order.encode 8 bits.toNat)
  | text s => writeText order s

/-- The next item of a type. -/
def ItemType.read (order : ByteOrder) : ItemType → Reader Item
  | i8 => do pure (.i8 (UInt8.ofNat (← readWord order 1)).toInt8)
  | u8 => do pure (.u8 (UInt8.ofNat (← readWord order 1)))
  | i16 => do pure (.i16 (UInt16.ofNat (← readWord order 2)).toInt16)
  | u16 => do pure (.u16 (UInt16.ofNat (← readWord order 2)))
  | i32 => do pure (.i32 (UInt32.ofNat (← readWord order 4)).toInt32)
  | u32 => do pure (.u32 (UInt32.ofNat (← readWord order 4)))
  | i64 => do pure (.i64 (UInt64.ofNat (← readWord order 8)).toInt64)
  | u64 => do pure (.u64 (UInt64.ofNat (← readWord order 8)))
  | f32 => do pure (.f32 (UInt32.ofNat (← readWord order 4)))
  | f64 => do pure (.f64 (UInt64.ofNat (← readWord order 8)))
  | text => do pure (.text (← readText order))

/-- The bytes of a list of items, one after the other. -/
def writeItems (order : ByteOrder) : List Item → Except Error (List UInt8)
  | [] => .ok []
  | item :: rest => do
    let front ← item.write order
    let back ← writeItems order rest
    pure (front ++ back)

/-- Items of the given types, one after the other. -/
def readItems (order : ByteOrder) : List ItemType → Reader (List Item)
  | [] => pure []
  | type :: rest => do
    let item ← type.read order
    let items ← readItems order rest
    pure (item :: items)

/-- What reading each type in turn gives. A failed item does not end the reading, except that
nothing can be read once the input has run out; the bytes left are given only if it did not. -/
def readEach (order : ByteOrder) : List ItemType → List UInt8 →
    List (Except Error Item) × Option (List UInt8)
  | [], bytes => ([], some bytes)
  | type :: rest, bytes =>
    match (type.read order).run bytes with
    | .ok item bytes =>
      let (results, left) := readEach order rest bytes
      (.ok item :: results, left)
    | .error (.io e) bytes =>
      if e.kind = .unexpectedEof then ([.error (.io e)], none)
      else
        let (results, left) := readEach order rest bytes
        (.error (.io e) :: results, left)
    | .error e bytes =>
      let (results, left) := readEach order rest bytes
      (.error e :: results, left)

end CellMachine.Codec
