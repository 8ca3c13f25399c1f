/-!
# Where a byte string stops being UTF-8

`firstDefect?` names the first character that is not well formed: the index of its first byte and
the number of bytes that can no longer become a character, or no number when the bytes end inside
a character that was well formed so far.
-/

namespace CellMachine.Codec.Utf8

/-- How a character that starts with a given byte goes on: the number of bytes that follow, and the
range of the byte right after it. -/
structure Lead where
  more : Nat
  least : Nat
  greatest : Nat

/-- The continuation that a first byte calls for; none when no character starts with it. -/
def lead? (b : Nat) : Option Lead :=
  if b ≤ 0x7f then some ⟨0, 0x80, 0xbf⟩
  else if b < 0xc2 then none
  else if b ≤ 0xdf then some ⟨1, 0x80, 0xbf⟩
  else if b = 0xe0 then some ⟨2, 0xa0, 0xbf⟩
  else if b = 0xed then some ⟨2, 0x80, 0x9f⟩
  else if b ≤ 0xef then some ⟨2, 0x80, 0xbf⟩
  else if b = 0xf0 then some ⟨3, 0x90, 0xbf⟩
  else if b ≤ 0xf3 then some ⟨3, 0x80, 0xbf⟩
  else if b = 0xf4 then some ⟨3, 0x80, 0x8f⟩
  else none

/-- What follows the bytes of one character. -/
inductive Tail where
  /-- The character is complete; the bytes after it. -/
  | complete (rest : List UInt8)
  /-- The bytes ended inside the character. -/
  | cut
  /-- The byte after `good` bytes of the character does not continue it. -/
  | broken (good : Nat)

/-- Reads `more` continuation bytes after `good` bytes of a character, the next one in the range
`least`, …, `greatest` and all later ones in the full range. -/
def tail : (more good least greatest : Nat) → List UInt8 → Tail
  | 0, _, _, _, bytes => .complete bytes
  | _ + 1, _, _, _, [] => .cut
  | more + 1, good, least, greatest, b :: rest =>
    if least ≤ b.toNat ∧ b.toNat ≤ greatest then tail more (good + 1) 0x80 0xbf rest
    else .broken good

/-- The first defect at or after byte `index`; `fuel` bounds the number of characters looked at. -/
def defectFrom : (fuel index : Nat) → List UInt8 → Option (Nat × Option Nat)
  | 0, _, _ => none
  | _, _, [] => none
  | fuel + 1, index, b :: rest =>
    match lead? b.toNat with
    | none => some (index, some 1)
    | some lead =>
      match tail lead.more 1 lead.least lead.greatest rest with
      | .complete rest => defectFrom fuel (index + 1 + lead.more) rest
      | .cut => some (index, none)
      | .broken good => some (index, some good)

/-- The first defect of a byte string, none when it is UTF-8. -/
def firstDefect? (bytes : List UInt8) : Option (Nat × Option Nat) :=
  defectFrom bytes.length 0 bytes

end CellMachine.Codec.Utf8
