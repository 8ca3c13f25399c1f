import CellMachine.Image
import CellMachine.Proofs.Codec

/-!
# Images and their streams

* `Instruction.ofWord_toWord`, `Instruction.toWord_ofWord`: instructions and words correspond one
  to one;
* `takes_reader`: in a given byte order, the reader accepts exactly the stream that the writer
  makes, up to the number it starts with;
* `decode_iff_encoded`: the reader that finds the byte order by itself accepts exactly the streams
  of the two writers.
-/

namespace CellMachine

open Codec

/-! ## Instructions and words -/

namespace Instruction

theorem toNat_toWord (i : Instruction) :
    i.toWord.toNat = i.op.toNat + 0x100 * i.ra.toNat + 0x10000 * i.rb.toNat
      + 0x1000000 * i.rc.toNat + 0x100000000 * i.immediate.toUInt32.toNat := by
  have hop := i.op.toNat_lt
  have hra := i.ra.toNat_lt
  have hrb := i.rb.toNat_lt
  have hrc := i.rc.toNat_lt
  have him := i.immediate.toUInt32.toNat_lt
  simp only [toWord, UInt64.toNat_add, UInt64.toNat_mul, UInt8.toNat_toUInt64,
    UInt32.toNat_toUInt64, UInt64.reduceToNat]
  omega

theorem toNat_shiftRight {w k : UInt64} (hk : k.toNat < 64) :
    (w >>> k).toNat = w.toNat / 2 ^ k.toNat := by
  rw [UInt64.toNat_shiftRight, Nat.mod_eq_of_lt hk, Nat.shiftRight_eq_div_pow]

/-- Where the fields of a word start. -/
theorem toNat_fields (w : UInt64) :
    (w >>> 8).toNat = w.toNat / 0x100 ∧ (w >>> 16).toNat = w.toNat / 0x10000 ∧
      (w >>> 24).toNat = w.toNat / 0x1000000 ∧ (w >>> 32).toNat = w.toNat / 0x100000000 :=
  ⟨toNat_shiftRight (by decide), toNat_shiftRight (by decide), toNat_shiftRight (by decide),
    toNat_shiftRight (by decide)⟩

theorem toUInt8_eq {x : UInt64} {b : UInt8} (h : x.toNat % 256 = b.toNat) : x.toUInt8 = b := by
  apply UInt8.toNat_inj.1
  rw [UInt64.toNat_toUInt8]
  exact h

theorem ofWord_toWord (i : Instruction) : ofWord i.toWord = i := by
  have hop := i.op.toNat_lt
  have hra := i.ra.toNat_lt
  have hrb := i.rb.toNat_lt
  have hrc := i.rc.toNat_lt
  have hword := i.toNat_toWord
  obtain ⟨h8, h16, h24, h32⟩ := toNat_fields i.toWord
  have hlow : i.toWord.toUInt8 = i.op := toUInt8_eq (by omega)
  have hfirst : (i.toWord >>> 8).toUInt8 = i.ra := toUInt8_eq (by omega)
  have hsecond : (i.toWord >>> 16).toUInt8 = i.rb := toUInt8_eq (by omega)
  have hthird : (i.toWord >>> 24).toUInt8 = i.rc := toUInt8_eq (by omega)
  have hhigh : (i.toWord >>> 32).toUInt32 = i.immediate.toUInt32 := by
    have him := i.immediate.toUInt32.toNat_lt
    apply UInt32.toNat_inj.1
    rw [UInt64.toNat_toUInt32]
    omega
  simp only [ofWord, hlow, hfirst, hsecond, hthird, hhigh, Int32.toInt32_toUInt32]

theorem toWord_ofWord (w : UInt64) : (ofWord w).toWord = w := by
  obtain ⟨h8, h16, h24, h32⟩ := toNat_fields w
  have hlt := w.toNat_lt
  apply UInt64.toNat_inj.1
  rw [toNat_toWord]
  simp only [ofWord, UInt32.toUInt32_toInt32, UInt64.toNat_toUInt8, UInt64.toNat_toUInt32, h8, h16,
    h24, h32]
  omega

end Instruction

namespace Image

variable {order : ByteOrder}

/-! ## Tables -/

/-- Values are written one after the other. -/
def WrittenAll {α : Type} (W : α → List UInt8 → Prop) : List α → List UInt8 → Prop
  | [], u => u = []
  | a :: l, u => ∃ front back, W a front ∧ WrittenAll W l back ∧ u = front ++ back

theorem takes_readMany {α : Type} {read : Reader α} {W : α → List UInt8 → Prop}
    (h : Takes read W) (n : Nat) :
    Takes (readMany read n) fun l u => l.length = n ∧ WrittenAll W l u := by
  induction n with
  | zero =>
    refine (Takes.pure []).congr fun l u => ?_
    constructor
    · rintro ⟨rfl, rfl⟩
      exact ⟨rfl, rfl⟩
    · rintro ⟨hlen, hl⟩
      obtain rfl := List.length_eq_zero_iff.1 hlen
      exact ⟨rfl, hl⟩
  | succ n ih =>
    refine (h.bind fun a => (ih.map (f := (a :: ·)))).congr fun l u => ?_
    constructor
    · rintro ⟨a, front, back, ha, ⟨l, ⟨hlen, hl⟩, rfl⟩, rfl⟩
      exact ⟨by rw [List.length_cons, hlen], front, back, ha, hl, rfl⟩
    · rintro ⟨hlen, hl⟩
      cases l with
      | nil => cases hlen
      | cons a l =>
        obtain ⟨front, back, ha, hl, rfl⟩ := hl
        exact ⟨a, front, back, ha, ⟨l, ⟨Nat.succ.inj hlen, hl⟩, rfl⟩, rfl⟩

theorem writeCount_eq_ok {n : Nat} {u : List UInt8} :
    writeCount order n = .ok u ↔ n ≤ maxLength ∧ u = order.encode 4 n := by
  unfold writeCount
  split
  · rename_i h
    simp only [h, true_and, Except.ok.injEq, eq_comm]
  · rename_i h
    simp [h]

/-- A table is its number of entries and then the entries. -/
theorem takes_table {α : Type} {read : Reader α} {W : α → List UInt8 → Prop} (h : Takes read W)
    (negative : Int → ImageDefect) :
    Takes (readCount order negative >>= readMany read) fun l u =>
      ∃ front back, writeCount order l.length = .ok front ∧ WrittenAll W l back ∧
        u = front ++ back := by
  have hcount : Takes (readCount order negative) fun n u => writeCount order n = .ok u := by
    refine (takes_length order (e := fun n => .invalidImage (negative n))
      fun n => Takes.pure n).congr fun n u => ?_
    rw [writeCount_eq_ok]
    constructor
    · rintro ⟨n, _, hn, ⟨rfl, rfl⟩, rfl⟩
      exact ⟨hn, List.append_nil _⟩
    · rintro ⟨hn, rfl⟩
      exact ⟨n, [], hn, ⟨rfl, rfl⟩, (List.append_nil _).symm⟩
  refine (hcount.bind fun n => takes_readMany h n).congr fun l u => ?_
  constructor
  · rintro ⟨_, front, back, hn, ⟨rfl, hl⟩, rfl⟩
    exact ⟨front, back, hn, hl, rfl⟩
  · rintro ⟨front, back, hn, hl, rfl⟩
    exact ⟨_, front, back, hn, ⟨rfl, hl⟩, rfl⟩

/-! ## Entries -/

theorem takes_readInstruction (order : ByteOrder) :
    Takes (readInstruction order) fun i u => u = order.encode 8 i.toWord.toNat := by
  refine (takes_readWord order 8).map.congr fun i u => ?_
  constructor
  · rintro ⟨w, ⟨hw, rfl⟩, rfl⟩
    have hword : (UInt64.ofNat w).toNat = w := UInt64.toNat_ofNat_of_lt' hw
    rw [Instruction.toWord_ofWord, hword]
  · rintro rfl
    refine ⟨_, ⟨i.toWord.toNat_lt, rfl⟩, ?_⟩
    rw [UInt64.ofNat_toNat, Instruction.ofWord_toWord]

theorem writtenAll_instructions {l : List Instruction} {u : List UInt8} :
    WrittenAll (fun i u => u = order.encode 8 i.toWord.toNat) l u ↔
      u = writeInstructions order l := by
  induction l generalizing u with
  | nil => rfl
  | cons i l ih =>
    rw [writeInstructions, List.flatMap_cons]
    constructor
    · rintro ⟨_, back, rfl, hl, rfl⟩
      rw [ih.1 hl, writeInstructions]
    · rintro rfl
      exact ⟨_, _, rfl, ih.2 rfl, rfl⟩

theorem writeGlobal_text {s : String} {u : List UInt8} :
    writeGlobal order (.text s) = .ok u ↔ ∃ body, writeText order s = .ok body ∧ u = 2 :: body := by
  rw [writeGlobal, bind_eq_ok]
  constructor
  · rintro ⟨body, hbody, h⟩
    exact ⟨body, hbody, (Except.ok.inj h).symm⟩
  · rintro ⟨body, hbody, rfl⟩
    exact ⟨body, hbody, rfl⟩

theorem encode_one (order : ByteOrder) (b : UInt8) : order.encode 1 b.toNat = [b] := by
  cases order <;> simp [ByteOrder.encode, digits]

theorem tag_of_writeGlobal {g : Global} {u : List UInt8} (h : writeGlobal order g = .ok u) :
    ∃ back, u = g.tag :: back := by
  cases g with
  | int v => exact ⟨_, (Except.ok.inj h).symm⟩
  | float bits => exact ⟨_, (Except.ok.inj h).symm⟩
  | text s =>
    obtain ⟨body, -, rfl⟩ := writeGlobal_text.1 h
    exact ⟨body, rfl⟩

/-- The reader of what follows the tag of a global. -/
def readTagged (order : ByteOrder) (tag : Nat) : Reader Global :=
  match tag with
  | 0 => do pure (.int (UInt64.ofNat (← readWord order 8)).toInt64)
  | 1 => do pure (.float (UInt64.ofNat (← readWord order 8)))
  | 2 => do pure (.text (← readText order))
  | tag => throw (.invalidImage (.unknownTag (UInt8.ofNat tag)))

theorem takes_readTagged_int (order : ByteOrder) : Takes (readTagged order 0) fun g u =>
    ∃ v, g = .int v ∧ u = order.encode 8 v.toUInt64.toNat := by
  refine (takes_readWord order 8).map.congr fun g u => ?_
  constructor
  · rintro ⟨w, ⟨hw, rfl⟩, rfl⟩
    have hword : (UInt64.ofNat w).toNat = w := UInt64.toNat_ofNat_of_lt' hw
    exact ⟨_, rfl, by rw [UInt64.toUInt64_toInt64, hword]⟩
  · rintro ⟨v, rfl, rfl⟩
    refine ⟨_, ⟨v.toUInt64.toNat_lt, rfl⟩, ?_⟩
    rw [UInt64.ofNat_toNat, Int64.toInt64_toUInt64]

theorem takes_readTagged_float (order : ByteOrder) : Takes (readTagged order 1) fun g u =>
    ∃ bits, g = .float bits ∧ u = order.encode 8 bits.toNat := by
  refine (takes_readWord order 8).map.congr fun g u => ?_
  constructor
  · rintro ⟨w, ⟨hw, rfl⟩, rfl⟩
    have hword : (UInt64.ofNat w).toNat = w := UInt64.toNat_ofNat_of_lt' hw
    exact ⟨_, rfl, by rw [hword]⟩
  · rintro ⟨bits, rfl, rfl⟩
    exact ⟨_, ⟨bits.toNat_lt, rfl⟩, by rw [UInt64.ofNat_toNat]⟩

theorem takes_readTagged_text (order : ByteOrder) : Takes (readTagged order 2) fun g u =>
    ∃ s, writeText order s = .ok u ∧ g = .text s :=
  (takes_readText order).map

theorem takes_readTagged (order : ByteOrder) (tag : Nat) : Takes (readTagged order tag) fun g u =>
    tag = g.tag.toNat ∧ writeGlobal order g = .ok (g.tag :: u) := by
  rcases tag with _ | _ | _ | tag
  · refine (takes_readTagged_int order).congr fun g u => ?_
    cases g <;> simp [writeGlobal, Global.tag, eq_comm]
  · refine (takes_readTagged_float order).congr fun g u => ?_
    cases g <;> simp [writeGlobal, Global.tag, eq_comm]
  · refine (takes_readTagged_text order).congr fun g u => ?_
    cases g with
    | int v => simp [Global.tag]
    | float bits => simp [Global.tag]
    | text s => simp [writeGlobal_text, Global.tag]
  · refine (Takes.throw _).congr fun g u => ?_
    cases g <;> simp [Global.tag]

/-- An entry of a table of globals is read exactly where it was written, tag by tag. -/
theorem takes_readGlobal (order : ByteOrder) :
    Takes (readGlobal order) fun g u => writeGlobal order g = .ok u := by
  refine ((takes_readWord order 1).bind (takes_readTagged order)).congr fun g u => ?_
  constructor
  · rintro ⟨_, _, back, ⟨-, rfl⟩, ⟨rfl, hg⟩, rfl⟩
    rw [encode_one]
    exact hg
  · intro h
    obtain ⟨back, rfl⟩ := tag_of_writeGlobal h
    exact ⟨g.tag.toNat, [g.tag], back, ⟨g.tag.toNat_lt, (encode_one order g.tag).symm⟩, ⟨rfl, h⟩,
      rfl⟩

theorem writtenAll_globals {l : List Global} {u : List UInt8} :
    WrittenAll (fun g u => writeGlobal order g = .ok u) l u ↔ writeGlobals order l = .ok u := by
  induction l generalizing u with
  | nil =>
    rw [writeGlobals, Except.ok.injEq, eq_comm]
    rfl
  | cons g l ih =>
    rw [writeGlobals, bind_eq_ok]
    constructor
    · rintro ⟨front, back, hg, hl, rfl⟩
      exact ⟨front, hg, bind_eq_ok.2 ⟨back, ih.1 hl, rfl⟩⟩
    · rintro ⟨front, hg, h⟩
      obtain ⟨back, hl, h⟩ := bind_eq_ok.1 h
      exact ⟨front, back, hg, ih.2 hl, (Except.ok.inj h).symm⟩

/-! ## Streams -/

/-- The stream of an image, with any number in the place of the magic one. -/
def Stream (order : ByteOrder) (first : Nat) (image : Image) (u : List UInt8) : Prop :=
  ∃ codeCount globalCount globals,
    writeCount order image.instructions.length = .ok codeCount ∧
    writeCount order image.globals.length = .ok globalCount ∧
    writeGlobals order image.globals = .ok globals ∧
    u = order.encode 4 first ++ order.encode 2 version ++ codeCount
      ++ writeInstructions order image.instructions ++ globalCount ++ globals

theorem encode_eq_ok {image : Image} {u : List UInt8} :
    encode order image = .ok u ↔ Stream order magic image u := by
  unfold encode
  dsimp only
  rw [bind_eq_ok]
  constructor
  · rintro ⟨codeCount, hcode, h⟩
    obtain ⟨globalCount, hcount, h⟩ := bind_eq_ok.1 h
    obtain ⟨globals, hglobals, h⟩ := bind_eq_ok.1 h
    exact ⟨codeCount, globalCount, globals, hcode, hcount, hglobals, (Except.ok.inj h).symm⟩
  · rintro ⟨codeCount, globalCount, globals, hcode, hcount, hglobals, rfl⟩
    refine ⟨codeCount, hcode, bind_eq_ok.2 ⟨globalCount, hcount, ?_⟩⟩
    exact bind_eq_ok.2 ⟨globals, hglobals, rfl⟩

/-- The reader of a stream without the look at its end. -/
def content (order : ByteOrder) : Reader Image := do
  let _ ← readWord order 4
  let v ← readWord order 2
  if v ≠ version then throw (.invalidImage (.unsupportedVersion v))
  let instructions ← readCount order .negativeInstructionCount >>= readMany (readInstruction order)
  let globals ← readCount order .negativeGlobalCount >>= readMany (readGlobal order)
  pure { instructions, globals }

theorem reader_eq (order : ByteOrder) :
    reader order = content order >>= fun image => readEnd >>= fun _ => pure image := by
  unfold reader content
  simp only [bind_assoc]
  congr
  funext _
  congr
  funext v
  split
  · rfl
  · simp only [bind_assoc, pure_bind]

theorem takes_content (order : ByteOrder) :
    Takes (content order) fun image u => ∃ first, first < 256 ^ 4 ∧ Stream order first image u := by
  have hcode := @takes_table order _ _ _ (takes_readInstruction order) .negativeInstructionCount
  have hglobals := @takes_table order _ _ _ (takes_readGlobal order) .negativeGlobalCount
  simp only [writtenAll_instructions] at hcode
  simp only [writtenAll_globals] at hglobals
  refine ((takes_readWord order 4).bind fun _ => (takes_readWord order 2).bind fun v =>
    Takes.guard fun _ => hcode.bind fun instructions => hglobals.map).congr fun image u => ?_
  constructor
  · rintro ⟨first, _, _, ⟨hfirst, rfl⟩, ⟨v, _, _, ⟨-, rfl⟩, ⟨hv, instructions, _, _,
      ⟨codeCount, _, hcount, rfl, rfl⟩, ⟨globals, ⟨globalCount, back, hcount', hback, rfl⟩, rfl⟩,
      rfl⟩, rfl⟩, rfl⟩
    obtain rfl : v = version := Decidable.not_not.1 hv
    exact ⟨first, hfirst, codeCount, globalCount, back, hcount, hcount', hback,
      by simp only [List.append_assoc]⟩
  · rintro ⟨first, hfirst, codeCount, globalCount, back, hcount, hcount', hback, rfl⟩
    exact ⟨first, _, _, ⟨hfirst, rfl⟩, ⟨version, _, _, ⟨by decide, rfl⟩, ⟨Decidable.not_not.2 rfl,
      image.instructions, _, _, ⟨codeCount, _, hcount, rfl, rfl⟩,
      ⟨image.globals, ⟨globalCount, back, hcount', hback, rfl⟩, rfl⟩, rfl⟩, rfl⟩,
      by simp only [List.append_assoc]⟩

theorem readEnd_run {bytes rest : List UInt8} :
    readEnd.run bytes = .ok () rest ↔ bytes = [] ∧ rest = [] := by
  unfold readEnd EStateM.run
  cases bytes with
  | nil => simp [eq_comm]
  | cons b bytes => simp

/-- **In a known byte order, exactly the whole streams of images are accepted**, whatever number
they start with. -/
theorem parse_eq_ok {bytes : List UInt8} {image : Image} :
    parse order bytes = .ok image ↔ ∃ first, first < 256 ^ 4 ∧ Stream order first image bytes := by
  have hrun : ∀ rest, (reader order).run bytes = .ok image rest ↔
      rest = [] ∧ ∃ first, first < 256 ^ 4 ∧ Stream order first image bytes := by
    intro rest
    rw [reader_eq]
    constructor
    · intro h
      cases hcontent : (content order).run bytes with
      | error e mid => rw [run_bind_error hcontent] at h; cases h
      | ok image' mid =>
        rw [run_bind_ok hcontent] at h
        cases hend : readEnd.run mid with
        | error e mid' => rw [run_bind_error hend] at h; cases h
        | ok _ mid' =>
          rw [run_bind_ok hend] at h
          obtain ⟨rfl, rfl⟩ := EStateM.Result.ok.inj h
          obtain ⟨rfl, rfl⟩ := readEnd_run.1 hend
          obtain ⟨front, hfront, rfl⟩ := (takes_content order _ _ _).1 hcontent
          rw [List.append_nil]
          exact ⟨rfl, hfront⟩
    · rintro ⟨rfl, hstream⟩
      have hcontent : (content order).run bytes = .ok image [] :=
        (takes_content order _ _ _).2 ⟨bytes, hstream, (List.append_nil _).symm⟩
      rw [run_bind_ok hcontent, run_bind_ok (readEnd_run.2 ⟨rfl, rfl⟩)]
      rfl
  unfold parse
  cases h : (reader order).run bytes with
  | ok image' rest =>
    constructor
    · intro he
      obtain rfl := Except.ok.inj he
      exact ((hrun rest).1 h).2
    · intro hstream
      have h' := (hrun []).2 ⟨rfl, hstream⟩
      rw [h] at h'
      obtain ⟨rfl, -⟩ := EStateM.Result.ok.inj h'
      rfl
  | error e rest =>
    constructor
    · intro he
      cases he
    · intro hstream
      rw [(hrun []).2 ⟨rfl, hstream⟩] at h
      cases h

/-! ## Finding the byte order -/

theorem Stream.take_four {first : Nat} {image : Image} {u : List UInt8}
    (h : Stream order first image u) : u.take 4 = order.encode 4 first := by
  obtain ⟨codeCount, globalCount, globals, -, -, -, rfl⟩ := h
  simp only [List.append_assoc]
  rw [List.take_left' (order.length_encode 4 first)]

/-- The streams of one byte order start with the magic number, and those of the other do not. -/
theorem Stream.decode_take {other : ByteOrder} {image : Image} {u : List UInt8}
    (h : Stream order magic image u) : other.decode (u.take 4) = magic ↔ other = order := by
  rw [h.take_four]
  cases other <;> cases order <;> decide

/-- In the byte order in which it starts with the magic number, a stream is accepted exactly if it
is one that the writer makes. -/
theorem parse_iff_encode {bytes : List UInt8} {image : Image}
    (hmagic : order.decode (bytes.take 4) = magic) :
    parse order bytes = .ok image ↔ encode order image = .ok bytes := by
  rw [parse_eq_ok, encode_eq_ok]
  constructor
  · rintro ⟨first, hfirst, hstream⟩
    rw [hstream.take_four, order.decode_encode hfirst] at hmagic
    exact hmagic ▸ hstream
  · intro hstream
    exact ⟨magic, by decide, hstream⟩

/-- **The stream of an image is exact and unambiguous.** The reader accepts a byte string as an
image if and only if one of the two writers makes it of that image, and then the writer whose byte
order its magic number shows does. -/
theorem decode_iff_encoded (bytes : List UInt8) (image : Image) :
    (decode bytes = .ok image ↔
      encode .little image = .ok bytes ∨ encode .big image = .ok bytes) ∧
    ∀ order : ByteOrder, bytes.take 4 = order.encode 4 magic → decode bytes = .ok image →
      encode order image = .ok bytes := by
  have hlong : ∀ {order : ByteOrder}, encode order image = .ok bytes →
      (bytes.take 4).length = 4 := fun {order} h => by
    rw [(encode_eq_ok.1 h).take_four, order.length_encode]
  have hwritten : ∀ {order other : ByteOrder}, encode order image = .ok bytes →
      (other.decode (bytes.take 4) = magic ↔ other = order) :=
    fun h => (encode_eq_ok.1 h).decode_take
  have hiff : decode bytes = .ok image ↔
      encode .little image = .ok bytes ∨ encode .big image = .ok bytes := by
    unfold decode
    dsimp only
    by_cases hlen : (bytes.take 4).length = 4
    · rw [if_pos hlen]
      by_cases hlittle : ByteOrder.little.decode (bytes.take 4) = magic
      · rw [if_pos hlittle, parse_iff_encode hlittle]
        refine ⟨.inl, fun h => h.resolve_right fun hbig => ?_⟩
        cases (hwritten hbig).1 hlittle
      · have hnot : encode .little image ≠ .ok bytes := fun h => hlittle ((hwritten h).2 rfl)
        rw [if_neg hlittle]
        by_cases hbig : ByteOrder.big.decode (bytes.take 4) = magic
        · rw [if_pos hbig, parse_iff_encode hbig]
          exact ⟨.inr, fun h => h.resolve_left hnot⟩
        · rw [if_neg hbig]
          refine ⟨nofun, fun h => ?_⟩
          exact absurd ((hwritten (h.resolve_left hnot)).2 rfl) hbig
    · rw [if_neg hlen]
      refine ⟨nofun, fun h => ?_⟩
      rcases h with h | h
      · exact absurd (hlong h) hlen
      · exact absurd (hlong h) hlen
  refine ⟨hiff, fun order htake h => ?_⟩
  have hshown : order.decode (bytes.take 4) = magic := by
    rw [htake, order.decode_encode (by decide)]
  rcases hiff.1 h with h | h
  · obtain rfl := (hwritten h).1 hshown
    exact h
  · obtain rfl := (hwritten h).1 hshown
    exact h

/-- One instruction and one number, written with the most significant byte first. -/
theorem decode_iff_encoded_big : ∃ (image : Image) (bytes : List UInt8),
    (bytes.length = 31 ∧ bytes.take 4 = ByteOrder.big.encode 4 magic) ∧
      decode bytes = .ok image ∧ encode .big image = .ok bytes := by
  have hencode : encode .big ⟨[.make .movl 0 0 0 7], [.int 9]⟩ = .ok [87, 82, 82, 66, 0, 1, 0, 0, 0,
      1, 0, 0, 0, 7, 0, 0, 0, 3, 0, 0, 0, 1, 0, 0, 0, 0, 0, 0, 0, 0, 9] := rfl
  have hdecode := (decode_iff_encoded _ _).1.2 (.inr hencode)
  exact ⟨_, _, ⟨rfl, by decide⟩, hdecode, (decode_iff_encoded _ _).2 .big (by decide) hdecode⟩

end Image

end CellMachine
