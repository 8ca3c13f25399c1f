import CellMachine.Proofs.Codec

/-!
# Streams of typed items

A stream says nothing about the types of its items, so whoever reads it has to ask for the types it
was written with. `takes_read` compares the reader and the writer of one type; the items of a stream
follow by one induction over the list of types (`takes_readItems`).

* `items_faithful`: items that are written are read back bit by bit, whatever follows them, and
  items that were read are written as the bytes they were read from.
-/

namespace CellMachine.Codec

variable {order : ByteOrder}

/-! ## Items of a fixed width -/

/-- The words of a width correspond to the numbers that the width has room for. -/
structure Words {W : Type} (width : Nat) (ofNat : Nat → W) (toNat : W → Nat) : Prop where
  toNat_lt : ∀ w, toNat w < 256 ^ width
  ofNat_toNat : ∀ w, ofNat (toNat w) = w
  toNat_ofNat : ∀ v, v < 256 ^ width → toNat (ofNat v) = v

theorem words8 : Words 1 UInt8.ofNat UInt8.toNat :=
  ⟨UInt8.toNat_lt, fun _ => UInt8.ofNat_toNat, fun _ => UInt8.toNat_ofNat_of_lt'⟩

theorem words16 : Words 2 UInt16.ofNat UInt16.toNat :=
  ⟨UInt16.toNat_lt, fun _ => UInt16.ofNat_toNat, fun _ => UInt16.toNat_ofNat_of_lt'⟩

theorem words32 : Words 4 UInt32.ofNat UInt32.toNat :=
  ⟨UInt32.toNat_lt, fun _ => UInt32.ofNat_toNat, fun _ => UInt32.toNat_ofNat_of_lt'⟩

theorem words64 : Words 8 UInt64.ofNat UInt64.toNat :=
  ⟨UInt64.toNat_lt, fun _ => UInt64.ofNat_toNat, fun _ => UInt64.toNat_ofNat_of_lt'⟩

/-- A type whose items are the words of a width, under the name `f`. -/
theorem takes_item {W : Type} {width : Nat} {ofNat : Nat → W} {toNat : W → Nat} {type : ItemType}
    (hwords : Words width ofNat toNat) (f : W → Item)
    (hf : ∀ w, (f w).type = type ∧ (f w).write order = .ok (order.encode width (toNat w)))
    (hitem : ∀ item : Item, item.type = type → ∃ w, f w = item) :
    Takes (readWord order width >>= fun v => pure (f (ofNat v))) fun item u =>
      item.type = type ∧ item.write order = .ok u := by
  apply (takes_readWord order width).map.congr
  intro item u
  constructor
  · intro h
    obtain ⟨v, ⟨hv, hu⟩, hitem⟩ := h
    obtain ⟨htype, hwrite⟩ := hf (ofNat v)
    rw [hwords.toNat_ofNat v hv] at hwrite
    rw [hitem, hu]
    exact ⟨htype, hwrite⟩
  · intro h
    obtain ⟨htype, hwrite⟩ := h
    obtain ⟨w, hw⟩ := hitem item htype
    rw [← hw, (hf w).2] at hwrite
    refine ⟨toNat w, ⟨hwords.toNat_lt w, (Except.ok.inj hwrite).symm⟩, ?_⟩
    rw [hwords.ofNat_toNat, hw]

/-! ## One item -/

/-- **An item is read exactly where it was written**, as the type it was written with. -/
theorem takes_read (order : ByteOrder) (type : ItemType) :
    Takes (type.read order) fun item u => item.type = type ∧ item.write order = .ok u := by
  cases type with
  | i8 =>
    apply takes_item words8 fun w => .i8 w.toInt8
    · simp [Item.type, Item.write]
    · intro item htype
      cases item with
      | i8 v => exact ⟨v.toUInt8, by simp⟩
      | _ => cases htype
  | u8 =>
    apply takes_item words8 fun w => .u8 w
    · simp [Item.type, Item.write]
    · intro item htype
      cases item with
      | u8 v => exact ⟨v, by simp⟩
      | _ => cases htype
  | i16 =>
    apply takes_item words16 fun w => .i16 w.toInt16
    · simp [Item.type, Item.write]
    · intro item htype
      cases item with
      | i16 v => exact ⟨v.toUInt16, by simp⟩
      | _ => cases htype
  | u16 =>
    apply takes_item words16 fun w => .u16 w
    · simp [Item.type, Item.write]
    · intro item htype
      cases item with
      | u16 v => exact ⟨v, by simp⟩
      | _ => cases htype
  | i32 =>
    apply takes_item words32 fun w => .i32 w.toInt32
    · simp [Item.type, Item.write]
    · intro item htype
      cases item with
      | i32 v => exact ⟨v.toUInt32, by simp⟩
      | _ => cases htype
  | u32 =>
    apply takes_item words32 fun w => .u32 w
    · simp [Item.type, Item.write]
    · intro item htype
      cases item with
      | u32 v => exact ⟨v, by simp⟩
      | _ => cases htype
  | i64 =>
    apply takes_item words64 fun w => .i64 w.toInt64
    · simp [Item.type, Item.write]
    · intro item htype
      cases item with
      | i64 v => exact ⟨v.toUInt64, by simp⟩
      | _ => cases htype
  | u64 =>
    apply takes_item words64 fun w => .u64 w
    · simp [Item.type, Item.write]
    · intro item htype
      cases item with
      | u64 v => exact ⟨v, by simp⟩
      | _ => cases htype
  | f32 =>
    apply takes_item words32 fun w => .f32 w
    · simp [Item.type, Item.write]
    · intro item htype
      cases item with
      | f32 v => exact ⟨v, by simp⟩
      | _ => cases htype
  | f64 =>
    apply takes_item words64 fun w => .f64 w
    · simp [Item.type, Item.write]
    · intro item htype
      cases item with
      | f64 v => exact ⟨v, by simp⟩
      | _ => cases htype
  | text =>
    apply (takes_readText order).map.congr
    intro item u
    constructor
    · intro h
      obtain ⟨s, hwrite, hitem⟩ := h
      subst hitem
      exact ⟨rfl, hwrite⟩
    · intro h
      obtain ⟨htype, hwrite⟩ := h
      cases item with
      | text s => exact ⟨s, hwrite, rfl⟩
      | _ => cases htype

/-- Every item has written form, but for texts that are too long for their length. -/
theorem exists_write (order : ByteOrder) {item : Item}
    (hshort : ∀ s, item = .text s → (textBytes s).length ≤ maxLength) :
    ∃ u, item.write order = .ok u := by
  cases item with
  | text s => exact ⟨_, writeText_eq_ok.2 ⟨hshort s rfl, rfl⟩⟩
  | _ => exact ⟨_, rfl⟩

/-! ## Lists of items -/

theorem writeItems_cons {item : Item} {items : List Item} {u : List UInt8} :
    writeItems order (item :: items) = .ok u ↔ ∃ front back,
      item.write order = .ok front ∧ writeItems order items = .ok back ∧ u = front ++ back := by
  rw [writeItems, bind_eq_ok]
  constructor
  · intro h
    obtain ⟨front, hfront, h⟩ := h
    obtain ⟨back, hback, h⟩ := bind_eq_ok.1 h
    exact ⟨front, back, hfront, hback, (Except.ok.inj h).symm⟩
  · intro h
    obtain ⟨front, back, hfront, hback, hu⟩ := h
    rw [hu]
    exact ⟨front, hfront, bind_eq_ok.2 ⟨back, hback, rfl⟩⟩

theorem exists_writeItems (order : ByteOrder) {items : List Item}
    (hshort : ∀ s, .text s ∈ items → (textBytes s).length ≤ maxLength) :
    ∃ u, writeItems order items = .ok u := by
  induction items with
  | nil => exact ⟨[], rfl⟩
  | cons item items ih =>
    have hfirst : ∀ s, item = .text s → (textBytes s).length ≤ maxLength := by
      intro s hs
      apply hshort s
      simp [hs]
    obtain ⟨front, hfront⟩ := exists_write order hfirst
    obtain ⟨back, hback⟩ := ih fun s hs => hshort s (List.mem_cons_of_mem item hs)
    exact ⟨front ++ back, writeItems_cons.2 ⟨front, back, hfront, hback, rfl⟩⟩

/-- Items are read one after the other exactly where they were written one after the other. -/
theorem takes_readItems (order : ByteOrder) (types : List ItemType) :
    Takes (readItems order types) fun items u =>
      items.map Item.type = types ∧ writeItems order items = .ok u := by
  induction types with
  | nil =>
    apply (Takes.pure []).congr
    intro items u
    constructor
    · intro h
      obtain ⟨hitems, hu⟩ := h
      subst hitems hu
      exact ⟨rfl, rfl⟩
    · intro h
      obtain ⟨htypes, hwrite⟩ := h
      obtain rfl := List.map_eq_nil_iff.1 htypes
      exact ⟨rfl, (Except.ok.inj hwrite).symm⟩
  | cons type types ih =>
    apply ((takes_read order type).bind fun item => ih.map (f := (item :: ·))).congr
    intro items u
    constructor
    · intro h
      obtain ⟨item, front, back, ⟨htype, hfront⟩, ⟨rest, ⟨htypes, hback⟩, hitems⟩, hu⟩ := h
      subst hitems
      refine ⟨?_, writeItems_cons.2 ⟨front, back, hfront, hback, hu⟩⟩
      rw [List.map_cons, htype, htypes]
    · intro h
      obtain ⟨htypes, hwrite⟩ := h
      cases items with
      | nil => cases htypes
      | cons item items =>
        obtain ⟨front, back, hfront, hback, hu⟩ := writeItems_cons.1 hwrite
        rw [List.map_cons, List.cons.injEq] at htypes
        exact ⟨item, front, back, ⟨htypes.1, hfront⟩, ⟨items, ⟨htypes.2, hback⟩, rfl⟩, hu⟩

/-- No item is refused exactly if all of them are read in one go. -/
theorem readEach_eq_ok {types : List ItemType} {bytes rest : List UInt8} {items : List Item} :
    readEach order types bytes = (items.map .ok, some rest) ↔
      (readItems order types).run bytes = .ok items rest := by
  induction types generalizing bytes items with
  | nil =>
    rw [readEach, readItems, EStateM.run_pure]
    cases items <;> simp
  | cons type types ih =>
    rw [readEach, readItems]
    cases hread : (type.read order).run bytes with
    | ok item mid =>
      rw [run_bind_ok hread]
      cases items with
      | nil =>
        cases hmid : (readItems order types).run mid with
        | ok tail left =>
          rw [run_bind_ok hmid]
          simp
        | error e left =>
          rw [run_bind_error hmid]
          simp
      | cons first tail =>
        have hiff : readEach order types mid = (tail.map .ok, some rest) ↔
            (readItems order types).run mid = .ok tail rest := ih
        rw [Prod.ext_iff] at hiff
        cases hmid : (readItems order types).run mid with
        | ok tail' left =>
          rw [run_bind_ok hmid]
          rw [hmid] at hiff
          simp only [EStateM.Result.ok.injEq] at hiff
          simp [and_assoc, hiff]
        | error e left =>
          rw [run_bind_error hmid]
          rw [hmid] at hiff
          simp only [reduceCtorEq, iff_false, not_and, List.map_cons, Prod.mk.injEq,
            List.cons.injEq, Except.ok.injEq, and_imp] at hiff ⊢
          intro _
          exact hiff
    | error e mid =>
      rw [run_bind_error hread]
      cases items with
      | nil =>
        cases e <;> simp
        split <;> simp
      | cons first tail =>
        cases e <;> simp
        split <;> simp

/-- **A stream keeps its items.** Items whose texts are not too long can be written, and reading
their types gives them back and leaves what follows. Conversely, items that were read have the types
asked for, and writing them gives the bytes that were consumed. Reading in one go succeeds exactly
if no item is refused when they are read one by one. -/
theorem items_faithful (order : ByteOrder) :
    (∀ items : List Item, (∀ s, .text s ∈ items → (textBytes s).length ≤ maxLength) →
      ∃ u, writeItems order items = .ok u ∧
        ∀ rest, (readItems order (items.map Item.type)).run (u ++ rest) = .ok items rest) ∧
    ∀ types bytes items rest,
      ((readItems order types).run bytes = .ok items rest →
        items.map Item.type = types ∧ ∃ u, writeItems order items = .ok u ∧ bytes = u ++ rest) ∧
      (readEach order types bytes = (items.map .ok, some rest) ↔
        (readItems order types).run bytes = .ok items rest) := by
  constructor
  · intro items hshort
    obtain ⟨u, hu⟩ := exists_writeItems order hshort
    refine ⟨u, hu, fun rest => ?_⟩
    exact (takes_readItems order _ _ _ _).2 ⟨u, ⟨rfl, hu⟩, rfl⟩
  · intro types bytes items rest
    refine ⟨fun hread => ?_, readEach_eq_ok⟩
    obtain ⟨u, ⟨htypes, hu⟩, hbytes⟩ := (takes_readItems order _ _ _ _).1 hread
    exact ⟨htypes, u, hu, hbytes⟩

/-- A negative number, a NaN with a payload and a text, with two bytes behind them; and the other
way round, an empty text that was read with one byte behind it. -/
theorem items_faithful_mixed :
    (∃ u, writeItems .big [.i16 (-2), .f64 0x7ff8000000000042, .text "é"] = .ok u ∧
      (readItems .big [.i16, .f64, .text]).run (u ++ [1, 2]) =
        .ok [.i16 (-2), .f64 0x7ff8000000000042, .text "é"] [1, 2]) ∧
    ∃ u, writeItems .little [.u32 0xfffffff0, .text ""] = .ok u ∧
      [0xf0, 0xff, 0xff, 0xff, 0, 0, 0, 0, 9] = u ++ [9] := by
  constructor
  · have hshort : ∀ s, Item.text s ∈ [.i16 (-2), .f64 0x7ff8000000000042, .text "é"] →
        (textBytes s).length ≤ maxLength := by
      intro s hs
      simp at hs
      subst hs
      decide +kernel
    obtain ⟨u, hu, hread⟩ := (items_faithful .big).1 _ hshort
    exact ⟨u, hu, hread [1, 2]⟩
  · have hread : (readItems .little [.u32, .text]).run [0xf0, 0xff, 0xff, 0xff, 0, 0, 0, 0, 9] =
        .ok [.u32 0xfffffff0, .text ""] [9] := by
      rfl
    exact (((items_faithful .little).2 _ _ _ _).1 hread).2

end CellMachine.Codec
