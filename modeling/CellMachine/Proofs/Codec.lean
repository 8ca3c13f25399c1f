import CellMachine.Codec.Item
import CellMachine.Proofs.Allocator.Records
import Mathlib.Algebra.Group.Int.Defs
import Mathlib.Algebra.Group.Nat.Defs

/-!
# Reading what was written

A reader and a writer of one kind of value belong together when the reader takes a value off the
front of a byte string exactly if the front is what the writer makes of it. `Takes` says both
directions at once, so that a reader put together from others is compared with its writer step by
step (`Takes.bind`) and no induction is made twice.

* `takes_readWord`: numbers of a fixed width in either byte order;
* `takes_readText`: texts with their length before them.
-/

namespace CellMachine.Codec

/-! ## Digits -/

@[simp] theorem length_digits (width v : Nat) : (digits width v).length = width := by
  induction width generalizing v with
  | zero => rfl
  | succ width ih => rw [digits, List.length_cons, ih]

theorem value_digits (width v : Nat) : value (digits width v) = v % 256 ^ width := by
  induction width generalizing v with
  | zero => rw [Nat.pow_zero, Nat.mod_one]; rfl
  | succ width ih =>
    have hbyte : (UInt8.ofNat v).toNat = v % 256 := UInt8.toNat_ofNat'
    rw [digits, value, ih, hbyte, Nat.pow_succ', Nat.mod_mul]

theorem digits_value (bytes : List UInt8) : digits bytes.length (value bytes) = bytes := by
  induction bytes with
  | nil => rfl
  | cons b rest ih =>
    have hlt := b.toNat_lt
    have hlow : UInt8.ofNat (b.toNat + 256 * value rest) = b := by
      apply UInt8.toNat_inj.1
      rw [UInt8.toNat_ofNat']
      omega
    have hhigh : (b.toNat + 256 * value rest) / 256 = value rest := by omega
    rw [List.length_cons, digits, value, hlow, hhigh, ih]

theorem value_lt (bytes : List UInt8) : value bytes < 256 ^ bytes.length := by
  have h := value_digits bytes.length (value bytes)
  rw [digits_value] at h
  rw [h]
  exact Nat.mod_lt _ (Nat.pow_pos (by decide))

namespace ByteOrder

@[simp] theorem length_encode (order : ByteOrder) (width v : Nat) :
    (order.encode width v).length = width := by
  cases order <;> simp [encode]

theorem decode_encode (order : ByteOrder) {width v : Nat} (h : v < 256 ^ width) :
    order.decode (order.encode width v) = v := by
  cases order <;> simp [encode, decode, value_digits, Nat.mod_eq_of_lt h]

theorem encode_decode (order : ByteOrder) (bytes : List UInt8) :
    order.encode bytes.length (order.decode bytes) = bytes := by
  cases order with
  | little => exact digits_value bytes
  | big =>
    have h := digits_value bytes.reverse
    rw [List.length_reverse] at h
    rw [encode, decode, h, List.reverse_reverse]

theorem decode_lt (order : ByteOrder) (bytes : List UInt8) :
    order.decode bytes < 256 ^ bytes.length := by
  cases order with
  | little => exact value_lt bytes
  | big =>
    have h := value_lt bytes.reverse
    rwa [List.length_reverse] at h

end ByteOrder

/-- Work that may be refused succeeds if both of its steps do. -/
theorem bind_eq_ok {α β : Type} {x : Except Error α} {f : α → Except Error β} {b : β} :
    (x >>= f) = .ok b ↔ ∃ a, x = .ok a ∧ f a = .ok b := by
  cases x with
  | ok a =>
    constructor
    · intro h
      exact ⟨a, rfl, h⟩
    · rintro ⟨_, h, hf⟩
      cases h
      exact hf
  | error e =>
    constructor
    · intro h
      cases h
    · rintro ⟨_, h, -⟩
      cases h

/-! ## Readers and what they accept -/

/-- **A reader accepts exactly what was written**: it takes a value off the front of a byte string
if and only if the front is a written form of the value. -/
def Takes {α : Type} (read : Reader α) (Written : α → List UInt8 → Prop) : Prop :=
  ∀ bytes a rest, read.run bytes = .ok a rest ↔ ∃ front, Written a front ∧ bytes = front ++ rest

namespace Takes

variable {α β : Type} {read : Reader α} {W W' : α → List UInt8 → Prop}

theorem congr (h : Takes read W) (hW : ∀ a u, W a u ↔ W' a u) : Takes read W' := by
  intro bytes a rest
  simp only [h bytes a rest, hW]

theorem pure (a : α) : Takes (pure a) fun b u => b = a ∧ u = [] := by
  intro bytes b rest
  rw [EStateM.run_pure]
  constructor
  · intro h
    obtain ⟨rfl, rfl⟩ := EStateM.Result.ok.inj h
    exact ⟨[], ⟨rfl, rfl⟩, rfl⟩
  · rintro ⟨_, ⟨rfl, rfl⟩, rfl⟩
    rfl

theorem throw (e : Error) : Takes (throw e : Reader α) fun _ _ => False := by
  intro bytes b rest
  constructor
  · intro h
    cases h
  · rintro ⟨_, h, _⟩
    exact h.elim

/-- One reader after the other reads one front after the other. -/
theorem bind {f : α → Reader β} {V : α → β → List UInt8 → Prop} (h : Takes read W)
    (hf : ∀ a, Takes (f a) (V a)) :
    Takes (read >>= f) fun b u => ∃ a front back, W a front ∧ V a b back ∧ u = front ++ back := by
  intro bytes b rest
  constructor
  · intro hrun
    cases hread : read.run bytes with
    | error e mid => rw [run_bind_error hread] at hrun; cases hrun
    | ok a mid =>
      rw [run_bind_ok hread] at hrun
      obtain ⟨front, hfront, rfl⟩ := (h bytes a mid).1 hread
      obtain ⟨back, hback, rfl⟩ := (hf a mid b rest).1 hrun
      exact ⟨front ++ back, ⟨a, front, back, hfront, hback, rfl⟩, (List.append_assoc ..).symm⟩
  · rintro ⟨_, ⟨a, front, back, hfront, hback, rfl⟩, rfl⟩
    have hread : read.run (front ++ back ++ rest) = .ok a (back ++ rest) :=
      (h _ _ _).2 ⟨front, hfront, List.append_assoc ..⟩
    rw [run_bind_ok hread]
    exact (hf a _ _ _).2 ⟨back, hback, rfl⟩

/-- A reader whose results are renamed. -/
theorem map {f : α → β} (h : Takes read W) :
    Takes (read >>= fun a => Pure.pure (f a)) fun b u => ∃ a, W a u ∧ b = f a := by
  refine (h.bind fun a => Takes.pure (f a)).congr fun b u => ?_
  constructor
  · rintro ⟨a, front, _, hfront, ⟨rfl, rfl⟩, rfl⟩
    exact ⟨a, by rwa [List.append_nil], rfl⟩
  · rintro ⟨a, ha, rfl⟩
    exact ⟨a, u, [], ha, ⟨rfl, rfl⟩, (List.append_nil u).symm⟩

/-- A reader that goes on only if its result passes a test. -/
theorem guard {c : Prop} [Decidable c] {e : Error} (h : ¬ c → Takes read W) :
    Takes (if c then MonadExcept.throw e else read) fun a u => ¬ c ∧ W a u := by
  by_cases hc : c
  · rw [if_pos hc]
    exact (Takes.throw e).congr fun a u => by simp [hc]
  · rw [if_neg hc]
    exact (h hc).congr fun a u => by simp [hc]

end Takes

/-! ## Words -/

theorem takes_takeBytes (n : Nat) (short : IoError) :
    Takes (takeBytes n short) fun bytes u => u = bytes ∧ bytes.length = n := by
  intro bytes front rest
  simp only [EStateM.run, takeBytes]
  constructor
  · intro h
    split at h
    · rename_i hlen
      obtain ⟨rfl, rfl⟩ := EStateM.Result.ok.inj h
      exact ⟨_, ⟨rfl, hlen⟩, (List.take_append_drop n bytes).symm⟩
    · cases h
  · rintro ⟨_, ⟨rfl, rfl⟩, rfl⟩
    simp

theorem takes_readWord (order : ByteOrder) (width : Nat) :
    Takes (readWord order width) fun v u => v < 256 ^ width ∧ u = order.encode width v := by
  refine (takes_takeBytes width .endOfBuffer).map.congr fun v u => ?_
  constructor
  · rintro ⟨bytes, ⟨rfl, rfl⟩, rfl⟩
    exact ⟨order.decode_lt _, (order.encode_decode _).symm⟩
  · rintro ⟨hv, rfl⟩
    exact ⟨_, ⟨rfl, order.length_encode width v⟩, (order.decode_encode hv).symm⟩

/-- A word is read with its sign: the upper half of the words are negative numbers. -/
theorem toInt_toInt32 {v : Nat} (h : v < 256 ^ 4) :
    (UInt32.ofNat v).toInt32.toInt = if v ≤ maxLength then (v : Int) else (v : Int) - 256 ^ 4 := by
  have hbmod : (UInt32.ofNat v).toInt32.toInt = (v : Int).bmod 0x100000000 := by
    rw [UInt32.toInt32_ofNat']
    exact Int32.toInt_ofNat'
  rw [hbmod, Int.bmod_def]
  by_cases hsmall : v ≤ maxLength
  · rw [if_pos hsmall]
    simp only [maxLength] at hsmall
    rw [if_pos (by omega)]
    omega
  · rw [if_neg hsmall]
    simp only [maxLength] at hsmall
    rw [if_neg (by omega)]
    omega

/-- A length is a number that is not negative when it is read with a sign. -/
theorem takes_length (order : ByteOrder) {α : Type} {body : Nat → Reader α} {e : Int → Error}
    {W : Nat → α → List UInt8 → Prop} (hbody : ∀ n, Takes (body n) (W n)) :
    Takes (do
      let n ← readInt32 order
      if n < 0 then throw (e n)
      body n.toNat) fun a u =>
        ∃ n back, n ≤ maxLength ∧ W n a back ∧ u = order.encode 4 n ++ back := by
  have hread : Takes (readInt32 order) fun n u =>
      ∃ v, (v < 256 ^ 4 ∧ u = order.encode 4 v) ∧ n = (UInt32.ofNat v).toInt32.toInt :=
    (takes_readWord order 4).map
  refine (hread.bind fun n => Takes.guard (e := e n) fun _ => hbody n.toNat).congr fun a u => ?_
  constructor
  · rintro ⟨n, front, back, ⟨v, ⟨hv, rfl⟩, rfl⟩, ⟨hnonneg, hback⟩, rfl⟩
    rw [toInt_toInt32 hv] at hnonneg hback
    by_cases hsmall : v ≤ maxLength
    · rw [if_pos hsmall, Int.toNat_natCast] at hback
      exact ⟨v, back, hsmall, hback, rfl⟩
    · rw [if_neg hsmall] at hnonneg
      omega
  · rintro ⟨n, back, hn, hback, rfl⟩
    have hlt : n < 256 ^ 4 := by
      simp only [maxLength] at hn
      omega
    have hint : (UInt32.ofNat n).toInt32.toInt = n := by
      rw [toInt_toInt32 hlt, if_pos hn]
    refine ⟨n, order.encode 4 n, back, ⟨n, ⟨hlt, rfl⟩, hint.symm⟩, ⟨by omega, ?_⟩, rfl⟩
    rwa [Int.toNat_natCast]

/-! ## Texts -/

theorem toList_loop (b : ByteArray) (i : Nat) (r : List UInt8) :
    ByteArray.toList.loop b i r = r.reverse ++ b.data.toList.drop i := by
  fun_induction ByteArray.toList.loop b i r with
  | case1 i r hi ih =>
    have hlt : i < b.data.toList.length := hi
    have hget : b.get! i = b.data.toList.get ⟨i, hlt⟩ := getElem!_pos b.data i hi
    rw [ih, List.drop_eq_getElem_cons hlt, List.reverse_cons, List.append_assoc, hget]
    rfl
  | case2 i r hi =>
    have hge : b.data.toList.length ≤ i := Nat.le_of_not_lt hi
    rw [List.drop_eq_nil_of_le hge, List.append_nil]

theorem toList_toByteArray (bytes : List UInt8) : bytes.toByteArray.toList = bytes := by
  rw [ByteArray.toList, toList_loop, List.data_toByteArray]
  rfl

theorem toByteArray_toList (b : ByteArray) : b.toList.toByteArray = b := by
  apply ByteArray.ext
  rw [List.data_toByteArray, ByteArray.toList, toList_loop]
  simp

/-- Bytes stand for a text exactly if they are its bytes. -/
theorem textOfBytes_eq_ok {bytes : List UInt8} {s : String} :
    textOfBytes bytes = .ok s ↔ bytes = textBytes s := by
  unfold textOfBytes textBytes String.fromUTF8?
  constructor
  · intro h
    split at h
    · rename_i t ht
      split at ht
      · obtain rfl := Option.some.inj ht
        obtain rfl := Except.ok.inj h
        exact (toList_toByteArray bytes).symm
      · cases ht
    · split at h <;> cases h
  · rintro rfl
    have hvalid : s.toUTF8.toList.toByteArray = s.toByteArray := toByteArray_toList _
    rw [hvalid, dif_pos s.isValidUTF8]
    rfl

theorem writeText_eq_ok {order : ByteOrder} {s : String} {u : List UInt8} :
    writeText order s = .ok u ↔ (textBytes s).length ≤ maxLength ∧
      u = order.encode 4 (textBytes s).length ++ textBytes s := by
  unfold writeText
  dsimp only
  split
  · rename_i h
    simp only [h, true_and, Except.ok.injEq, eq_comm]
  · rename_i h
    simp [h]

/-- The text after its length. -/
def readBody (n : Nat) : Reader String := do
  let body ← takeBytes n .endOfText
  match textOfBytes body with
  | .ok s => pure s
  | .error e => throw (.io e)

theorem takes_readBody (n : Nat) :
    Takes (readBody n) fun s u => u = textBytes s ∧ (textBytes s).length = n := by
  unfold readBody
  refine ((takes_takeBytes n .endOfText).bind
    (V := fun body s u => body = textBytes s ∧ u = []) fun body => ?_).congr fun s u => ?_
  · cases hs : textOfBytes body with
    | ok t =>
      refine (Takes.pure t).congr fun s u => ?_
      rw [← textOfBytes_eq_ok, hs, Except.ok.injEq, eq_comm]
    | error e =>
      refine (Takes.throw (.io e)).congr fun s u => ?_
      rw [← textOfBytes_eq_ok, hs]
      simp
  · constructor
    · rintro ⟨body, _, _, ⟨rfl, hlen⟩, ⟨rfl, rfl⟩, rfl⟩
      exact ⟨List.append_nil _, hlen⟩
    · rintro ⟨rfl, hlen⟩
      exact ⟨_, _, [], ⟨rfl, hlen⟩, ⟨rfl, rfl⟩, (List.append_nil _).symm⟩

/-- **A text is read exactly where it was written.** -/
theorem takes_readText (order : ByteOrder) :
    Takes (readText order) fun s u => writeText order s = .ok u := by
  refine (takes_length order (e := fun n => .io (.negativeLength n)) takes_readBody).congr
    fun s u => ?_
  rw [writeText_eq_ok]
  constructor
  · rintro ⟨_, _, hn, ⟨rfl, rfl⟩, rfl⟩
    exact ⟨hn, rfl⟩
  · rintro ⟨hn, rfl⟩
    exact ⟨_, _, hn, ⟨rfl, rfl⟩, rfl⟩

end CellMachine.Codec
