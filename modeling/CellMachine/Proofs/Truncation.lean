import CellMachine.Proofs.Image

/-!
# Streams that are cut off or too long

A reader is steady when more input does not change its mind: what it has accepted it accepts again,
what it has refused it refuses again, and only running out of bytes is not final (`Steady`). Readers
put together from steady ones are steady, so the fields of a stream are gone through once, whatever
the place where it is cut.

A steady reader that accepts a whole stream can do nothing but run out of bytes on a part of it
(`Steady.runsOut`): any other verdict would be the one on the whole stream as well.

* `Image.only_whole_streams`: a part of a stream, a stream with more behind it and a stream that
  starts like another are told apart from whole streams.
-/

namespace CellMachine

open Codec

/-- The input ended where more of it was needed. -/
def Error.RunsOut (e : Error) : Prop :=
  ∃ cause : IoError, e = .io cause ∧ cause.kind = .unexpectedEof

namespace Codec

/-! ## Steady readers -/

/-- More input does not change the reader's mind, unless it had run out of bytes. -/
structure Steady {α : Type} (read : Reader α) : Prop where
  accepts : ∀ {u a rest}, read.run u = .ok a rest → ∀ v, read.run (u ++ v) = .ok a (rest ++ v)
  refuses : ∀ {u e rest}, read.run u = .error e rest → ¬ e.RunsOut →
    ∀ v, ∃ rest', read.run (u ++ v) = .error e rest'

namespace Steady

variable {α β : Type} {read : Reader α}

theorem pure (a : α) : Steady (pure a : Reader α) := by
  constructor
  · intro u b rest h v
    cases h
    rfl
  · intro u e rest h
    cases h

theorem throw (e : Error) : Steady (throw e : Reader α) := by
  constructor
  · intro u a rest h
    cases h
  · intro u e' rest h _ v
    cases h
    exact ⟨_, rfl⟩

theorem bind {f : α → Reader β} (h : Steady read) (hf : ∀ a, Steady (f a)) :
    Steady (read >>= f) := by
  constructor
  · intro u b rest hrun v
    cases hread : read.run u with
    | ok a mid =>
      rw [run_bind_ok hread] at hrun
      rw [run_bind_ok (h.accepts hread v)]
      exact (hf a).accepts hrun v
    | error e mid =>
      rw [run_bind_error hread] at hrun
      cases hrun
  · intro u e rest hrun hfinal v
    cases hread : read.run u with
    | ok a mid =>
      rw [run_bind_ok hread] at hrun
      rw [run_bind_ok (h.accepts hread v)]
      exact (hf a).refuses hrun hfinal v
    | error e' mid =>
      rw [run_bind_error hread] at hrun
      cases hrun
      obtain ⟨rest', hrefused⟩ := h.refuses hread hfinal v
      exact ⟨rest', run_bind_error hrefused f⟩

/-- A reader that goes on only if a test passes. -/
theorem guard {c : Prop} [Decidable c] {e : Error} (h : Steady read) :
    Steady (if c then MonadExcept.throw e else read) := by
  split
  · exact .throw e
  · exact h

/-- **A part of what is accepted is refused for want of bytes**, wherever it is cut. -/
theorem runsOut (h : Steady read) {u v : List UInt8} {a : α} (hall : read.run (u ++ v) = .ok a [])
    (hv : v ≠ []) : ∃ e rest, read.run u = .error e rest ∧ e.RunsOut := by
  cases hread : read.run u with
  | ok b rest =>
    -- Accepted already, so the rest of the input would be left over.
    have hleft := (h.accepts hread v).symm.trans hall
    obtain ⟨-, hempty⟩ := EStateM.Result.ok.inj hleft
    exact absurd (List.append_eq_nil_iff.1 hempty).2 hv
  | error e rest =>
    refine ⟨e, rest, rfl, ?_⟩
    apply Classical.byContradiction
    intro hfinal
    obtain ⟨rest', hrefused⟩ := h.refuses hread hfinal v
    cases hrefused.symm.trans hall

end Steady

/-! ## The fields of a stream -/

theorem steady_takeBytes (n : Nat) {short : IoError} (hshort : short.kind = .unexpectedEof) :
    Steady (takeBytes n short) := by
  constructor
  · intro u front rest h v
    obtain ⟨back, ⟨hback, hlen⟩, hu⟩ := (takes_takeBytes n short u front rest).1 h
    apply (takes_takeBytes n short _ _ _).2
    exact ⟨back, ⟨hback, hlen⟩, by rw [hu, List.append_assoc]⟩
  · intro u e rest h hfinal
    simp only [EStateM.run, takeBytes] at h
    split at h
    · cases h
    · cases h
      exact absurd ⟨short, rfl, hshort⟩ hfinal

theorem steady_readWord (order : ByteOrder) (width : Nat) : Steady (readWord order width) :=
  (steady_takeBytes width rfl).bind fun _ => .pure _

theorem steady_readInt32 (order : ByteOrder) : Steady (readInt32 order) :=
  (steady_readWord order 4).bind fun _ => .pure _

theorem steady_readBody (n : Nat) : Steady (readBody n) := by
  refine (steady_takeBytes n rfl).bind fun body => ?_
  split
  · exact .pure _
  · exact .throw _

theorem steady_readText (order : ByteOrder) : Steady (readText order) :=
  (steady_readInt32 order).bind fun n => .guard (steady_readBody n.toNat)

end Codec

namespace Image

variable {order : ByteOrder} {image : Image} {b : List UInt8}

theorem steady_readCount (order : ByteOrder) (negative : Int → ImageDefect) :
    Steady (readCount order negative) :=
  (steady_readInt32 order).bind fun _ => .guard (.pure _)

theorem steady_readMany {α : Type} {read : Reader α} (h : Steady read) (n : Nat) :
    Steady (readMany read n) := by
  induction n with
  | zero => exact .pure []
  | succ n ih => exact h.bind fun _ => ih.bind fun _ => .pure _

theorem steady_table {α : Type} {read : Reader α} (h : Steady read)
    (negative : Int → ImageDefect) : Steady (readCount order negative >>= readMany read) :=
  (steady_readCount order negative).bind (steady_readMany h)

theorem steady_readInstruction (order : ByteOrder) : Steady (readInstruction order) :=
  (steady_readWord order 8).bind fun _ => .pure _

theorem steady_readTagged (order : ByteOrder) (tag : Nat) : Steady (readTagged order tag) := by
  unfold readTagged
  split
  · exact (steady_readWord order 8).bind fun _ => .pure _
  · exact (steady_readWord order 8).bind fun _ => .pure _
  · exact (steady_readText order).bind fun _ => .pure _
  · exact .throw _

theorem steady_readGlobal (order : ByteOrder) : Steady (readGlobal order) :=
  (steady_readWord order 1).bind (steady_readTagged order)

theorem steady_content (order : ByteOrder) : Steady (content order) :=
  (steady_readWord order 4).bind fun _ => (steady_readWord order 2).bind fun _ => .guard <|
    (steady_table (steady_readInstruction order) _).bind fun _ =>
      (steady_table (steady_readGlobal order) _).bind fun _ => .pure _

/-! ## Whole streams -/

/-- The magic number decides in which byte order a stream is read. -/
theorem decode_eq_parse {bytes : List UInt8} (h : bytes.take 4 = order.encode 4 magic) :
    decode bytes = parse order bytes := by
  have hlen : (order.encode 4 magic).length = 4 := order.length_encode 4 magic
  unfold decode
  dsimp only
  rw [h, if_pos hlen]
  cases order with
  | little => rw [if_pos (by decide)]
  | big => rw [if_neg (by decide), if_pos (by decide)]

/-- The content of a stream is read from its front, whatever follows. -/
theorem content_run (h : encode order image = .ok b) (extra : List UInt8) :
    (content order).run (b ++ extra) = .ok image extra :=
  (takes_content order _ _ _).2 ⟨b, ⟨magic, by decide, encode_eq_ok.1 h⟩, rfl⟩

theorem take_four_of_encode (h : encode order image = .ok b) :
    b.take 4 = order.encode 4 magic ∧ 4 ≤ b.length := by
  have htake := (encode_eq_ok.1 h).take_four
  refine ⟨htake, ?_⟩
  have hlen := congrArg List.length htake
  rw [order.length_encode, List.length_take] at hlen
  omega

/-- A part of a stream that has the magic number. -/
theorem decode_part {u v : List UInt8} (h : encode order image = .ok (u ++ v)) (hv : v ≠ [])
    (hlen : 4 ≤ u.length) :
    ∃ cause : IoError, decode u = .error (.io cause) ∧ cause.kind = .unexpectedEof := by
  have htake : u.take 4 = order.encode 4 magic := by
    rw [← (take_four_of_encode h).1, List.take_append_of_le_length hlen]
  have hall : (content order).run (u ++ v) = .ok image [] := by
    rw [← List.append_nil (u ++ v)]
    exact content_run h []
  obtain ⟨e, rest, hrun, cause, he, hkind⟩ := (steady_content order).runsOut hall hv
  refine ⟨cause, ?_, hkind⟩
  rw [decode_eq_parse htake, parse, reader_eq, run_bind_error hrun, he]

/-- A stream with more behind it. -/
theorem decode_longer (h : encode order image = .ok b) {extra : List UInt8} (hextra : extra ≠ []) :
    decode (b ++ extra) = .error (.invalidImage (.trailingBytes extra.length)) := by
  obtain ⟨htake, hlen⟩ := take_four_of_encode h
  have hfront : (b ++ extra).take 4 = order.encode 4 magic := by
    rw [← htake, List.take_append_of_le_length hlen]
  have hend : readEnd.run extra = .error (.invalidImage (.trailingBytes extra.length)) extra := by
    simp [EStateM.run, readEnd, hextra]
  rw [decode_eq_parse hfront, parse, reader_eq, run_bind_ok (content_run h extra),
    run_bind_error hend]

/-- **Only whole streams are accepted.** A part of a stream is refused for want of bytes, or as too
short for its magic number; bytes behind a stream are counted and refused. So no stream is the
beginning of another one. -/
theorem only_whole_streams (h : encode order image = .ok b) :
    (∀ u v, b = u ++ v → v ≠ [] →
      (4 ≤ u.length →
        ∃ cause : IoError, decode u = .error (.io cause) ∧ cause.kind = .unexpectedEof) ∧
      (u.length < 4 → decode u = .error (.invalidImage .shortHeader))) ∧
    (∀ extra, extra ≠ [] →
      decode (b ++ extra) = .error (.invalidImage (.trailingBytes extra.length))) ∧
    ∀ (other : ByteOrder) (image' : Image) (b' : List UInt8), encode other image' = .ok b' →
      b <+: b' → b = b' := by
  refine ⟨fun u v hb hv => ⟨fun hlen => ?_, fun hlen => ?_⟩, fun extra => decode_longer h, ?_⟩
  · subst hb
    exact decode_part h hv hlen
  · have hshort : (u.take 4).length ≠ 4 := by
      rw [List.length_take]
      omega
    rw [decode, if_neg hshort]
  · intro other image' b' h' hprefix
    obtain ⟨extra, rfl⟩ := hprefix
    apply Classical.byContradiction
    intro hne
    have hextra : extra ≠ [] := by
      intro hnil
      rw [hnil, List.append_nil] at hne
      exact hne rfl
    have haccepted : decode (b ++ extra) = .ok image' := by
      obtain ⟨htake, -⟩ := take_four_of_encode h'
      rw [decode_eq_parse htake]
      exact (parse_iff_encode (by rw [htake, other.decode_encode (by decide)])).2 h'
    cases (decode_longer h hextra).symm.trans haccepted

/-- The stream of one text, with the most significant byte first. Cut in the middle of the two
bytes of its character it is refused for want of bytes, and not as bad UTF-8. -/
theorem only_whole_streams_text : ∃ b, encode .big ⟨[], [.text "é"]⟩ = .ok b ∧ b.length = 21 ∧
    (∃ cause : IoError, decode (b.take 20) = .error (.io cause) ∧ cause.kind = .unexpectedEof) ∧
    decode (b.take 3) = .error (.invalidImage .shortHeader) ∧
    decode (b ++ [0, 0]) = .error (.invalidImage (.trailingBytes 2)) ∧
    ∀ b', encode .big ⟨[], [.text "é"]⟩ = .ok b' → b <+: b' → b = b' := by
  have hcheck : (encode .big ⟨[], [.text "é"]⟩).toOption = some [87, 82, 82, 66, 0, 1, 0, 0, 0, 0,
      0, 0, 0, 1, 2, 0, 0, 0, 2, 195, 169] := by
    decide +kernel
  have hencode : encode .big ⟨[], [.text "é"]⟩ = .ok [87, 82, 82, 66, 0, 1, 0, 0, 0, 0, 0, 0, 0, 1,
      2, 0, 0, 0, 2, 195, 169] := by
    cases hb : encode .big ⟨[], [.text "é"]⟩ with
    | ok b =>
      rw [hb] at hcheck
      exact congrArg Except.ok (Option.some.inj hcheck)
    | error e =>
      rw [hb] at hcheck
      cases hcheck
  obtain ⟨hpart, hlonger, hprefix⟩ := only_whole_streams hencode
  refine ⟨_, hencode, rfl, ?_, ?_, hlonger [0, 0] (by simp), fun b' => hprefix .big _ b'⟩
  · exact (hpart (List.take 20 _) [169] rfl (by simp)).1 (by decide)
  · exact (hpart (List.take 3 _) _ (List.take_append_drop 3 _).symm (by decide)).2 (by decide)

end Image

end CellMachine
