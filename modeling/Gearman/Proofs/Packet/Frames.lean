import Gearman.Proofs.Packet.Encoding

/-!
Byte strings as packets, frame by frame.

What stands at the front of a byte string, a frame or a bad header, is there whatever follows. So a
stream can be cut anywhere: `unframe_append`.
-/

namespace Gearman

namespace Header

variable {limit : UInt32} {bs : Bytes} {h : Header}

theorem size_le_of_decode (hdecode : decode bs = .ok h) : size ≤ bs.length := by
  unfold decode at hdecode
  split at hdecode
  · simp only [size, List.length_cons]
    omega
  · contradiction

/-- What is wrong with the header at the front of the bytes, as soon as it is complete. -/
def fault? (limit : UInt32) (bs : Bytes) : Option Error :=
  if bs.length < size then none
  else
    match decode bs with
    | .error e => some e
    | .ok h =>
      match h.checkLength limit with
      | .error e => some e
      | .ok () => none

theorem fault?_append {e : Error} (hfault : fault? limit bs = some e) (more : Bytes) :
    fault? limit (bs ++ more) = some e := by
  have hlong : size ≤ bs.length := by
    unfold fault? at hfault
    split at hfault
    · contradiction
    · omega
  have hlonger : ¬ bs.length + more.length < size := by omega
  rw [fault?, if_neg (Nat.not_lt_of_le hlong)] at hfault
  rw [fault?, List.length_append, if_neg hlonger, decode_append hlong]
  exact hfault

end Header

namespace Packet

variable {limit : UInt32} {bs : Bytes} {p : Packet}

theorem decode_eq_ok : decode bs = .ok p ↔ ∃ h, Header.decode bs = .ok h ∧
    h.packetLength ≤ bs.length ∧
      p = ⟨h.magic, h.kind, (bs.drop Header.size).take h.length.toNat⟩ := by
  unfold decode
  cases Header.decode bs with
  | error e => simp
  | ok h =>
    by_cases hshort : bs.length < h.packetLength
    · have hnot : ¬ h.packetLength ≤ bs.length := Nat.not_le_of_lt hshort
      simp [hshort, hnot]
    · simp [hshort, Nat.le_of_not_lt hshort, eq_comm]

/-- A packet that was read has the length that its header says. -/
theorem encodedLength_of_decode (h : decode bs = .ok p) :
    Header.size ≤ p.encodedLength ∧ p.encodedLength ≤ bs.length := by
  obtain ⟨header, hheader, hlength, rfl⟩ := decode_eq_ok.1 h
  have hsize := Header.size_le_of_decode hheader
  simp only [Header.packetLength] at hlength
  simp only [encodedLength, List.length_take, List.length_drop]
  omega

theorem decode_append (h : decode bs = .ok p) (more : Bytes) : decode (bs ++ more) = .ok p := by
  obtain ⟨header, hheader, hlength, rfl⟩ := decode_eq_ok.1 h
  have hsize := Header.size_le_of_decode hheader
  have hlength' := hlength
  rw [Header.packetLength] at hlength'
  refine decode_eq_ok.2 ⟨header, ?_, ?_, ?_⟩
  · rw [Header.decode_append hsize, hheader]
  · rw [List.length_append]
    omega
  · rw [List.drop_append_of_le_length hsize, List.take_append_of_le_length]
    rw [List.length_drop]
    omega

/-- The packet at the front of the bytes, if all of it is there and it is not too long. -/
def frame? (limit : UInt32) (bs : Bytes) : Option Packet :=
  match decode bs with
  | .error _ => none
  | .ok p => if p.payload.length ≤ limit.toNat then some p else none

theorem frame?_eq_some : frame? limit bs = some p ↔
    decode bs = .ok p ∧ p.payload.length ≤ limit.toNat := by
  unfold frame?
  cases decode bs with
  | error e => simp
  | ok q =>
    by_cases hfits : q.payload.length ≤ limit.toNat
    · simp only [hfits, if_true, Option.some.injEq, Except.ok.injEq]
      exact ⟨fun h => ⟨h, h ▸ hfits⟩, And.left⟩
    · simp only [hfits, if_false, Except.ok.injEq]
      refine ⟨by simp, ?_⟩
      rintro ⟨rfl, hle⟩
      exact absurd hle hfits

theorem encodedLength_of_frame? (h : frame? limit bs = some p) :
    Header.size ≤ p.encodedLength ∧ p.encodedLength ≤ bs.length :=
  encodedLength_of_decode (frame?_eq_some.1 h).1

theorem frame?_append (h : frame? limit bs = some p) (more : Bytes) :
    frame? limit (bs ++ more) = some p := by
  obtain ⟨hdecode, hfits⟩ := frame?_eq_some.1 h
  exact frame?_eq_some.2 ⟨decode_append hdecode more, hfits⟩

/-- A header that is bad is in front of no packet. -/
theorem frame?_of_fault? {e : Error} (h : Header.fault? limit bs = some e) :
    frame? limit bs = none := by
  cases hframe : frame? limit bs with
  | none => rfl
  | some p =>
    obtain ⟨hdecode, hfits⟩ := frame?_eq_some.1 hframe
    obtain ⟨header, hheader, hlength, rfl⟩ := decode_eq_ok.1 hdecode
    have hsize := Header.size_le_of_decode hheader
    have hpayload : header.length ≤ limit := by
      simp only [Header.packetLength] at hlength
      simp only [List.length_take, List.length_drop] at hfits
      rw [UInt32.le_iff_toNat_le]
      omega
    simp [Header.fault?, Nat.not_lt_of_le hsize, hheader, Header.checkLength, hpayload] at h

/-- The front of what has arrived is a bad header, a packet, or the start of one. -/
theorem first?_eq (limit : UInt32) (bs : Bytes) : first? limit bs =
    match Header.fault? limit bs, frame? limit bs with
    | some e, _ => .error e
    | none, some p => .ok (some p, bs.drop p.encodedLength)
    | none, none => .ok (none, bs) := by
  unfold first? Header.fault?
  by_cases hshort : bs.length < Header.size
  · have hnone : frame? limit bs = none := by
      cases hframe : frame? limit bs with
      | none => rfl
      | some p =>
        have hlength := encodedLength_of_frame? hframe
        omega
    simp [hshort, hnone]
  · simp only [hshort, if_false]
    cases hheader : Header.decode bs with
    | error e => rfl
    | ok h =>
      by_cases hle : h.length ≤ limit
      · have hcheck : h.checkLength limit = .ok () := by simp [Header.checkLength, hle]
        by_cases htrunc : bs.length < h.packetLength
        · simp [frame?, decode, hheader, hcheck, htrunc]
        · have hlength : ((bs.drop Header.size).take h.length.toNat).length = h.length.toNat := by
            simp only [Header.packetLength] at htrunc
            rw [List.length_take, List.length_drop]
            omega
          have hframe : frame? limit bs =
              some ⟨h.magic, h.kind, (bs.drop Header.size).take h.length.toNat⟩ := by
            simp [frame?, decode, hheader, htrunc, hlength, UInt32.le_iff_toNat_le.1 hle]
          simp only [hcheck, htrunc, hframe, if_false, encodedLength, hlength]
          rfl
      · simp [Header.checkLength, hle]

/-- The packets that the bytes consist of, and the bytes behind them: the start of a packet, or a bad
header and all that follows it. -/
def unframe (limit : UInt32) (bs : Bytes) : List Packet × Bytes :=
  match _h : frame? limit bs with
  | none => ([], bs)
  | some p =>
    (p :: (unframe limit (bs.drop p.encodedLength)).1, (unframe limit (bs.drop p.encodedLength)).2)
termination_by bs.length
decreasing_by
  all_goals
    have hlength := encodedLength_of_frame? _h
    simp only [Header.size] at hlength
    rw [List.length_drop]
    omega

theorem unframe_of_none (h : frame? limit bs = none) : unframe limit bs = ([], bs) := by
  rw [unframe]
  split
  · rfl
  · next hsome =>
    rw [h] at hsome
    contradiction

theorem unframe_of_some (h : frame? limit bs = some p) : unframe limit bs =
    (p :: (unframe limit (bs.drop p.encodedLength)).1,
      (unframe limit (bs.drop p.encodedLength)).2) := by
  rw [unframe]
  split
  · next hnone =>
    rw [h] at hnone
    contradiction
  · next q hsome =>
    rw [h, Option.some.injEq] at hsome
    rw [hsome]

/-- Bytes that come later continue what the earlier ones have left. -/
theorem unframe_append (limit : UInt32) (bs more : Bytes) : unframe limit (bs ++ more) =
    ((unframe limit bs).1 ++ (unframe limit ((unframe limit bs).2 ++ more)).1,
      (unframe limit ((unframe limit bs).2 ++ more)).2) := by
  fun_induction unframe limit bs with
  | case1 bs hnone => simp
  | case2 bs p hsome ih =>
    have hdrop : (bs ++ more).drop p.encodedLength = bs.drop p.encodedLength ++ more :=
      List.drop_append_of_le_length (encodedLength_of_frame? hsome).2
    rw [unframe_of_some (frame?_append hsome more), hdrop, ih]
    simp

/-- The bytes are these packets, and maybe the start of one more. -/
def Frames (limit : UInt32) (bs : Bytes) (ps : List Packet) : Prop :=
  ∃ tail, unframe limit bs = (ps, tail) ∧ Header.fault? limit tail = none

namespace Frames

variable {ps : List Packet} {more : Bytes}

theorem eq_nil (h : Frames limit bs ps) (hnone : frame? limit bs = none) : ps = [] := by
  obtain ⟨tail, hunframe, -⟩ := h
  rw [unframe_of_none hnone] at hunframe
  exact (congrArg Prod.fst hunframe).symm

/-- There is no bad header in front of such bytes, also if only some of them are there. -/
theorem fault? (h : Frames limit (bs ++ more) ps) : Header.fault? limit bs = none := by
  obtain ⟨tail, hunframe, htail⟩ := h
  cases hfault : Header.fault? limit bs with
  | none => rfl
  | some e =>
    have hbad := Header.fault?_append hfault more
    rw [unframe_of_none (frame?_of_fault? hbad), Prod.mk.injEq] at hunframe
    rw [← hunframe.2, hbad] at htail
    contradiction

/-- The packet in front of such bytes is the first one, also if only some of them are there. -/
theorem next (h : Frames limit (bs ++ more) ps) (hframe : frame? limit bs = some p) :
    ∃ rest, ps = p :: rest ∧ Frames limit (bs.drop p.encodedLength ++ more) rest := by
  obtain ⟨tail, hunframe, htail⟩ := h
  have hdrop : (bs ++ more).drop p.encodedLength = bs.drop p.encodedLength ++ more :=
    List.drop_append_of_le_length (encodedLength_of_frame? hframe).2
  rw [unframe_of_some (frame?_append hframe more), hdrop, Prod.mk.injEq] at hunframe
  exact ⟨_, hunframe.1.symm, tail, Prod.ext rfl hunframe.2, htail⟩

end Frames

/-- A packet within the limit is the frame at the front of its own bytes, whatever follows them. -/
theorem frame?_encode (h : p.payload.length ≤ limit.toNat) (more : Bytes) :
    frame? limit (p.encode ++ more) = some p :=
  frame?_eq_some.2 ⟨decode_encode (Nat.lt_of_le_of_lt h limit.toNat_lt_size) more, h⟩

/-- The bytes of some packets that are written one after the other. -/
def encodeAll (ps : List Packet) : Bytes := ps.flatMap encode

@[simp]
theorem encodeAll_nil : encodeAll [] = [] := rfl

@[simp]
theorem encodeAll_cons (p : Packet) (ps : List Packet) :
    encodeAll (p :: ps) = p.encode ++ encodeAll ps := List.flatMap_cons ..

@[simp]
theorem encodeAll_append (ps qs : List Packet) :
    encodeAll (ps ++ qs) = encodeAll ps ++ encodeAll qs := List.flatMap_append ..

/-- A packet that was written is as long as its header at least. -/
theorem length_encodeAll_ge (ps : List Packet) :
    ps.length * Header.size ≤ (encodeAll ps).length := by
  induction ps with
  | nil => exact Nat.zero_le _
  | cons p rest ih =>
    rw [encodeAll_cons, List.length_append, List.length_cons, length_encode, encodedLength,
      Nat.succ_mul]
    omega

/-- Packets within the limit are found in their bytes, whatever follows. -/
theorem unframe_encodeAll {ps : List Packet} (h : ∀ p ∈ ps, p.payload.length ≤ limit.toNat)
    (more : Bytes) : unframe limit (encodeAll ps ++ more) =
      (ps ++ (unframe limit more).1, (unframe limit more).2) := by
  induction ps with
  | nil => rfl
  | cons p rest ih =>
    have hrest := ih fun q hq => h q (List.mem_cons_of_mem _ hq)
    have hframe := frame?_encode (h p List.mem_cons_self) (encodeAll rest ++ more)
    rw [encodeAll_cons, List.append_assoc, unframe_of_some hframe, ← length_encode, List.drop_left,
      hrest]
    rfl

/-- No more than the packets are found if what follows starts with none. -/
theorem unframe_encodeAll_of_none {ps : List Packet} (h : ∀ p ∈ ps, p.payload.length ≤ limit.toNat)
    (hnone : frame? limit bs = none) : unframe limit (encodeAll ps ++ bs) = (ps, bs) := by
  rw [unframe_encodeAll h, unframe_of_none hnone, List.append_nil]

theorem frames_encode (ps : List Packet) (h : ∀ p ∈ ps, p.payload.length ≤ limit.toNat) :
    Frames limit (ps.flatMap encode) ps := by
  have hunframe : unframe limit (encodeAll ps ++ []) = (ps, []) := unframe_encodeAll_of_none h rfl
  rw [List.append_nil] at hunframe
  exact ⟨[], hunframe, rfl⟩

/-- Each packet takes some of the bytes. -/
theorem length_unframe_le (limit : UInt32) (bs : Bytes) :
    (unframe limit bs).1.length ≤ bs.length := by
  fun_induction unframe limit bs with
  | case1 bs hnone => exact Nat.zero_le _
  | case2 bs p hsome ih =>
    have hlength := encodedLength_of_frame? hsome
    simp only [Header.size, List.length_cons, List.length_drop] at hlength ih ⊢
    omega

end Packet

end Gearman
