import Gearman.Proofs.Link.Intake
import Gearman.Proofs.Packet.Decoding

/-!
What may be sent can be received.

The sender's limit, the length field and the receiver's limit draw the same line: packets that pass the
limit are taken from their bytes, wherever these are cut, and one that does not is refused.
-/

namespace Gearman

namespace Packet

variable {limit : UInt32} {ps : List Packet} {p : Packet}

theorem checkSize_eq_ok_iff : p.checkSize limit = .ok () ↔ p.payload.length ≤ limit.toNat := by
  unfold checkSize
  split
  · next hfits => simp [hfits]
  · next hlong => simp [hlong]

theorem checkSize_eq_error_iff {e : Error} : p.checkSize limit = .error e ↔
    limit.toNat < p.payload.length ∧ e = .payloadTooLarge p.payload.length limit := by
  unfold checkSize
  split
  · next hfits => simp [Nat.not_lt_of_le hfits]
  · next hlong => simp [Nat.lt_of_not_le hlong, eq_comm]

/-- The length field of a packet is right as long as the length can be told. -/
theorem toNat_length_header (h : p.payload.length < UInt32.size) :
    p.header.length.toNat = p.payload.length := by
  simp only [header, Nat.toUInt32_eq, UInt32.toNat_ofNat']
  exact Nat.mod_eq_of_lt h

/-- A packet beyond the limit is a fault as soon as its header is there. -/
theorem fault?_encode (hlong : limit.toNat < p.payload.length)
    (hlength : p.payload.length < UInt32.size) (more : Bytes) :
    Header.fault? limit (p.encode ++ more) = some (.payloadTooLarge p.payload.length limit) := by
  have hsize : ¬ (p.encode ++ more).length < Header.size := by
    rw [List.length_append, length_encode, encodedLength]
    omega
  have hdecode : Header.decode (p.encode ++ more) = .ok p.header := by
    rw [encode, List.append_assoc, Header.decode_encode]
  have hword := toNat_length_header hlength
  have hcheck : p.header.checkLength limit =
      .error (.payloadTooLarge p.payload.length limit) := by
    rw [Header.checkLength, if_neg, hword]
    rw [UInt32.le_iff_toNat_le, hword]
    exact Nat.not_le_of_lt hlong
  rw [Header.fault?, if_neg hsize, hdecode]
  simp only [hcheck]

/-- The length field of every packet among others tells the length of its payload. -/
theorem number_length_encodeAll (hlength : p.payload.length < UInt32.size) (front back : List Packet) :
    Bytes.number (((encodeAll (front ++ p :: back)).drop ((encodeAll front).length + 8)).take 4) =
      p.payload.length := by
  have hdrop : (encodeAll (front ++ p :: back)).drop ((encodeAll front).length + 8) =
      (p.encode ++ encodeAll back).drop 8 := by
    rw [encodeAll_append, encodeAll_cons, ← List.drop_drop, List.drop_left]
  have hheads : p.header.Heads (p.encode ++ encodeAll back) := by
    rw [← Header.decode_eq_ok_iff, encode, List.append_assoc, Header.decode_encode]
  rw [hdrop, hheads.length, toNat_length_header hlength]

end Packet

namespace Reassembly

variable {limit : UInt32} {r : Reassembly}

/-- What is taken from a buffer are the packets of its bytes, if no bad header is behind them. -/
theorem takeAll_eq (r : Reassembly) :
    r.takeAll.2.maxPayload = r.maxPayload ∧
    r.takeAll.2.bytes = (Packet.unframe r.maxPayload r.bytes).2 ∧
    r.takeAll.1 =
      match Header.fault? r.maxPayload (Packet.unframe r.maxPayload r.bytes).2 with
      | none => .ok (Packet.unframe r.maxPayload r.bytes).1
      | some e => .error e := by
  fun_induction takeAll r with
  | case1 r e hnext =>
    have hfault := fault?_of_next? hnext
    rw [Packet.unframe_of_none (Packet.frame?_of_fault? hfault), hfault]
    exact ⟨rfl, rfl, rfl⟩
  | case2 r r' hnext =>
    obtain ⟨hfault, hframe, hbytes, hlimit⟩ := eq_of_next?_none hnext
    rw [Packet.unframe_of_none hframe, hfault]
    exact ⟨hlimit, hbytes, rfl⟩
  | case3 r p r' hnext ps r'' htake ih =>
    obtain ⟨hframe, hbytes, hlimit⟩ := frame?_of_next? hnext
    rw [Packet.unframe_of_some hframe, ← hbytes, ← hlimit]
    rw [htake] at ih
    obtain ⟨hlimit', hbytes', hanswer⟩ := ih
    refine ⟨hlimit', hbytes', ?_⟩
    split at hanswer
    · next hfault =>
      cases hanswer
      rw [hfault]
    · contradiction
  | case4 r p r' hnext e r'' htake ih =>
    obtain ⟨hframe, hbytes, hlimit⟩ := frame?_of_next? hnext
    rw [Packet.unframe_of_some hframe, ← hbytes, ← hlimit]
    rw [htake] at ih
    obtain ⟨hlimit', hbytes', hanswer⟩ := ih
    refine ⟨hlimit', hbytes', ?_⟩
    split at hanswer
    · contradiction
    · next hfault =>
      cases hanswer
      rw [hfault]

/-- Pushes chunks one after the other and collects the answers. -/
def pushAll (r : Reassembly) : List Bytes → List (Except Error (List Packet)) × Reassembly
  | [] => ([], r)
  | bs :: rest =>
    let (answer, r) := r.push bs
    let (answers, r) := r.pushAll rest
    (answer :: answers, r)

theorem pushAll_cons (r : Reassembly) (bs : Bytes) (rest : List Bytes) : r.pushAll (bs :: rest) =
    ((r.push bs).1 :: ((r.push bs).2.pushAll rest).1, ((r.push bs).2.pushAll rest).2) := rfl

/-- A buffer that holds no packet, as it is between two pushes. -/
structure Emptied (limit : UInt32) (r : Reassembly) : Prop where
  maxPayload : r.maxPayload = limit
  frame? : Packet.frame? limit r.bytes = none

theorem emptied_empty (limit : UInt32) : Emptied limit (empty limit) := ⟨rfl, rfl⟩

/-- A push takes all packets, or it meets a bad header. -/
theorem Emptied.push (h : Emptied limit r) (bs : Bytes) :
    Emptied limit (r.push bs).2 ∧
    (r.push bs).2.bytes = (Packet.unframe limit (r.bytes ++ bs)).2 ∧
    (r.push bs).1 =
      match Header.fault? limit (Packet.unframe limit (r.bytes ++ bs)).2 with
      | none => .ok (Packet.unframe limit (r.bytes ++ bs)).1
      | some e => .error e := by
  have hfed : (r.feed bs).maxPayload = limit := h.maxPayload
  obtain ⟨hlimit, hbytes, hanswer⟩ := (r.feed bs).takeAll_eq
  rw [hfed] at hlimit
  rw [hfed, bytes_feed] at hbytes hanswer
  refine ⟨⟨hlimit, ?_⟩, hbytes, hanswer⟩
  rw [Reassembly.push, hbytes]
  exact Packet.frame?_unframe ..

/-- A bad header stays in front, so it is reported on every push. -/
theorem Emptied.pushAll_of_fault (h : Emptied limit r) {e : Error}
    (hfault : Header.fault? limit r.bytes = some e) (chunks : List Bytes) :
    (r.pushAll chunks).1 = List.replicate chunks.length (.error e) := by
  induction chunks generalizing r with
  | nil => rfl
  | cons bs rest ih =>
    obtain ⟨hemptied, hbytes, hanswer⟩ := h.push bs
    have hstays := Header.fault?_append hfault bs
    rw [Packet.unframe_of_none (Packet.frame?_of_fault? hstays)] at hbytes hanswer
    rw [hstays] at hanswer
    rw [pushAll_cons, hanswer, ih hemptied (hbytes ▸ hstays)]
    rfl

/-- The packets of the bytes come out, whatever the chunks, if no bad header is behind them. -/
theorem Emptied.pushAll (h : Emptied limit r) (chunks : List Bytes)
    (hfault : Header.fault? limit (Packet.unframe limit (r.bytes ++ chunks.flatten)).2 = none) :
    ∃ batches : List (List Packet), (r.pushAll chunks).1 = batches.map .ok ∧
      batches.flatten = (Packet.unframe limit (r.bytes ++ chunks.flatten)).1 ∧
      (r.pushAll chunks).2.bytes = (Packet.unframe limit (r.bytes ++ chunks.flatten)).2 := by
  induction chunks generalizing r with
  | nil =>
    rw [List.flatten_nil, List.append_nil, Packet.unframe_of_none h.frame?]
    exact ⟨[], rfl, rfl, rfl⟩
  | cons bs rest ih =>
    obtain ⟨hemptied, hbytes, hanswer⟩ := h.push bs
    rw [List.flatten_cons, ← List.append_assoc, Packet.unframe_append, ← hbytes] at hfault ⊢
    cases hnow : Header.fault? limit (r.push bs).2.bytes with
    | some e =>
      have hlater := Header.fault?_append hnow rest.flatten
      rw [Packet.unframe_of_none (Packet.frame?_of_fault? hlater), hlater] at hfault
      contradiction
    | none =>
      obtain ⟨batches, hanswers, hpackets, hrest⟩ := ih hemptied hfault
      rw [← hbytes, hnow] at hanswer
      refine ⟨(Packet.unframe limit (r.bytes ++ bs)).1 :: batches, ?_, ?_, hrest⟩
      · rw [pushAll_cons, hanswer, hanswers]
        rfl
      · rw [List.flatten_cons, hpackets]

/-- If a bad header is behind the packets, then some pushes are refused because of it, and none of those
before them. -/
theorem Emptied.pushAll_refused (h : Emptied limit r) (chunks : List Bytes) {e : Error}
    (hfault : Header.fault? limit (Packet.unframe limit (r.bytes ++ chunks.flatten)).2 = some e)
    (hsound : Header.fault? limit r.bytes = none) :
    ∃ (batches : List (List Packet)) (refused : Nat), 0 < refused ∧
      (r.pushAll chunks).1 = batches.map .ok ++ List.replicate refused (.error e) ∧
      batches.flatten <+: (Packet.unframe limit (r.bytes ++ chunks.flatten)).1 := by
  induction chunks generalizing r with
  | nil =>
    rw [List.flatten_nil, List.append_nil, Packet.unframe_of_none h.frame?, hsound] at hfault
    contradiction
  | cons bs rest ih =>
    obtain ⟨hemptied, hbytes, hanswer⟩ := h.push bs
    rw [List.flatten_cons, ← List.append_assoc, Packet.unframe_append, ← hbytes] at hfault ⊢
    rw [← hbytes] at hanswer
    cases hnow : Header.fault? limit (r.push bs).2.bytes with
    | some e' =>
      have hlater := Header.fault?_append hnow rest.flatten
      rw [Packet.unframe_of_none (Packet.frame?_of_fault? hlater), hlater] at hfault
      cases hfault
      rw [hnow] at hanswer
      refine ⟨[], rest.length + 1, Nat.succ_pos _, ?_, List.nil_prefix⟩
      rw [pushAll_cons, hanswer, hemptied.pushAll_of_fault hnow]
      rfl
    | none =>
      obtain ⟨batches, refused, hrefused, hanswers, hpackets⟩ := ih hemptied hfault hnow
      rw [hnow] at hanswer
      refine ⟨(Packet.unframe limit (r.bytes ++ bs)).1 :: batches, refused, hrefused, ?_, ?_⟩
      · rw [pushAll_cons, hanswer, hanswers]
        rfl
      · rw [List.flatten_cons]
        exact (List.prefix_append_right_inj _).2 hpackets

open Packet (encodeAll)

/-- Packets that pass the limit go through: every length field among their bytes tells the length of its
payload, and from the bytes, however they are cut, the same packets are taken with nothing left over and
no push refused. A packet behind them that does not pass the limit, but whose length can be told, makes
its push and all later ones fail for its size. -/
theorem sendable_packets_arrive {limit : UInt32} {ps : List Packet}
    (hps : ∀ p ∈ ps, p.checkSize limit = .ok ()) :
    (∀ front p back, ps = front ++ p :: back →
      Bytes.number (((encodeAll ps).drop ((encodeAll front).length + 8)).take 4) =
        p.payload.length) ∧
    (∀ chunks : List Bytes, chunks.flatten = encodeAll ps →
      ∃ batches : List (List Packet), ((empty limit).pushAll chunks).1 = batches.map .ok ∧
        batches.flatten = ps ∧ ((empty limit).pushAll chunks).2.isEmpty = true) ∧
    ∀ (p : Packet) (e : Error), p.checkSize limit = .error e → p.payload.length < UInt32.size →
      ∀ (more : Bytes) (chunks : List Bytes),
        chunks.flatten = encodeAll ps ++ (p.encode ++ more) →
        ∃ (batches : List (List Packet)) (refused : Nat), 0 < refused ∧
          ((empty limit).pushAll chunks).1 = batches.map .ok ++
            List.replicate refused (.error (.payloadTooLarge p.payload.length limit)) ∧
          batches.flatten <+: ps := by
  have hfits : ∀ p ∈ ps, p.payload.length ≤ limit.toNat :=
    fun p hp => Packet.checkSize_eq_ok_iff.1 (hps p hp)
  have hempty : (empty limit).bytes = [] := rfl
  refine ⟨?_, fun chunks hchunks => ?_, fun p e hp hlength more chunks hchunks => ?_⟩
  · rintro front p back rfl
    have hp := hfits p (by simp)
    exact Packet.number_length_encodeAll (Nat.lt_of_le_of_lt hp limit.toNat_lt_size) front back
  · have hnil : Packet.unframe limit [] = ([], []) := Packet.unframe_of_none rfl
    have hunframe := Packet.unframe_encodeAll hfits []
    rw [List.append_nil, hnil, List.append_nil] at hunframe
    have hpush := (emptied_empty limit).pushAll chunks
    rw [hempty, List.nil_append, hchunks, hunframe] at hpush
    obtain ⟨batches, hanswers, hpackets, hrest⟩ := hpush rfl
    refine ⟨batches, hanswers, hpackets, ?_⟩
    rw [isEmpty, ← length_bytes, hrest]
    rfl
  · obtain ⟨hlong, -⟩ := Packet.checkSize_eq_error_iff.1 hp
    have hfault := Packet.fault?_encode hlong hlength more
    have hunframe := Packet.unframe_encodeAll hfits (p.encode ++ more)
    rw [Packet.unframe_of_none (Packet.frame?_of_fault? hfault), List.append_nil] at hunframe
    have hpush := (emptied_empty limit).pushAll_refused chunks
      (e := .payloadTooLarge p.payload.length limit)
    rw [hempty, List.nil_append, hchunks, hunframe] at hpush
    exact hpush hfault rfl

/-- Two packets within the limit, cut in the second header, and one beyond the limit behind them. -/
theorem sendable_packets_arrive_echo :
    let ps : List Packet := [.request .echoReq [1, 0, 2], .response .noop []]
    let long : Packet := .response .echoRes [1, 2, 3, 4]
    (∀ p ∈ ps, p.checkSize 3 = .ok ()) ∧ long.checkSize 3 = .error (.payloadTooLarge 4 3) ∧
      (∃ batches : List (List Packet),
        ((empty 3).pushAll [(encodeAll ps).take 20, (encodeAll ps).drop 20]).1 = batches.map .ok ∧
          batches.flatten = ps) ∧
      ∃ (batches : List (List Packet)) (refused : Nat), 0 < refused ∧
        ((empty 3).pushAll [encodeAll ps, long.encode.take 12, long.encode.drop 12]).1 =
          batches.map .ok ++ List.replicate refused (.error (.payloadTooLarge 4 3)) ∧
        ((empty 3).pushAll [encodeAll ps, long.encode.take 12, long.encode.drop 12]).1 =
          [.ok ps, .error (.payloadTooLarge 4 3), .error (.payloadTooLarge 4 3)] := by
  intro ps long
  have hfits : ∀ p ∈ ps, p.payload.length ≤ 3 := by decide
  have hps : ∀ p ∈ ps, p.checkSize 3 = .ok () :=
    fun p hp => Packet.checkSize_eq_ok_iff.2 (hfits p hp)
  have hlong : long.checkSize 3 = .error (.payloadTooLarge 4 3) := rfl
  obtain ⟨-, hpushed, hrefused⟩ := sendable_packets_arrive hps
  obtain ⟨batches, hanswers, hpackets, -⟩ :=
    hpushed [(encodeAll ps).take 20, (encodeAll ps).drop 20] (by decide)
  obtain ⟨before, refused, hpos, hpushes, -⟩ :=
    hrefused long _ hlong (by decide) [] [encodeAll ps, long.encode.take 12, long.encode.drop 12]
      (by decide)
  have hrun : ((empty 3).pushAll [encodeAll ps, long.encode.take 12, long.encode.drop 12]).1 =
      [.ok ps, .error (.payloadTooLarge 4 3), .error (.payloadTooLarge 4 3)] := by cbv
  exact ⟨hps, hlong, ⟨batches, hanswers, hpackets⟩, before, refused, hpos, hpushes, hrun⟩

end Reassembly

end Gearman
