import Gearman.Proofs.Link.Inbound
import Gearman.Proofs.Packet.Decoding

/-!
Taking a packet from a buffer and reading one from the same bytes at once.

The two see the same faults and the same packets. Only the limit of the buffer comes between them: a
header beyond it is refused, be its payload there or not.
-/

namespace Gearman

namespace Header

variable {limit : UInt32} {bs : Bytes} {h : Header}

theorem fault?_of_lt_size (hshort : bs.length < size) : fault? limit bs = none := by
  rw [fault?, if_pos hshort]

/-- Of a header that can be read, only the length can be wrong. -/
theorem fault?_of_decode (hdecode : decode bs = .ok h) : fault? limit bs =
    if h.length ≤ limit then none else some (.payloadTooLarge h.length.toNat limit) := by
  rw [fault?, if_neg (Nat.not_lt_of_le (size_le_of_decode hdecode)), hdecode]
  by_cases hfits : h.length ≤ limit
  · simp only [checkLength, hfits, if_true]
  · simp only [checkLength, hfits, if_false]

/-- What is wrong with the words of a header is wrong with the packet too. -/
theorem decode_of_packet {e : Error} (h : Packet.decode bs = .error e)
    (he : e.category ≠ .truncated) : size ≤ bs.length ∧ decode bs = .error e := by
  unfold Packet.decode at h
  split at h
  · next e' hdecode =>
    cases h
    refine ⟨Nat.le_of_not_lt fun hshort => he ?_, hdecode⟩
    rw [decode_of_lt_size hshort] at hdecode
    cases hdecode
    rfl
  · split at h
    · cases h
      exact absurd rfl he
    · contradiction

/-- A packet that is not all there has no fault but the length that its header may tell of. -/
theorem fault?_of_truncated {expected actual : Nat}
    (htruncated : Packet.decode bs = .error (.truncated expected actual))
    (hfits : ∀ h, decode bs = .ok h → h.length ≤ limit) : fault? limit bs = none := by
  have hdecoding := Packet.decoding_decode bs
  rw [htruncated] at hdecoding
  cases hdecoding with
  | short hshort => exact fault?_of_lt_size hshort
  | truncated hheads _ =>
    have hdecode := decode_eq_ok_iff.2 hheads
    rw [fault?_of_decode hdecode, if_pos (hfits _ hdecode)]

end Header

namespace Reassembly

variable {r : Reassembly} {e : Error} {p : Packet}

theorem next?_of_fault? (h : Header.fault? r.maxPayload r.bytes = some e) : r.next? = .error e := by
  rcases r.next?_cases with ⟨e', hfault, hnext⟩ | ⟨p, r', hfault, -⟩ | ⟨r', hfault, -⟩
  · rw [hnext, Option.some.inj (hfault.symm.trans h)]
  · rw [hfault] at h
    contradiction
  · rw [hfault] at h
    contradiction

theorem next?_of_decode (h : Packet.decode r.bytes = .ok p)
    (hfits : p.payload.length ≤ r.maxPayload.toNat) :
    ∃ r', r.next? = .ok (some p, r') ∧ r.bytes = p.encode ++ r'.bytes ∧
      r'.maxPayload = r.maxPayload := by
  have hframe := Packet.frame?_eq_some.2 ⟨h, hfits⟩
  rcases r.next?_cases with ⟨e, hfault, -⟩ | ⟨q, r', -, hq, hbytes, hlimit, hnext⟩ | ⟨r', -, hnone, -⟩
  · rw [Packet.frame?_of_fault? hfault] at hframe
    contradiction
  · obtain rfl : q = p := Option.some.inj (hq.symm.trans hframe)
    obtain ⟨rest, hrest⟩ := Packet.encode_prefix_of_decode h
    refine ⟨r', hnext, ?_, hlimit⟩
    rw [hbytes, ← hrest, ← Packet.length_encode, List.drop_left]
  · rw [hnone] at hframe
    contradiction

/-- Bytes that start no bad header and hold no packet wait for more. -/
theorem next?_of_none (hfault : Header.fault? r.maxPayload r.bytes = none)
    (hframe : Packet.frame? r.maxPayload r.bytes = none) :
    ∃ r', r.next? = .ok (none, r') ∧ r'.bytes = r.bytes ∧ r'.maxPayload = r.maxPayload := by
  rcases r.next?_cases with ⟨e, hbad, -⟩ | ⟨p, r', -, hp, -⟩ | ⟨r', -, -, hbytes, hlimit, hnext⟩
  · rw [hfault] at hbad
    contradiction
  · rw [hframe] at hp
    contradiction
  · exact ⟨r', hnext, hbytes, hlimit⟩

theorem takeAll_of_error (h : r.next? = .error e) : r.takeAll = (.error e, r) := by
  rw [takeAll]
  split
  · next e' hnext =>
    rw [h] at hnext
    cases hnext
    rfl
  · next hnext =>
    rw [h] at hnext
    contradiction
  · next hnext =>
    rw [h] at hnext
    contradiction

/-- A buffer yields what reading its bytes at once does. Faults of the magic word and of the kind are
the same; a length beyond the limit is a fault before the payload is there; a packet that is not all
there is waited for; and a packet within the limit is the same one and takes its own bytes away. As long
as no packet is taken the bytes stay. -/
theorem next?_refines_decode (r : Reassembly) :
    (∀ word, Packet.decode r.bytes = .error (.badMagic word) → r.next? = .error (.badMagic word)) ∧
    (∀ code, Packet.decode r.bytes = .error (.unknownKind code) →
      r.next? = .error (.unknownKind code)) ∧
    (∀ h, Header.decode r.bytes = .ok h → r.maxPayload < h.length →
      r.next? = .error (.payloadTooLarge h.length.toNat r.maxPayload)) ∧
    (∀ expected actual, Packet.decode r.bytes = .error (.truncated expected actual) →
      (∀ h, Header.decode r.bytes = .ok h → h.length ≤ r.maxPayload) →
      ∃ r', r.next? = .ok (none, r')) ∧
    (∀ p, Packet.decode r.bytes = .ok p → p.payload.length ≤ r.maxPayload.toNat →
      ∃ r', r.next? = .ok (some p, r') ∧ r.bytes = p.encode ++ r'.bytes ∧
        r'.maxPayload = r.maxPayload) ∧
    (∀ r', r.next? = .ok (none, r') → r'.bytes = r.bytes ∧ r'.maxPayload = r.maxPayload) ∧
    ∀ e, r.next? = .error e → r.takeAll = (.error e, r) ∧
      ∀ c : Connection, c.inbound = r → c.take = (.error e, c) := by
  have hbad : ∀ e, Packet.decode r.bytes = .error e → e.category ≠ .truncated →
      r.next? = .error e := by
    intro e he hcategory
    obtain ⟨hsize, hdecode⟩ := Header.decode_of_packet he hcategory
    refine next?_of_fault? ?_
    rw [Header.fault?, if_neg (Nat.not_lt_of_le hsize), hdecode]
  refine ⟨fun word h => hbad _ h (by simp [Error.category]),
    fun code h => hbad _ h (by simp [Error.category]), fun h hdecode hlong => ?_,
    fun expected actual htruncated hfits => ?_, fun p => next?_of_decode,
    fun r' hnext => (eq_of_next?_none hnext).2.2, fun e he => ⟨takeAll_of_error he, ?_⟩⟩
  · refine next?_of_fault? ?_
    rw [Header.fault?_of_decode hdecode, if_neg (UInt32.not_le.2 hlong)]
  · have hframe : Packet.frame? r.maxPayload r.bytes = none := by rw [Packet.frame?, htruncated]
    obtain ⟨r', hnext, -⟩ := next?_of_none (Header.fault?_of_truncated htruncated hfits) hframe
    exact ⟨r', hnext⟩
  · rintro c rfl
    rw [Connection.take, he]

end Reassembly

end Gearman
