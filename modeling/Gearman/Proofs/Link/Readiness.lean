import Gearman.Proofs.Link.Extraction
import Gearman.Proofs.Link.Feed

/-!
When a connection is ready, compared with what its next read says.

Readiness is told from the length field alone, and a read looks at the magic word, the kind and the
limit before it waits for the payload. So the two differ over one kind of buffer: a bad header in front
and less behind it than its length field asks for. A read reports the bad header, but the connection is
not ready for it. Such a header comes behind a packet of the same read.
-/

namespace Gearman

namespace Reassembly

variable {r : Reassembly}

/-- A bad header is in front, and less has arrived than its length field asks for. -/
def OverlooksFault (r : Reassembly) : Prop :=
  ∃ e length, Header.fault? r.maxPayload r.bytes = some e ∧
    Header.peekLength? r.bytes = some length ∧ r.bytes.length < Header.size + length.toNat

/-- A header that is bad is all there. -/
theorem exists_peekLength? {limit : UInt32} {bs : Bytes} {e : Error}
    (h : Header.fault? limit bs = some e) : ∃ length, Header.peekLength? bs = some length := by
  by_cases hshort : bs.length < Header.size
  · rw [Header.fault?_of_lt_size hshort] at h
    contradiction
  · obtain ⟨_, _, _, _, _, _, _, _, _, _, _, _, _, rfl⟩ :=
      Header.exists_of_size_le (Nat.le_of_not_lt hshort)
    exact ⟨_, rfl⟩

theorem hasPacket_of_frame? {limit : UInt32} {p : Packet}
    (h : Packet.frame? limit r.bytes = some p) : r.hasPacket = true := by
  obtain ⟨header, hdecode, hlength, -⟩ := Packet.decode_eq_ok.1 (Packet.frame?_eq_some.1 h).1
  exact hasPacket_iff.2 ⟨header.length, Header.peekLength?_of_decode hdecode, hlength⟩

/-- A bad header is seen as a packet, or it is overlooked. -/
theorem hasPacket_or_overlooks {e : Error} (h : Header.fault? r.maxPayload r.bytes = some e) :
    r.hasPacket = true ∨ r.OverlooksFault := by
  obtain ⟨length, hlength⟩ := exists_peekLength? h
  by_cases hshort : r.bytes.length < Header.size + length.toNat
  · exact .inr ⟨e, length, h, hlength, hshort⟩
  · exact .inl (hasPacket_iff.2 ⟨length, hlength, Nat.le_of_not_lt hshort⟩)

/-- Something can be taken or reported if and only if a packet seems to be there or a bad header is
overlooked. -/
theorem next?_ne_none_iff : (∀ r', r.next? ≠ .ok (none, r')) ↔
    r.hasPacket = true ∨ r.OverlooksFault := by
  constructor
  · intro hsome
    rcases r.next?_cases with ⟨e, hfault, -⟩ | ⟨p, r', -, hframe, -⟩ | ⟨r', -, -, -, -, hnext⟩
    · exact hasPacket_or_overlooks hfault
    · exact .inl (hasPacket_of_frame? hframe)
    · exact absurd hnext (hsome r')
  · rintro (hpacket | ⟨e, -, hfault, -⟩) r' hnext
    · obtain ⟨hbytes, hnone⟩ := hasPacket_of_next? hnext
      rw [hasPacket_iff, ← hbytes, ← hasPacket_iff, hnone] at hpacket
      contradiction
    · rw [(eq_of_next?_none hnext).1] at hfault
      contradiction

/-- The two ways to be in front exclude each other. -/
theorem OverlooksFault.hasPacket (h : r.OverlooksFault) : r.hasPacket = false := by
  obtain ⟨e, length, -, hlength, hshort⟩ := h
  refine Bool.eq_false_iff.2 fun hpacket => ?_
  obtain ⟨length', hlength', hlong⟩ := hasPacket_iff.1 hpacket
  obtain rfl : length = length' := Option.some.inj (hlength.symm.trans hlength')
  omega

theorem hasPacket_iff_next? :
    r.hasPacket = true ↔ (∀ r', r.next? ≠ .ok (none, r')) ∧ ¬ r.OverlooksFault := by
  rw [next?_ne_none_iff]
  constructor
  · intro hpacket
    refine ⟨.inl hpacket, fun hoverlooks => ?_⟩
    rw [hoverlooks.hasPacket] at hpacket
    contradiction
  · rintro ⟨hpacket | hoverlooks, hnot⟩
    · exact hpacket
    · exact absurd hoverlooks hnot

end Reassembly

namespace Connection

variable {c c' : Connection}

/-- With nothing at the stream there is nothing to receive. -/
theorem receive_of_unread (h : c.unread = 0) : c.receive = (.ok (), c) := by
  unfold receive
  split
  · rfl
  · next hopen =>
    have hnone : c.stream.unread = 0 := by simpa [unread, hopen] using h
    have hread : c.stream.read c.readChunk = (.nothing, c.stream) := by
      unfold Stream.unread at hnone
      split at hnone
      · next hflowing =>
        have hempty : c.stream.arriving = [] := List.length_eq_zero_iff.1 hnone
        simp [Stream.read, hflowing, hempty]
      · contradiction
    rw [hread]

/-- What is taken is nothing only if the end was not met and the buffer yields nothing. -/
theorem take_ne_none_iff : c.take.1 ≠ .ok none ↔
    c.sawEnd = true ∨ ∀ r', c.inbound.next? ≠ .ok (none, r') := by
  unfold take
  cases hnext : c.inbound.next? with
  | error e => simp
  | ok x =>
    obtain ⟨p?, inbound⟩ := x
    cases p? with
    | some p => simp
    | none =>
      cases hend : c.sawEnd with
      | true => simp
      | false => simp

/-- With nothing left at the stream, a read brings a packet or reports an error if and only if the end
was met, a packet seems to be in the buffer, or a bad header in it is overlooked. -/
theorem read_ne_none_iff (h : c.unread = 0) : c.read.1 ≠ .ok none ↔
    c.sawEnd = true ∨ c.inbound.hasPacket = true ∨ c.inbound.OverlooksFault := by
  rw [read, receive_of_unread h, take_ne_none_iff, Reassembly.next?_ne_none_iff]

/-- Once a read has brought nothing, no bad header is in the buffer. -/
theorem not_overlooks_of_read (h : c.read = (.ok none, c')) : ¬ c'.inbound.OverlooksFault := by
  unfold read at h
  split at h
  · next c₁ hreceive =>
    rcases take_cases c₁ with ⟨e, -, htake⟩ | ⟨p, inbound, -, -, -, -, htake⟩ |
      ⟨inbound, hfault, -, hbytes, hlimit, htake⟩
    · simp [htake] at h
    · simp [htake] at h
    · obtain ⟨-, rfl⟩ := Prod.mk.inj (htake.symm.trans h)
      rintro ⟨e, length, hbad, -⟩
      dsimp only at hbad
      rw [hlimit, hbytes, hfault] at hbad
      contradiction
  · simp at h

/-- A connection whose next read would bring a packet or report an error is ready, unless a bad header
is in front and less behind it than it asks for: this is the one case in which a buffer yields something
and seems to hold no packet. A read that brings nothing leaves no such header. -/
theorem ready_of_report (c : Connection) (r : Reassembly) :
    (r.hasPacket = true ↔ (∀ r', r.next? ≠ .ok (none, r')) ∧ ¬ r.OverlooksFault) ∧
    (c.unread = 0 → c.read.1 ≠ .ok none → ¬ c.inbound.OverlooksFault →
      (c.sawEnd = true ∨ c.inbound.hasPacket = true) ∧ c.isReady = true) ∧
    ∀ c', c.read = (.ok none, c') → ¬ c'.inbound.OverlooksFault := by
  refine ⟨Reassembly.hasPacket_iff_next?, fun hunread hread hnot => ?_, fun c' => not_overlooks_of_read⟩
  have hreport : c.sawEnd = true ∨ c.inbound.hasPacket = true := by
    rcases (read_ne_none_iff hunread).1 hread with hend | hpacket | hoverlooks
    · exact .inl hend
    · exact .inr hpacket
    · exact absurd hoverlooks hnot
  refine ⟨hreport, ?_⟩
  rcases hreport with hend | hpacket
  · simp [isReady, hend]
  · simp [isReady, hpacket]

/-- A bad header without a payload, behind a packet: the next read reports it, and the connection is
ready. -/
theorem ready_of_report_bare_header :
    let noop := (Packet.response .noop []).encode
    let bad := [0, 0x52, 0x45, 0x58, 0, 0, 0, 6, 0, 0, 0, 0]
    let c := ((Feed.start .default {}).run [.arrival (noop ++ bad) false, .read]).connection
    c.unread = 0 ∧ c.read.1 = .error (.badMagic [0, 0x52, 0x45, 0x58]) ∧
      (c.sawEnd = true ∨ c.inbound.hasPacket = true) ∧ c.isReady = true := by
  intro noop bad c
  have hunread : c.unread = 0 := by decide +kernel
  have hread : c.read.1 = .error (.badMagic [0, 0x52, 0x45, 0x58]) := by rfl
  have hpacket : c.inbound.hasPacket = true := by decide +kernel
  have hreport : c.read.1 ≠ .ok none := by
    rw [hread]
    simp
  obtain ⟨hiff, hready, -⟩ := ready_of_report c c.inbound
  exact ⟨hunread, hread, hready hunread hreport (hiff.1 hpacket).2⟩

/-- A bad header that asks for five bytes, behind a packet: the next read reports it, and the connection
is not ready. -/
theorem bad_header_is_not_ready :
    let noop := (Packet.response .noop []).encode
    let bad := [0, 0x52, 0x45, 0x58, 0, 0, 0, 6, 0, 0, 0, 5]
    let f := (Feed.start .default {}).run [.arrival (noop ++ bad) false, .read]
    let c := f.connection
    f.reports = [.ok (some (.response .noop []))] ∧ c.unread = 0 ∧
      c.read.1 = .error (.badMagic [0, 0x52, 0x45, 0x58]) ∧ c.sawEnd = false ∧
      c.inbound.hasPacket = false ∧ c.isReady = false := by
  intro noop bad f c
  exact ⟨by rfl, by decide +kernel, by rfl, by decide +kernel, by decide +kernel, by decide +kernel⟩

end Connection

end Gearman
