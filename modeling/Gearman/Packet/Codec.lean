import Gearman.Packet.Header

/-!
Packets as bytes, and payloads as fields.
-/

namespace Gearman.Packet

/-- The header of a packet. Its length field is right for payloads of less than 2^32 bytes; longer
ones are refused before they are written. -/
def header (p : Packet) : Header := ⟨p.magic, p.kind, p.payload.length.toUInt32⟩

def encode (p : Packet) : Bytes := p.header.encode ++ p.payload

def encodedLength (p : Packet) : Nat := Header.size + p.payload.length

/-- Reads the packet at the front of `bs`. -/
def decode (bs : Bytes) : Except Error Packet :=
  match Header.decode bs with
  | .error e => .error e
  | .ok h =>
    if bs.length < h.packetLength then .error (.truncated h.packetLength bs.length)
    else .ok ⟨h.magic, h.kind, (bs.drop Header.size).take h.length.toNat⟩

/-- The packet at the front of what has arrived so far, if all of it is there, and the bytes behind it.
A header that is bad, or tells of more than `limit` bytes, is reported as soon as it is complete. -/
def first? (limit : UInt32) (bs : Bytes) : Except Error (Option Packet × Bytes) :=
  if bs.length < Header.size then .ok (none, bs)
  else
    match Header.decode bs with
    | .error e => .error e
    | .ok h =>
      match h.checkLength limit with
      | .error e => .error e
      | .ok () =>
        if bs.length < h.packetLength then .ok (none, bs)
        else
          .ok (some ⟨h.magic, h.kind, (bs.drop Header.size).take h.length.toNat⟩,
            bs.drop h.packetLength)

/-- Refuses a packet whose payload is longer than `limit`. -/
def checkSize (p : Packet) (limit : UInt32) : Except Error Unit :=
  if p.payload.length ≤ limit.toNat then .ok ()
  else .error (.payloadTooLarge p.payload.length limit)

/-- The packet whose payload is made of these fields. The joined payload has to fit the length field
of the header, and only the last field may hold a zero byte. -/
def ofFields (magic : Magic) (kind : Kind) (fields : List Bytes) : Except Error Packet :=
  if Bytes.joinedLength fields < UInt32.size then
    if fields.dropLast.any (0 ∈ ·) then .error (.nulInIdentifier kind)
    else .ok ⟨magic, kind, Bytes.joinFields fields⟩
  else .error (.payloadTooLarge (Bytes.joinedLength fields) 0xFFFFFFFF)

/-- The most fields that there is room for. A field takes 32 bytes of a list, and a list takes less
than 2^63 bytes. -/
def maxFields : Nat := 288230376151711743

/-- The payload as exactly `n` fields, of which the last is all that the others leave. Room for the
fields is made before the payload is looked at. -/
def fields (p : Packet) (n : Nat) : Except Error (List Bytes) :=
  if n ≤ maxFields then
    match n with
    | 0 => .ok []
    | k + 1 =>
      match p.payload.splitFields k with
      | .ok fields => .ok fields
      | .error found => .error (.missingFields p.kind (k + 1) found)
  else .error (.panicked "capacity overflow")

/-- The payload cut at its first zero byte: the job handle of a packet that carries one, and the
rest. Without a zero byte the whole payload is the handle. -/
def handleAndRest (p : Packet) : Bytes × Bytes :=
  p.payload.cut?.getD (p.payload, [])

/-- Bytes that yield no packet stay, and they are fewer than their header asks for. -/
theorem eq_of_first?_none {limit : UInt32} {bs rest : Bytes}
    (h : first? limit bs = .ok (none, rest)) :
    rest = bs ∧ ∀ length, Header.peekLength? bs = some length →
      bs.length < Header.size + length.toNat := by
  unfold first? at h
  split at h
  · next hshort =>
    cases h
    exact ⟨rfl, by simp [Header.peekLength?_eq_none hshort]⟩
  · split at h
    · contradiction
    · next header hdecode =>
      split at h
      · contradiction
      · split at h
        · next hshort =>
          cases h
          refine ⟨rfl, fun length hlength => ?_⟩
          rw [Header.peekLength?_of_decode hdecode] at hlength
          cases hlength
          exact hshort
        · simp at h

end Gearman.Packet
