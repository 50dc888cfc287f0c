import Gearman.Packet.Codec

/-!
Reassembly of packets from a byte stream that arrives in pieces of any size.

The buffer always starts at a packet: a header leaves it together with its payload or not at all. A
header that cannot be the start of a packet stays, so the error that it raises is raised again.

Pieces stay as they are until a header or a packet is complete, so many small pieces cost no more than
one large one. What a buffer holds is its `bytes`, and `next?` does to them what `Packet.first?` says.
-/

namespace Gearman

/-- Bytes that have arrived and do not yet make up a packet that was taken. -/
structure Reassembly where
  /-- The oldest bytes. -/
  front : Bytes := []
  /-- The pieces that came after them, the latest first. -/
  pieces : List Bytes := []
  /-- The number of bytes. -/
  size : Nat := 0
  /-- The longest payload that is accepted. -/
  maxPayload : UInt32 := Header.defaultMaxPayload
  size_eq : size = front.length + pieces.flatten.length := by rfl
deriving DecidableEq, Repr

namespace Reassembly

/-- A buffer that accepts payloads of up to `limit` bytes. -/
def empty (limit : UInt32) : Reassembly := { maxPayload := limit }

/-- The room that is set aside for arriving bytes unless settings say otherwise. -/
def defaultCapacity : Nat := 8 * 1024

/-- The bytes in the order in which they arrived. -/
def bytes (r : Reassembly) : Bytes := r.front ++ r.pieces.reverse.flatten

theorem length_bytes (r : Reassembly) : r.bytes.length = r.size := by
  simp [bytes, r.size_eq, List.length_flatten, List.sum_reverse]

/-- Appends bytes as they arrive. -/
def feed (r : Reassembly) (bs : Bytes) : Reassembly :=
  { r with
    pieces := bs :: r.pieces
    size := r.size + bs.length
    size_eq := by
      simp only [r.size_eq, List.flatten_cons, List.length_append]
      omega }

/-- Puts the pieces together. -/
def gather (r : Reassembly) : Reassembly :=
  { r with
    front := r.bytes
    pieces := []
    size_eq := by simp [length_bytes] }

/-- Has `n` bytes at the front, if that many are there. -/
def reach (r : Reassembly) (n : Nat) : Reassembly := if r.front.reaches n then r else r.gather

/-- Takes `n` bytes off the front. -/
def drop (r : Reassembly) (n : Nat) (h : n ≤ r.front.length) : Reassembly :=
  { r with
    front := r.front.drop n
    size := r.size - n
    size_eq := by
      simp only [r.size_eq, List.length_drop]
      omega }

@[simp]
theorem bytes_feed (r : Reassembly) (bs : Bytes) : (r.feed bs).bytes = r.bytes ++ bs := by
  simp [feed, bytes]

@[simp]
theorem size_feed (r : Reassembly) (bs : Bytes) : (r.feed bs).size = r.size + bs.length := rfl

@[simp]
theorem bytes_reach (r : Reassembly) (n : Nat) : (r.reach n).bytes = r.bytes := by
  unfold reach
  split
  · rfl
  · simp [gather, bytes]

@[simp]
theorem size_reach (r : Reassembly) (n : Nat) : (r.reach n).size = r.size := by
  rw [← length_bytes, bytes_reach, length_bytes]

@[simp]
theorem maxPayload_reach (r : Reassembly) (n : Nat) : (r.reach n).maxPayload = r.maxPayload := by
  unfold reach
  split <;> rfl

theorem le_length_front_reach {r : Reassembly} {n : Nat} (h : n ≤ r.size) :
    n ≤ (r.reach n).front.length := by
  unfold reach
  split
  · next hreaches => exact Bytes.reaches_iff.1 hreaches
  · simpa [gather, length_bytes] using h

theorem bytes_drop (r : Reassembly) (n : Nat) (h : n ≤ r.front.length) :
    (r.drop n h).bytes = r.bytes.drop n := by
  simp [drop, bytes, List.drop_append_of_le_length h]

/-- What the front reaches is the same there as in all the bytes. -/
theorem take_drop_front {r : Reassembly} {m n : Nat} (h : m + n ≤ r.front.length) :
    (r.front.drop m).take n = (r.bytes.drop m).take n := by
  rw [bytes, List.drop_append_of_le_length (by omega),
    List.take_append_of_le_length (by rw [List.length_drop]; omega)]

/-- Takes the first packet if all of it has arrived. A bad header is reported as soon as it is
complete. -/
def next? (r : Reassembly) : Except Error (Option Packet × Reassembly) :=
  if r.size < Header.size then .ok (none, r)
  else
    let r := r.reach Header.size
    match Header.decode r.front with
    | .error e => .error e
    | .ok h =>
      match h.checkLength r.maxPayload with
      | .error e => .error e
      | .ok () =>
        if hshort : r.size < h.packetLength then .ok (none, r)
        else
          have hfront := le_length_front_reach (Nat.le_of_not_lt hshort)
          let r := r.reach h.packetLength
          .ok (some ⟨h.magic, h.kind, (r.front.drop Header.size).take h.length.toNat⟩,
            r.drop h.packetLength hfront)

/-- Taking the first packet out of a buffer is taking it off the bytes. -/
theorem next?_eq (r : Reassembly) :
    r.next?.map (fun x => (x.1, x.2.bytes)) = Packet.first? r.maxPayload r.bytes := by
  unfold next? Packet.first?
  simp only [length_bytes]
  split
  · rfl
  · next hlong =>
    have hfront := le_length_front_reach (Nat.le_of_not_lt hlong)
    have hdecode : Header.decode (r.reach Header.size).front = Header.decode r.bytes := by
      rw [← bytes_reach r Header.size, bytes, Header.decode_append hfront]
    simp only [hdecode, maxPayload_reach, size_reach]
    cases Header.decode r.bytes with
    | error e => rfl
    | ok h =>
      dsimp only
      cases h.checkLength r.maxPayload with
      | error e => rfl
      | ok _ =>
        dsimp only
        by_cases hshort : r.size < h.packetLength
        · simp [hshort, Except.map]
        · have hsize : h.packetLength ≤ (r.reach Header.size).size := by
            simpa using Nat.le_of_not_lt hshort
          have hpayload :
              (((r.reach Header.size).reach h.packetLength).front.drop Header.size).take
                h.length.toNat = (r.bytes.drop Header.size).take h.length.toNat :=
            (take_drop_front (le_length_front_reach hsize)).trans (by simp)
          simp [hshort, Except.map, hpayload, bytes_drop]

/-- A packet that is taken leaves the bytes behind it. -/
theorem next?_size {r r' : Reassembly} {p : Packet} (h : r.next? = .ok (some p, r')) :
    r'.size + Header.size ≤ r.size := by
  unfold next? at h
  split at h
  · simp at h
  · dsimp only at h
    split at h
    · contradiction
    · split at h
      · contradiction
      · split at h
        · simp at h
        · next hlen =>
          cases h
          simp only [size_reach, Header.packetLength] at hlen
          simp only [drop, size_reach, Header.packetLength]
          omega

/-- Takes every complete packet, oldest first. On a bad header the packets before it are lost. -/
def takeAll (r : Reassembly) : Except Error (List Packet) × Reassembly :=
  match _h : r.next? with
  | .error e => (.error e, r)
  | .ok (none, r') => (.ok [], r')
  | .ok (some p, r') =>
    match takeAll r' with
    | (.ok ps, r'') => (.ok (p :: ps), r'')
    | (.error e, r'') => (.error e, r'')
termination_by r.size
decreasing_by
  have := next?_size _h
  simp only [Header.size] at this
  omega

/-- Appends bytes and takes every packet that is complete then. -/
def push (r : Reassembly) (bs : Bytes) : Except Error (List Packet) × Reassembly :=
  (r.feed bs).takeAll

/-- Whether as many bytes are there as the length field of the first header asks for, be the header
good or bad. -/
def hasPacket (r : Reassembly) : Bool :=
  match Header.peekLength? (r.reach Header.size).front with
  | none => false
  | some length => Header.size + length.toNat ≤ r.size

def isEmpty (r : Reassembly) : Bool := r.size = 0

/-- Drops all bytes. -/
def clear (r : Reassembly) : Reassembly := empty r.maxPayload

/-- Whether a packet is there can be seen from the bytes. -/
theorem hasPacket_iff {r : Reassembly} : r.hasPacket = true ↔
    ∃ length, Header.peekLength? r.bytes = some length ∧
      Header.size + length.toNat ≤ r.bytes.length := by
  have hpeek : Header.peekLength? (r.reach Header.size).front = Header.peekLength? r.bytes := by
    rw [← bytes_reach r Header.size]
    by_cases h : Header.size ≤ r.size
    · rw [bytes, Header.peekLength?_append (le_length_front_reach h)]
    · have hsize : (r.reach Header.size).bytes.length < Header.size := by
        rw [length_bytes, size_reach]
        omega
      rw [Header.peekLength?_eq_none hsize, Header.peekLength?_eq_none]
      rw [bytes, List.length_append] at hsize
      omega
  rw [hasPacket, hpeek, length_bytes]
  cases Header.peekLength? r.bytes <;> simp

/-- A buffer that yields no packet holds what it held, and that is no packet. -/
theorem hasPacket_of_next? {r r' : Reassembly} (h : r.next? = .ok (none, r')) :
    r'.bytes = r.bytes ∧ r'.hasPacket = false := by
  have hfirst : Packet.first? r.maxPayload r.bytes = .ok (none, r'.bytes) := by
    rw [← next?_eq, h]
    rfl
  obtain ⟨hbytes, hfew⟩ := Packet.eq_of_first?_none hfirst
  refine ⟨hbytes, Bool.eq_false_iff.2 fun hpacket => ?_⟩
  obtain ⟨length, hlength, hle⟩ := hasPacket_iff.1 hpacket
  rw [hbytes] at hlength hle
  have := hfew length hlength
  omega

end Reassembly

end Gearman
