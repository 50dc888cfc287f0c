import Gearman.Link.Outbound
import Gearman.Link.Stream
import Gearman.Packet.Reassembly
import Gearman.Settings

/-!
Connections to job servers: a stream, the packets that wait to be written to it, and the bytes read
from it that are not yet a packet. Nothing here waits; each read or write is one attempt.
-/

namespace Gearman

structure Connection where
  peer : Address
  stream : Stream := {}
  /-- What the server's end has taken whole, oldest first. -/
  sent : List Packet := []
  outbound : Outbound := .empty
  inbound : Reassembly
  /-- The most bytes that one read takes. -/
  readChunk : Nat
  readChunk_pos : 0 < readChunk
  /-- Whether a read has met the end of the stream. -/
  sawEnd : Bool := false
deriving DecidableEq, Repr

namespace Connection

/-- A connection that was just made, to a server that takes what is written in these steps. -/
def fresh (peer : Address) (settings : ConnectionSettings) (uptakes : List Uptake := []) :
    Connection where
  peer
  stream := { uptakes }
  inbound := .empty settings.maxPayloadSize
  readChunk := settings.readChunk
  readChunk_pos := settings.readChunk_pos

/-- Connects to a server that accepts or refuses the connection. -/
def connect (peer : Address) (settings : ConnectionSettings) (accepted : Bool)
    (uptakes : List Uptake := []) : Except Error Connection :=
  if accepted then .ok (fresh peer settings uptakes) else .error (.link .refused)

/-- The longest payload that is sent or accepted. -/
def maxPayload (c : Connection) : UInt32 := c.inbound.maxPayload

/-- What was sent and what waits to be written, oldest first. -/
def outgoing (c : Connection) : List Packet := c.sent ++ c.outbound.packets

def hasPendingWrites (c : Connection) : Bool := !c.outbound.isEmpty

/-- Refuses a packet that is too long to be sent. -/
def checkOutbound (c : Connection) (p : Packet) : Except Error Unit := p.checkSize c.maxPayload

/-- Attempts once to write what waits to be written, and counts the bytes that were taken. A server's end
that takes none without being busy is gone. -/
def transmit (c : Connection) : Except Error Nat × Connection :=
  if c.outbound.isEmpty then (.ok 0, c)
  else
    match c.stream.write c.outbound.size with
    | (.bytes 0, stream) => (.error (.severed c.peer.text), { c with stream })
    | (.bytes n, stream) =>
      let taken := c.outbound.advance n
      (.ok n, { c with stream, sent := c.sent ++ taken.1, outbound := taken.2 })
    | (.blocked, stream) => (.ok 0, { c with stream })
    | (.failed fault, stream) => (.error (.link fault), { c with stream })

/-- Puts a packet, if there is one, behind what waits to be written, and attempts once to write that. A
packet that is too long changes nothing. -/
def write (c : Connection) (p? : Option Packet) : Except Error Nat × Connection :=
  match p? with
  | none => c.transmit
  | some p =>
    match c.checkOutbound p with
    | .error e => (.error e, c)
    | .ok () => { c with outbound := c.outbound.push p }.transmit

/-- How often it can be attempted to write what waits to be written before all of it is written. -/
def attempts (c : Connection) : Nat := c.stream.uptakes.length + c.hasPendingWrites.toNat

theorem attempts_of_pending {c : Connection} (h : c.hasPendingWrites = true) :
    c.attempts = c.stream.uptakes.length + 1 := by
  rw [attempts, h, Bool.toNat_true]

/-- An attempt that does not fail has moved packets from what waits to what was sent, and it is one attempt
less until nothing waits. -/
theorem transmit_ok {c c' : Connection} {n : Nat} (h : c.transmit = (.ok n, c')) :
    c' = { c with stream := c'.stream, sent := c'.sent, outbound := c'.outbound } ∧
      c'.outgoing = c.outgoing ∧
      c'.stream.arriving = c.stream.arriving ∧ c'.stream.fate = c.stream.fate ∧
      c'.attempts ≤ c.attempts ∧ (c.hasPendingWrites = true → c'.attempts < c.attempts) := by
  unfold transmit at h
  split at h
  · next hempty =>
    cases h
    exact ⟨rfl, rfl, rfl, rfl, Nat.le_refl _, by simp [hasPendingWrites, hempty]⟩
  · next hwaits =>
    have hpending : c.hasPendingWrites = true := by simpa [hasPendingWrites] using hwaits
    have hfewer : ∀ {c₁ : Connection}, c₁.stream.uptakes.length < c.stream.uptakes.length →
        c₁.attempts < c.attempts := by
      intro c₁ hlt
      have := c₁.hasPendingWrites.toNat_le
      rw [attempts_of_pending hpending, attempts]
      omega
    split at h
    · cases h
    · next n stream _ hwrite =>
      cases h
      have hno : ∀ fault, Uptake.bytes n ≠ .failed fault := by simp
      obtain ⟨hle, hlt⟩ := Stream.uptakes_of_write hwrite hno
      have hless : ({ c with
          stream := stream
          sent := c.sent ++ (c.outbound.advance n).1
          outbound := (c.outbound.advance n).2 } : Connection).attempts < c.attempts := by
        by_cases hall : n = c.outbound.size
        · rw [attempts_of_pending hpending]
          simp only [attempts, hall, Outbound.advance_size, hasPendingWrites, Outbound.isEmpty_empty,
            Bool.not_true, Bool.toNat_false]
          omega
        · exact hfewer (hlt (by simpa using hall))
      refine ⟨rfl, ?_, (Stream.unread_of_write hwrite).2, Stream.fate_of_write hwrite hno,
        Nat.le_of_lt hless, fun _ => hless⟩
      simp only [outgoing, List.append_assoc, Outbound.advance_append]
    · next stream hwrite =>
      cases h
      have hno : ∀ fault, Uptake.blocked ≠ .failed fault := by simp
      have hless : ({ c with stream } : Connection).attempts < c.attempts :=
        hfewer ((Stream.uptakes_of_write hwrite hno).2 (by simp))
      exact ⟨rfl, rfl, (Stream.unread_of_write hwrite).2, Stream.fate_of_write hwrite hno,
        Nat.le_of_lt hless, fun _ => hless⟩
    · cases h

/-- Writes all that waits to be written, in as many attempts as it takes. -/
def flush (c : Connection) : Except Error Unit × Connection :=
  if hpending : c.hasPendingWrites = true then
    match htransmit : c.transmit with
    | (.ok _, c') =>
      have := (transmit_ok htransmit).2.2.2.2.2 hpending
      c'.flush
    | (.error e, c') => (.error e, c')
  else (.ok (), c)
termination_by c.attempts

/-- Writes what waits to be written and ends the writing half. -/
def shutdown (c : Connection) : Except Error Unit × Connection :=
  match c.flush with
  | (.ok (), c) => (.ok (), { c with stream := { c.stream with writeShut := true } })
  | (.error e, c) => (.error e, c)

/-- Moves bytes from the stream to the buffer, unless the end was met before. -/
def receive (c : Connection) : Except Error Unit × Connection :=
  if c.sawEnd then (.ok (), c)
  else
    match c.stream.read c.readChunk with
    | (.bytes bs, stream) => (.ok (), { c with stream, inbound := c.inbound.feed bs })
    | (.nothing, stream) => (.ok (), { c with stream })
    | (.ended, stream) => (.ok (), { c with stream, sawEnd := true })
    | (.failed fault, stream) => (.error (.link fault), { c with stream })

/-- Takes the first packet of the buffer. The end of the stream is reported when no packet is left in
front of it. -/
def take (c : Connection) : Except Error (Option Packet) × Connection :=
  match c.inbound.next? with
  | .error e => (.error e, c)
  | .ok (some p, inbound) => (.ok (some p), { c with inbound })
  | .ok (none, inbound) =>
    if c.sawEnd then (.error (.severed c.peer.text), { c with inbound })
    else (.ok none, { c with inbound })

/-- Reads once from the stream and takes at most one packet. -/
def read (c : Connection) : Except Error (Option Packet) × Connection :=
  match c.receive with
  | (.ok (), c) => c.take
  | (.error e, c) => (.error e, c)

/-- Adds what a server sends; the second part is `false` if the stream is over. -/
def deliver (c : Connection) (a : Arrival) : Connection × Bool :=
  match c.stream.deliver? a with
  | some stream => ({ c with stream }, true)
  | none => (c, false)

/-- Whether there is something to do without waiting for the server. -/
def isReady (c : Connection) : Bool :=
  c.sawEnd || c.inbound.hasPacket || 0 < c.stream.unread || c.hasPendingWrites

/-- How much there is that a read would bring. -/
def unread (c : Connection) : Nat := if c.sawEnd then 0 else c.stream.unread

/-- The bytes that have arrived and are in no packet that was taken. -/
def backlog (c : Connection) : Nat := c.stream.arriving.length + c.inbound.size

/-- How much there is to do: each byte is to be read and to be handled, and what waits is to be written. -/
def load (c : Connection) : Nat := c.unread + c.backlog + c.attempts

theorem backlog_of_receive {c c' : Connection} (h : c.receive = (.ok (), c')) :
    c'.backlog = c.backlog := by
  unfold receive at h
  split at h
  · cases h
    rfl
  · split at h
    · next bs stream hread =>
      cases h
      have := Stream.length_of_read hread
      simp only [backlog, Reassembly.size_feed]
      omega
    · next stream hread =>
      cases h
      simp [backlog, Stream.arriving_of_read hread]
    · next stream hread =>
      cases h
      simp [backlog, Stream.arriving_of_read hread]
    · simp at h

theorem backlog_of_take {c c' : Connection} {p : Packet} (h : c.take = (.ok (some p), c')) :
    c'.backlog + Header.size ≤ c.backlog := by
  unfold take at h
  split at h
  · simp at h
  · next p' inbound hnext =>
    cases h
    have := Reassembly.next?_size hnext
    simp only [backlog]
    omega
  · split at h <;> simp at h

/-- A packet that a read brings leaves the backlog shorter by a header at least. -/
theorem backlog_of_read {c c' : Connection} {p : Packet} (h : c.read = (.ok (some p), c')) :
    c'.backlog + Header.size ≤ c.backlog := by
  unfold read at h
  split at h
  · next c₁ hreceive =>
    rw [← backlog_of_receive hreceive]
    exact backlog_of_take h
  · simp at h

/-- A packet that is written waits behind the others when the attempt is made. -/
theorem transmit_of_write {c c' : Connection} {p : Packet} {n : Nat}
    (h : c.write (some p) = (.ok n, c')) :
    { c with outbound := c.outbound.push p }.transmit = (.ok n, c') := by
  simp only [write] at h
  split at h
  · cases h
  · exact h

theorem stream_of_transmit {c c' : Connection} {r : Except Error Nat} (h : c.transmit = (r, c')) :
    c'.inbound = c.inbound ∧ c'.sawEnd = c.sawEnd ∧ c'.stream.unread = c.stream.unread ∧
      c'.stream.arriving = c.stream.arriving := by
  unfold transmit at h
  split at h
  · cases h
    exact ⟨rfl, rfl, rfl, rfl⟩
  · split at h
    all_goals
      next hwrite =>
      cases h
      exact ⟨rfl, rfl, Stream.unread_of_write hwrite⟩

theorem backlog_of_transmit {c c' : Connection} {r : Except Error Nat}
    (h : c.transmit = (r, c')) : c'.backlog = c.backlog := by
  obtain ⟨hinbound, -, -, harriving⟩ := stream_of_transmit h
  simp only [backlog, hinbound, harriving]

/-- Writing leaves what is there to be read. -/
theorem unread_of_transmit {c c' : Connection} {r : Except Error Nat}
    (h : c.transmit = (r, c')) : c'.unread = c.unread := by
  obtain ⟨-, hend, hunread, -⟩ := stream_of_transmit h
  simp only [unread, hend, hunread]

/-- The faults of a write are those of the stream. -/
theorem transmit_error {c c' : Connection} {e : Error} (h : c.transmit = (.error e, c')) :
    e.isTooLarge = false := by
  unfold transmit at h
  repeat' split at h
  all_goals
    cases h
    try rfl

theorem load_of_transmit {c c' : Connection} {n : Nat} (h : c.transmit = (.ok n, c')) :
    c'.load ≤ c.load ∧ (c'.hasPendingWrites = true → c'.load < c.load) := by
  obtain ⟨-, -, -, -, hle, hlt⟩ := transmit_ok h
  simp only [load, unread_of_transmit h, backlog_of_transmit h]
  refine ⟨by omega, fun hpending => ?_⟩
  have hwaited : c.hasPendingWrites = true := by
    refine Decidable.byContradiction fun hnone => ?_
    have hempty : c.outbound.isEmpty = true := by simpa [hasPendingWrites] using hnone
    simp only [transmit, hempty, if_true, Prod.mk.injEq] at h
    rw [← h.2] at hpending
    exact hnone hpending
  have := hlt hwaited
  omega

theorem writing_of_receive {c c' : Connection} {r : Except Error Unit} (h : c.receive = (r, c')) :
    c'.outbound = c.outbound ∧ c'.sent = c.sent ∧ c'.stream.uptakes = c.stream.uptakes := by
  unfold receive at h
  split at h
  · cases h
    exact ⟨rfl, rfl, rfl⟩
  · split at h
    all_goals
      next hread =>
      cases h
      exact ⟨rfl, rfl, Stream.uptakes_of_read hread⟩

theorem attempts_of_receive {c c' : Connection} {r : Except Error Unit} (h : c.receive = (r, c')) :
    c'.attempts = c.attempts := by
  obtain ⟨hout, -, huptakes⟩ := writing_of_receive h
  simp only [attempts, hasPendingWrites, hout, huptakes]

/-- Receiving makes progress, or the end has been met, or nothing is there. -/
theorem unread_of_receive {c c' : Connection} (h : c.receive = (.ok (), c')) :
    c'.unread ≤ c.unread ∧ (c'.unread < c.unread ∨ c'.sawEnd ∨ c'.stream.unread = 0) := by
  unfold receive at h
  split at h
  · next hend =>
    cases h
    exact ⟨Nat.le_refl _, .inr (.inl hend)⟩
  · next hend =>
    split at h
    · next bs stream hread =>
      cases h
      have := Stream.unread_of_read c.readChunk_pos hread
      simp only [unread, hend]
      simp only [Bool.false_eq_true, if_false]
      omega
    · next stream hread =>
      cases h
      obtain ⟨rfl, hnone⟩ := Stream.unread_of_read_nothing hread
      exact ⟨Nat.le_refl _, .inr (.inr hnone)⟩
    · cases h
      simp [unread]
    · simp at h

theorem load_of_receive {c c' : Connection} (h : c.receive = (.ok (), c')) : c'.load ≤ c.load :=
  Nat.add_le_add (Nat.add_le_add (unread_of_receive h).1 (Nat.le_of_eq (backlog_of_receive h)))
    (Nat.le_of_eq (attempts_of_receive h))

theorem load_of_read_some {c c' : Connection} {p : Packet} (h : c.read = (.ok (some p), c')) :
    c'.load + Header.size ≤ c.load := by
  have hbacklog := backlog_of_read h
  unfold read at h
  split at h
  · next c₁ hreceive =>
    have hunread := (unread_of_receive hreceive).1
    have hattempts := attempts_of_receive hreceive
    unfold take at h
    split at h
    · simp at h
    · next inbound hnext =>
      cases h
      have hload : ({ c₁ with inbound } : Connection).load =
          c₁.unread + ({ c₁ with inbound } : Connection).backlog + c₁.attempts := rfl
      rw [hload, load]
      omega
    · split at h <;> simp at h
  · simp at h

/-- A read that yields no packet makes progress if it leaves something to do besides writing. -/
theorem load_of_read_none {c c' : Connection} (h : c.read = (.ok none, c')) :
    c'.load ≤ c.load ∧ c'.hasPendingWrites = c.hasPendingWrites ∧
      (c'.isReady = true → c'.hasPendingWrites = true ∨ c'.load < c.load) := by
  unfold read at h
  split at h
  · next c₁ hreceive =>
    unfold take at h
    split at h
    · simp at h
    · simp at h
    · next inbound hnext =>
      obtain ⟨hbytes, hnone⟩ := Reassembly.hasPacket_of_next? hnext
      have hsize : inbound.size = c₁.inbound.size := by
        rw [← Reassembly.length_bytes, hbytes, Reassembly.length_bytes]
      split at h
      · simp at h
      · next hend =>
        cases h
        have hload : ({ c₁ with inbound } : Connection).load = c₁.load := by
          simp only [load, unread, backlog, hsize, attempts, hasPendingWrites]
        have hpending : ({ c₁ with inbound } : Connection).hasPendingWrites = c.hasPendingWrites := by
          simp only [hasPendingWrites, (writing_of_receive hreceive).1]
        have hle := load_of_receive hreceive
        rw [hload]
        refine ⟨hle, hpending, fun hready => ?_⟩
        obtain ⟨-, hlt | hsaw | hunread⟩ := unread_of_receive hreceive
        · have hbacklog := backlog_of_receive hreceive
          have hattempts := attempts_of_receive hreceive
          simp only [load]
          omega
        · exact absurd hsaw hend
        · simp only [isReady, hend, hnone, hunread, hasPendingWrites] at hready ⊢
          exact .inl (by simpa using hready)
  · simp at h

end Connection

end Gearman
