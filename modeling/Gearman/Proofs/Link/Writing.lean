import Gearman.Proofs.Link.Inbound
import Gearman.Proofs.Packet.Encoding

/-!
What becomes of what is written. The server's end takes it in pieces of any size, or not at all for a while;
what it has taken and what waits are at any time the packets that were accepted, in order.
-/

namespace Gearman

namespace Outbound

theorem length_encodeAll (ps : List Packet) : (ps.flatMap Packet.encode).length = total ps := by
  induction ps with
  | nil => rfl
  | cons p ps ih => rw [List.flatMap_cons, List.length_append, Packet.length_encode, ih, total_cons]

theorem bytes_strike (ps : List Packet) (n : Nat) :
    (strike ps n).2.bytes = (ps.flatMap Packet.encode).drop n := by
  fun_induction strike ps n with
  | case1 => simp [bytes, empty]
  | case2 => rfl
  | case3 p ps n hlong whole left hrest ih =>
    have hwhole : n = p.encode.length + (n - p.encodedLength) := by
      rw [Packet.length_encode]
      omega
    rw [hrest] at ih
    rw [ih, List.flatMap_cons, hwhole, List.drop_length_add_append, ← hwhole]

theorem cut_le (o : Outbound) : o.cut ≤ total o.packets := by
  have hcut := o.cut_lt
  cases hpackets : o.packets with
  | nil =>
    simp only [hpackets, List.head?_nil, Option.elim_none] at hcut
    omega
  | cons p ps =>
    simp only [hpackets, List.head?_cons, Option.elim_some] at hcut
    rw [total_cons]
    omega

/-- What is taken comes off the front of the bytes that wait. -/
theorem bytes_advance (o : Outbound) (n : Nat) : (o.advance n).2.bytes = o.bytes.drop n := by
  rw [advance, bytes_strike, bytes, List.drop_drop]

end Outbound

namespace Stream

/-- Whether the next attempt to write does not fail. -/
def isWritable (s : Stream) : Bool :=
  s.isOpen && !s.writeShut &&
    match s.uptakes with
    | .bytes 0 :: _ | .failed _ :: _ => false
    | _ => true

theorem write_of_not_isOpen {s : Stream} (h : s.isOpen = false) (n : Nat) :
    ∃ fault s', s.write n = (.failed fault, s') := by
  unfold write
  cases hfate : s.fate with
  | flowing | ended => simp [isOpen, hfate] at h
  | reset noticed => cases noticed <;> exact ⟨_, _, rfl⟩

/-- What an attempt to write meets with on a stream whose writing half is open. -/
theorem write_of_isOpen {s : Stream} (hopen : s.isOpen = true) (hshut : s.writeShut = false) (n : Nat) :
    s.write n =
      ((Uptake.next s.uptakes n).1, { s with uptakes := (Uptake.next s.uptakes n).2 }) := by
  unfold write
  cases hfate : s.fate with
  | flowing | ended => simp [hshut]
  | reset noticed => simp [isOpen, hfate] at hopen

/-- An attempt to write takes something, or finds the other end busy, or fails. -/
theorem write_cases (s : Stream) {n : Nat} (hn : 0 < n) :
    s.isWritable = true ∧
        ((∃ k, 0 < k ∧ ∃ s', s.write n = (.bytes k, s')) ∨ ∃ s', s.write n = (.blocked, s')) ∨
      s.isWritable = false ∧
        ((∃ s', s.write n = (.bytes 0, s')) ∨ ∃ fault s', s.write n = (.failed fault, s')) := by
  cases hopen : s.isOpen with
  | false => exact .inr ⟨by simp [isWritable, hopen], .inr (write_of_not_isOpen hopen n)⟩
  | true =>
    cases hshut : s.writeShut with
    | true =>
      refine .inr ⟨by simp [isWritable, hshut], .inr ⟨.shut, s, ?_⟩⟩
      unfold write
      cases hfate : s.fate with
      | flowing | ended => simp [hshut]
      | reset noticed => simp [isOpen, hfate] at hopen
    | false =>
      rw [write_of_isOpen hopen hshut]
      simp only [isWritable, hopen, hshut]
      match s.uptakes with
      | [] => exact .inl ⟨rfl, .inl ⟨n, hn, _, rfl⟩⟩
      | .bytes 0 :: rest => exact .inr ⟨rfl, .inl ⟨_, by rw [Uptake.next, Nat.zero_min]⟩⟩
      | .bytes (k + 1) :: rest => exact .inl ⟨rfl, .inl ⟨min (k + 1) n, by omega, _, rfl⟩⟩
      | .blocked :: rest => exact .inl ⟨rfl, .inr ⟨_, rfl⟩⟩
      | .failed fault :: rest => exact .inr ⟨rfl, .inr ⟨fault, _, rfl⟩⟩

/-- A server that is not busy takes everything, if the attempt does not fail. -/
theorem write_of_uptakes_nil {s : Stream} (h : s.uptakes = []) (n : Nat) :
    s.write n = (.bytes n, s) ∨ ∃ fault s', s.write n = (.failed fault, s') := by
  unfold write
  repeat' split
  · exact .inr ⟨_, _, rfl⟩
  · exact .inr ⟨_, _, rfl⟩
  · exact .inr ⟨_, _, rfl⟩
  · refine .inl ?_
    simp only [h, Uptake.next]
    rw [← h]

end Stream

/-- Whether a fault is one of a stream that has failed, or whose other end is gone. -/
def Error.isBreak (e : Error) : Bool := e.category = .link || e.category = .severed

namespace Connection

variable {c c' : Connection} {p : Packet}

/-- The bytes that the server's end has taken. -/
def written (c : Connection) : Bytes :=
  c.sent.flatMap Packet.encode ++ (c.outbound.packets.flatMap Packet.encode).take c.outbound.cut

/-- The bytes that were taken and those that wait are the packets that were accepted. -/
theorem written_append_bytes (c : Connection) :
    c.written ++ c.outbound.bytes = c.outgoing.flatMap Packet.encode := by
  rw [written, Outbound.bytes, List.append_assoc, List.take_append_drop, outgoing, List.flatMap_append]

/-- An attempt to write accepts nothing and loses nothing. -/
theorem outgoing_of_transmit {n : Nat} (h : c.transmit = (.ok n, c')) : c'.outgoing = c.outgoing :=
  (transmit_ok h).2.1

theorem written_of_transmit {n : Nat} (h : c.transmit = (.ok n, c')) :
    c'.written = c.written ++ c.outbound.bytes.take n := by
  have hbytes : c'.outbound.bytes = c.outbound.bytes.drop n := by
    unfold transmit at h
    split at h
    · cases h
      rfl
    · split at h
      all_goals cases h
      · exact Outbound.bytes_advance c.outbound n
      · rfl
  have hall := c'.written_append_bytes
  rw [outgoing_of_transmit h, ← written_append_bytes, hbytes] at hall
  have hsplit : c.outbound.bytes.take n ++ c.outbound.bytes.drop n = c.outbound.bytes :=
    List.take_append_drop n c.outbound.bytes
  exact List.append_cancel_right (by rw [hall, List.append_assoc, hsplit])

/-- A packet that is put behind the others is not taken by that. -/
theorem written_push (c : Connection) (p : Packet) :
    ({ c with outbound := c.outbound.push p } : Connection).written = c.written := by
  have hcut : c.outbound.cut ≤ (c.outbound.packets.flatMap Packet.encode).length := by
    rw [Outbound.length_encodeAll]
    exact c.outbound.cut_le
  simp only [written, Outbound.push, List.flatMap_append, List.take_append_of_le_length hcut]

/-- What was taken is never taken back. -/
theorem written_prefix_of_write {p? : Option Packet} {n : Nat} (h : c.write p? = (.ok n, c')) :
    c.written <+: c'.written := by
  cases p? with
  | none => exact ⟨_, (written_of_transmit h).symm⟩
  | some p =>
    have hgrown := written_of_transmit (transmit_of_write h)
    rw [written_push] at hgrown
    exact ⟨_, hgrown.symm⟩

/-- A packet that is written has gone out behind the others, or waits behind them. -/
theorem write_ok {n : Nat} (h : c.write (some p) = (.ok n, c')) :
    c' = { c with stream := c'.stream, sent := c'.sent, outbound := c'.outbound } ∧
      c'.outgoing = c.outgoing ++ [p] ∧ c'.stream.arriving = c.stream.arriving ∧
      c'.stream.fate = c.stream.fate := by
  have htransmit := transmit_of_write h
  obtain ⟨hsame, -, harriving, hfate, -, -⟩ := transmit_ok htransmit
  refine ⟨hsame, ?_, harriving, hfate⟩
  rw [outgoing_of_transmit htransmit]
  simp [outgoing]

/-- A connection that was flushed has sent all that it has accepted. -/
theorem flush_ok (h : c.flush = (.ok (), c')) : c'.sent = c.outgoing ∧ c'.outbound = .empty := by
  fun_induction flush c with
  | case1 c hpending n c₁ htransmit hless ih =>
    rw [← outgoing_of_transmit htransmit]
    exact ih h
  | case2 => cases h
  | case3 c hnone =>
    cases h
    have hempty := Outbound.eq_empty_of_isEmpty (o := c'.outbound) (by simpa [hasPendingWrites] using hnone)
    exact ⟨by simp [outgoing, hempty, Outbound.empty], hempty⟩

/-- Whether the next attempt to write does not fail. -/
def isWritable (c : Connection) : Bool := c.stream.isWritable

/-- An attempt that has taken some bytes. -/
theorem transmit_of_taken {n : Nat} {stream : Stream} (hwaits : c.hasPendingWrites = true)
    (hwrite : c.stream.write c.outbound.size = (.bytes n, stream)) (hn : 0 < n) :
    c.transmit = (.ok n, { c with
      stream
      sent := c.sent ++ (c.outbound.advance n).1
      outbound := (c.outbound.advance n).2 }) := by
  obtain ⟨k, rfl⟩ := Nat.exists_eq_add_one.2 hn
  have hsome : c.outbound.isEmpty = false := by simpa [hasPendingWrites] using hwaits
  simp [transmit, hsome, hwrite]

/-- How an attempt to write comes out. -/
theorem transmit_cases (c : Connection) :
    (∃ n c', c.transmit = (.ok n, c') ∧ (c.hasPendingWrites = true → c.isWritable = true)) ∨
      ∃ e c', c.transmit = (.error e, c') ∧ e.isBreak = true ∧ c'.sent = c.sent ∧
        c.hasPendingWrites = true ∧ c.isWritable = false := by
  unfold transmit
  split
  · next hempty => exact .inl ⟨0, c, rfl, by simp [hasPendingWrites, hempty]⟩
  · next hwaits =>
    have hpending : c.hasPendingWrites = true := by simpa [hasPendingWrites] using hwaits
    obtain ⟨hwritable, htaken⟩ | ⟨hbroken, hfailed⟩ :=
      c.stream.write_cases (Outbound.size_pos (by simpa using hwaits))
    · refine .inl ?_
      obtain ⟨k, hpos, s', hwrite⟩ | ⟨s', hwrite⟩ := htaken
      · obtain ⟨k, rfl⟩ := Nat.exists_eq_add_one.2 hpos
        rw [hwrite]
        exact ⟨_, _, rfl, fun _ => hwritable⟩
      · rw [hwrite]
        exact ⟨_, _, rfl, fun _ => hwritable⟩
    · refine .inr ?_
      obtain ⟨s', hwrite⟩ | ⟨fault, s', hwrite⟩ := hfailed
      · rw [hwrite]
        exact ⟨_, _, rfl, rfl, rfl, hpending, hbroken⟩
      · rw [hwrite]
        exact ⟨_, _, rfl, rfl, rfl, hpending, hbroken⟩

theorem write_of_isWritable (h : c.isWritable = true) (hcheck : c.checkOutbound p = .ok ()) :
    ∃ n c', c.write (some p) = (.ok n, c') := by
  simp only [write, hcheck]
  obtain ⟨n, c', htransmit, -⟩ | ⟨e, c', -, -, -, -, hbroken⟩ :=
    ({ c with outbound := c.outbound.push p } : Connection).transmit_cases
  · exact ⟨n, c', htransmit⟩
  · have hsame : c.isWritable = false := hbroken
    rw [h] at hsame
    contradiction

/-- A fault of the stream sends nothing. -/
theorem sent_of_transmit_error {e : Error} (h : c.transmit = (.error e, c')) : c'.sent = c.sent := by
  obtain ⟨n, c₁, htransmit, -⟩ | ⟨e₁, c₁, htransmit, -, hsent, -, -⟩ := c.transmit_cases
  all_goals
    rw [h] at htransmit
    cases htransmit
  exact hsent

/-- Nothing is left to be written, and the server takes what is written at once. -/
structure Prompt (c : Connection) : Prop where
  outbound : c.outbound = .empty
  uptakes : c.stream.uptakes = []

theorem Prompt.of_eq (h : c.Prompt) (hout : c'.outbound = c.outbound)
    (huptakes : c'.stream.uptakes = c.stream.uptakes) : c'.Prompt :=
  ⟨hout.trans h.outbound, huptakes.trans h.uptakes⟩

theorem Prompt.receive (h : c.Prompt) {r : Except Error Unit} (hreceive : c.receive = (r, c')) :
    c'.Prompt := by
  obtain ⟨hout, -, huptakes⟩ := writing_of_receive hreceive
  exact h.of_eq hout huptakes

theorem Prompt.deliver (h : c.Prompt) (a : Arrival) : (c.deliver a).1.Prompt := by
  unfold Connection.deliver
  split
  · next hdeliver => exact h.of_eq rfl (Stream.uptakes_of_deliver? hdeliver)
  · exact h

theorem Prompt.transmit (h : c.Prompt) : c.transmit = (.ok 0, c) := by
  simp [Connection.transmit, h.outbound]

theorem Prompt.flush (h : c.Prompt) : c.flush = (.ok (), c) := by
  unfold Connection.flush
  simp [hasPendingWrites, h.outbound]

/-- Reading leaves what is to be written as it is. -/
theorem Kept.outgoing (h : Kept c c') : c'.outgoing = c.outgoing := by
  rw [Connection.outgoing, Connection.outgoing, h.sent, h.outbound]

theorem Kept.prompt (h : Kept c c') (hc : c.Prompt) : c'.Prompt := hc.of_eq h.outbound h.uptakes

/-- What goes through to such a server is taken whole. -/
theorem Prompt.write_ok (h : c.Prompt) {n : Nat} (hwrite : c.write (some p) = (.ok n, c')) :
    c' = { c with sent := c.sent ++ [p] } := by
  let waiting := { c with outbound := c.outbound.push p }
  have htransmit : waiting.transmit = (.ok n, c') := transmit_of_write hwrite
  have hwaits : waiting.hasPendingWrites = true := by simp [waiting, hasPendingWrites]
  obtain hall | ⟨fault, s', hfailed⟩ := Stream.write_of_uptakes_nil h.uptakes waiting.outbound.size
  · have hpackets : waiting.outbound.packets = [p] := by simp [waiting, h.outbound, Outbound.empty]
    rw [transmit_of_taken hwaits hall (Outbound.size_pos (c.outbound.isEmpty_push p)),
      Outbound.advance_size, hpackets] at htransmit
    cases htransmit
    simp only [waiting, h.outbound]
  · simp [waiting, Connection.transmit, hfailed] at htransmit

end Connection

end Gearman
