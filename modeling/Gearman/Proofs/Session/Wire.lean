import Gearman.Proofs.Session.Dialogue

/-!
What a server has said, on the wire and in the connection.
-/

namespace Gearman.Dialogue

variable {c c' : Connection} {wire : Bytes} {unheard : List Said}

/-- What a connection has to read does not change by what it writes. -/
theorem Carries.of_writing (h : Carries c wire unheard) (harriving : c'.stream.arriving = c.stream.arriving)
    (hfate : c'.stream.fate = c.stream.fate)
    (hsame : c' = { c with stream := c'.stream, sent := c'.sent, outbound := c'.outbound }) :
    Carries c' wire unheard ∧ c'.maxPayload = c.maxPayload := by
  have hinbound : c'.inbound = c.inbound := by rw [hsame]
  have hsaw : c'.sawEnd = c.sawEnd := by rw [hsame]
  refine ⟨⟨hfate ▸ h.fate, ?_, ?_⟩, ?_⟩
  · rw [hsaw, hfate, harriving]
    exact h.sawEnd
  · rw [Connection.pending, hinbound, harriving, hfate]
    exact h.bytes
  · rw [Connection.maxPayload, hinbound, Connection.maxPayload]

theorem Carries.write (h : Carries c wire unheard) {p : Packet} {n : Nat}
    (hwrite : c.write (some p) = (.ok n, c')) :
    Carries c' wire unheard ∧ c'.outgoing = c.outgoing ++ [p] ∧ c'.maxPayload = c.maxPayload := by
  obtain ⟨hsame, houtgoing, harriving, hfate⟩ := Connection.write_ok hwrite
  obtain ⟨hcarries, hlimit⟩ := h.of_writing harriving hfate hsame
  exact ⟨hcarries, houtgoing, hlimit⟩

theorem Carries.transmit (h : Carries c wire unheard) {n : Nat} (htransmit : c.transmit = (.ok n, c')) :
    Carries c' wire unheard ∧ c'.outgoing = c.outgoing ∧ c'.maxPayload = c.maxPayload := by
  obtain ⟨hsame, -, harriving, hfate, -, -⟩ := Connection.transmit_ok htransmit
  obtain ⟨hcarries, hlimit⟩ := h.of_writing harriving hfate hsame
  exact ⟨hcarries, Connection.outgoing_of_transmit htransmit, hlimit⟩

/-- What arrives comes off the wire. -/
theorem Carries.deliver (h : Carries c wire unheard) (peer : Address) (n : Nat) (ending : Ending) :
    Carries (c.deliver ⟨peer, wire.take n, ending⟩).1 (wire.drop n) unheard := by
  obtain ⟨lost, hbytes, hwire⟩ := h.bytes
  unfold Connection.deliver Stream.deliver?
  cases hfate : c.stream.fate with
  | flowing =>
    have hopen : c.sawEnd = false := Connection.sawEnd_eq_false h.sawEnd (by simp [hfate])
    obtain rfl := hwire hfate
    have hpending : c.pending ++ lost =
        c.inbound.bytes ++ (c.stream.arriving ++ lost.take n) ++ lost.drop n := by
      simp [Connection.pending]
    rw [hpending] at hbytes
    cases ending with
    | none =>
      exact ⟨by simp, by simp [hopen], lost.drop n, hbytes, fun _ => rfl⟩
    | close =>
      exact ⟨by simp, by simp [hopen], lost.drop n, hbytes, fun _ => rfl⟩
    | reset =>
      refine ⟨by simp, by simp [hopen], c.stream.arriving ++ lost, ?_, by simp⟩
      rw [← hbytes]
      simp [Connection.pending]
  | ended =>
    exact ⟨h.fate, h.sawEnd, lost, hbytes, by simp [hfate]⟩
  | reset noticed =>
    exact ⟨h.fate, h.sawEnd, lost, hbytes, by simp [hfate]⟩

/-- A connection that can be read was not reset. -/
theorem Carries.steady (h : Carries c wire unheard) {p? : Option Packet}
    (hread : c.read = (.ok p?, c')) : c.Steady := by
  refine ⟨?_, h.sawEnd⟩
  cases hfate : c.stream.fate with
  | flowing => exact .inl rfl
  | ended => exact .inr rfl
  | reset noticed =>
    have hopen : c.sawEnd = false := Connection.sawEnd_eq_false h.sawEnd (by simp [hfate])
    cases noticed with
    | true => exact absurd hfate h.fate
    | false =>
      have hfailed : (c.read).1 = .error (.link .reset) := by
        simp [Connection.read, Connection.receive, hopen, Stream.read, hfate]
      rw [hread] at hfailed
      contradiction

/-- The bytes of what was said start with its first packet. -/
theorem packet_of_frame? {bs lost : Bytes} {limit : UInt32} {p : Packet}
    (hvalid : ∀ x ∈ unheard, x.Valid) (hframe : Packet.frame? limit bs = some p)
    (hbytes : bs ++ lost = unheard.flatMap (·.packet.encode)) :
    ∃ x rest, unheard = x :: rest ∧ p = x.packet ∧
      bs.drop p.encodedLength ++ lost = rest.flatMap (·.packet.encode) := by
  obtain ⟨hsize, hlength⟩ := Packet.encodedLength_of_frame? hframe
  cases unheard with
  | nil =>
    obtain ⟨hnil, -⟩ := List.append_eq_nil_iff.1 hbytes
    rw [hnil, List.length_nil] at hlength
    simp only [Header.size] at hsize
    omega
  | cons x rest =>
    have hdecode := Packet.decode_append (Packet.frame?_eq_some.1 hframe).1 lost
    have hencoded := Packet.decode_encode (hvalid x List.mem_cons_self).length_lt
      (rest.flatMap (·.packet.encode))
    rw [List.flatMap_cons] at hbytes
    rw [hbytes, hencoded, Except.ok.injEq] at hdecode
    refine ⟨x, rest, rfl, hdecode.symm, ?_⟩
    rw [← List.drop_append_of_le_length hlength, hbytes, ← hdecode, ← Packet.length_encode,
      List.drop_left]

/-- A read brings the first thing that was said and not heard, or nothing. -/
theorem Carries.read (h : Carries c wire unheard) (hvalid : ∀ x ∈ unheard, x.Valid)
    {p? : Option Packet} (hread : c.read = (.ok p?, c')) : Connection.Kept c c' ∧
      (p? = none ∧ Carries c' wire unheard ∨
        ∃ x rest, unheard = x :: rest ∧ p? = some x.packet ∧ Carries c' wire rest) := by
  obtain ⟨r, c'', hread', hsteady, hkept, -, hreading⟩ :=
    Connection.read_steady (h.steady hread)
  rw [hread] at hread'
  cases hread'
  obtain ⟨lost, hbytes, hwire⟩ := h.bytes
  have hcarries : ∀ rest : List Said,
      c'.pending ++ lost = rest.flatMap (·.packet.encode) → Carries c' wire rest := by
    intro rest hrest
    refine ⟨?_, hsteady.sawEnd, lost, hrest, ?_⟩
    · rw [hkept.fate]
      exact h.fate
    · rw [hkept.fate]
      exact hwire
  refine ⟨hkept, ?_⟩
  cases hreading with
  | packet hfault hframe hpending =>
    obtain ⟨x, rest, hunheard, rfl, hrest⟩ := packet_of_frame? hvalid hframe hbytes
    exact .inr ⟨x, rest, hunheard, rfl, hcarries rest (by rw [hpending, hrest])⟩
  | nothing hfault hframe hbuffered hpending =>
    exact .inl ⟨rfl, hcarries unheard (by rw [hpending, hbytes])⟩

/-- The first packet on the wire is complete there. -/
theorem hasPacket_of_bytes {r : Reassembly} {x : Said} {rest : List Said} (hx : x.Valid)
    (hbytes : r.bytes = (x :: rest).flatMap (·.packet.encode)) : r.hasPacket = true := by
  have hdecode := Packet.decode_encode hx.length_lt (rest.flatMap (·.packet.encode))
  rw [List.flatMap_cons] at hbytes
  rw [← hbytes] at hdecode
  obtain ⟨header, hheader, hlength, -⟩ := Packet.decode_eq_ok.1 hdecode
  exact Reassembly.hasPacket_iff.2 ⟨header.length, Header.peekLength?_of_decode hheader, hlength⟩

end Gearman.Dialogue
