import Gearman.Proofs.Session.Clear

/-!
Sessions that have only to read: what their server has sent and was not handled is a byte string, and a
packet at its front is brought by one of the next steps.
-/

namespace Gearman

namespace Connection

variable {limit : UInt32} {bs : Bytes} {c : Connection} {p : Packet}

/-- A connection that is open in both directions, to a server that takes what is written at once, and with
`bs` as all that has arrived and was not taken. -/
structure Holds (limit : UInt32) (bs : Bytes) (c : Connection) : Prop where
  prompt : c.Prompt
  maxPayload : c.maxPayload = limit
  sawEnd : c.sawEnd = false
  fate : c.stream.fate = .flowing
  pending : c.pending = bs

theorem Holds.steady (h : c.Holds limit bs) : c.Steady :=
  ⟨.inl h.fate, by simp [h.sawEnd]⟩

/-- What a server sends is held behind the rest. -/
theorem Holds.deliver (h : c.Holds limit bs) (server : Address) (more : Bytes) :
    (c.deliver ⟨server, more, .none⟩).1.Holds limit (bs ++ more) := by
  simp only [Connection.deliver, Stream.deliver?, h.fate]
  refine ⟨h.prompt.of_eq rfl rfl, h.maxPayload, h.sawEnd, rfl, ?_⟩
  rw [← h.pending]
  simp [Connection.pending]

/-- A read takes the packet at the front, or finds that none is in the buffer yet. Then there is more to be
read, or no packet is there. -/
theorem Holds.read_cases (h : c.Holds limit bs) (hfault : Header.fault? limit bs = none) :
    (∃ c', c.read = (.ok none, c') ∧ c'.Holds limit bs ∧
      (c'.isReady = false → Packet.frame? limit bs = none)) ∨
    ∃ p c', c.read = (.ok (some p), c') ∧ Packet.frame? limit bs = some p ∧
      c'.Holds limit (bs.drop p.encodedLength) := by
  obtain ⟨r, c', hread, hsteady, hkept, -, hreading⟩ := read_steady h.steady
  have hflowing : c'.stream.fate = .flowing := hkept.fate.trans h.fate
  have hopen : c'.sawEnd = false := sawEnd_eq_false hsteady.sawEnd (by simp [hflowing])
  have hholds : ∀ {bs'}, c'.pending = bs' → c'.Holds limit bs' := fun hpending =>
    ⟨hkept.prompt h.prompt, hkept.maxPayload.trans h.maxPayload, hopen, hflowing, hpending⟩
  rw [hread]
  cases hreading with
  | packet _ hframe hpending =>
    rw [h.maxPayload, h.pending] at hframe
    rw [h.pending] at hpending
    exact .inr ⟨_, c', rfl, hframe, hholds hpending⟩
  | nothing _ hnone hbytes hpending _ =>
    rw [h.pending] at hpending
    refine .inl ⟨c', rfl, hholds hpending, fun hunready => ?_⟩
    have harriving : c'.stream.arriving = [] := by
      refine Decidable.byContradiction fun hsome => ?_
      have hunread : 0 < c'.stream.unread := by
        have := List.length_pos_iff.2 hsome
        rw [Stream.unread]
        omega
      simp [isReady, hunread] at hunready
    rw [Connection.pending, harriving, List.append_nil, hbytes] at hpending
    rw [← hpending, ← h.maxPayload]
    exact hnone
  | fault hbad _ _ =>
    obtain ⟨tail, htail⟩ := buffered_prefix h.steady
    have := Header.fault?_append hbad tail
    rw [htail, h.maxPayload, h.pending, hfault] at this
    contradiction
  | severed _ _ _ _ hend =>
    rw [hopen] at hend
    contradiction

/-- A read brings the packet at the front, unless it is not in the buffer yet. Then there is more to be
read. -/
theorem Holds.read (h : c.Holds limit bs) (hframe : Packet.frame? limit bs = some p) :
    ∃ c', c.read = (.ok (some p), c') ∨
      c.read = (.ok none, c') ∧ c'.Holds limit bs ∧ c'.isReady = true := by
  have hfault : Header.fault? limit bs = none := by
    cases hbad : Header.fault? limit bs with
    | none => rfl
    | some e =>
      rw [Packet.frame?_of_fault? hbad] at hframe
      contradiction
  obtain ⟨c', hread, hholds, hunready⟩ | ⟨q, c', hread, hframe', -⟩ := h.read_cases hfault
  · refine ⟨c', .inr ⟨hread, hholds, ?_⟩⟩
    cases hready : c'.isReady with
    | true => rfl
    | false =>
      rw [hunready hready] at hframe
      contradiction
  · obtain rfl : p = q := Option.some.inj (hframe.symm.trans hframe')
    exact ⟨c', .inl hread⟩

end Connection

namespace Session

variable {limit : UInt32} {bs : Bytes} {s : Session} {p : Packet}

/-- A live session that holds a connection of that kind. -/
def Holds (limit : UInt32) (bs : Bytes) (s : Session) : Prop :=
  ∃ c awaiting, s.phase = .live c awaiting ∧ c.Holds limit bs

theorem Holds.isLive (h : s.Holds limit bs) : s.isLive = true := by
  obtain ⟨c, awaiting, hphase, -⟩ := h
  simp [Session.isLive, hphase]

theorem Holds.deliver (h : s.Holds limit bs) (server : Address) (more : Bytes) :
    (s.deliver ⟨server, more, .none⟩).1.Holds limit (bs ++ more) := by
  obtain ⟨c, awaiting, hphase, hc⟩ := h
  simp only [deliver_eq_connection, hphase]
  exact ⟨_, awaiting, rfl, hc.deliver server more⟩

/-- A step takes the packet at the front, or finds that none is in the buffer yet. -/
theorem Holds.step_cases (h : s.Holds limit bs) (hfault : Header.fault? limit bs = none) :
    (∃ s', s.step = (.ok none, s') ∧ s'.Holds limit bs ∧ s'.awaiting = s.awaiting ∧
      (s'.isReady = false → Packet.frame? limit bs = none)) ∨
    ∃ p s', s.step = (.ok (some (classify s.awaiting p).1), s') ∧ Packet.frame? limit bs = some p ∧
      s'.Holds limit (bs.drop p.encodedLength) ∧ s'.awaiting = (classify s.awaiting p).2 := by
  obtain ⟨c, awaiting, hphase, hc⟩ := h
  have htransmit := hc.prompt.transmit
  have hawaiting : s.awaiting = awaiting := by simp [Session.awaiting, hphase]
  rw [hawaiting]
  obtain ⟨c', hread, hc', hunready⟩ | ⟨p, c', hread, hframe, hc'⟩ := hc.read_cases hfault
  · refine .inl ⟨{ s with phase := .live c' awaiting }, by simp [step_eq, *],
      ⟨c', awaiting, rfl, hc'⟩, rfl, fun hready => hunready ?_⟩
    simpa [Session.isReady, connection?] using hready
  · exact .inr ⟨p, { s with phase := .live c' (classify awaiting p).2 },
      by simp only [step_eq, hphase, htransmit, hread], hframe, ⟨c', _, rfl, hc'⟩, rfl⟩

/-- A packet that answers no kind of request is reported as unsolicited, whatever is awaited. -/
theorem Holds.step (h : s.Holds limit bs) (hframe : Packet.frame? limit bs = some p)
    (hp : ∀ a, isReply p a = false) :
    ∃ s', s.step = (.ok (some (.unsolicited p)), s') ∨
      s.step = (.ok none, s') ∧ s'.Holds limit bs ∧ s'.isReady = true := by
  obtain ⟨c, awaiting, hphase, hc⟩ := h
  have htransmit := hc.prompt.transmit
  have hclassify : classify awaiting p = (.unsolicited p, awaiting) := by
    cases awaiting with
    | nil => rfl
    | cons a rest => simp [classify, hp a]
  obtain ⟨c', hread | ⟨hread, hc', hready⟩⟩ := hc.read hframe
  · exact ⟨{ s with phase := .live c' awaiting }, .inl (by simp [step_eq, *])⟩
  · refine ⟨{ s with phase := .live c' awaiting }, .inr ⟨by simp [step_eq, *], ?_, ?_⟩⟩
    · exact ⟨c', awaiting, rfl, hc'⟩
    · simpa [Session.isReady, connection?] using hready

end Session

end Gearman
