import Gearman.Link.Connection
import Gearman.Proofs.Packet.Frames

/-!
What one read of a connection does, as long as the server does not reset it.
-/

namespace Gearman

theorem Reassembly.maxPayload_of_next? {r r' : Reassembly} {p? : Option Packet}
    (h : r.next? = .ok (p?, r')) : r'.maxPayload = r.maxPayload := by
  unfold next? at h
  dsimp only at h
  repeat' split at h
  all_goals
    cases h
    try simp [drop]

/-- What stands at the front of a buffer decides what is taken from it. -/
theorem Reassembly.next?_cases (r : Reassembly) :
    (∃ e, Header.fault? r.maxPayload r.bytes = some e ∧ r.next? = .error e) ∨
    (∃ p r', Header.fault? r.maxPayload r.bytes = none ∧
      Packet.frame? r.maxPayload r.bytes = some p ∧ r'.bytes = r.bytes.drop p.encodedLength ∧
      r'.maxPayload = r.maxPayload ∧ r.next? = .ok (some p, r')) ∨
    ∃ r', Header.fault? r.maxPayload r.bytes = none ∧ Packet.frame? r.maxPayload r.bytes = none ∧
      r'.bytes = r.bytes ∧ r'.maxPayload = r.maxPayload ∧ r.next? = .ok (none, r') := by
  have hfirst := r.next?_eq
  rw [Packet.first?_eq] at hfirst
  cases hfault : Header.fault? r.maxPayload r.bytes with
  | some e =>
    cases hnext : r.next? with
    | ok x => simp [hnext, hfault, Except.map] at hfirst
    | error e' =>
      have heq : e' = e := by simpa [hnext, hfault, Except.map] using hfirst
      exact .inl ⟨e, rfl, by rw [heq]⟩
  | none =>
    cases hframe : Packet.frame? r.maxPayload r.bytes with
    | some p =>
      cases hnext : r.next? with
      | error e => simp [hnext, hfault, hframe, Except.map] at hfirst
      | ok x =>
        obtain ⟨p?, r'⟩ := x
        obtain ⟨rfl, hbytes⟩ : p? = some p ∧ r'.bytes = r.bytes.drop p.encodedLength := by
          simpa [hnext, hfault, hframe, Except.map] using hfirst
        exact .inr (.inl ⟨p, r', rfl, rfl, hbytes, maxPayload_of_next? hnext, rfl⟩)
    | none =>
      cases hnext : r.next? with
      | error e => simp [hnext, hfault, hframe, Except.map] at hfirst
      | ok x =>
        obtain ⟨p?, r'⟩ := x
        obtain ⟨rfl, hbytes⟩ : p? = none ∧ r'.bytes = r.bytes := by
          simpa [hnext, hfault, hframe, Except.map] using hfirst
        exact .inr (.inr ⟨r', rfl, rfl, hbytes, maxPayload_of_next? hnext, rfl⟩)

theorem Reassembly.fault?_of_next? {r : Reassembly} {e : Error} (h : r.next? = .error e) :
    Header.fault? r.maxPayload r.bytes = some e := by
  rcases r.next?_cases with ⟨e', hfault, hnext⟩ | ⟨p, r', -, -, -, -, hnext⟩ |
    ⟨r', -, -, -, -, hnext⟩
  · obtain rfl : e' = e := by simpa [hnext] using h
    exact hfault
  · simp [hnext] at h
  · simp [hnext] at h

theorem Reassembly.frame?_of_next? {r r' : Reassembly} {p : Packet}
    (h : r.next? = .ok (some p, r')) : Packet.frame? r.maxPayload r.bytes = some p ∧
      r'.bytes = r.bytes.drop p.encodedLength ∧ r'.maxPayload = r.maxPayload := by
  rcases r.next?_cases with ⟨e, -, hnext⟩ | ⟨q, r'', -, hframe, hbytes, hlimit, hnext⟩ |
    ⟨r'', -, -, -, -, hnext⟩
  · simp [hnext] at h
  · obtain ⟨rfl, rfl⟩ : q = p ∧ r'' = r' := by simpa [hnext] using h
    exact ⟨hframe, hbytes, hlimit⟩
  · simp [hnext] at h

theorem Reassembly.eq_of_next?_none {r r' : Reassembly} (h : r.next? = .ok (none, r')) :
    Header.fault? r.maxPayload r.bytes = none ∧ Packet.frame? r.maxPayload r.bytes = none ∧
      r'.bytes = r.bytes ∧ r'.maxPayload = r.maxPayload := by
  rcases r.next?_cases with ⟨e, -, hnext⟩ | ⟨p, r'', -, -, -, -, hnext⟩ |
    ⟨r'', hfault, hframe, hbytes, hlimit, hnext⟩
  · simp [hnext] at h
  · simp [hnext] at h
  · obtain rfl : r'' = r' := by simpa [hnext] using h
    exact ⟨hfault, hframe, hbytes, hlimit⟩

namespace Connection

variable {c c' : Connection}

/-- The bytes that have arrived and are in no packet that was taken, oldest first. -/
def pending (c : Connection) : Bytes := c.inbound.bytes ++ c.stream.arriving

/-- The bytes that a read finds in the buffer once it has asked the stream for more. -/
def buffered (c : Connection) : Bytes := c.receive.2.inbound.bytes

/-- A connection that was not reset. -/
structure Steady (c : Connection) : Prop where
  fate : c.stream.fate = .flowing ∨ c.stream.fate = .ended
  sawEnd : c.sawEnd = true → c.stream.fate = .ended ∧ c.stream.arriving = []

/-- Reading has changed what was read of `c`, and nothing else. -/
structure Kept (c c' : Connection) : Prop where
  peer : c'.peer = c.peer
  maxPayload : c'.maxPayload = c.maxPayload
  outbound : c'.outbound = c.outbound
  fate : c'.stream.fate = c.stream.fate
  sent : c'.sent = c.sent
  uptakes : c'.stream.uptakes = c.stream.uptakes

theorem Kept.refl (c : Connection) : Kept c c := ⟨rfl, rfl, rfl, rfl, rfl, rfl⟩

theorem Kept.trans {c'' : Connection} (h : Kept c c') (h' : Kept c' c'') : Kept c c'' :=
  ⟨h'.peer.trans h.peer, h'.maxPayload.trans h.maxPayload, h'.outbound.trans h.outbound,
    h'.fate.trans h.fate, h'.sent.trans h.sent, h'.uptakes.trans h.uptakes⟩

/-- The end of a stream is not seen before the stream has ended. -/
theorem sawEnd_eq_false (hend : c.sawEnd = true → c.stream.fate = .ended ∧ c.stream.arriving = [])
    (hfate : c.stream.fate ≠ .ended) : c.sawEnd = false := by
  cases hsaw : c.sawEnd with
  | false => rfl
  | true => exact absurd (hend hsaw).1 hfate

theorem arriving_eq_nil (h : c.Steady) (hunread : c.unread = 0) : c.stream.arriving = [] := by
  unfold unread at hunread
  split at hunread
  · next hend => exact (h.sawEnd hend).2
  · simp only [Stream.unread] at hunread
    exact List.length_eq_zero_iff.1 (by omega)

/-- Asking a steady stream for more loses nothing, and gets on as long as there is something left. -/
theorem receive_steady (h : c.Steady) : ∃ c₁, c.receive = (.ok (), c₁) ∧ c₁.Steady ∧ Kept c c₁ ∧
    c₁.pending = c.pending ∧ (c₁.unread < c.unread ∨ c₁.unread = 0) := by
  have hreceive : ∃ c₁, c.receive = (.ok (), c₁) ∧ c₁.Steady ∧ Kept c c₁ ∧
      c₁.pending = c.pending := by
    unfold receive
    cases hend : c.sawEnd with
    | true => exact ⟨c, rfl, h, .refl c, rfl⟩
    | false =>
      simp only [Bool.false_eq_true, if_false]
      have hfate : ∀ noticed, c.stream.fate ≠ .reset noticed := by
        intro noticed hreset
        rcases h.fate with heq | heq <;> simp [hreset] at heq
      cases hread : c.stream.read c.readChunk with
      | mk reading stream =>
        unfold Stream.read at hread
        split at hread
        · next hreset => exact absurd hreset (hfate _)
        · next hreset => exact absurd hreset (hfate _)
        · split at hread
          · next hempty =>
            have hnil : c.stream.arriving = [] := by simpa using hempty
            split at hread
            · next hended =>
              cases hread
              exact ⟨_, rfl, ⟨h.fate, fun _ => ⟨hended, hnil⟩⟩, ⟨rfl, rfl, rfl, rfl, rfl, rfl⟩, rfl⟩
            · cases hread
              exact ⟨_, rfl, ⟨h.fate, by simp⟩, ⟨rfl, rfl, rfl, rfl, rfl, rfl⟩, rfl⟩
          · cases hread
            refine ⟨_, rfl, ⟨h.fate, by simp⟩, ⟨rfl, rfl, rfl, rfl, rfl, rfl⟩, ?_⟩
            simp [pending]
  obtain ⟨c₁, hc₁, hsteady, hkept, hpending⟩ := hreceive
  refine ⟨c₁, hc₁, hsteady, hkept, hpending, ?_⟩
  obtain ⟨-, hless | hsaw | hnone⟩ := unread_of_receive hc₁
  · exact .inl hless
  · exact .inr (by simp [unread, hsaw])
  · refine .inr ?_
    unfold unread
    split
    · rfl
    · exact hnone

theorem buffered_prefix (h : c.Steady) : c.buffered <+: c.pending := by
  obtain ⟨c₁, hreceive, -, -, hpending, -⟩ := receive_steady h
  rw [buffered, hreceive, ← hpending]
  exact List.prefix_append _ _

theorem buffered_of_unread (h : c.Steady) (hunread : c.unread = 0) : c.buffered = c.pending := by
  obtain ⟨c₁, hreceive, hsteady, -, hpending, hleft⟩ := receive_steady h
  have hnone : c₁.unread = 0 := by omega
  rw [buffered, hreceive, ← hpending, pending, arriving_eq_nil hsteady hnone, List.append_nil]

/-- What stands at the front of the buffer decides what is taken from it. -/
theorem take_cases (c : Connection) :
    (∃ e, Header.fault? c.maxPayload c.inbound.bytes = some e ∧ c.take = (.error e, c)) ∨
    (∃ p inbound, Header.fault? c.maxPayload c.inbound.bytes = none ∧
      Packet.frame? c.maxPayload c.inbound.bytes = some p ∧
      inbound.bytes = c.inbound.bytes.drop p.encodedLength ∧ inbound.maxPayload = c.maxPayload ∧
      c.take = (.ok (some p), { c with inbound })) ∨
    ∃ inbound, Header.fault? c.maxPayload c.inbound.bytes = none ∧
      Packet.frame? c.maxPayload c.inbound.bytes = none ∧
      inbound.bytes = c.inbound.bytes ∧ inbound.maxPayload = c.maxPayload ∧
      c.take =
        (if c.sawEnd then .error (.severed c.peer.text) else .ok none, { c with inbound }) := by
  unfold take
  rcases c.inbound.next?_cases with ⟨e, hfault, hnext⟩ |
    ⟨p, inbound, hfault, hframe, hbytes, hlimit, hnext⟩ |
    ⟨inbound, hfault, hframe, hbytes, hlimit, hnext⟩
  · exact .inl ⟨e, hfault, by rw [hnext]⟩
  · exact .inr (.inl ⟨p, inbound, hfault, hframe, hbytes, hlimit, by rw [hnext]⟩)
  · refine .inr (.inr ⟨inbound, hfault, hframe, hbytes, hlimit, ?_⟩)
    rw [hnext]
    dsimp only
    split <;> rfl

/-- What a read of a steady connection says, and what it leaves to the next one. -/
inductive Reading (c c' : Connection) : Except Error (Option Packet) → Prop
  | packet {p : Packet} (hfault : Header.fault? c.maxPayload c.buffered = none)
    (hframe : Packet.frame? c.maxPayload c.pending = some p)
    (hpending : c'.pending = c.pending.drop p.encodedLength) : Reading c c' (.ok (some p))
  | nothing (hfault : Header.fault? c.maxPayload c.buffered = none)
    (hframe : Packet.frame? c.maxPayload c.buffered = none)
    (hbytes : c'.inbound.bytes = c.buffered) (hpending : c'.pending = c.pending)
    (hopen : c'.sawEnd = false) : Reading c c' (.ok none)
  | fault {e : Error} (hfault : Header.fault? c.maxPayload c.buffered = some e)
    (hbytes : c'.inbound.bytes = c.buffered) (hpending : c'.pending = c.pending) :
    Reading c c' (.error e)
  | severed (hfault : Header.fault? c.maxPayload c.buffered = none)
    (hframe : Packet.frame? c.maxPayload c.buffered = none)
    (hbytes : c'.inbound.bytes = c.buffered) (hpending : c'.pending = c.pending)
    (hend : c'.sawEnd = true) : Reading c c' (.error (.severed c.peer.text))

theorem read_steady (h : c.Steady) : ∃ r c', c.read = (r, c') ∧ c'.Steady ∧ Kept c c' ∧
    (c'.unread < c.unread ∨ c'.unread = 0) ∧ Reading c c' r := by
  obtain ⟨c₁, hreceive, hsteady, hkept, hpending, hunread⟩ := receive_steady h
  have hbuffered : c.buffered = c₁.inbound.bytes := by rw [buffered, hreceive]
  have hread : c.read = c₁.take := by rw [read, hreceive]
  have hkeeps : ∀ inbound, inbound.maxPayload = c₁.maxPayload →
      ({ c₁ with inbound } : Connection).Steady ∧ Kept c { c₁ with inbound } :=
    fun inbound hlimit => ⟨⟨hsteady.fate, hsteady.sawEnd⟩,
      hkept.trans ⟨rfl, hlimit, rfl, rfl, rfl, rfl⟩⟩
  rw [hread]
  rcases take_cases c₁ with ⟨e, hfault, htake⟩ |
    ⟨p, inbound, hfault, hframe, hbytes, hlimit, htake⟩ |
    ⟨inbound, hfault, hframe, hbytes, hlimit, htake⟩
  · rw [hkept.maxPayload] at hfault
    refine ⟨.error e, c₁, htake, hsteady, hkept, hunread, .fault ?_ hbuffered.symm hpending⟩
    rw [hbuffered, hfault]
  · rw [hkept.maxPayload] at hfault hframe
    obtain ⟨hsteady', hkept'⟩ := hkeeps inbound hlimit
    refine ⟨.ok (some p), _, htake, hsteady', hkept', hunread, .packet ?_ ?_ ?_⟩
    · rw [hbuffered, hfault]
    · rw [← hpending]
      exact Packet.frame?_append hframe _
    · rw [← hpending]
      simp only [pending, hbytes]
      exact (List.drop_append_of_le_length (Packet.encodedLength_of_frame? hframe).2).symm
  · rw [hkept.maxPayload] at hfault hframe
    obtain ⟨hsteady', hkept'⟩ := hkeeps inbound hlimit
    have hpending' : ({ c₁ with inbound } : Connection).pending = c.pending := by
      rw [← hpending]
      simp only [pending, hbytes]
    rw [← hbuffered] at hfault hframe hbytes
    cases hend : c₁.sawEnd with
    | true =>
      have hsevered : c₁.take = (.error (.severed c.peer.text), { c₁ with inbound }) := by
        rw [htake, hend, hkept.peer]
        rfl
      exact ⟨_, _, hsevered, hsteady', hkept', hunread, .severed hfault hframe hbytes hpending' hend⟩
    | false =>
      have hnothing : c₁.take = (.ok none, { c₁ with inbound }) := by
        rw [htake, hend]
        rfl
      exact ⟨_, _, hnothing, hsteady', hkept', hunread, .nothing hfault hframe hbytes hpending' hend⟩

/-- The packets in what a read says. -/
def brought : Except Error (Option Packet) → List Packet
  | .ok p? => p?.toList
  | .error _ => []

/-- A read takes from the bytes what it brings. -/
theorem Reading.unframe {r : Except Error (Option Packet)} (h : Reading c c' r) :
    Packet.unframe c.maxPayload c.pending =
      (brought r ++ (Packet.unframe c.maxPayload c'.pending).1,
        (Packet.unframe c.maxPayload c'.pending).2) ∧
      c'.pending.length ≤ c.pending.length := by
  cases h with
  | packet hfault hframe hpending =>
    rw [Packet.unframe_of_some hframe, hpending]
    exact ⟨rfl, by simp⟩
  | nothing hfault hframe hbytes hpending =>
    rw [hpending]
    exact ⟨rfl, Nat.le_refl _⟩
  | fault hfault hbytes hpending =>
    rw [hpending]
    exact ⟨rfl, Nat.le_refl _⟩
  | severed hfault hframe hbytes hpending =>
    rw [hpending]
    exact ⟨rfl, Nat.le_refl _⟩

end Connection

end Gearman
