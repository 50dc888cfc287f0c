import Gearman.Proofs.Packet.Decoding
import Gearman.Proofs.Session.Clear

/-!
Loops that read from a session and handle each packet before they read on.

Nothing counts the turns of such a loop. It comes to an end because each packet takes its bytes off those
that have arrived: what was handled, one packet behind the other, is the front of these bytes.
-/

namespace Gearman

/-- A read takes its bytes off the front of those that are there. -/
theorem Stream.append_of_read {s s' : Stream} {limit : Nat} {bs : Bytes}
    (h : s.read limit = (.bytes bs, s')) : bs ++ s'.arriving = s.arriving := by
  unfold read at h
  split at h
  · simp at h
  · simp at h
  · split at h
    · split at h <;> simp at h
    · simp only [Prod.mk.injEq, Reading.bytes.injEq] at h
      obtain ⟨rfl, rfl⟩ := h
      exact List.take_append_drop ..

namespace Connection

variable {c c' : Connection} {p : Packet}

/-- Asking the stream for more loses nothing, whatever became of the stream. -/
theorem pending_of_receive (h : c.receive = (.ok (), c')) : c'.pending = c.pending := by
  unfold receive at h
  split at h
  · cases h
    rfl
  · split at h
    · next bs stream hread =>
      cases h
      simp only [pending, Reassembly.bytes_feed, List.append_assoc, Stream.append_of_read hread]
    · next stream hread =>
      cases h
      simp [pending, Stream.arriving_of_read hread]
    · next stream hread =>
      cases h
      simp [pending, Stream.arriving_of_read hread]
    · simp at h

theorem pending_of_transmit {n : Nat} (h : c.transmit = (.ok n, c')) : c'.pending = c.pending := by
  obtain ⟨hinbound, -, -, harriving⟩ := stream_of_transmit h
  rw [pending, hinbound, harriving, pending]

/-- Neither a packet nor the end of the stream nor a bad header is left to be reported. -/
structure Drained (c : Connection) : Prop where
  sawEnd : c.sawEnd = false
  fault : Header.fault? c.maxPayload c.inbound.bytes = none
  frame : Packet.frame? c.maxPayload c.inbound.bytes = none

theorem pending_of_read_some (h : c.read = (.ok (some p), c')) :
    c.pending = p.encode ++ c'.pending := by
  unfold read at h
  split at h
  · next c₁ hreceive =>
    rw [← pending_of_receive hreceive]
    rcases take_cases c₁ with ⟨e, -, htake⟩ | ⟨q, inbound, -, hframe, hbytes, -, htake⟩ |
      ⟨inbound, -, -, -, -, htake⟩
    · simp [htake] at h
    · obtain ⟨hp, rfl⟩ := Prod.mk.inj (htake.symm.trans h)
      cases hp
      obtain ⟨rest, hrest⟩ := Packet.encode_prefix_of_decode (Packet.frame?_eq_some.1 hframe).1
      simp only [pending, hbytes, ← hrest, ← Packet.length_encode, List.drop_left,
        List.append_assoc]
    · rw [htake] at h
      split at h <;> cases h
  · simp at h

theorem drained_of_read (h : c.read = (.ok none, c')) : c'.pending = c.pending ∧ c'.Drained := by
  unfold read at h
  split at h
  · next c₁ hreceive =>
    rw [← pending_of_receive hreceive]
    rcases take_cases c₁ with ⟨e, -, htake⟩ | ⟨q, inbound, -, -, -, -, htake⟩ |
      ⟨inbound, hfault, hframe, hbytes, hlimit, htake⟩
    · simp [htake] at h
    · simp [htake] at h
    · rw [htake] at h
      split at h
      · cases h
      · next hopen =>
        cases h
        have hsame : ({ c₁ with inbound } : Connection).maxPayload = c₁.maxPayload := hlimit
        refine ⟨by simp only [pending, hbytes], ⟨by simpa using hopen, ?_, ?_⟩⟩
        · rw [hsame, hbytes, hfault]
        · rw [hsame, hbytes, hframe]
  · simp at h

end Connection

namespace Session

variable {s s' : Session} {event : Event}

/-- The bytes that have arrived and are in no packet that was reported, oldest first. -/
def pending (s : Session) : Bytes := s.connection?.elim [] (·.pending)

/-- A live session that has nothing to report until more arrives. -/
def Drained (s : Session) : Prop := ∃ c, s.connection? = some c ∧ c.Drained

theorem length_pending (s : Session) : s.pending.length = s.backlog := by
  unfold pending backlog
  cases s.connection? with
  | none => rfl
  | some c =>
    simp only [Option.elim_some, Connection.pending, Connection.backlog, List.length_append,
      Reassembly.length_bytes, Nat.add_comm]

theorem pending_of_phase {c : Connection} {awaiting : List Awaited}
    (h : s.phase = .live c awaiting) : s.pending = c.pending := by
  simp only [pending, connection?, h, Option.elim_some]

/-- A packet that is reported is at the front of what has arrived. -/
theorem pending_of_step_some (h : s.step = (.ok (some event), s')) :
    s.pending = event.packet.encode ++ s'.pending := by
  obtain ⟨c, c₁, c', awaiting, n, hphase, htransmit, ⟨-, hevent, -⟩ | ⟨p, hread, hevent, rfl⟩⟩ :=
    step_ok h
  · cases hevent
  · cases hevent
    rw [packet_classify, pending_of_phase hphase, ← Connection.pending_of_transmit htransmit,
      Connection.pending_of_read_some hread]
    rfl

/-- A step that reports nothing leaves nothing to report. -/
theorem drained_of_step (h : s.step = (.ok none, s')) : s'.pending = s.pending ∧ s'.Drained := by
  obtain ⟨c, c₁, c', awaiting, n, hphase, htransmit, ⟨hread, -, rfl⟩ | ⟨p, -, hevent, -⟩⟩ := step_ok h
  · obtain ⟨hpending, hdrained⟩ := Connection.drained_of_read hread
    refine ⟨?_, c', rfl, hdrained⟩
    rw [pending_of_phase hphase, ← Connection.pending_of_transmit htransmit, ← hpending]
    rfl
  · cases hevent

/-- What one step of a session has reported. -/
abbrev Report : Type := Except Error (Option Event)

/-- The packets that were reported, oldest first. -/
def packets (reports : List Report) : List Packet :=
  reports.filterMap fun
    | .ok (some event) => some event.packet
    | _ => none

/-- Someone with a session to read from. Handling a packet leaves what has arrived on the session, or it
costs the session; a step that fails costs the session. -/
structure Reader (σ : Type) where
  session? : σ → Option Session
  /-- Puts the session back after a step. -/
  put : σ → Session → σ
  handle : σ → Event → Except Error Unit × σ
  /-- What becomes of a step that fails. -/
  fail : σ → Error → Except Error Unit × σ
  session?_put : ∀ {x s} s', session? x = some s → session? (put x s') = some s'
  keeps : ∀ {x event y}, handle x event = (.ok (), y) → ∀ s ∈ session? y, s.isLive = true →
    ∃ s₀ ∈ session? x, s.pending = s₀.pending
  loses : ∀ x e, ∀ s ∈ session? (fail x e).2, s.isLive = false

namespace Reader

variable {σ : Type} {r : Reader σ} {x y z : σ} {answer : Except Error Unit} {reports : List Report}

/-- One step of the session, if it is live. -/
def next? (r : Reader σ) (x : σ) : Option (Report × σ) :=
  match r.session? x with
  | none => none
  | some s => if s.isLive then some (s.step.1, r.put x s.step.2) else none

/-- A loop from its first step to its end. Each packet is handled before the next step. -/
inductive Run (r : Reader σ) : σ → List Report → Except Error Unit → σ → Prop
  | ended {x : σ} (h : r.next? x = none) : Run r x [] (.ok ()) x
  | idle {x y : σ} (h : r.next? x = some (.ok none, y)) : Run r x [.ok none] (.ok ()) y
  | failed {x y : σ} {e : Error} (h : r.next? x = some (.error e, y)) :
    Run r x [.error e] (r.fail y e).1 (r.fail y e).2
  | refused {x y z : σ} {event : Event} {e : Error} (h : r.next? x = some (.ok (some event), y))
    (hhandle : r.handle y event = (.error e, z)) : Run r x [.ok (some event)] (.error e) z
  | handled {x y z z' : σ} {event : Event} {reports : List Report} {answer : Except Error Unit}
    (h : r.next? x = some (.ok (some event), y)) (hhandle : r.handle y event = (.ok (), z))
    (hrest : Run r z reports answer z') : Run r x (.ok (some event) :: reports) answer z'

/-- The bytes that have arrived on the session and are in no packet that was reported. -/
def pending (r : Reader σ) (x : σ) : Bytes := (r.session? x).elim [] (·.pending)

theorem next?_eq_some {report : Report} (h : r.next? x = some (report, y)) :
    ∃ s, r.session? x = some s ∧ s.isLive = true ∧ s.step.1 = report ∧ y = r.put x s.step.2 := by
  unfold next? at h
  split at h
  · cases h
  · next s hs =>
    split at h
    · next hlive =>
      cases h
      exact ⟨s, hs, hlive, rfl, rfl⟩
    · cases h

theorem next?_eq_none : r.next? x = none ↔ ∀ s ∈ r.session? x, s.isLive = false := by
  unfold next?
  cases r.session? x with
  | none => simp
  | some s => cases hlive : s.isLive <;> simp [hlive]

theorem pending_of_next?_packet {event : Event} (h : r.next? x = some (.ok (some event), y)) :
    r.pending x = event.packet.encode ++ r.pending y := by
  obtain ⟨s, hs, -, hreport, rfl⟩ := next?_eq_some h
  simp only [pending, hs, r.session?_put _ hs, Option.elim_some]
  exact pending_of_step_some (Prod.ext hreport rfl)

theorem drained_of_next? (h : r.next? x = some (.ok none, y)) :
    ∀ s ∈ r.session? y, s.pending = r.pending x ∧ s.Drained := by
  obtain ⟨s, hs, -, hreport, rfl⟩ := next?_eq_some h
  intro s' hs'
  obtain rfl : s.step.2 = s' := Option.some.inj ((r.session?_put _ hs).symm.trans hs')
  simp only [pending, hs, Option.elim_some]
  exact drained_of_step (Prod.ext hreport rfl)

/-- Whoever has handled a packet and can still read has lost nothing by it. -/
theorem pending_of_handle {event : Event} (h : r.handle y event = (.ok (), z))
    (hnext : r.next? z ≠ none) : r.pending z = r.pending y := by
  cases hread : r.next? z with
  | none => exact absurd hread hnext
  | some next =>
    obtain ⟨s, hs, hlive, -, -⟩ := next?_eq_some hread
    obtain ⟨s₀, hs₀, hpending⟩ := r.keeps h s hs hlive
    rw [pending, pending, hs, hs₀]
    exact hpending

namespace Run

theorem of_next?_none (h : r.Run x reports answer y) (hnext : r.next? x = none) :
    reports = [] ∧ y = x := by
  cases h with
  | ended => exact ⟨rfl, rfl⟩
  | idle h | failed h | refused h _ | handled h _ _ => simp [hnext] at h

/-- A loop does the same whenever it starts from the same state. -/
theorem unique {reports' : List Report} {answer' : Except Error Unit} {y' : σ}
    (h : r.Run x reports answer y) (h' : r.Run x reports' answer' y') :
    reports' = reports ∧ answer' = answer ∧ y' = y := by
  induction h generalizing reports' answer' y' with
  | ended h | idle h | failed h => cases h' <;> simp_all
  | refused h hhandle => cases h' <;> simp_all
  | handled h hhandle _ ih =>
    cases h' with
    | ended h' | idle h' | failed h' => simp [h] at h'
    | refused h' hhandle' => simp_all
    | handled h' hhandle' hrest' =>
      obtain ⟨rfl, rfl⟩ : _ = _ ∧ _ = _ := by simpa [h] using h'
      obtain rfl := (Prod.mk.inj (hhandle.symm.trans hhandle')).2
      obtain ⟨rfl, rfl, rfl⟩ := ih hrest'
      exact ⟨rfl, rfl, rfl⟩

/-- All steps but the last one have reported packets. -/
theorem length_le_packets (h : r.Run x reports answer y) :
    reports.length ≤ (packets reports).length + 1 := by
  induction h with
  | ended h | idle h | failed h | refused h _ => simp
  | handled h _ _ ih => exact Nat.succ_le_succ ih

/-- The packets that were handled are, one behind the other, the front of what had arrived. If the session
is still there to be read when the loop ends well, the last step has found nothing, and nothing that has
arrived is lost. -/
theorem accounts (h : r.Run x reports answer y) : ∃ rest,
    r.pending x = Packet.encodeAll (packets reports) ++ rest ∧
      (answer = .ok () → ∀ s ∈ r.session? y, s.isLive = true →
        reports.getLast? = some (.ok none) ∧ s.pending = rest ∧ s.Drained) := by
  induction h with
  | @ended x h =>
    refine ⟨r.pending x, rfl, fun _ s hs hlive => ?_⟩
    rw [next?_eq_none.1 h s hs] at hlive
    contradiction
  | @idle x y h =>
    refine ⟨r.pending x, rfl, fun _ s hs _ => ?_⟩
    exact ⟨rfl, drained_of_next? h s hs⟩
  | @failed x y e h =>
    refine ⟨r.pending x, rfl, fun _ s hs hlive => ?_⟩
    rw [r.loses y e s hs] at hlive
    contradiction
  | @refused x y z event e h hhandle =>
    exact ⟨r.pending y, by simpa [packets] using pending_of_next?_packet h, by simp⟩
  | @handled x y z z' event reports answer h hhandle hrest ih =>
    have htaken := pending_of_next?_packet h
    by_cases hnext : r.next? z = none
    · -- The packet has cost the session, so it was the last one.
      obtain ⟨rfl, rfl⟩ := hrest.of_next?_none hnext
      refine ⟨r.pending y, by simpa [packets] using htaken, fun _ s hs hlive => ?_⟩
      rw [next?_eq_none.1 hnext s hs] at hlive
      contradiction
    · obtain ⟨rest, hpending, hlive⟩ := ih
      rw [pending_of_handle hhandle hnext] at hpending
      refine ⟨rest, ?_, fun hok s hs hs' => ?_⟩
      · rw [htaken, hpending]
        simp [packets]
      · obtain ⟨hlast, hsame⟩ := hlive hok s hs hs'
        exact ⟨by rw [List.getLast?_cons, hlast, Option.getD_some], hsame⟩

/-- Each packet takes a header at least. -/
theorem length_le (h : r.Run x reports answer y) :
    reports.length ≤ (r.pending x).length / Header.size + 1 := by
  obtain ⟨rest, hpending, -⟩ := h.accounts
  have hpackets : (packets reports).length * Header.size ≤ (r.pending x).length := by
    rw [hpending, List.length_append]
    exact Nat.le_add_right_of_le (Packet.length_encodeAll_ge _)
  have hle := (Nat.le_div_iff_mul_le (by decide)).2 hpackets
  exact Nat.le_trans h.length_le_packets (Nat.succ_le_succ hle)

end Run

end Reader

end Session

end Gearman
