import Gearman.Proofs.Packet.Fields
import Gearman.Proofs.Worker.Soundness

/-!
What a worker reports about a job reaches its server packet by packet, less what is refused for its
size, for as long as the session stays open.
-/

namespace Gearman

/-- The packets that are not refused for their size. -/
def Packet.within (limit : UInt32) (ps : List Packet) : List Packet :=
  ps.filter fun p => p.payload.length ≤ limit.toNat

/-- The packet that says something about a job. -/
def Packet.note (kind : Kind) (handle body : Bytes) : Packet :=
  .request kind (Bytes.joinFields [handle, body])

namespace Packet

variable {limit : UInt32} {p : Packet}

@[simp]
theorem within_nil : within limit [] = [] := rfl

@[simp]
theorem within_append (ps qs : List Packet) :
    within limit (ps ++ qs) = within limit ps ++ within limit qs := List.filter_append ..

theorem within_cons (p : Packet) (ps : List Packet) :
    within limit (p :: ps) = within limit [p] ++ within limit ps := within_append [p] ps

theorem within_of_le (h : p.payload.length ≤ limit.toNat) : within limit [p] = [p] := by
  simp [within, h]

theorem within_of_lt (h : limit.toNat < p.payload.length) : within limit [p] = [] := by
  simp [within, h]

theorem within_eq_self {ps : List Packet} (h : ∀ p ∈ ps, p.payload.length ≤ limit.toNat) :
    within limit ps = ps := by
  simpa [within] using h

theorem length_note (kind : Kind) (handle body : Bytes) :
    (note kind handle body).payload.length = handle.length + 1 + body.length := by
  simp only [note, request, Bytes.joinFields_cons_cons, Bytes.joinFields_singleton,
    List.length_append, List.length_cons]
  omega

/-- Notes about a job make packets as long as their length can be told. -/
theorem ofFields_note {kind : Kind} {handle body : Bytes} (hnul : 0 ∉ handle) :
    ofFields .request kind [handle, body] = .ok p ↔
      handle.length + 1 + body.length < UInt32.size ∧ p = note kind handle body := by
  rw [ofFields_eq_ok, ← length_note kind]
  simp [note, request, hnul]

theorem size_le_of_ofFields_note {kind : Kind} {handle body : Bytes} {e : Error} (hnul : 0 ∉ handle)
    (h : ofFields .request kind [handle, body] = .error e) :
    UInt32.size ≤ handle.length + 1 + body.length := by
  refine Nat.le_of_not_lt fun hlength => ?_
  rw [(ofFields_note hnul).2 ⟨hlength, rfl⟩] at h
  contradiction

end Packet

namespace Worker

open Packet (within note)

variable {limit : UInt32} {w w' w'' : Worker} {server : Address}

/-- Between `w` and `w'` a server was sent these packets, if its session is still there, and no other
server was sent anything. -/
structure Sends (server : Address) (ps : List Packet) (w w' : Worker) : Prop where
  self : ∀ m', w'.members.get? server = some m' →
    ∃ m, w.members.get? server = some m ∧ m'.session.sent = m.session.sent ++ ps
  other : ∀ other m', server ≠ other → w'.members.get? other = some m' →
    ∃ m, w.members.get? other = some m ∧ m'.session.sent = m.session.sent

theorem Sends.refl (server : Address) (w : Worker) : Sends server [] w w where
  self m' hm' := ⟨m', hm', by simp⟩
  other other m' _ hm' := ⟨m', hm', rfl⟩

theorem Sends.trans {ps qs : List Packet} (h : Sends server ps w w')
    (h' : Sends server qs w' w'') : Sends server (ps ++ qs) w w'' where
  self m'' hm'' := by
    obtain ⟨m', hm', hsent'⟩ := h'.self m'' hm''
    obtain ⟨m, hm, hsent⟩ := h.self m' hm'
    exact ⟨m, hm, by rw [hsent', hsent, List.append_assoc]⟩
  other other m'' hne hm'' := by
    obtain ⟨m', hm', hsent'⟩ := h'.other other m'' hne hm''
    obtain ⟨m, hm, hsent⟩ := h.other other m' hne hm'
    exact ⟨m, hm, hsent'.trans hsent⟩

/-- It is enough to know what was sent while the session is still there. -/
theorem Sends.of_hasServer {ps qs : List Packet} (h : Sends server ps w w')
    (heq : w'.hasServer server = true → ps = qs) : Sends server qs w w' where
  self m' hm' := heq (hasServer_iff.2 ⟨m', hm'⟩) ▸ h.self m' hm'
  other := h.other

/-- A server whose session was put in place of the one before, with this sent in between. -/
theorem Replaced.sends {m m' : Member} {ps : List Packet} (h : Replaced server m' w w')
    (hm : w.members.get? server = some m) (hsent : m'.session.sent = m.session.sent ++ ps) :
    Sends server ps w w' where
  self n hn := by
    rw [h.get?_self] at hn
    cases hn
    exact ⟨m, hm, hsent⟩
  other other n hne hn := by
    rw [h.get?_of_ne hne] at hn
    exact ⟨n, hn, rfl⟩

/-- There is nothing to say of a server that was given up. -/
theorem Lost.sends (h : Lost server w w') (ps : List Packet) : Sends server ps w w' where
  self n hn := by simp [h.members] at hn
  other other n hne hn := by
    rw [h.members, if_neg hne] at hn
    exact ⟨n, hn, rfl⟩

theorem Sound.sends_sendTo (hw : Sound limit w) (server : Address) (p : Packet) :
    Sends server (within limit [p]) w (w.sendTo server p).2 := by
  cases hm : w.members.get? server with
  | none =>
    rw [sendTo_none hm]
    exact ⟨fun m' hm' => by simp [hm] at hm', fun other m' _ hm' => ⟨m', hm', rfl⟩⟩
  | some m =>
    rcases hw.sendTo_cases hm p with ⟨hfits, session, -, hsent, -, hreplaced⟩ |
      ⟨hlong, -, hreplaced⟩ | ⟨-, hlost⟩
    · rw [Packet.within_of_le hfits]
      exact hreplaced.sends hm hsent
    · rw [Packet.within_of_lt hlong]
      exact hreplaced.sends hm (List.append_nil _).symm
    · exact hlost.sends _

theorem Sound.sends_deliver (hw : Sound limit w) (server : Address) (a : Arrival) :
    Sends server [] w (w.deliver a).1 := by
  have hsame : ∀ other m', (w.deliver a).1.members.get? other = some m' →
      ∃ m, w.members.get? other = some m ∧ m'.session.sent = m.session.sent := by
    intro other m' hm'
    unfold Worker.deliver at hm'
    split at hm'
    · exact ⟨m', hm', rfl⟩
    · next m hm =>
      rw [(replaced_insert ..).members] at hm'
      split at hm'
      · next heq =>
        cases hm'
        exact ⟨m, heq ▸ hm, ((hw.member _ m hm).session.deliver a).2⟩
      · exact ⟨m', hm', rfl⟩
  exact ⟨fun m' hm' => by simpa using hsame server m' hm', fun other m' _ hm' => hsame other m' hm'⟩

/-- A note is sent if it is within the limit. -/
theorem Sound.sends_report (hw : Sound limit w) (server : Address) (kind : Kind) {handle : Bytes}
    (hnul : 0 ∉ handle) (body : Bytes) :
    Sends server (within limit [note kind handle body]) w (w.report server kind handle body).2 := by
  unfold report
  split
  · next p hp =>
    obtain ⟨-, rfl⟩ := (Packet.ofFields_note hnul).1 hp
    exact hw.sends_sendTo server _
  · next e he =>
    have hlong := Packet.size_le_of_ofFields_note hnul he
    have hlimit := limit.toNat_lt_size
    rw [Packet.within_of_lt (by rw [Packet.length_note]; omega)]
    exact .refl server w

/-- A report is refused if it makes a packet beyond the limit. -/
theorem Sound.report_fst (hw : Sound limit w) (server : Address) (kind : Kind) {handle : Bytes}
    (hnul : 0 ∉ handle) (body : Bytes)
    (hstays : (w.report server kind handle body).2.hasServer server = true) :
    (w.report server kind handle body).1 = false ↔
      limit.toNat < handle.length + 1 + body.length ∧
        handle.length + 1 + body.length < UInt32.size := by
  rw [← Packet.length_note kind]
  unfold report at hstays ⊢
  split at hstays
  · next p hp =>
    obtain ⟨hsize, rfl⟩ := (Packet.ofFields_note hnul).1 hp
    rw [← Packet.length_note kind] at hsize
    cases hm : w.members.get? server with
    | none =>
      rw [sendTo_none hm, hasServer_iff, hm] at hstays
      obtain ⟨m, ⟨⟩⟩ := hstays
    | some m =>
      rcases hw.sendTo_cases hm (note kind handle body) with ⟨hfits, -, -, -, hsent, -⟩ |
        ⟨hlong, hrefused, -⟩ | ⟨-, hlost⟩
      · simp [hsent, Nat.not_lt_of_le hfits]
      · simp [hrefused, hlong, hsize]
      · rw [hasServer_iff, hlost.members, if_pos rfl] at hstays
        obtain ⟨m', ⟨⟩⟩ := hstays
  · next e he =>
    have hlong := Packet.size_le_of_ofFields_note hnul he
    rw [← Packet.length_note kind] at hlong
    simp [Nat.not_lt_of_le hlong]

end Worker

end Gearman
