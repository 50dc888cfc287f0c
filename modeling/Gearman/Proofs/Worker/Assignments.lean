import Gearman.Proofs.Worker.Reports

/-!
What becomes of an assignment when it is handled: one job in the queue, or one report that it failed.
-/

namespace Gearman

namespace Packet

/-- A packet that assigns a job. Only the data may hold zero bytes. -/
structure Assigns (p : Packet) (handle function : Bytes) (unique : Option Bytes) (data : Bytes) :
    Prop where
  kind : p.kind = unique.elim .jobAssign fun _ => .jobAssignUniq
  nul : ∀ field ∈ handle :: function :: unique.toList, 0 ∉ field
  payload : p.payload = Bytes.joinFields (handle :: function :: unique.toList ++ [data])

variable {p : Packet} {handle function data : Bytes} {unique : Option Bytes}

/-- A worker reads an assignment as it was meant. -/
theorem Assigns.assignment (h : p.Assigns handle function unique data) :
    Worker.assignment p = .ok (handle, function, unique, data) := by
  obtain ⟨magic, kind, payload⟩ := p
  obtain ⟨hkind, hnul, hpayload⟩ := h
  cases unique with
  | none =>
    obtain rfl : kind = .jobAssign := hkind
    obtain rfl : payload = Bytes.joinFields [handle, function, data] := hpayload
    have hfields : Packet.fields ⟨magic, .jobAssign, Bytes.joinFields [handle, function, data]⟩ 3 =
        .ok [handle, function, data] := fields_joinFields handle [function, data]
          (by simp [maxFields]) hnul
    simp [Worker.assignment, hfields]
  | some unique =>
    obtain rfl : kind = .jobAssignUniq := hkind
    obtain rfl : payload = Bytes.joinFields [handle, function, unique, data] := hpayload
    have hfields : Packet.fields
        ⟨magic, .jobAssignUniq, Bytes.joinFields [handle, function, unique, data]⟩ 4 =
        .ok [handle, function, unique, data] := fields_joinFields handle [function, unique, data]
          (by simp [maxFields]) hnul
    simp [Worker.assignment, hfields]

/-- What a worker reads as an assignment is one. -/
theorem assigns_of_assignment (hkind : p.kind = .jobAssign ∨ p.kind = .jobAssignUniq)
    (h : Worker.assignment p = .ok (handle, function, unique, data)) :
    p.Assigns handle function unique data := by
  unfold Worker.assignment at h
  split at h
  · next huniq =>
    split at h
    · next hfields =>
      cases h
      obtain ⟨-, hnul, hpayload⟩ := (fields_eq_ok (le_of_fields hfields)).1 hfields
      exact ⟨huniq, hnul, hpayload⟩
    · contradiction
    · contradiction
  · next hplain =>
    split at h
    · next hfields =>
      cases h
      obtain ⟨-, hnul, hpayload⟩ := (fields_eq_ok (le_of_fields hfields)).1 hfields
      exact ⟨hkind.resolve_right hplain, hnul, hpayload⟩
    · contradiction
    · contradiction

/-- An assignment is one of the packets that are read as such. -/
theorem Assigns.kind_cases (h : p.Assigns handle function unique data) :
    p.kind = .jobAssign ∨ p.kind = .jobAssignUniq := by
  cases unique with
  | none => exact .inl h.kind
  | some unique => exact .inr h.kind

end Packet

namespace Worker

variable {limit : UInt32} {w w₁ w' : Worker} {server : Address} {m : Member} {p : Packet}
  {handle function data : Bytes} {unique : Option Bytes}

/-- The job that an assignment makes. -/
def jobOf (server : Address) (handle function : Bytes) (unique : Option Bytes) (data : Bytes)
    (definition : Definition) : AssignedJob where
  server
  handle
  function := Text.Utf8.lossy function
  uniqueId := unique.map Text.Utf8.lossy
  data
  definition

theorem assign_of_offered (h : p.Assigns handle function unique data) {d : Definition}
    (hd : w.registry.get? (Text.Utf8.lossy function) = some d) :
    w.assign server p =
      { w with queue := w.queue ++ [jobOf server handle function unique data d] } := by
  simp [assign, h.assignment, hd, jobOf]

theorem assign_of_unknown (h : p.Assigns handle function unique data)
    (hd : w.registry.get? (Text.Utf8.lossy function) = none) :
    w.assign server p = (w.sendTo server (.request .workFail handle)).2 := by
  simp [assign, h.assignment, hd]

theorem registry_retire (w : Worker) (s : Session) : (w.retire s).registry = w.registry := by
  unfold retire
  split <;> rfl

theorem registry_dropSession (w : Worker) (server : Address) :
    (w.dropSession server).registry = w.registry := by
  unfold dropSession
  cases w.members.get? server <;> simp [registry_retire]

/-- Reading changes nothing of what is on offer. -/
theorem registry_of_receive {event : Option Session.Event} (h : w.receive server = (event, w₁)) :
    w₁.registry = w.registry := by
  unfold receive at h
  split at h
  · cases h
    rfl
  · split at h
    · split at h
      · cases h
        rfl
      · cases h
        exact registry_dropSession _ _
    · cases h
      rfl

/-- A job joined the queue behind the others; nobody was told anything and nobody was lost. -/
structure Queued (j : AssignedJob) (w w' : Worker) : Prop where
  queue : w'.queue = w.queue ++ [j]
  quiet : Sends j.server [] w w'
  servers : ∀ server, w'.hasServer server = w.hasServer server

theorem Replaced.hasServer_eq {m' : Member} (h : Replaced server m' w w')
    (hm : w.members.get? server = some m) (other : Address) :
    w'.hasServer other = w.hasServer other := by
  simp only [Worker.hasServer, Table.contains, h.members]
  split
  · next heq =>
    rw [← heq, hm]
    rfl
  · rfl

/-- What handling an assignment starts from, whether it answers a request or not: its session was
read from and nothing else has changed. -/
theorem Sound.assigning (hw : Sound limit w) {event : Session.Event}
    (h : w.receive server = (some event, w₁))
    (hkind : event.packet.kind = .jobAssign ∨ event.packet.kind = .jobAssignUniq) :
    ∃ m session m₂ w₂, w.members.get? server = some m ∧ session.sent = m.session.sent ∧
      w₁.members.get? server = some { m with session } ∧ m₂.session = session ∧ Sound limit w₂ ∧
      Replaced server m₂ w w₂ ∧ w₂.registry = w.registry ∧
      event.packet.payload.length ≤ limit.toNat ∧
      (w₁.dispatch server event).2 = w₂.assign server event.packet := by
  have hregistry := registry_of_receive h
  cases event with
  | reply id p =>
    obtain ⟨m, session, task, hm, hsent, hm₁, hw₂, hreplaced, hlength, -, -, -, -, hdispatch⟩ :=
      hw.reply h
    refine ⟨m, session, _, _, hm, hsent, hm₁, rfl, hw₂, hreplaced, hregistry, hlength, ?_⟩
    simp only [Session.Event.packet] at hkind ⊢
    rw [hdispatch]
    rcases hkind with hkind | hkind <;> simp only [answer, hkind]
  | unsolicited p =>
    obtain ⟨hlength, m, session, hm, hclear, hsent, hreplaced⟩ := hw.receive_unsolicited h
    refine ⟨m, session, _, w₁, hm, hsent, hreplaced.get?_self, rfl,
      hw.replaced hreplaced ⟨hclear, (hw.member server m hm).task⟩, hreplaced, hregistry, hlength, ?_⟩
    simp only [Session.Event.packet] at hkind ⊢
    rcases hkind with hkind | hkind <;> simp only [dispatch, handleUnsolicited, hkind]

/-- An assignment of a function on offer makes one job. -/
theorem Sound.queued (hw : Sound limit w) {event : Session.Event}
    (h : w.receive server = (some event, w₁))
    (hassigns : event.packet.Assigns handle function unique data) {d : Definition}
    (hd : w.registry.get? (Text.Utf8.lossy function) = some d) :
    Queued (jobOf server handle function unique data d) w (w₁.dispatch server event).2 := by
  obtain ⟨m, session, m₂, w₂, hm, hsent, -, rfl, -, hreplaced, hregistry, -, hdispatch⟩ :=
    hw.assigning h hassigns.kind_cases
  rw [← hregistry] at hd
  rw [hdispatch, assign_of_offered hassigns hd]
  have hsends : Sends server [] w w₂ := hreplaced.sends hm (by rw [hsent, List.append_nil])
  exact ⟨by rw [hreplaced.queue], ⟨hsends.self, hsends.other⟩, hreplaced.hasServer_eq hm⟩

end Worker

end Gearman
