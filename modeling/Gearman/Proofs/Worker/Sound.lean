import Gearman.Proofs.Session.Clear
import Gearman.Proofs.Worker.Evolution

/-!
The invariant of workers: each session awaits the answer to the outstanding request of its member and
to nothing else.
-/

namespace Gearman

namespace Task

/-- A request of a worker, as its session awaits the answer. -/
def awaited (t : Task Receipt) : Awaited := ⟨t.id, t.request.kind⟩

/-- A request for a job, or to be woken up, that was sent and has no answer. -/
structure Open (t : Task Receipt) : Prop where
  state : t.state = .submitted
  responder : t.responder.isSome = true
  kind : t.request.kind = .grabJob ∨ t.request.kind = .preSleep

/-- Any response ends such a request well. -/
theorem Open.deliver {t : Task Receipt} (h : t.Open) {p : Packet} (hp : p.isResponse = true) :
    (t.deliver p).1 = .ok .finished := by
  obtain ⟨receipt, hreceipt⟩ := Option.isSome_iff_exists.1 h.responder
  simp [Task.deliver, h.state, hp, respond, hreceipt, Responder.respond]

end Task

namespace Session

/-- What a session has sent that a server answers, oldest first. -/
def requests (s : Session) : List Packet := s.sent.filter (·.kind.isAnswered)

theorem requests_of_sent {s s' : Session} (h : s'.sent = s.sent) : s'.requests = s.requests := by
  rw [requests, h, requests]

theorem requests_of_asked {s s' : Session} {p : Packet} (h : s'.sent = s.sent ++ [p])
    (hp : p.kind.isAnswered = true) : s'.requests = s.requests ++ [p] := by
  simp [requests, h, hp]

theorem requests_of_told {s s' : Session} {p : Packet} (h : s'.sent = s.sent ++ [p])
    (hp : p.kind.isAnswered = false) : s'.requests = s.requests := by
  simp [requests, h, hp]

end Session

structure Member.Sound (limit : UInt32) (m : Member) : Prop where
  session : m.session.Clear limit (m.outstanding.map Task.awaited).toList
  task : ∀ t, m.outstanding = some t → t.Open

/-- A job whose handle can stand in a report. -/
structure AssignedJob.Sound (limit : UInt32) (j : AssignedJob) : Prop where
  nul : 0 ∉ j.handle
  length : j.handle.length ≤ limit.toNat

namespace Worker

variable {limit : UInt32} {w w' w'' : Worker} {server : Address} {m m' : Member}

/-- What holds of a worker after every step. -/
structure Sound (limit : UInt32) (w : Worker) : Prop where
  settings : w.settings.connection.maxPayloadSize = limit
  member : ∀ server m, w.members.get? server = some m → m.Sound limit
  job : ∀ j ∈ w.queue, j.Sound limit ∧ w.hasServer j.server = true

theorem sound_withSettings (settings : WorkerSettings) :
    Sound settings.connection.maxPayloadSize (withSettings settings) where
  settings := rfl
  member := by simp [withSettings]
  job := by simp [withSettings]

/-- The requests that the session of a server has sent. -/
def requestsTo (w : Worker) (server : Address) : List Packet :=
  (w.members.get? server).elim [] (·.session.requests)

/-- The answers that the session of a server awaits. -/
def awaitingOf (w : Worker) (server : Address) : List Awaited :=
  (w.members.get? server).elim [] (·.session.awaiting)

theorem requestsTo_of_get? (h : w.members.get? server = some m) :
    w.requestsTo server = m.session.requests := by
  simp [requestsTo, h]

theorem requestsTo_of_none (h : w.members.get? server = none) : w.requestsTo server = [] := by
  simp [requestsTo, h]

theorem awaitingOf_of_get? (h : w.members.get? server = some m) :
    w.awaitingOf server = m.session.awaiting := by
  simp [awaitingOf, h]

theorem hasServer_iff : w.hasServer server = true ↔ ∃ m, w.members.get? server = some m :=
  Table.contains_iff

/-- Between `w` and `w'` no request was sent, also not to a server that was given up. -/
structure Quiet (w w' : Worker) : Prop where
  member : ∀ server m', w'.members.get? server = some m' →
    ∃ m, w.members.get? server = some m ∧ m'.session.requests = m.session.requests
  retired : ∃ given, w'.retired = w.retired ++ given ∧
    ∀ s ∈ given, s.requests = [] ∨ ∃ server, s.requests = w.requestsTo server

theorem Quiet.of_members (hmembers : w'.members = w.members) (hretired : w'.retired = w.retired) :
    Quiet w w' where
  member server m' h := ⟨m', by rw [← hmembers, h], rfl⟩
  retired := ⟨[], by simp [hretired], by simp⟩

theorem Quiet.refl (w : Worker) : Quiet w w := .of_members rfl rfl

theorem Quiet.trans (h : Quiet w w') (h' : Quiet w' w'') : Quiet w w'' where
  member server m'' hm'' := by
    obtain ⟨m', hm', hrequests'⟩ := h'.member server m'' hm''
    obtain ⟨m, hm, hrequests⟩ := h.member server m' hm'
    exact ⟨m, hm, hrequests'.trans hrequests⟩
  retired := by
    obtain ⟨given, hretired, hgiven⟩ := h.retired
    obtain ⟨given', hretired', hgiven'⟩ := h'.retired
    refine ⟨given ++ given', by rw [hretired', hretired, List.append_assoc], fun s hs => ?_⟩
    rcases List.mem_append.1 hs with hs | hs
    · exact hgiven s hs
    · rcases hgiven' s hs with hnone | ⟨server, hserver⟩
      · exact .inl hnone
      · cases hm' : w'.members.get? server with
        | none => exact .inl (by rw [hserver, requestsTo_of_none hm'])
        | some m' =>
          obtain ⟨m, hm, hrequests⟩ := h.member server m' hm'
          refine .inr ⟨server, ?_⟩
          rw [hserver, requestsTo_of_get? hm', requestsTo_of_get? hm, hrequests]

/-- `w'` is `w` with another member in the place of a server. -/
structure Replaced (server : Address) (m' : Member) (w w' : Worker) : Prop where
  settings : w'.settings = w.settings
  members : ∀ other, w'.members.get? other =
    if server = other then some m' else w.members.get? other
  retired : w'.retired = w.retired
  queue : w'.queue = w.queue

theorem replaced_insert (w : Worker) (server : Address) (m' : Member) :
    Replaced server m' w { w with members := w.members.insert server m' } :=
  ⟨rfl, fun _ => Table.get?_insert, rfl, rfl⟩

theorem Replaced.get?_self (h : Replaced server m' w w') :
    w'.members.get? server = some m' := by
  rw [h.members, if_pos rfl]

theorem Replaced.get?_of_ne (h : Replaced server m' w w') {other : Address}
    (hne : server ≠ other) : w'.members.get? other = w.members.get? other := by
  rw [h.members, if_neg hne]

theorem Replaced.trans {m'' : Member} (h : Replaced server m' w w')
    (h' : Replaced server m'' w' w'') : Replaced server m'' w w'' where
  settings := h'.settings.trans h.settings
  members other := by
    rw [h'.members, h.members]
    split <;> rfl
  retired := h'.retired.trans h.retired
  queue := h'.queue.trans h.queue

theorem Replaced.hasServer (h : Replaced server m' w w') {other : Address}
    (hother : w.hasServer other = true) : w'.hasServer other = true := by
  rw [hasServer_iff] at hother ⊢
  rw [h.members]
  split
  · exact ⟨m', rfl⟩
  · exact hother

theorem Sound.replaced (hw : Sound limit w) (h : Replaced server m' w w') (hm' : m'.Sound limit) :
    Sound limit w' where
  settings := by rw [h.settings, hw.settings]
  member other m hm := by
    rw [h.members] at hm
    split at hm
    · cases hm
      exact hm'
    · exact hw.member other m hm
  job j hj := by
    rw [h.queue] at hj
    exact ⟨(hw.job j hj).1, h.hasServer (hw.job j hj).2⟩

theorem Replaced.quiet (h : Replaced server m' w w') (hm : w.members.get? server = some m)
    (hrequests : m'.session.requests = m.session.requests) : Quiet w w' where
  member other n hn := by
    rw [h.members] at hn
    split at hn
    · next heq =>
      cases hn
      exact ⟨m, heq ▸ hm, hrequests⟩
    · exact ⟨n, hn, rfl⟩
  retired := ⟨[], by simp [h.retired], by simp⟩

/-- `w'` is `w` without a server and its jobs; nothing more was sent to the server. -/
structure Lost (server : Address) (w w' : Worker) : Prop where
  settings : w'.settings = w.settings
  members : ∀ other, w'.members.get? other =
    if server = other then none else w.members.get? other
  retired : ∃ given, w'.retired = w.retired ++ given ∧
    ∀ s ∈ given, ∃ m, w.members.get? server = some m ∧ s.sent = m.session.sent
  queue : w'.queue = w.queue.filter fun j => j.server ≠ server

theorem retire_eq (w : Worker) (s : Session) : ∃ given, w.retire s = { w with
    retired := w.retired ++ given } ∧ ∀ t ∈ given, t.sent = s.sent := by
  unfold retire
  split
  · exact ⟨[s.teardown], rfl, by simp [Session.teardown, Session.sent]⟩
  · exact ⟨[], by simp, by simp⟩

theorem lost_dropSession (w : Worker) (server : Address) : Lost server w (w.dropSession server) := by
  unfold dropSession
  cases hm : w.members.get? server with
  | none => exact ⟨rfl, fun other => Table.get?_erase, ⟨[], by simp, by simp⟩, rfl⟩
  | some m =>
    obtain ⟨given, hretire, hgiven⟩ := w.retire_eq m.session
    simp only [Option.elim_some, hretire]
    exact ⟨rfl, fun other => Table.get?_erase, ⟨given, rfl, fun s hs => ⟨m, hm, hgiven s hs⟩⟩, rfl⟩

/-- A server whose session was changed before it was given up. -/
theorem Lost.of_replaced (hm : w.members.get? server = some m) (h : Replaced server m' w w')
    (hsent : m'.session.sent = m.session.sent) (hlost : Lost server w' w'') : Lost server w w'' where
  settings := hlost.settings.trans h.settings
  members other := by
    rw [hlost.members, h.members]
    split <;> rfl
  retired := by
    obtain ⟨given, hretired, hgiven⟩ := hlost.retired
    refine ⟨given, by rw [hretired, h.retired], fun s hs => ?_⟩
    obtain ⟨n, hn, hs⟩ := hgiven s hs
    rw [h.get?_self] at hn
    cases hn
    exact ⟨m, hm, hs.trans hsent⟩
  queue := by rw [hlost.queue, h.queue]

theorem Sound.lost (hw : Sound limit w) (h : Lost server w w') : Sound limit w' where
  settings := by rw [h.settings, hw.settings]
  member other m hm := by
    rw [h.members] at hm
    split at hm
    · contradiction
    · exact hw.member other m hm
  job j hj := by
    rw [h.queue, List.mem_filter] at hj
    obtain ⟨hj, hne⟩ := hj
    obtain ⟨hsound, hserver⟩ := hw.job j hj
    refine ⟨hsound, ?_⟩
    rw [hasServer_iff] at hserver ⊢
    rwa [h.members, if_neg (Ne.symm (by simpa using hne))]

theorem Lost.quiet (h : Lost server w w') : Quiet w w' where
  member other m hm := by
    rw [h.members] at hm
    split at hm
    · contradiction
    · exact ⟨m, hm, rfl⟩
  retired := by
    obtain ⟨given, hretired, hgiven⟩ := h.retired
    refine ⟨given, hretired, fun s hs => .inr ⟨server, ?_⟩⟩
    obtain ⟨m, hm, hsent⟩ := hgiven s hs
    rw [requestsTo_of_get? hm, Session.requests_of_sent hsent]

/-- A worker with the same sessions, and no job more, is as sound. -/
theorem Sound.of_members (hw : Sound limit w)
    (hconnection : w'.settings.connection = w.settings.connection)
    (hmembers : w'.members = w.members) (hqueue : ∀ j ∈ w'.queue, j ∈ w.queue) :
    Sound limit w' where
  settings := by rw [hconnection, hw.settings]
  member := by
    rw [hmembers]
    exact hw.member
  job j hj := by
    rw [hasServer, hmembers]
    exact hw.job j (hqueue j hj)

end Worker

end Gearman
