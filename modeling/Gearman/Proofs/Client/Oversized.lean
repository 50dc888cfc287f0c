import Gearman.Proofs.Client.Conversation
import Gearman.Proofs.Client.Replies
import Gearman.Proofs.Packet.Fields
import Gearman.Proofs.Session.Sending

/-!
Requests that are too long. They are refused before anything is written, be it because the fields cannot
make a packet or because the session does not take the packet. The client goes on as if it had not been
asked, with a session that may have been opened for the request.
-/

namespace Gearman.Client

variable {α : Type} {settings : ClientSettings} {past : History} {c c' : Client} {env : Surroundings}
  {server : Address} {request : Packet} {x : Exchange} {s : Session}

/-- Nothing has become of a client but that requests were numbered and the session of `server` was
connected: tasks, jobs, results, news and all other sessions are as before, and no session is retired. -/
structure OnlyConnected (server : Address) (c c' : Client) : Prop where
  frame : c' = { c with sessions := c'.sessions, issued := c'.issued }
  sessions : c'.sessions = c.sessions ∨ ∃ s, c.sessions.get? server = some s ∧ s.phase = .unopened ∧
    c'.sessions = c.sessions.insert server s.connected

namespace OnlyConnected

theorem refl (server : Address) (c : Client) : OnlyConnected server c c := ⟨rfl, .inl rfl⟩

/-- Requests that are numbered make no difference. -/
theorem with_issued (h : OnlyConnected server c c') (issued : Nat) :
    OnlyConnected server c { c' with issued } := by
  refine ⟨?_, h.sessions⟩
  rw [h.frame]

/-- A session that is connected has sent nothing and awaits nothing. -/
theorem sentTo_queue (h : OnlyConnected server c c') (other : Address) :
    c'.sentTo other = c.sentTo other ∧ c'.queue other = c.queue other := by
  rcases h.sessions with hsame | ⟨s, hs, hphase, hinsert⟩
  · simp only [sentTo, queue, hsame, and_self]
  · have hconnected : s.connected.sent = s.sent ∧ s.connected.awaiting = s.awaiting := by
      simp [Session.connected, Session.isLive, Session.sent, Session.awaiting, hphase, Connection.fresh]
    constructor
    · simp only [sentTo, hinsert]
      exact sentTo_insert_same hs hconnected.1 other
    · simp only [queue, hinsert]
      exact queue_insert_same hs hconnected.2 other

end OnlyConnected

/-- Asking for the session of a server that is known and accepts does no more than connect it. -/
theorem onlyConnected_session (hsound : Sound c) (hs : c.sessions.get? server = some s)
    (haccepts : s.isLive = true ∨ env.accepts server = true) :
    ∃ c₁, c.session env server = (.ok s.connected, c₁) ∧ OnlyConnected server c c₁ := by
  refine ⟨_, session_of_accepted hsound hs haccepts, ?_⟩
  cases hlive : s.isLive with
  | true => exact .refl server c
  | false =>
    have hphase := Session.phase_eq_unopened hlive (hsound.session server s hs).2
    exact ⟨rfl, .inr ⟨s, hs, hphase, rfl⟩⟩

/-- A live session refuses a task whose request is too long. -/
theorem ask_of_tooLong (htidy : c.Tidy c.settings.connection) (hs : c.sessions.get? server = some s)
    (hlive : s.isLive = true) (task : Task Exchange)
    (hlong : c.settings.connection.maxPayloadSize.toNat < task.request.payload.length) :
    c.ask server s task =
      (.error (.payloadTooLarge task.request.payload.length c.settings.connection.maxPayloadSize),
        { c with issued := c.issued + 1 }) := by
  obtain ⟨connection, awaiting, hphase⟩ := Session.isLive_iff.1 hlive
  have hconnection : s.connection? = some connection := by simp [Session.connection?, hphase]
  have hlimit := ((htidy.session server s hs).connection connection hconnection).maxPayload
  have hsend : s.send task.request = (.error (.payloadTooLarge task.request.payload.length
      c.settings.connection.maxPayloadSize), s) := by
    have hsending := Session.sending_send hconnection task.request
    rw [← hlimit] at hlong ⊢
    generalize hresult : s.send task.request = result at hsending
    cases hsending with
    | tooLong => rfl
    | written hfits => omega
    | broken hfits => omega
  have hsame : c.sessions.insert server s = c.sessions := Table.insert_of_get? hs
  have htooLarge : (Error.payloadTooLarge task.request.payload.length
      c.settings.connection.maxPayloadSize).isTooLarge = true := rfl
  simp only [ask, Session.submit_eq, hsend, hsame, htooLarge, if_true]

/-- An exchange whose request is too long is not begun. -/
theorem start_of_tooLong (hsound : Sound c) (htidy : c.Tidy c.settings.connection)
    (hs : c.sessions.get? server = some s) (hreach : s.isLive = true ∨ env.accepts server = true)
    (hrequest : request.isRequest = true)
    (hlong : c.settings.connection.maxPayloadSize.toNat < request.payload.length) :
    ∃ c', c.start env server request x = (.error (.payloadTooLarge request.payload.length
      c.settings.connection.maxPayloadSize), c') ∧ OnlyConnected server c c' := by
  obtain ⟨c₁, hsession, hconnected⟩ := onlyConnected_session hsound hs hreach
  have htidy₁ := htidy.session_of env server
  rw [hsession] at htidy₁
  have hsettings : c₁.settings = c.settings := by rw [hconnected.frame]
  rw [← hsettings] at htidy₁ hlong ⊢
  refine ⟨{ c₁ with issued := c₁.issued + 1 }, ?_, hconnected.with_issued _⟩
  simp only [start, Task.new, hrequest, dif_pos, hsession]
  exact ask_of_tooLong htidy₁ (session_ok hsession).1 s.isLive_connected _ hlong

namespace Call

/-- The fields that the payload of a call's request is made of. -/
def fields : Call α → List Bytes
  | .submit job => [Text.Utf8.encode job.function, Text.Utf8.encode job.uniqueId, job.data]
  | .echo data => [data]
  | .jobStatus job => [job.handle]
  | .waitForJob _ => []

/-- The server that a call's request goes to. -/
def addressee? (c : Client) (env : Surroundings) : Call α → Option Address
  | .submit _ | .echo _ => (c.pickServer env.chance).toOption
  | .jobStatus job => some job.server
  | .waitForJob _ => none

/-- The fields of a call make its request, or there are more bytes than the length of a payload can tell. -/
theorem request_or_refused (call : Call α) (hrunning : c.state = .running)
    (haddressee : call.addressee? c env = some server)
    (hzero : ∀ field ∈ call.fields.dropLast, 0 ∉ field) :
    (∃ request x, call.question? c env = some (server, request, x) ∧
      request.payload.length = Bytes.joinedLength call.fields) ∨
    UInt32.size ≤ Bytes.joinedLength call.fields ∧
      call.place c env =
        ⟨.error (.payloadTooLarge (Bytes.joinedLength call.fields) 0xFFFFFFFF), c, env.arrivals⟩ := by
  have hensure : c.ensureRunning = .ok () := by rw [ensureRunning, if_pos hrunning]
  cases call with
  | submit job =>
    have hserver : c.pickServer env.chance = .ok server := by
      unfold addressee? at haddressee
      cases hpick : c.pickServer env.chance <;> simp_all [Except.toOption]
    by_cases hfits : Bytes.joinedLength (submit job).fields < UInt32.size
    · have hrequest : job.toPacket = .ok ⟨.request, .submission job.priority job.background,
          Bytes.joinFields (submit job).fields⟩ :=
        Packet.ofFields_eq_ok.2 ⟨by rwa [Bytes.length_joinFields], hzero, rfl⟩
      have hquestion : (submit job).question? c env = some (server, ⟨.request,
          .submission job.priority job.background, Bytes.joinFields (submit job).fields⟩,
          .submission job.background none) := by
        simp only [question?, hensure, hrequest, hserver]
      exact .inl ⟨_, _, hquestion, Bytes.length_joinFields _⟩
    · have hrequest : job.toPacket =
          .error (.payloadTooLarge (Bytes.joinedLength (submit job).fields) 0xFFFFFFFF) := by
        unfold Job.toPacket Packet.ofFields
        exact if_neg hfits
      exact .inr ⟨Nat.le_of_not_lt hfits, by simp only [place, Client.submit, hensure, hrequest]⟩
  | echo data =>
    have hserver : c.pickServer env.chance = .ok server := by
      unfold addressee? at haddressee
      cases hpick : c.pickServer env.chance <;> simp_all [Except.toOption]
    have hquestion : (echo data).question? c env =
        some (server, Packet.request .echoReq data, .echo none) := by
      simp only [question?, hensure, hserver]
    exact .inl ⟨_, _, hquestion, by simp [fields, Bytes.joinedLength, Packet.request]⟩
  | jobStatus job =>
    obtain rfl : job.server = server := Option.some.inj haddressee
    have hquestion : (jobStatus job).question? c env =
        some (job.server, Packet.request .getStatus job.handle, .status none) := by
      simp only [question?, hensure]
    exact .inl ⟨_, _, hquestion, by simp [fields, Bytes.joinedLength, Packet.request]⟩
  | waitForJob job => contradiction

/-- A call whose exchange cannot be begun fails with the same error. -/
theorem place_of_start_error {call : Call α} {e : Error}
    (hquestion : call.question? c env = some (server, request, x))
    (hstart : c.start env server request x = (.error e, c')) :
    call.place c env = ⟨.error e, c', env.arrivals⟩ := by
  obtain ⟨awaited, outcome, hconcludes, hplace⟩ := place_concludes hquestion
  have hexchange : c.exchange env server request x awaited = ⟨.error e, c', env.arrivals⟩ := by
    simp only [exchange, hstart]
  rw [hexchange] at hconcludes hplace
  cases hconcludes
  exact hplace

end Call

/-- A submission, an echo or a question about a job whose request is longer than the limit is refused for
its length, whatever else is under way, and reads nothing. Nothing is sent to any server, no queue changes,
and nothing else becomes of the client but that its session with the server may have been opened. -/
theorem oversized_request_is_refused (settings : ClientSettings)
    (hc : Chain Step (withSettings settings) past c) (hrunning : c.state = .running) (call : Call α)
    (env : Surroundings) (haddressee : call.addressee? c env = some server)
    (hknown : c.hasServer server = true)
    (hreach : c.IsLiveAt server ∨ env.accepts server = true)
    (hzero : ∀ field ∈ call.fields.dropLast, 0 ∉ field)
    (hlong : c.settings.connection.maxPayloadSize.toNat < Bytes.joinedLength call.fields) :
    ∃ limit c', call.place c env =
        ⟨.error (.payloadTooLarge (Bytes.joinedLength call.fields) limit), c', env.arrivals⟩ ∧
      (limit = c.settings.connection.maxPayloadSize ∨
        limit = 0xFFFFFFFF ∧ UInt32.size ≤ Bytes.joinedLength call.fields) ∧
      OnlyConnected server c c' ∧
      ∀ other, c'.sentTo other = c.sentTo other ∧ c'.queue other = c.queue other := by
  rcases call.request_or_refused hrunning haddressee hzero with
    ⟨request, x, hquestion, hlength⟩ | ⟨hsize, hplace⟩
  · obtain ⟨s, hs⟩ := Table.contains_iff.1 hknown
    have hsession : s.isLive = true ∨ env.accepts server = true := by
      refine hreach.imp_left ?_
      rintro ⟨t, ht, hlive⟩
      rwa [Option.some.inj (hs.symm.trans ht)]
    rw [← hlength] at hlong ⊢
    obtain ⟨c', hstart, hconnected⟩ := start_of_tooLong (sound_of_chain hc) (tidy_of_chain hc) hs hsession
      (Call.fits_of_question? hquestion).1 hlong
    exact ⟨_, c', Call.place_of_start_error hquestion hstart, .inl rfl, hconnected,
      hconnected.sentTo_queue⟩
  · exact ⟨_, c, hplace, .inr ⟨rfl, hsize⟩, .refl server c, fun _ => ⟨rfl, rfl⟩⟩

/-- Four bytes are too many for a client that sends three. -/
theorem oversized_request_is_refused_echo :
    let c := ((withSettings { connection := { maxPayloadSize := 3 } }).addServer .default).2
    ∃ c', (Call.echo [1, 2, 3, 4]).place c { accepts _ := true } =
        ⟨.error (.payloadTooLarge 4 3), c', []⟩ ∧
      OnlyConnected .default c c' ∧ c'.sentTo .default = [] ∧ c'.queue .default = [] := by
  intro c
  obtain ⟨limit, c', hplace, hlimit, hconnected, hkept⟩ :=
    oversized_request_is_refused { connection := { maxPayloadSize := 3 } } (c := c)
      (.single (.added _ .default)) rfl (.echo [1, 2, 3, 4]) { accepts _ := true } rfl rfl (.inr rfl)
      (by decide) (by decide)
  obtain rfl : limit = 3 := hlimit.resolve_right fun hsize => absurd hsize.2 (by decide)
  exact ⟨c', hplace, hconnected, (hkept .default).1, (hkept .default).2⟩

end Gearman.Client
