import Gearman.Proofs.Packet.Fields
import Gearman.Proofs.Worker.Effects

/-!
Every step keeps a worker sound, and sends a server one request at most, when it is the worker's turn.
-/

namespace Gearman

/-- The handle of a job that was assigned is a field of the assignment. -/
theorem Worker.handle_of_assignment {p : Packet} {handle function data : Bytes}
    {unique : Option Bytes} (h : assignment p = .ok (handle, function, unique, data)) :
    0 ∉ handle ∧ handle.length ≤ p.payload.length := by
  have hfirst : ∀ {n : Nat} {field : Bytes} {rest : List Bytes},
      p.fields (n + 2) = .ok (field :: rest) → 0 ∉ field ∧ field.length ≤ p.payload.length := by
    intro n field rest hfields
    rw [Packet.fields_succ (Packet.le_of_fields hfields)] at hfields
    simp only [Bytes.splitFields] at hfields
    split at hfields
    · next hsplit =>
      cases hfields
      split at hsplit
      · contradiction
      · next hcut =>
        obtain ⟨hpayload, hnul⟩ := Bytes.cut?_eq_some hcut
        split at hsplit
        · cases hsplit
          refine ⟨hnul, ?_⟩
          rw [hpayload, List.length_append]
          omega
        · contradiction
    · contradiction
  unfold assignment at h
  split at h
  all_goals
    split at h
    · next hfields =>
      cases h
      exact hfirst hfields
    · contradiction
    · contradiction

namespace Worker

variable {limit : UInt32} {w w₁ w₂ w' : Worker} {server : Address} {m m' : Member}

/-- What one step may send to a server, of the requests that are answered: one for a job while nothing
is awaited from the server, or the announcement that the worker sleeps, as soon as the server has
answered such a request that there is no job. -/
inductive Turn (w w' : Worker) (server : Address) : List Packet → Prop
  | nothing : Turn w w' server []
  | grabJob (hawaiting : w.awaitingOf server = []) : Turn w w' server [.request .grabJob []]
  | preSleep {id : TaskId} {p : Packet} {w₁ : Worker}
    (hawaiting : w.awaitingOf server = [⟨id, .grabJob⟩])
    (hreceive : w.receive server = (some (.reply id p), w₁)) (hkind : p.kind = .noJob)
    (hdispatch : w' = (w₁.dispatch server (.reply id p)).2) :
    Turn w w' server [.request .preSleep []]

/-- Whatever was sent between `w` and `w'` was sent when it was the worker's turn, and no request was
sent to a server that was given up. -/
structure Orderly (w w' : Worker) : Prop where
  member : ∀ server m', w'.members.get? server = some m' →
    ∃ ps, Turn w w' server ps ∧ m'.session.requests = w.requestsTo server ++ ps
  retired : ∃ given, w'.retired = w.retired ++ given ∧
    ∀ s ∈ given, s.requests = [] ∨ ∃ server, s.requests = w.requestsTo server

theorem Quiet.orderly (h : Quiet w w') : Orderly w w' where
  member server m' hm' := by
    obtain ⟨m, hm, hrequests⟩ := h.member server m' hm'
    exact ⟨[], .nothing, by rw [requestsTo_of_get? hm, hrequests, List.append_nil]⟩
  retired := h.retired

/-- A request behind quiet changes. -/
theorem Quiet.orderly_of_replaced (h : Quiet w w₁) (hreplaced : Replaced server m' w₁ w')
    {ps : List Packet} (hturn : Turn w w' server ps)
    (hrequests : m'.session.requests = w.requestsTo server ++ ps) : Orderly w w' where
  member other n hn := by
    rw [hreplaced.members] at hn
    split at hn
    · next heq =>
      cases hn
      exact ⟨ps, heq ▸ hturn, heq ▸ hrequests⟩
    · obtain ⟨m, hm, hsame⟩ := h.member other n hn
      exact ⟨[], .nothing, by rw [requestsTo_of_get? hm, hsame, List.append_nil]⟩
  retired := by
    rw [hreplaced.retired]
    exact h.retired

theorem Sound.deliver (hw : Sound limit w) (a : Arrival) :
    Sound limit (w.deliver a).1 ∧ Quiet w (w.deliver a).1 := by
  unfold Worker.deliver
  split
  · exact ⟨hw, .refl w⟩
  · next m hm =>
    have hmember := hw.member a.server m hm
    obtain ⟨hclear, hsent⟩ := hmember.session.deliver a
    have hreplaced := replaced_insert w a.server { m with session := (m.session.deliver a).1 }
    exact ⟨hw.replaced hreplaced ⟨hclear, hmember.task⟩,
      hreplaced.quiet hm (Session.requests_of_sent hsent)⟩

/-- A packet that no server answers is no request, whatever becomes of it. -/
theorem Sound.sendTo (hw : Sound limit w) (server : Address) {p : Packet}
    (hp : p.kind.isAnswered = false) :
    Sound limit (w.sendTo server p).2 ∧ Quiet w (w.sendTo server p).2 := by
  cases hm : w.members.get? server with
  | none =>
    rw [sendTo_none hm]
    exact ⟨hw, .refl w⟩
  | some m =>
    have hmember := hw.member server m hm
    rcases hw.sendTo_cases hm p with ⟨-, session, hclear, hsent, -, hreplaced⟩ |
      ⟨-, -, hreplaced⟩ | ⟨-, hlost⟩
    · exact ⟨hw.replaced hreplaced ⟨hclear, hmember.task⟩,
        hreplaced.quiet hm (Session.requests_of_told hsent hp)⟩
    · exact ⟨hw.replaced hreplaced hmember, hreplaced.quiet hm rfl⟩
    · exact ⟨hw.lost hlost, hlost.quiet⟩

/-- A request of a member that owes nothing, behind quiet changes. -/
theorem Sound.request (hw₁ : Sound limit w₁) (hquiet : Quiet w w₁)
    (hm : w₁.members.get? server = some m) (hnone : m.outstanding = none) {kind : Kind}
    (hkind : kind = .grabJob ∨ kind = .preSleep)
    (hturn : Turn w (w₁.request server kind) server [.request kind []]) :
    Sound limit (w₁.request server kind) ∧ Orderly w (w₁.request server kind) := by
  rcases hw₁.request_cases hm hnone hkind with ⟨session, task, hmember, hsent, hreplaced⟩ | hlost
  · refine ⟨hw₁.replaced hreplaced hmember, hquiet.orderly_of_replaced hreplaced hturn ?_⟩
    obtain ⟨m₀, hm₀, hsame⟩ := hquiet.member server m hm
    have hanswered : kind.isAnswered = true := by
      rcases hkind with rfl | rfl <;> rfl
    rw [Session.requests_of_asked hsent hanswered, hsame, requestsTo_of_get? hm₀]
  · exact ⟨hw₁.lost hlost, (hquiet.trans hlost.quiet).orderly⟩

theorem Sound.askOne (hw : Sound limit w) (server : Address) :
    Sound limit (askAll.askOne w server) ∧ Orderly w (askAll.askOne w server) := by
  unfold askAll.askOne
  split
  · exact ⟨hw, (Quiet.refl w).orderly⟩
  · next m hm =>
    split
    · next hidle =>
      have hnone : m.outstanding = none := by simp_all
      refine hw.request (.refl w) hm hnone (.inl rfl) (.grabJob ?_)
      rw [awaitingOf_of_get? hm, (hw.member server m hm).session.awaiting_eq, hnone]
      rfl
    · exact ⟨hw, (Quiet.refl w).orderly⟩

theorem Sound.idle (hw : Sound limit w) (h : w.receive server = (none, w')) :
    Sound limit w' ∧ Quiet w w' := by
  rcases hw.receive_none h with rfl | ⟨m, session, hm, hclear, hsent, hreplaced⟩ | hlost
  · exact ⟨hw, .refl w'⟩
  · exact ⟨hw.replaced hreplaced ⟨hclear, (hw.member server m hm).task⟩,
      hreplaced.quiet hm (Session.requests_of_sent hsent)⟩
  · exact ⟨hw.lost hlost, hlost.quiet⟩

theorem Sound.assign (hw : Sound limit w) (hserver : w.hasServer server = true) {p : Packet}
    (hp : p.payload.length ≤ limit.toNat) :
    Sound limit (w.assign server p) ∧ Quiet w (w.assign server p) := by
  unfold Worker.assign
  split
  · exact ⟨hw, .refl w⟩
  · next handle function uniqueId data hassignment =>
    obtain ⟨hnul, hlength⟩ := handle_of_assignment hassignment
    dsimp only
    split
    · exact hw.sendTo server rfl
    · refine ⟨⟨hw.settings, hw.member, fun j hj => ?_⟩, .of_members rfl rfl⟩
      rcases List.mem_append.1 hj with hj | hj
      · exact hw.job j hj
      · obtain rfl := List.mem_singleton.1 hj
        exact ⟨⟨hnul, Nat.le_trans hlength hp⟩, hserver⟩

/-- The worker with nothing outstanding from a server, whose session has been read from. -/
def answered (w : Worker) (server : Address) (session : Session) : Worker :=
  { w with members := w.members.insert server { session } }

/-- An answer ends the outstanding request, and then the worker acts on it. -/
theorem Sound.reply (hw : Sound limit w) {id : TaskId} {p : Packet}
    (h : w.receive server = (some (.reply id p), w₁)) :
    ∃ m session, ∃ task : Task Receipt, w.members.get? server = some m ∧
      session.sent = m.session.sent ∧ w₁.members.get? server = some { m with session } ∧
      Sound limit (w₁.answered server session) ∧
      Replaced server { session } w (w₁.answered server session) ∧
      p.payload.length ≤ limit.toNat ∧ task.id = id ∧
      p.kind.answers task.request.kind = true ∧ task.Open ∧
      w.awaitingOf server = [task.awaited] ∧
      w₁.dispatch server (.reply id p) = (.ok (), (w₁.answered server session).answer server p) := by
  obtain ⟨hlength, m, task, session, hm, houtstanding, hopen, hid, hreply, hclear, hsent,
    hreplaced⟩ := hw.receive_reply h
  simp only [Session.isReply, Bool.and_eq_true] at hreply
  have hreplaced' : Replaced server { session } w (w₁.answered server session) :=
    hreplaced.trans (replaced_insert w₁ server { session })
  refine ⟨m, session, task, hm, hsent, ?_, hw.replaced hreplaced' ⟨hclear, by simp⟩, hreplaced',
    hlength, hid, hreply.2, hopen, ?_, ?_⟩
  · rw [hreplaced.get?_self, houtstanding]
  · rw [awaitingOf_of_get? hm, (hw.member server m hm).session.awaiting_eq, houtstanding]
    rfl
  · have hdelivered := hopen.deliver hreply.1
    simp only [dispatch, handleReply, hreplaced.get?_self, houtstanding, hid, if_true]
    split
    · next hfault =>
      rw [hfault] at hdelivered
      contradiction
    · rfl

/-- Handling an answer keeps a worker sound; if there is no job, the worker says that it sleeps. -/
theorem Sound.handled_reply (hw : Sound limit w) {id : TaskId} {p : Packet}
    (h : w.receive server = (some (.reply id p), w₁)) :
    Sound limit (w₁.dispatch server (.reply id p)).2 ∧
      Orderly w (w₁.dispatch server (.reply id p)).2 := by
  obtain ⟨m, session, task, hm, hsent, -, hw₂, hreplaced, hlength, rfl, hanswers, hopen, hawaiting,
    hdispatch⟩ := hw.reply h
  have hquiet := hreplaced.quiet hm (Session.requests_of_sent hsent)
  have hassign : Sound limit ((w₁.answered server session).assign server p) ∧
      Orderly w ((w₁.answered server session).assign server p) := by
    obtain ⟨hsound, hassigned⟩ := hw₂.assign (hasServer_iff.2 ⟨_, hreplaced.get?_self⟩) hlength
    exact ⟨hsound, (hquiet.trans hassigned).orderly⟩
  have hturn : p.kind = .noJob →
      Turn w (w₁.dispatch server (.reply task.id p)).2 server [.request .preSleep []] := by
    intro hkind
    have hgrab : task.request.kind = .grabJob := by
      rcases hopen.kind with hgrab | hsleep
      · exact hgrab
      · rw [hkind, hsleep] at hanswers
        contradiction
    refine .preSleep ?_ h hkind rfl
    rw [hawaiting, Task.awaited, hgrab]
  rw [hdispatch] at hturn ⊢
  simp only [answer] at hturn ⊢
  split
  · exact hassign
  · exact hassign
  · next hkind =>
    rw [hkind] at hturn
    exact hw₂.request hquiet hreplaced.get?_self rfl (.inr rfl) (hturn rfl)
  · exact ⟨hw₂, hquiet.orderly⟩

theorem Sound.handled_unsolicited (hw : Sound limit w) {p : Packet}
    (h : w.receive server = (some (.unsolicited p), w₁)) :
    Sound limit (w₁.dispatch server (.unsolicited p)).2 ∧
      Quiet w (w₁.dispatch server (.unsolicited p)).2 := by
  obtain ⟨hlength, m, session, hm, hclear, hsent, hreplaced⟩ := hw.receive_unsolicited h
  have hw₁ := hw.replaced hreplaced ⟨hclear, (hw.member server m hm).task⟩
  have hquiet := hreplaced.quiet hm (Session.requests_of_sent hsent)
  have hassign : Sound limit (w₁.assign server p) ∧ Quiet w (w₁.assign server p) := by
    obtain ⟨hsound, hassigned⟩ := hw₁.assign (hasServer_iff.2 ⟨_, hreplaced.get?_self⟩) hlength
    exact ⟨hsound, hquiet.trans hassigned⟩
  simp only [dispatch, handleUnsolicited]
  split
  · exact hassign
  · exact hassign
  · exact ⟨hw₁.lost (lost_dropSession ..), hquiet.trans (lost_dropSession ..).quiet⟩
  · exact ⟨hw₁, hquiet⟩

/-- Announcements are no requests. -/
theorem sendAll_clear {s s' : Session} {r : Except Error Unit} {ps : List (Except Error Packet)}
    (hclear : s.Clear limit []) (hps : ∀ p, .ok p ∈ ps → p.kind.isAnswered = false)
    (h : sendAll s ps = (r, s')) :
    s'.requests = s.requests ∧ (r = .ok () → s'.Clear limit []) := by
  induction ps generalizing s with
  | nil =>
    cases h
    exact ⟨rfl, fun _ => hclear⟩
  | cons first rest ih =>
    cases first with
    | error e =>
      cases h
      exact ⟨rfl, by simp⟩
    | ok p =>
      simp only [sendAll] at h
      split at h
      · next s₁ hsend =>
        obtain ⟨hclear₁, hsent, -⟩ := hclear.send_ok hsend
        rw [← Session.requests_of_told hsent (hps p List.mem_cons_self)]
        exact ih hclear₁ (fun q hq => hps q (List.mem_cons_of_mem _ hq)) h
      · next hsend =>
        cases h
        exact ⟨Session.requests_of_sent (Session.sent_of_send_error hsend), by simp⟩

theorem isAnswered_introduction (w : Worker) (p : Packet) (hp : .ok p ∈ w.introduction) :
    p.kind.isAnswered = false := by
  rcases List.mem_cons.1 hp with heq | hp
  · cases heq
    rfl
  · obtain ⟨d, -, hd⟩ := List.mem_map.1 hp
    exact Definition.isAnswered_announcement hd

/-- A session that was opened in vain is put away; it sent no request. -/
theorem Sound.retire (hw : Sound limit w) {s : Session} (hs : s.requests = []) (issued : Nat) :
    Sound limit ({ w with issued }.retire s) ∧ Quiet w ({ w with issued }.retire s) := by
  obtain ⟨given, hretire, hgiven⟩ := retire_eq { w with issued } s
  rw [hretire]
  refine ⟨hw.of_members rfl rfl fun _ hj => hj, fun server m hm => ⟨m, hm, rfl⟩,
    ⟨given, rfl, fun t ht => .inl ?_⟩⟩
  rw [Session.requests_of_sent (hgiven t ht), hs]

theorem Sound.addServer (hw : Sound limit w) (server : Address) (accepted : Bool) :
    Sound limit (w.addServer server accepted).2 ∧ Orderly w (w.addServer server accepted).2 := by
  unfold Worker.addServer
  split
  · exact ⟨hw, (Quiet.refl w).orderly⟩
  · next hnew =>
    have hnone : w.members.get? server = none := by
      simpa [Worker.hasServer, Table.contains] using hnew
    dsimp only
    split
    · exact ⟨hw, (Quiet.refl w).orderly⟩
    · next session hinit =>
      obtain ⟨hclear, hsent⟩ := Session.Clear.fresh hinit
      rw [hw.settings] at hclear
      have hunasked : session.requests = [] := by simp [Session.requests, hsent]
      split
      · next e session' hsendAll =>
        obtain ⟨hrequests, -⟩ := sendAll_clear hclear w.isAnswered_introduction hsendAll
        obtain ⟨hsound, hquiet⟩ := hw.retire (hrequests.trans hunasked) w.issued
        exact ⟨hsound, hquiet.orderly⟩
      · next session' hsendAll =>
        obtain ⟨hrequests, hclear'⟩ := sendAll_clear hclear w.isAnswered_introduction hsendAll
        rw [hunasked] at hrequests
        rcases ask_cases (m := { session := session' }) w (hclear' rfl) (.inl rfl) with
          ⟨asking, task, hmember, hsent', hask⟩ | ⟨e, failed, hsent', hask⟩
        · rw [hask]
          have hreplaced : Replaced server ⟨asking, some task⟩ w { w with
              members := w.members.insert server ⟨asking, some task⟩, issued := w.issued + 1 } :=
            ⟨rfl, fun _ => Table.get?_insert, rfl, rfl⟩
          refine ⟨hw.replaced hreplaced hmember, (Quiet.refl w).orderly_of_replaced hreplaced
            (.grabJob (by simp [awaitingOf, hnone])) ?_⟩
          rw [Session.requests_of_asked hsent' rfl, hrequests, requestsTo_of_none hnone]
        · rw [hask]
          obtain ⟨hsound, hquiet⟩ := hw.retire
            ((Session.requests_of_sent hsent').trans hrequests) (w.issued + 1)
          exact ⟨hsound, hquiet.orderly⟩

/-- A server that is removed is lost; nothing changes if the worker does not have it. -/
theorem Sound.lost_removeServer (hw : Sound limit w) (server : Address) :
    Lost server w (w.removeServer server).2 := by
  unfold Worker.removeServer
  split
  · next hnone =>
    refine ⟨rfl, fun other => ?_, ⟨[], by simp, by simp⟩, ?_⟩
    · split
      · next heq => rw [← heq, hnone]
      · rfl
    · refine (List.filter_eq_self.2 fun j hj => ?_).symm
      obtain ⟨m, hm⟩ := hasServer_iff.1 (hw.job j hj).2
      rw [decide_eq_true_eq]
      rintro rfl
      rw [hnone] at hm
      contradiction
  · next m hm =>
    obtain ⟨given, hretire, hgiven⟩ := retire_eq { w with
      members := w.members.erase server
      queue := w.queue.filter fun j => j.server ≠ server } m.session.closeGracefully.2
    rw [closeMember, hretire]
    refine ⟨rfl, fun other => Table.get?_erase, ⟨given, rfl, fun s hs => ⟨m, hm, ?_⟩⟩, rfl⟩
    rw [hgiven s hs, (hw.member server m hm).session.closeGracefully]

theorem Sound.removeServer (hw : Sound limit w) (server : Address) :
    Sound limit (w.removeServer server).2 ∧ Quiet w (w.removeServer server).2 :=
  ⟨hw.lost (hw.lost_removeServer server), (hw.lost_removeServer server).quiet⟩

/-- Taking leave of some members puts away their sessions and nothing else. -/
theorem foldl_closeMember (w : Worker) (ms : List Member) :
    ∃ given, ms.foldl closeMember w = { w with retired := w.retired ++ given } ∧
      ∀ s ∈ given, ∃ m ∈ ms, s.sent = m.session.closeGracefully.2.sent := by
  induction ms generalizing w with
  | nil => exact ⟨[], by simp, by simp⟩
  | cons m rest ih =>
    obtain ⟨first, hretire, hfirst⟩ := w.retire_eq m.session.closeGracefully.2
    obtain ⟨given, hfold, hgiven⟩ := ih (w.closeMember m)
    refine ⟨first ++ given, ?_, fun s hs => ?_⟩
    · rw [List.foldl_cons, hfold, closeMember, hretire, List.append_assoc]
    · rcases List.mem_append.1 hs with hs | hs
      · exact ⟨m, List.mem_cons_self, hfirst s hs⟩
      · obtain ⟨n, hn, heq⟩ := hgiven s hs
        exact ⟨n, List.mem_cons_of_mem _ hn, heq⟩

theorem Sound.shutdown (hw : Sound limit w) :
    Sound limit w.shutdown ∧ Quiet w w.shutdown := by
  obtain ⟨given, hfold, hgiven⟩ := foldl_closeMember w w.members.values
  unfold Worker.shutdown
  rw [hfold]
  refine ⟨⟨hw.settings, by simp, by simp⟩, by simp, given, rfl, fun s hs => .inr ?_⟩
  obtain ⟨m, hm, hsent⟩ := hgiven s hs
  obtain ⟨⟨server, m'⟩, hentry, rfl⟩ := List.mem_map.1 hm
  have hmember := Table.get?_eq_some_iff.2 hentry
  refine ⟨server, ?_⟩
  rw [requestsTo_of_get? hmember, Session.requests_of_sent hsent,
    Session.requests_of_sent (hw.member server _ hmember).session.closeGracefully]

theorem Sound.step (hw : Sound limit w) (hstep : Step w w') : Sound limit w' ∧ Orderly w w' := by
  have hcalm : ∀ {w'}, Sound limit w' ∧ Quiet w w' → Sound limit w' ∧ Orderly w w' :=
    fun h => ⟨h.1, h.2.orderly⟩
  cases hstep with
  | arrived a => exact hcalm (hw.deliver a)
  | joined server accepted => exact hw.addServer server accepted
  | left server => exact hcalm (hw.removeServer server)
  | offered | renamed | flagged =>
    exact hcalm ⟨hw.of_members rfl rfl fun _ hj => hj, .of_members rfl rfl⟩
  | told server hp => exact hcalm (hw.sendTo server hp)
  | asked server => exact hw.askOne server
  | idle h => exact hcalm (hw.idle h)
  | @handled w₁ server event h =>
    cases event with
    | reply id p => exact hw.handled_reply h
    | unsolicited p => exact hcalm (hw.handled_unsolicited h)
  | @taken j rest hqueue =>
    refine hcalm ⟨hw.of_members rfl rfl fun i hi => ?_, .of_members rfl rfl⟩
    rw [hqueue]
    exact List.mem_cons_of_mem j hi
  | ended => exact hcalm hw.shutdown

theorem Sound.evolves (hw : Sound limit w) (h : Evolves w w') : Sound limit w' := by
  induction h with
  | refl => exact hw
  | tail _ hstep ih => exact (ih.step hstep).1

theorem Sound.tells (hw : Sound limit w) (h : Tells w w') : Sound limit w' :=
  hw.evolves (evolves_of_tells h)

theorem Sound.labours (hw : Sound limit w) (h : Labours w w') : Sound limit w' :=
  hw.evolves (evolves_of_labours h)

theorem Reached.sound {settings : WorkerSettings} (h : Reached settings w) :
    Sound settings.connection.maxPayloadSize w :=
  (sound_withSettings settings).evolves h

end Worker

end Gearman
