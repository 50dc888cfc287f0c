import Gearman.Proofs.Session.Soundness

/-!
Replies are reported for the requests that they answer.
-/

namespace Gearman.Dialogue

variable {settings : ConnectionSettings} {d : Dialogue}

theorem filterMap_event (said : List Said) :
    (said.map Said.event).filterMap Session.Event.task? =
      (said.filterMap Said.request?).map (·.task) := by
  have hsame : Session.Event.task? ∘ Said.event = fun x => x.request?.map (·.task) := by
    funext x
    cases x <;> rfl
  rw [List.filterMap_map, List.map_filterMap, hsame]

theorem Sound.replied (h : Sound settings d) : d.reports.filterMap Session.Event.task? =
    (d.heard.filterMap Said.request?).map (·.task) := by
  rw [h.reports, filterMap_event]

/-- When all has arrived and there is nothing left to do, everything was heard. -/
theorem Sound.heard_eq_said (h : Sound settings d) (hlive : d.session.isLive = true)
    (hwire : d.wire = []) (hidle : d.session.isReady = false) : d.heard = d.said := by
  obtain ⟨c, awaiting, hphase⟩ := Session.isLive_iff.1 hlive
  have hconnection : d.session.connection? = some c := by simp [Session.connection?, hphase]
  have hcarries := h.carries c hconnection
  simp only [Session.isReady, hconnection, Option.any_some, Connection.isReady, Bool.or_eq_false_iff,
    decide_eq_false_iff_not, Nat.not_lt, Nat.le_zero] at hidle
  obtain ⟨⟨⟨-, hpacket⟩, hunread⟩, -⟩ := hidle
  obtain ⟨harriving, hflowing⟩ : c.stream.arriving = [] ∧ c.stream.fate = .flowing := by
    simpa [Stream.unread] using hunread
  obtain ⟨lost, hbytes, hlost⟩ := hcarries.bytes
  rw [hlost hflowing, hwire, Connection.pending, harriving, List.append_nil, List.append_nil] at hbytes
  cases hunheard : d.unheard with
  | nil =>
    have hsplit := heard_append_unheard d
    rwa [hunheard, List.append_nil] at hsplit
  | cons x rest =>
    rw [hunheard] at hbytes
    have hx : x ∈ d.unheard := by simp [hunheard]
    rw [hasPacket_of_bytes (h.valid x (List.mem_of_mem_drop hx)) hbytes] at hpacket
    contradiction

/-- A session does not fail as long as the server stays, takes what waits to be written, and says nothing
that is too long. -/
theorem Sound.step_ok (h : Sound settings d) {c : Connection} (hc : d.session.connection? = some c)
    (hflowing : c.stream.fate = .flowing)
    (hwritable : c.hasPendingWrites = true → c.isWritable = true)
    (hfits : ∀ x ∈ d.said, x.packet.payload.length ≤ settings.maxPayloadSize.toNat) :
    ∃ event s, d.session.step = (.ok event, s) := by
  have hphase := Session.connection?_eq_some_iff.1 hc
  obtain ⟨n, c₁, htransmit⟩ : ∃ n c₁, c.transmit = (.ok n, c₁) := by
    obtain ⟨n, c₁, htransmit, -⟩ | ⟨e, c₁, -, -, -, hpending, hbroken⟩ := c.transmit_cases
    · exact ⟨n, c₁, htransmit⟩
    · rw [hwritable hpending] at hbroken
      contradiction
  obtain ⟨hcarries, -, hmax⟩ := (h.carries c hc).transmit htransmit
  have hlimit := hmax.trans (h.sent c hc).1
  replace hflowing := (Connection.transmit_ok htransmit).2.2.2.1.trans hflowing
  have hsteady : c₁.Steady := ⟨.inl hflowing, hcarries.sawEnd⟩
  obtain ⟨r, c', hread, hsteady', hkept, -, hreading⟩ := Connection.read_steady hsteady
  have hok : ∀ p?, r = .ok p? → ∃ event s, d.session.step = (.ok event, s) := by
    rintro p? rfl
    cases p? with
    | none => exact ⟨_, _, by simp only [Session.step_eq, hphase, htransmit, hread]; rfl⟩
    | some p => exact ⟨_, _, by simp only [Session.step_eq, hphase, htransmit, hread]; rfl⟩
  cases hreading with
  | packet => exact hok _ rfl
  | nothing => exact hok _ rfl
  | severed hfault hframe hbytes hpending hend =>
    have hended := (hsteady'.sawEnd hend).1
    rw [hkept.fate, hflowing] at hended
    contradiction
  | @fault e hfault =>
    obtain ⟨more, hmore⟩ := Connection.buffered_prefix hsteady
    obtain ⟨lost, hbytes, -⟩ := hcarries.bytes
    have hall := Header.fault?_append hfault (more ++ lost)
    rw [← List.append_assoc, hmore, hbytes, hlimit] at hall
    cases hunheard : d.unheard with
    | nil =>
      rw [hunheard] at hall
      simp [Header.fault?, Header.size] at hall
    | cons x rest =>
      have hx : x ∈ d.said := List.mem_of_mem_drop (by rw [← unheard, hunheard]; exact List.mem_cons_self)
      have hdecode := Packet.decode_encode (h.valid x hx).length_lt (rest.flatMap (·.packet.encode))
      have hframe := Packet.frame?_eq_some.2 ⟨hdecode, hfits x hx⟩
      rw [hunheard, List.flatMap_cons] at hall
      rw [Packet.frame?_of_fault? hall] at hframe
      contradiction

/-- Reply correlation: what is reported is what the server has said, in order, and each reply goes to the
task whose request it answers, once. The queue holds the requests whose replies were not reported. As
long as the server stays, the session gets on until it has reported all that has arrived. -/
theorem replies_correlate {address : Address} (h : Reached address settings d) :
    d.reports = d.heard.map Said.event ∧
      d.answered <+: d.written ∧
      (d.written.map (·.task)).Nodup ∧
      d.reports.filterMap Session.Event.task? <+: d.written.map (·.task) ∧
      (d.session.isLive = true →
        d.session.awaiting = d.written.drop (d.reports.filterMap Session.Event.task?).length ∧
          (d.session.outgoing.filter (·.kind.isAnswered)).map (·.kind) = d.written.map (·.kind)) ∧
      (∀ p s, d.session.step = (.ok (some (.unsolicited p)), s) →
        s.awaiting = d.session.awaiting) ∧
      (∀ c, d.session.connection? = some c → c.stream.fate = .flowing →
          (c.hasPendingWrites = true → c.isWritable = true) →
          (∀ x ∈ d.said, x.packet.payload.length ≤ settings.maxPayloadSize.toNat) →
          ∃ event s, d.session.step = (.ok event, s) ∧
            (s.isReady = true → s.load < d.session.load)) ∧
      (d.session.isLive = true → d.wire = [] → d.session.isReady = false →
        d.reports = d.said.map Said.event ∧
          d.reports.filterMap Session.Event.task? = d.answered.map (·.task)) := by
  have hsound := h.sound
  refine ⟨hsound.reports, hsound.answered, hsound.nodup, ?_, ?_, ?_, ?_, ?_⟩
  · rw [hsound.replied]
    exact hsound.replied_prefix.map _
  · intro hlive
    obtain ⟨c, awaiting, hphase⟩ := Session.isLive_iff.1 hlive
    have hconnection : d.session.connection? = some c := by simp [Session.connection?, hphase]
    refine ⟨?_, ?_⟩
    · rw [hsound.replied, List.length_map]
      exact hsound.queue hlive
    · simpa [Session.outgoing, hconnection] using (hsound.sent c hconnection).2
  · exact fun p s hstep => Session.awaiting_of_step_unsolicited hstep
  · intro c hc hflowing hwritable hfits
    obtain ⟨event, s, hstep⟩ := hsound.step_ok hc hflowing hwritable hfits
    refine ⟨event, s, hstep, fun hready => ?_⟩
    cases event with
    | none => exact (Session.load_of_step_none hstep).2 hready
    | some event =>
      have hless := Session.load_of_step_some hstep
      simp only [Header.size] at hless
      omega
  · intro hlive hwire hidle
    have hall := hsound.heard_eq_said hlive hwire hidle
    refine ⟨by rw [hsound.reports, hall], ?_⟩
    rw [hsound.replied, hall, answered]

/-- A session that sends an echo request. The server takes five bytes of it at first and then, for a while,
no more. -/
def hailing : Session :=
  let opened := (({ address := .default, settings := {} } : Session).init true [.bytes 5, .blocked]).2
  (opened.send (.request .echoReq [1])).2.await ⟨0, .echoReq⟩

/-- The session once the server has made a remark and has answered. -/
def hailed : Session :=
  let wire := (Packet.response .noop []).encode ++ (Packet.response .echoRes [1]).encode
  (hailing.step.2.deliver ⟨.default, wire, .none⟩).1

theorem step_of_toOption {s : Session} {event : Option Session.Event}
    (h : s.step.1.toOption = some event) : s.step = (.ok event, s.step.2) := by
  rcases hstep : s.step with ⟨e | event', s'⟩
  · simp [hstep, Except.toOption] at h
  · simp only [hstep, Except.toOption, Option.some.injEq] at h
    rw [h]

/-- A server that takes an echo request in two pieces, and makes a remark before it answers. -/
theorem replies_correlate_echo : ∃ d, Reached Address.default {} d ∧
    d.reports = [.unsolicited (.response .noop []), .reply 0 (.response .echoRes [1])] ∧
    d.reports.filterMap Session.Event.task? <+: d.written.map (·.task) := by
  let task : Task Unit :=
    { id := 0, request := .request .echoReq [1], responder := none, isRequest_request := rfl }
  let _ : Responder Unit := ⟨fun _ _ => (.ok true, ())⟩
  have hblocked : hailing.step = (.ok none, hailing.step.2) := step_of_toOption (by decide +kernel)
  have hnoop : hailed.step = (.ok (some (.unsolicited (.response .noop []))), hailed.step.2) :=
    step_of_toOption (by decide +kernel)
  have hecho : hailed.step.2.step =
      (.ok (some (.reply 0 (.response .echoRes [1]))), hailed.step.2.step.2) :=
    step_of_toOption (by decide +kernel)
  have hawaiting : hailed.awaiting = [⟨0, .echoReq⟩] := by decide +kernel
  have hopened : Reached Address.default {} _ := .opened [.bytes 5, .blocked] rfl
  have hasked := hopened.next (.submitted (t := task) (s := hailing) rfl (by simp) rfl)
  have hwaiting := hasked.next (.driven hblocked nofun)
  have hremarked := hwaiting.next (.remarked _ (p := .response .noop []) (by decide))
  have hanswered := hremarked.next (.answered (p := .response .echoRes [1]) rfl rfl (by decide))
  have harrived := hanswered.next (.arrived _ 100 .none)
  have hheard := harrived.next (.driven hnoop fun _ p rest hnext a ha => by
    change a ∈ hailed.awaiting.head? at ha
    rw [hawaiting] at ha
    cases hnext
    cases ha
    rfl)
  have hreplied := hheard.next (.driven hecho fun _ p rest hnext => by cases hnext)
  obtain ⟨-, -, -, hprefix, -⟩ := replies_correlate hreplied
  exact ⟨_, hreplied, rfl, hprefix⟩

end Gearman.Dialogue
