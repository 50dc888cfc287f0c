import Gearman.Proofs.Session.Wire

/-!
Every step leaves a dialogue sound.
-/

namespace Gearman.Dialogue

variable {settings : ConnectionSettings} {d : Dialogue}

theorem heard_append_unheard (d : Dialogue) : d.heard ++ d.unheard = d.said := List.take_append_drop ..

theorem Sound.reports_le (h : Sound settings d) : d.reports.length ≤ d.said.length := by
  have hlength := congrArg List.length h.reports
  simp only [heard, List.length_map, List.length_take] at hlength
  omega

/-- The requests whose answers were heard are the oldest ones. -/
theorem Sound.replied_prefix (h : Sound settings d) :
    d.heard.filterMap Said.request? <+: d.written :=
  ((List.take_prefix _ _).filterMap _).trans h.answered

theorem Sound.of_not_isLive (h : Sound settings d) {s : Session} (hdead : s.isLive = false) :
    Sound settings { d with session := s } where
  valid := h.valid
  answered := h.answered
  nodup := h.nodup
  reports := h.reports
  queue hlive := by
    rw [hdead] at hlive
    contradiction
  carries c hc := by
    rw [Session.connection?_eq_none hdead] at hc
    contradiction
  sent c hc := by
    rw [Session.connection?_eq_none hdead] at hc
    contradiction

theorem Sound.opened {address : Address} {uptakes : List Uptake} {s : Session}
    (h : ({ address, settings } : Session).init true uptakes = (.ok (), s)) :
    Sound settings { session := s } := by
  cases h
  refine ⟨by simp, List.nil_prefix, List.nodup_nil, rfl, fun _ => rfl, ?_, ?_⟩
  · intro c hc
    cases hc
    exact ⟨by simp [Connection.fresh], by simp [Connection.fresh], [], rfl, fun _ => rfl⟩
  · intro c hc
    cases hc
    exact ⟨rfl, rfl⟩

/-- A packet that was sent has gone out or waits, and nothing else has changed. -/
theorem Sound.send (h : Sound settings d) {p : Packet} {s : Session}
    (hsend : d.session.send p = (.ok (), s)) : s.isLive = true ∧ s.awaiting = d.session.awaiting ∧
      ∀ c', s.connection? = some c' → Carries c' d.wire d.unheard ∧
        c'.maxPayload = settings.maxPayloadSize ∧
        (c'.outgoing.filter (·.kind.isAnswered)).map (·.kind) =
          d.written.map (·.kind) ++ if p.kind.isAnswered then [p.kind] else [] := by
  obtain ⟨c, c', awaiting, n, hphase, hwrite, rfl⟩ := Session.send_ok hsend
  refine ⟨rfl, by simp [Session.awaiting, hphase], fun c₁ hc₁ => ?_⟩
  obtain rfl : c' = c₁ := by simpa [Session.connection?] using hc₁
  have hconnection : d.session.connection? = some c := by simp [Session.connection?, hphase]
  obtain ⟨hcarries, houtgoing, hlimit⟩ := (h.carries c hconnection).write hwrite
  obtain ⟨hmax, hkinds⟩ := h.sent c hconnection
  refine ⟨hcarries, hlimit.trans hmax, ?_⟩
  rw [houtgoing, List.filter_append, List.map_append, hkinds]
  cases hp : p.kind.isAnswered <;> simp [hp]

theorem Sound.submitted (h : Sound settings d) {η : Type} [Responder η] {t t' : Task η} {s : Session}
    (hfresh : t.state = .fresh) (hid : ∀ a ∈ d.written, a.task ≠ t.id)
    (hsubmit : d.session.submit t = (.ok (), s, t')) :
    Sound settings { d with session := s, written := d.written ++ Session.awaitedOf t } := by
  obtain ⟨s₁, hsend, hlive, hlive', -, hawaiting, -, hconnection⟩ := Session.submit_ok hsubmit hfresh
  obtain ⟨-, -, hcarries⟩ := h.send hsend
  refine ⟨h.valid, h.answered.trans (List.prefix_append _ _), ?_, h.reports, ?_, ?_, ?_⟩
  · have hnew : ∀ a ∈ Session.awaitedOf t, a.task = t.id := by
      unfold Session.awaitedOf
      split <;> simp
    have hnodup : ((Session.awaitedOf t).map (·.task)).Nodup := by
      unfold Session.awaitedOf
      split <;> simp
    rw [List.map_append, List.nodup_append]
    refine ⟨h.nodup, hnodup, fun id hold id' hnew' heq => ?_⟩
    obtain ⟨a, ha, rfl⟩ := List.mem_map.1 hold
    obtain ⟨b, hb, rfl⟩ := List.mem_map.1 hnew'
    exact hid a ha (heq.trans (hnew b hb))
  · intro _
    have hle := h.replied_prefix.length_le
    rw [hawaiting, h.queue hlive]
    exact (List.drop_append_of_le_length hle).symm
  · intro c hc
    exact (hcarries c (hconnection ▸ hc)).1
  · intro c hc
    obtain ⟨-, hlimit, hkinds⟩ := hcarries c (hconnection ▸ hc)
    refine ⟨hlimit, ?_⟩
    rw [hkinds, List.map_append]
    unfold Session.awaitedOf
    split <;> rfl

theorem Sound.sent_step (h : Sound settings d) {p : Packet} (hp : p.kind.isAnswered = false) :
    Sound settings { d with session := (d.session.send p).2 } := by
  cases hsend : d.session.send p with
  | mk r s =>
    cases r with
    | error e =>
      rcases Session.send_error hsend with rfl | hdead
      · exact h
      · exact h.of_not_isLive hdead
    | ok _ =>
      obtain ⟨-, hawaiting, hcarries⟩ := h.send hsend
      obtain ⟨c, c', awaiting, n, hphase, -, -⟩ := Session.send_ok hsend
      refine ⟨h.valid, h.answered, h.nodup, h.reports, ?_, ?_, ?_⟩
      · intro _
        rw [hawaiting]
        exact h.queue (Session.isLive_iff.2 ⟨c, awaiting, hphase⟩)
      · intro c hc
        exact (hcarries c hc).1
      · intro c hc
        obtain ⟨-, hlimit, hkinds⟩ := hcarries c hc
        rw [hp] at hkinds
        exact ⟨hlimit, by simpa using hkinds⟩

theorem Sound.said (h : Sound settings d) {x : Said} (hx : x.Valid)
    (hanswered : d.answered ++ x.request?.toList <+: d.written) :
    Sound settings { d with said := d.said ++ [x], wire := d.wire ++ x.packet.encode } := by
  have hle := h.reports_le
  have hheard : (d.said ++ [x]).take d.reports.length = d.heard :=
    List.take_append_of_le_length hle
  have hunheard : (d.said ++ [x]).drop d.reports.length = d.unheard ++ [x] :=
    List.drop_append_of_le_length hle
  refine ⟨?_, ?_, h.nodup, ?_, ?_, ?_, h.sent⟩
  · intro y hy
    rw [List.mem_append, List.mem_singleton] at hy
    rcases hy with hy | rfl
    · exact h.valid y hy
    · exact hx
  · simp only [Dialogue.answered, List.filterMap_append]
    cases hrequest : x.request? <;> simpa [hrequest, Dialogue.answered] using hanswered
  · rw [heard, hheard]
    exact h.reports
  · rw [heard, hheard]
    exact h.queue
  · intro c hc
    obtain ⟨hfate, hsaw, lost, hbytes, hwire⟩ := h.carries c hc
    rw [unheard, hunheard]
    refine ⟨hfate, hsaw, lost ++ x.packet.encode, ?_, fun hflowing => ?_⟩
    · rw [← List.append_assoc, hbytes]
      simp
    · rw [hwire hflowing]

theorem Sound.arrived (h : Sound settings d) (n : Nat) (ending : Ending) :
    Sound settings { d with
      session := (d.session.deliver ⟨d.session.address, d.wire.take n, ending⟩).1
      wire := d.wire.drop n } := by
  cases hlive : d.session.isLive with
  | false =>
    obtain ⟨-, hsame, -, -⟩ := d.session.deliver_eq ⟨d.session.address, d.wire.take n, ending⟩
    have hdead := (h.of_not_isLive (hsame.trans hlive))
    exact { hdead with
      carries := fun c hc => by
        rw [Session.connection?_eq_none (hsame.trans hlive)] at hc
        contradiction }
  | true =>
    obtain ⟨c, awaiting, hphase⟩ := Session.isLive_iff.1 hlive
    have hconnection : d.session.connection? = some c := by simp [Session.connection?, hphase]
    have hqueue := h.queue hlive
    rw [Session.awaiting, hphase] at hqueue
    simp only [Session.deliver_eq_connection, hphase]
    refine ⟨h.valid, h.answered, h.nodup, h.reports, fun _ => hqueue, ?_, ?_⟩
    · intro c' hc'
      cases hc'
      exact (h.carries c hconnection).deliver d.session.address n ending
    · intro c' hc'
      cases hc'
      obtain ⟨hlimit, hkinds⟩ := h.sent c hconnection
      unfold Connection.deliver Stream.deliver?
      cases c.stream.fate with
      | flowing => cases ending <;> exact ⟨hlimit, hkinds⟩
      | ended => exact ⟨hlimit, hkinds⟩
      | reset noticed => exact ⟨hlimit, hkinds⟩

/-- The oldest request is the one that the next answer answers, and no remark is taken for an answer. -/
theorem Sound.classify (h : Sound settings d) (hlive : d.session.isLive = true) {x : Said}
    {rest : List Said} (hunheard : d.unheard = x :: rest) (hclear : d.Unmistakable) :
    Session.classify d.session.awaiting x.packet =
      (x.event, d.written.drop ((d.heard ++ [x]).filterMap Said.request?).length) := by
  have hsaid : d.heard ++ x :: rest = d.said := by rw [← hunheard, heard_append_unheard]
  have hqueue := h.queue hlive
  rw [List.filterMap_append, List.length_append]
  cases x with
  | answer a p =>
    have hanswered : d.heard.filterMap Said.request? ++ a :: rest.filterMap Said.request? <+:
        d.written := by
      have hprefix := h.answered
      simpa [Dialogue.answered, ← hsaid, Said.request?] using hprefix
    obtain ⟨later, hwritten⟩ := hanswered
    have hmem : Said.answer a p ∈ d.said := by simp [← hsaid]
    have hreply := (h.valid _ hmem).isReply a p rfl
    have hlast : ([Said.answer a p].filterMap Said.request?).length = 1 := rfl
    rw [hqueue, hlast, ← hwritten]
    simp [Session.classify, Said.packet, Said.event, hreply, ← List.drop_drop]
  | remark p =>
    have hnone := hclear p rest hunheard
    have hlast : ([Said.remark p].filterMap Said.request?).length = 0 := rfl
    rw [hlast, Nat.add_zero, ← hqueue]
    cases hawaiting : d.session.awaiting with
    | nil => rfl
    | cons a older =>
      have hno : Session.isReply p a = false := hnone a (by simp [hawaiting])
      simp [Session.classify, Said.packet, Said.event, hno]

theorem heard_succ {x : Said} {rest : List Said} (hunheard : d.unheard = x :: rest) :
    d.said.take (d.reports.length + 1) = d.heard ++ [x] ∧
      d.said.drop (d.reports.length + 1) = rest := by
  rw [unheard] at hunheard
  refine ⟨?_, ?_⟩
  · rw [List.take_add, hunheard]
    rfl
  · rw [← List.drop_drop, hunheard]
    rfl

/-- A step of the session reports the next thing that it hears, if it hears anything. -/
theorem Sound.driven (h : Sound settings d) {event : Option Session.Event} {s : Session}
    (hstep : d.session.step = (.ok event, s)) (hclear : event.isSome = true → d.Unmistakable) :
    Sound settings { d with session := s, reports := d.reports ++ event.toList } := by
  obtain ⟨c, c₁, c', awaiting, n, hphase, htransmit, hcase⟩ := Session.step_ok hstep
  have hlive : d.session.isLive = true := Session.isLive_iff.2 ⟨c, awaiting, hphase⟩
  have hconnection : d.session.connection? = some c := by simp [Session.connection?, hphase]
  have hawaiting : d.session.awaiting = awaiting := by simp [Session.awaiting, hphase]
  obtain ⟨hlimit₀, hkinds₀⟩ := h.sent c hconnection
  obtain ⟨hcarries, houtgoing, hmax⟩ := (h.carries c hconnection).transmit htransmit
  have hlimit := hmax.trans hlimit₀
  have hkinds := houtgoing ▸ hkinds₀
  have hvalid : ∀ x ∈ d.unheard, x.Valid := fun x hx => h.valid x (List.mem_of_mem_drop hx)
  rcases hcase with ⟨hread, rfl, rfl⟩ | ⟨p, hread, rfl, rfl⟩
  · obtain ⟨hkept, ⟨-, hcarries'⟩ | ⟨x, rest, -, hnone, -⟩⟩ := hcarries.read hvalid hread
    · simp only [Option.toList_none, List.append_nil]
      refine ⟨h.valid, h.answered, h.nodup, h.reports, fun _ => ?_, ?_, ?_⟩
      · have hqueue := h.queue hlive
        rwa [hawaiting] at hqueue
      · intro c₂ hc₂
        cases hc₂
        exact hcarries'
      · intro c₂ hc₂
        cases hc₂
        exact ⟨hkept.maxPayload.trans hlimit, by rw [hkept.outgoing]; exact hkinds⟩
    · contradiction
  · obtain ⟨hkept, ⟨hnone, -⟩ | ⟨x, rest, hunheard, hp, hcarries'⟩⟩ := hcarries.read hvalid hread
    · contradiction
    · obtain rfl : p = x.packet := by simpa using hp
      have hclassify := h.classify hlive hunheard (hclear rfl)
      rw [hawaiting] at hclassify
      obtain ⟨hheard', hunheard'⟩ := heard_succ hunheard
      rw [hclassify]
      refine ⟨h.valid, h.answered, h.nodup, ?_, fun _ => ?_, ?_, ?_⟩
      · simp only [heard, Option.toList_some, List.length_append, List.length_singleton]
        rw [hheard', List.map_append, ← h.reports]
        rfl
      · simp only [heard, Option.toList_some, List.length_append, List.length_singleton]
        rw [hheard']
        rfl
      · intro c₂ hc₂
        cases hc₂
        simp only [unheard, Option.toList_some, List.length_append, List.length_singleton]
        rw [hunheard']
        exact hcarries'
      · intro c₂ hc₂
        cases hc₂
        exact ⟨hkept.maxPayload.trans hlimit, by rw [hkept.outgoing]; exact hkinds⟩

theorem Sound.step {d' : Dialogue} (h : Sound settings d) (hstep : Step d d') : Sound settings d' := by
  cases hstep with
  | submitted hfresh hid hsubmit => exact h.submitted hfresh hid hsubmit
  | refused hfresh hsubmit =>
    rcases Session.submit_error hsubmit hfresh with rfl | hdead
    · exact h
    · exact h.of_not_isLive hdead
  | sent _ hp => exact h.sent_step hp
  | @answered _ a rest p howed hreply hlength =>
    refine h.said (x := .answer a p) ⟨hlength, fun b q heq => ?_⟩ ?_
    · cases heq
      exact hreply
    · have hall := List.prefix_iff_eq_append.1 h.answered
      rw [howed] at hall
      exact ⟨rest, by simpa [Said.request?] using hall⟩
  | @remarked _ p hlength =>
    refine h.said (x := .remark p) ⟨hlength, fun b q heq => by cases heq⟩ ?_
    simpa [Said.request?] using h.answered
  | arrived _ n ending => exact h.arrived n ending
  | driven hstep hclear => exact h.driven hstep hclear
  | failed hstep => exact h.of_not_isLive (Session.step_error hstep)

theorem Reached.sound {address : Address} (h : Reached address settings d) : Sound settings d := by
  induction h with
  | opened _ hinit => exact .opened hinit
  | next h hstep ih => exact ih.step hstep

end Gearman.Dialogue
