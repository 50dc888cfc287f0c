import Gearman.Proofs.Client.Ledger
import Gearman.Proofs.Client.Pool.Step

/-!
Sessions that leave the pool, or their place in it. All of them are closed and put where they can still be
looked up. So a client that has lost a session shows it.
-/

namespace Gearman

namespace Session

/-- What is left of a session that leaves the pool. -/
def remains (s : Session) : List Session := if s.wasOpened then [s.teardown] else []

theorem isClosed_of_mem_remains {s t : Session} (h : t ∈ s.remains) : t.isClosed = true := by
  unfold remains at h
  split at h
  · rw [List.mem_singleton.1 h]
    rfl
  · simp at h

theorem teardown_mem_remains {s : Session} (h : s.wasOpened = true) : s.teardown ∈ s.remains := by
  simp [remains, h]

theorem wasOpened_of_isLive {s : Session} (h : s.isLive = true) : s.wasOpened = true := by
  obtain ⟨connection, awaiting, hphase⟩ := isLive_iff.1 h
  simp [wasOpened, hphase]

theorem wasOpened_of_step_error {s s' : Session} {e : Error} (h : s.step = (.error e, s'))
    (hlive : s.isLive = true) : s'.wasOpened = true ∧ s'.address = s.address := by
  obtain ⟨connection, awaiting, hphase⟩ := isLive_iff.1 hlive
  simp only [step_eq, hphase] at h
  repeat' split at h
  all_goals
    cases h
    try exact ⟨rfl, rfl⟩

theorem wasOpened_of_submit_error {η : Type} [Responder η] {s s' : Session} {t t' : Task η} {e : Error}
    (h : s.submit t = (.error e, s', t')) (hfresh : t.state = .fresh) (hlive : s.isLive = true) :
    s'.wasOpened = true ∧ s'.address = s.address := by
  rw [submit_eq_send] at h
  split at h
  · next hsend =>
    cases h
    rw [send_eq] at hsend
    repeat' split at hsend
    all_goals cases hsend
    · exact ⟨wasOpened_of_isLive hlive, rfl⟩
    · exact ⟨rfl, rfl⟩
    · exact ⟨wasOpened_of_isLive hlive, rfl⟩
  · simp only [Task.deliver_request hfresh] at h
    split at h <;> simp_all

end Session

namespace Client

variable {c c' c'' : Client} {server : Address} {log : History}

/-- From `c` to `c'` the sessions `closed` have left the pool, and all of them were closed. -/
structure Closes (c : Client) (closed : List Session) (c' : Client) : Prop where
  retired : c'.retired = c.retired ++ closed
  isClosed : ∀ s ∈ closed, s.isClosed = true
  live : ∀ server, c.IsLiveAt server → c'.IsLiveAt server ∨ ∃ s ∈ closed, s.address = server

theorem Closes.of_live (hretired : c'.retired = c.retired)
    (hlive : ∀ server, c.IsLiveAt server → c'.IsLiveAt server) : Closes c [] c' where
  retired := by rw [hretired, List.append_nil]
  isClosed := by simp
  live server h := .inl (hlive server h)

theorem Closes.refl (c : Client) : Closes c [] c := .of_live rfl fun _ => id

theorem Closes.trans {closed closed' : List Session} (h : Closes c closed c')
    (h' : Closes c' closed' c'') : Closes c (closed ++ closed') c'' where
  retired := by rw [h'.retired, h.retired, List.append_assoc]
  isClosed s hs := (List.mem_append.1 hs).elim (h.isClosed s) (h'.isClosed s)
  live server hlive := by
    rcases h.live server hlive with hlive' | ⟨s, hs, haddress⟩
    · refine (h'.live server hlive').imp_right ?_
      rintro ⟨s, hs, haddress⟩
      exact ⟨s, List.mem_append_right _ hs, haddress⟩
    · exact .inr ⟨s, List.mem_append_left _ hs, haddress⟩

theorem retired_retire (c : Client) (s : Session) : (c.retire s).retired = c.retired ++ s.remains := by
  unfold retire Session.remains
  split <;> simp

theorem retired_foldl_retire (sessions : List Session) (c : Client) :
    (sessions.foldl retire c).retired = c.retired ++ sessions.flatMap Session.remains := by
  induction sessions generalizing c with
  | nil => simp
  | cons s rest ih =>
    rw [List.foldl_cons, ih, retired_retire, List.flatMap_cons, List.append_assoc]

/-- A session leaves the pool, or its place in it, in the state `s`. -/
theorem Closes.of_remains {s : Session}
    (hs : c.IsLiveAt server → s.wasOpened = true ∧ s.address = server)
    (hretired : c'.retired = c.retired ++ s.remains)
    (hother : ∀ other, other ≠ server → c'.sessions.get? other = c.sessions.get? other) :
    Closes c s.remains c' where
  retired := hretired
  isClosed t ht := Session.isClosed_of_mem_remains ht
  live other hlive := by
    by_cases heq : other = server
    · subst heq
      obtain ⟨hopened, haddress⟩ := hs hlive
      exact .inr ⟨s.teardown, Session.teardown_mem_remains hopened, haddress⟩
    · obtain ⟨t, ht, htlive⟩ := hlive
      exact .inl ⟨t, (hother other heq).trans ht, htlive⟩

theorem Sound.closes_discard (h : Sound c) (server : Address) :
    ∃ closed, Closes c closed (c.discard server) := by
  have hother := (lost_discard c server).session_of_ne
  cases hs : c.sessions.get? server with
  | none =>
    refine ⟨[], .of_live ?_ fun other hlive => ?_⟩
    · simp [discard, hs, forgetServer]
    · obtain ⟨t, ht, htlive⟩ := hlive
      refine ⟨t, (hother other ?_).trans ht, htlive⟩
      rintro rfl
      rw [hs] at ht
      contradiction
  | some s =>
    refine ⟨_, .of_remains (s := s) ?_ ?_ hother⟩
    · rintro ⟨t, ht, htlive⟩
      obtain rfl := Option.some.inj (hs.symm.trans ht)
      exact ⟨Session.wasOpened_of_isLive htlive, (h.session server _ hs).1⟩
    · simp [discard, hs, forgetServer, retired_retire]

theorem closes_shutdownNow (h : Sound c) : ∃ closed, Closes c closed c.shutdownNow := by
  by_cases hstate : c.state = .terminated
  · rw [shutdownNow_terminated hstate]
    exact ⟨[], .refl c⟩
  · refine ⟨c.sessions.values.flatMap Session.remains, ?_, fun s hs => ?_, fun server hlive => ?_⟩
    · simp [shutdownNow, isTerminated, hstate, retired_foldl_retire]
    · obtain ⟨t, -, ht⟩ := List.mem_flatMap.1 hs
      exact Session.isClosed_of_mem_remains ht
    · obtain ⟨s, hs, hslive⟩ := hlive
      refine .inr ⟨s.teardown, List.mem_flatMap.2 ⟨s, ?_, ?_⟩, (h.session server s hs).1⟩
      · exact List.mem_map.2 ⟨_, Table.mem_entries_of_get? hs, rfl⟩
      · exact Session.teardown_mem_remains (Session.wasOpened_of_isLive hslive)

/-- What happens to one session alone leaves the others alive. -/
theorem closes_insert {s s' : Session} (hs : c.sessions.get? server = some s)
    (hlive : s.isLive = true → s'.isLive = true) :
    Closes c [] { c with sessions := c.sessions.insert server s' } := by
  refine .of_live rfl fun other => IsLiveAt.insert rfl ?_
  rintro ⟨t, ht, htlive⟩
  obtain rfl := Option.some.inj (hs.symm.trans ht)
  exact hlive htlive

theorem closes_receive {event : Option Session.Event} (h : c.receive server = (.ok event, c')) :
    Closes c [] c' := by
  cases event with
  | none =>
    obtain rfl | ⟨s, s', hs, hstep, rfl⟩ := receive_none h
    · exact .refl _
    · exact closes_insert hs fun _ => (Session.isLive_of_step hstep).2.1
  | some event =>
    obtain ⟨s, s', hs, hstep, rfl⟩ := receive_some h
    exact closes_insert hs fun _ => (Session.isLive_of_step hstep).2.1

theorem Sound.closes_failed (h : Sound c) {err : Error} (hr : c.receive server = (.error err, c')) :
    ∃ closed, Closes c closed c' := by
  obtain ⟨s, s', hs, hstep, rfl⟩ := receive_error hr
  refine ⟨_, .of_remains (s := s') ?_ ?_ (lost_of_receive hr).session_of_ne⟩
  · rintro ⟨t, ht, htlive⟩
    obtain rfl := Option.some.inj (hs.symm.trans ht)
    obtain ⟨hopened, haddress⟩ := Session.wasOpened_of_step_error hstep htlive
    exact ⟨hopened, haddress.trans (h.session server _ hs).1⟩
  · simp [resetSession, Table.get?_insert_self, forgetServer, retired_retire]

theorem Sound.closes_severed (h : Sound c) {s : Session} {task : Task Exchange} {err : Error}
    (hs : c.sessions.get? server = some s) (hfresh : task.state = .fresh)
    (hask : c.ask server s task = (.error err, c')) (herr : err.isTooLarge = false) :
    ∃ closed, Closes c closed c' := by
  have hother := (ask_severed hs hask herr).session_of_ne
  unfold ask at hask
  dsimp only at hask
  split at hask
  · simp at hask
  · next s' task' hsubmit =>
    cases hask
    rw [if_neg (by simp [herr])] at hother ⊢
    refine ⟨_, .of_remains (s := s') ?_ ?_ hother⟩
    · rintro ⟨t, ht, htlive⟩
      obtain rfl := Option.some.inj (hs.symm.trans ht)
      obtain ⟨hopened, haddress⟩ := Session.wasOpened_of_submit_error hsubmit hfresh htlive
      exact ⟨hopened, haddress.trans (h.session server _ hs).1⟩
    · simp [resetSession, Table.get?_insert_self, forgetServer, retired_retire]

theorem retired_handleReply (c : Client) (server : Address) (id : TaskId) (p : Packet) :
    (c.handleReply server id p).2.retired = c.retired := by
  obtain ⟨tasks, jobs, updates, heq⟩ := handleReply_frame c server id p
  rw [heq]

theorem retired_handleUpdate (c : Client) (server : Address) (p : Packet) :
    (c.handleUpdate server p).2.retired = c.retired := by
  obtain ⟨jobs, finished, updates, heq⟩ := handleUpdate_frame c server p
  rw [heq]

theorem Closes.of_sessions (hretired : c'.retired = c.retired) (hsessions : c'.sessions = c.sessions) :
    Closes c [] c' :=
  .of_live hretired fun server hlive => by rwa [IsLiveAt, hsessions]

/-- Whatever servers bring about, a session that leaves the pool is closed. -/
theorem Sound.closes_drive (h : Sound c) (hstep : Drive c log c') : ∃ closed, Closes c closed c' := by
  cases hstep with
  | arrival a =>
    unfold Client.deliver
    split
    · exact ⟨[], .refl c⟩
    · next s hs => exact ⟨[], closes_insert hs fun hlive => (s.deliver_eq a).2.1.trans hlive⟩
  | idle hr => exact ⟨[], closes_receive hr⟩
  | failed hr => exact h.closes_failed hr
  | reply hr =>
    exact ⟨_, (closes_receive hr).trans
      (.of_sessions (retired_handleReply _ _ _ _) (sessions_handleReply _ _ _ _))⟩
  | report hr =>
    exact ⟨_, (closes_receive hr).trans
      (.of_sessions (retired_handleUpdate _ _ _) (sessions_handleUpdate _ _ _))⟩
  | @expelled _ server _ hr =>
    obtain ⟨closed, hclosed⟩ := (h.receive_unsolicited hr).closes_discard server
    exact ⟨_, (closes_receive hr).trans hclosed⟩
  | deserted => exact closes_shutdownNow h

/-- Whatever happens to a client, a session that leaves the pool is closed. -/
theorem Sound.closes_step (h : Sound c) (hstep : Step c log c') : ∃ closed, Closes c closed c' := by
  cases hstep with
  | drive hdrive => exact h.closes_drive hdrive
  | added server =>
    unfold Client.addServer
    repeat' split
    · exact ⟨[], .refl c⟩
    · exact ⟨[], .refl c⟩
    · next hnew =>
      refine ⟨[], .of_live rfl fun other => IsLiveAt.insert rfl ?_⟩
      rintro ⟨s, hs, -⟩
      simp [hasServer, Table.contains, hs] at hnew
  | removed => exact h.closes_discard _
  | opened env server =>
    unfold Client.session
    split
    · exact ⟨[], .refl c⟩
    · next s hs =>
      split
      · exact ⟨[], .refl c⟩
      · next hdead =>
        split
        all_goals exact ⟨[], closes_insert hs fun hlive => absurd hlive hdead⟩
  | asked hs hx htask hask =>
    obtain ⟨-, s', pending, hlive, -, -, -, -, -, rfl⟩ := ask_waiting hx htask hask
    exact ⟨[], .of_live rfl fun other => IsLiveAt.insert rfl fun _ => hlive⟩
  | @refused _ server s _ _ _ _ hs htask hask he =>
    rw [ask_refused hask (new_ok htask).2.2.2 he]
    refine ⟨[], .of_live rfl fun other => IsLiveAt.insert rfl ?_⟩
    rintro ⟨t, ht, hlive⟩
    obtain rfl : s = t := Option.some.inj (hs.symm.trans ht)
    exact hlive
  | severed hs htask hask he => exact h.closes_severed hs (new_ok htask).2.2.2 hask he
  | released id => exact ⟨[], .of_sessions rfl rfl⟩
  | detached =>
    refine ⟨[], ?_⟩
    unfold Client.detach
    split <;> exact .of_sessions rfl rfl
  | collected hr =>
    refine ⟨[], ?_⟩
    simp only [Client.takeResult, hr]
    exact .of_sessions rfl rfl
  | drained => exact ⟨[], .of_sessions rfl rfl⟩
  | closing => exact ⟨[], .of_sessions rfl rfl⟩
  | ended => exact closes_shutdownNow h

theorem Sound.closes_chain (h : Sound c) (hchain : Chain Step c log c') :
    ∃ closed, Closes c closed c' := by
  induction hchain with
  | refl => exact ⟨[], .refl c⟩
  | tail hlog hstep ih =>
    obtain ⟨closed, hclosed⟩ := ih
    obtain ⟨closed', hclosed'⟩ := (h.chain hlog).closes_step hstep
    exact ⟨_, hclosed.trans hclosed'⟩

/-- A session that was lost is not live. -/
theorem not_isLiveAt_of_forgets (hsound : Sound c) (h : Step c log c') {e : Happening} (he : e ∈ log)
    (hforgets : e.forgets server = true) : ¬ c'.IsLiveAt server := by
  have hlost : ∀ {c c' : Client} {other}, Lost other c c' →
      (Happening.forgotten other).forgets server = true → ¬ c'.IsLiveAt server := by
    rintro c c' other hlost hforgets ⟨s, hs, hlive⟩
    obtain rfl : other = server := by simpa [Happening.forgets] using hforgets
    rcases hlost.session with hnone | ⟨-, settings, hfresh⟩
    · rw [hnone] at hs
      contradiction
    · rw [hfresh] at hs
      cases hs
      contradiction
  have hended : ¬ c.shutdownNow.IsLiveAt server := by
    rintro ⟨s, hs, -⟩
    rw [(hsound.shutdownNow.bare (state_shutdownNow c)).sessions] at hs
    contradiction
  cases h with
  | drive hdrive =>
    cases hdrive with
    | failed hr => exact hlost (lost_of_receive hr) (List.mem_singleton.1 he ▸ hforgets)
    | expelled hr =>
      rcases List.mem_cons.1 he with rfl | he
      · contradiction
      · exact hlost (lost_discard _ _) (List.mem_singleton.1 he ▸ hforgets)
    | deserted => exact hended
    | _ =>
      simp only [List.not_mem_nil, List.mem_singleton] at he
      all_goals
        subst he
        contradiction
  | removed => exact hlost (lost_discard _ _) (List.mem_singleton.1 he ▸ hforgets)
  | severed hs htask hask hsize =>
    exact hlost (ask_severed hs hask hsize) (List.mem_singleton.1 he ▸ hforgets)
  | ended => exact hended
  | _ =>
    simp only [List.not_mem_nil, List.mem_singleton] at he
    all_goals
      subst he
      contradiction

/-- No session of the server has left its place in the pool from `c` to `c'`. -/
def KeepsSession (server : Address) (c c' : Client) : Prop :=
  ∀ s ∈ c'.retired.drop c.retired.length, s.address ≠ server

/-- A session that is live and keeps its place was never lost. -/
theorem Sound.kept_of_keepsSession (h : Sound c) (hlive : c.IsLiveAt server) (hchain : Chain Step c log c')
    (hkeeps : KeepsSession server c c') : ∀ e ∈ log, e.forgets server = false := by
  suffices ∃ closed, Closes c closed c' ∧ ((∀ s ∈ closed, s.address ≠ server) →
      c'.IsLiveAt server ∧ ∀ e ∈ log, e.forgets server = false) by
    obtain ⟨closed, hclosed, hkept⟩ := this
    refine (hkept fun s hs => hkeeps s ?_).2
    rw [hclosed.retired, List.drop_left]
    exact hs
  clear hkeeps
  induction hchain with
  | refl => exact ⟨[], .refl c, fun _ => ⟨hlive, by simp⟩⟩
  | @tail c₁ c₂ past new hpast hstep ih =>
    obtain ⟨closed, hclosed, hkept⟩ := ih
    obtain ⟨closed', hclosed'⟩ := (h.chain hpast).closes_step hstep
    refine ⟨_, hclosed.trans hclosed', fun hother => ?_⟩
    obtain ⟨hlive₁, hpast_kept⟩ := hkept fun s hs => hother s (List.mem_append_left _ hs)
    have hlive₂ : c₂.IsLiveAt server := by
      refine (hclosed'.live server hlive₁).resolve_right ?_
      rintro ⟨s, hs, haddress⟩
      exact hother s (List.mem_append_right _ hs) haddress
    refine ⟨hlive₂, fun e he => (List.mem_append.1 he).elim (hpast_kept e) fun he => ?_⟩
    refine Bool.eq_false_iff.2 fun hforgets => ?_
    exact not_isLiveAt_of_forgets (h.chain hpast) hstep he hforgets hlive₂

end Client

end Gearman
