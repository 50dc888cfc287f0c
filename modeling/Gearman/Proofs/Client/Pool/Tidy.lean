import Gearman.Proofs.Client.Effects
import Gearman.Proofs.Session.Tidy

/-!
All sessions of a client are tidy and have its settings, whatever it has been through.
-/

namespace Gearman.Client

variable {c c' : Client} {server : Address} {s : Session} {settings : ConnectionSettings}

@[simp]
theorem settings_retire (c : Client) (s : Session) : (c.retire s).settings = c.settings := by
  unfold retire
  split <;> rfl

theorem settings_shutdownNow (c : Client) : c.shutdownNow.settings = c.settings := by
  have hretire : ∀ (sessions : List Session) (c : Client),
      (sessions.foldl retire c).settings = c.settings := by
    intro sessions
    induction sessions with
    | nil => exact fun c => rfl
    | cons s rest ih => exact fun c => (ih _).trans (settings_retire c s)
  unfold shutdownNow
  split
  · rfl
  · exact hretire _ c

theorem settings_forget (c : Client) (server : Address) :
    (c.discard server).settings = c.settings ∧ (c.resetSession server).settings = c.settings := by
  constructor
  · unfold discard
    cases c.sessions.get? server with
    | none => rfl
    | some s => exact settings_retire c s
  · unfold resetSession
    cases c.sessions.get? server with
    | none => rfl
    | some s => exact settings_retire c s

structure Tidy (settings : ConnectionSettings) (c : Client) : Prop where
  configured : c.settings.connection = settings
  session : ∀ server s, c.sessions.get? server = some s → s.Tidy settings

theorem tidy_withSettings (settings : ClientSettings) :
    Tidy settings.connection (withSettings settings) :=
  ⟨rfl, by simp [withSettings]⟩

/-- Who has the settings and the sessions of a tidy client is tidy. -/
theorem Tidy.of_sessions (h : c.Tidy settings) (hsettings : c'.settings = c.settings)
    (hsessions : c'.sessions = c.sessions) : c'.Tidy settings where
  configured := by rw [hsettings, h.configured]
  session := by
    rw [hsessions]
    exact h.session

theorem Tidy.insert (h : c.Tidy settings) (hs : s.Tidy settings) (hsettings : c'.settings = c.settings)
    (hsessions : c'.sessions = c.sessions.insert server s) : c'.Tidy settings where
  configured := by rw [hsettings, h.configured]
  session other t ht := by
    rw [hsessions, Table.get?_insert] at ht
    split at ht
    · cases ht
      exact hs
    · exact h.session other t ht

theorem Tidy.discard (h : c.Tidy settings) (server : Address) : (c.discard server).Tidy settings where
  configured := by rw [(settings_forget c server).1, h.configured]
  session other t ht := by
    rw [sessions_discard, Table.get?_erase] at ht
    split at ht
    · contradiction
    · exact h.session other t ht

theorem Tidy.shutdownNow (h : c.Tidy settings) : c.shutdownNow.Tidy settings := by
  by_cases hstate : c.state = .terminated
  · rwa [shutdownNow_terminated hstate]
  · exact ⟨by rw [settings_shutdownNow, h.configured], by simp [(bare_shutdownNow hstate).sessions]⟩

/-- A session that is replaced may have been left in any state. -/
theorem Tidy.replace (h : c.Tidy settings) {s' : Session} {issued : Nat} :
    ({ c with sessions := c.sessions.insert server s', issued }.resetSession server).Tidy settings where
  configured := (congrArg ClientSettings.connection (settings_forget _ server).2).trans h.configured
  session other t ht := by
    rw [sessions_resetSession Table.get?_insert_self, Table.get?_insert] at ht
    split at ht
    · cases ht
      exact h.configured ▸ Session.tidy_unopened server c.settings.connection
    · next hne =>
      rw [Table.get?_insert_of_ne hne] at ht
      exact h.session other t ht

theorem Tidy.receive (h : c.Tidy settings) {r : Except Error (Option Session.Event)}
    (hr : c.receive server = (r, c')) : c'.Tidy settings := by
  cases r with
  | error e =>
    obtain ⟨s, s', hs, -, rfl⟩ := receive_error hr
    exact h.replace
  | ok event =>
    cases event with
    | none =>
      obtain rfl | ⟨s, s', hs, hstep, rfl⟩ := receive_none hr
      · exact h
      · exact h.insert ((h.session server s hs).step hstep) rfl rfl
    | some event =>
      obtain ⟨s, s', hs, hstep, rfl⟩ := receive_some hr
      exact h.insert ((h.session server s hs).step hstep) rfl rfl

theorem settings_handleReply (c : Client) (server : Address) (id : TaskId) (p : Packet) :
    (c.handleReply server id p).2.settings = c.settings := by
  obtain ⟨tasks, jobs, updates, heq⟩ := handleReply_frame c server id p
  rw [heq]

theorem settings_handleUpdate (c : Client) (server : Address) (p : Packet) :
    (c.handleUpdate server p).2.settings = c.settings := by
  obtain ⟨jobs, finished, updates, heq⟩ := handleUpdate_frame c server p
  rw [heq]

theorem Tidy.drive {log : History} (h : c.Tidy settings) (hstep : Drive c log c') :
    c'.Tidy settings := by
  cases hstep with
  | arrival a =>
    unfold Client.deliver
    split
    · exact h
    · next s hs => exact h.insert ((h.session _ s hs).deliver a) rfl rfl
  | idle hr => exact h.receive hr
  | failed hr => exact h.receive hr
  | reply hr =>
    exact (h.receive hr).of_sessions (settings_handleReply _ _ _ _) (sessions_handleReply _ _ _ _)
  | report hr =>
    exact (h.receive hr).of_sessions (settings_handleUpdate _ _ _) (sessions_handleUpdate _ _ _)
  | expelled hr => exact (h.receive hr).discard _
  | deserted => exact h.shutdownNow

theorem Tidy.session_of (h : c.Tidy settings) (env : Surroundings) (server : Address) :
    (c.session env server).2.Tidy settings := by
  unfold Client.session
  split
  · exact h
  · next s hs =>
    split
    · exact h
    · split
      · next s' hinit => exact h.insert ((h.session server s hs).init hinit) rfl rfl
      · next e s' hinit =>
        obtain rfl := Session.init_error hinit
        exact h.insert (h.session server _ hs) rfl rfl

theorem Tidy.ask (h : c.Tidy settings) (hs : c.sessions.get? server = some s) {task : Task Exchange}
    {r : Except Error TaskId} (hfresh : task.state = .fresh) (hask : c.ask server s task = (r, c')) :
    c'.Tidy settings := by
  have hsession := h.session server s hs
  unfold Client.ask at hask
  dsimp only at hask
  split at hask
  · next s' task' hsubmit =>
    cases hask
    exact h.insert (hsession.submit hsubmit hfresh).1 rfl rfl
  · next e s' task' hsubmit =>
    cases hask
    split
    · next he =>
      obtain rfl := Session.submit_tooLarge hsubmit hfresh he
      exact h.insert hsession rfl rfl
    · exact h.replace

theorem Tidy.step {log : History} (h : c.Tidy settings) (hstep : Step c log c') :
    c'.Tidy settings := by
  cases hstep with
  | drive hdrive => exact h.drive hdrive
  | added server =>
    unfold Client.addServer
    repeat' split
    · exact h
    · exact h
    · exact h.insert (h.configured ▸ Session.tidy_unopened server c.settings.connection) rfl rfl
  | removed => exact h.discard _
  | opened env server => exact h.session_of env server
  | asked hs hx htask hask => exact h.ask hs (new_ok htask).2.2.2 hask
  | refused hs htask hask => exact h.ask hs (new_ok htask).2.2.2 hask
  | severed hs htask hask => exact h.ask hs (new_ok htask).2.2.2 hask
  | released id => exact h.of_sessions rfl rfl
  | detached =>
    unfold detach
    split <;> exact h.of_sessions rfl rfl
  | collected hr =>
    simp only [takeResult, hr]
    exact h.of_sessions rfl rfl
  | drained => exact h.of_sessions rfl rfl
  | closing => exact h.of_sessions rfl rfl
  | ended => exact h.shutdownNow

theorem Tidy.chain {log : History} (h : c.Tidy settings) (hchain : Chain Step c log c') :
    c'.Tidy settings :=
  hchain.invariant (fun hstep hc => hc.step hstep) h

/-- Whatever a client has been through, it is tidy. -/
theorem tidy_of_chain {settings : ClientSettings} {log : History}
    (h : Chain Step (withSettings settings) log c) : c.Tidy c.settings.connection := by
  have htidy : c.Tidy settings.connection := (tidy_withSettings settings).chain h
  rwa [← htidy.configured] at htidy

end Gearman.Client
