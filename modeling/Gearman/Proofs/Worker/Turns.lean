import Gearman.Proofs.Worker.Soundness

/-!
Workers and servers take turns: a worker has one request under way to each server at most, and sends
the next one after the answer. So nothing that a server sends ends the work with a fault.
-/

namespace Gearman

/-- A member between two packets: its session awaits the answer to the outstanding request and to
nothing else, and that request has not failed. -/
structure Member.InTurn (m : Member) : Prop where
  live : m.session.isLive = true
  awaiting : m.session.awaiting.map (·.task) = (m.outstanding.map (·.id)).toList
  empty : m.session.awaiting = [] ↔ m.outstanding = none
  once : m.session.awaiting.length ≤ 1
  task : ∀ t, m.outstanding = some t → t.Open

theorem Member.Sound.inTurn {limit : UInt32} {m : Member} (h : m.Sound limit) : m.InTurn where
  live := h.session.isLive
  awaiting := by
    rw [h.session.awaiting_eq]
    cases m.outstanding <;> rfl
  empty := by
    rw [h.session.awaiting_eq]
    cases m.outstanding <;> simp
  once := by
    rw [h.session.awaiting_eq]
    cases m.outstanding <;> simp
  task := h.task

namespace Worker

variable {limit : UInt32} {w w₁ : Worker} {server : Address}

theorem Sound.dispatch_ok (hw : Sound limit w) {event : Session.Event}
    (h : w.receive server = (some event, w₁)) : (w₁.dispatch server event).1 = .ok () := by
  cases event with
  | reply id p =>
    obtain ⟨m, session, task, -, -, -, -, -, -, -, -, -, -, hdispatch⟩ := hw.reply h
    rw [hdispatch]
  | unsolicited p => rfl

theorem Sound.pump_ok (hw : Sound limit w) (server : Address) : (w.pump server).1 = .ok () := by
  fun_induction pump w server with
  | case1 w w' hreceive => rfl
  | case2 w event w' hreceive e w'' hdispatch =>
    have hok := hw.dispatch_ok hreceive
    rw [hdispatch] at hok
    exact hok
  | case3 w event w' hreceive w'' hdispatch ih =>
    have hstep := (hw.step (.handled hreceive)).1
    rw [hdispatch] at hstep
    exact ih hstep

theorem Sound.pumpAll_ok (hw : Sound limit w) (servers : List Address) :
    (w.pumpAll servers).1 = .ok () := by
  induction servers generalizing w with
  | nil => rfl
  | cons server rest ih =>
    have hok := hw.pump_ok server
    have hpumped := hw.labours (labours_pump w server)
    simp only [pumpAll]
    split
    · next hpump =>
      rw [hpump] at hok
      exact hok
    · next hpump =>
      rw [hpump] at hpumped
      exact ih hpumped

end Worker

namespace Scene

open Worker

theorem turn_ok {limit : UInt32} {s : Scene} (hw : Worker.Sound limit s.worker) :
    s.turn.1 = .ok () := by
  have hok := (hw.labours (labours_askAll s.worker)).pumpAll_ok s.worker.askAll.servers
  unfold turn
  dsimp only
  split
  · next hpump =>
    rw [hpump] at hok
    exact hok
  · split
    · rfl
    · rfl

theorem run_ok {limit : UInt32} {s : Scene} (hw : Worker.Sound limit s.worker) :
    s.run.1 = .ok () := by
  fun_induction run s with
  | case1 s e s' hturn =>
    have hok := turn_ok hw
    rw [hturn] at hok
    exact hok
  | case2 s s' hturn hpanicked => rfl
  | case3 s s' hturn hgoes hahead ih =>
    have hturned := hw.labours (labours_turn s)
    rw [hturn] at hturned
    exact ih hturned
  | case4 s s' hturn hgoes hahead hcues => rfl
  | case5 s s' hturn hgoes hahead cue rest hcues ih =>
    have hturned := hw.labours (labours_turn s)
    rw [hturn] at hturned
    exact ih (hturned.tells (tells_advance s'))

end Scene

namespace Worker

variable {limit : UInt32} {w : Worker}

theorem Sound.work_ok (hw : Sound limit w) (hidle : w.running = false) (now : Instant)
    (cues : List Cue) (abandon : Bool) :
    ∃ departure, (w.work now cues abandon).1 = .ok departure := by
  have hok := Scene.run_ok
    (s := { worker := { w with stopped := false, running := true }, cues, now })
    (hw.of_members rfl rfl fun _ hj => hj)
  simp only [work, hidle, Bool.false_eq_true, if_false]
  split
  · next hrun =>
    rw [hrun] at hok
    contradiction
  · split
    · exact ⟨_, rfl⟩
    · split
      · exact ⟨_, rfl⟩
      · exact ⟨_, rfl⟩

/-- A worker has at most one unanswered request per server. It asks for a job while nothing is
unanswered, and says that it sleeps right after the answer that there is no job. So every answer finds
the request that it belongs to and ends it well, and no server can make the work fail. -/
theorem requests_take_turns (settings : WorkerSettings) :
    (∀ operations, Reached settings ((withSettings settings).performAll operations)) ∧
    ∀ w, Reached settings w →
      (∀ server m, w.members.get? server = some m → m.InTurn) ∧
      (∀ w', Step w w' → Orderly w w') ∧
      (∀ server id p w₁, w.receive server = (some (.reply id p), w₁) →
        ∃ m task, w₁.members.get? server = some m ∧ m.outstanding = some task ∧ task.id = id ∧
          (task.deliver p).1 = .ok .finished) ∧
      (∀ server event w₁, w.receive server = (some event, w₁) →
        (w₁.dispatch server event).1 = .ok ()) ∧
      (w.running = false →
        ∀ now cues abandon, ∃ departure, (w.work now cues abandon).1 = .ok departure) := by
  refine ⟨evolves_performAll _, fun w hreached => ?_⟩
  have hw := hreached.sound
  refine ⟨fun server m hm => (hw.member server m hm).inTurn, fun w' hstep => (hw.step hstep).2, ?_,
    fun server event w₁ hreceive => hw.dispatch_ok hreceive, fun hidle => hw.work_ok hidle⟩
  intro server id p w₁ hreceive
  obtain ⟨-, m, task, session, -, houtstanding, hopen, hid, hreply, -, -, hreplaced⟩ :=
    hw.receive_reply hreceive
  simp only [Session.isReply, Bool.and_eq_true] at hreply
  exact ⟨_, task, hreplaced.get?_self, houtstanding, hid, hopen.deliver hreply.1⟩

end Worker

end Gearman
