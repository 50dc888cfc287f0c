import Mathlib.Logic.Relation
import Gearman.Proofs.Worker.Operation

/-!
Every operation of a worker is a chain of steps, and so is every stretch of its work.

The chains are put together in layers: what happens while a function runs, what happens while the worker
works, and what an operation does.
-/

namespace Gearman

theorem Packet.kind_of_ofFields {magic : Magic} {kind : Kind} {fields : List Bytes} {p : Packet}
    (h : ofFields magic kind fields = .ok p) : p.kind = kind := by
  unfold ofFields at h
  repeat' split at h
  all_goals
    cases h
    try rfl

/-- An announcement is made of the name alone, or of the name and the seconds. -/
theorem Definition.announcement_cases {d : Definition} {p : Packet} (h : d.announcement = .ok p) :
    (d.timeoutSeconds = .ok none ∧ p = .request .canDo (Text.Utf8.encode d.name)) ∨
      ∃ seconds, d.timeoutSeconds = .ok (some seconds) ∧
        Packet.ofFields .request .canDoTimeout [Text.Utf8.encode d.name, writeCounter seconds] =
          .ok p := by
  unfold announcement at h
  split at h
  · cases h
  · next hnone =>
    cases h
    exact .inl ⟨hnone, rfl⟩
  · next seconds hseconds => exact .inr ⟨seconds, hseconds, h⟩

/-- A server does not answer an announcement. -/
theorem Definition.isAnswered_announcement {d : Definition} {p : Packet}
    (h : d.announcement = .ok p) : p.kind.isAnswered = false := by
  rcases announcement_cases h with ⟨-, rfl⟩ | ⟨seconds, -, hp⟩
  · rfl
  · rw [Packet.kind_of_ofFields hp]
    rfl

/-- The kinds that tell of a job are not answered. -/
theorem Kind.isAnswered_of_isUpdate {k : Kind} (h : k.isUpdate = true) : k.isAnswered = false := by
  cases k <;> first | rfl | contradiction

/-- What a function reports is news of its job. -/
theorem Context.isUpdate_packet {c : Context} {r : Report} {p : Packet}
    (h : c.packet r = .ok p) : p.kind.isUpdate = true := by
  rw [Packet.kind_of_ofFields h]
  cases r <;> rfl

/-- What a function sends are packets of reports. -/
theorem Performance.packet_of_play {p : Performance} {c : Context} {q : Packet}
    (h : .sent q ∈ (p.play c).1) : ∃ r, .report r ∈ p.acts ∧ c.packet r = .ok q := by
  unfold play at h
  generalize p.acts = acts at h ⊢
  induction acts with
  | nil => simp [play.go] at h
  | cons act rest ih =>
    cases act with
    | sleep ms =>
      obtain ⟨r, hr, hq⟩ := ih (by simpa [play.go] using h)
      exact ⟨r, List.mem_cons_of_mem _ hr, hq⟩
    | report r =>
      simp only [play.go] at h
      split at h
      · next packet hpacket =>
        rcases List.mem_cons.1 h with heq | hrest
        · cases heq
          exact ⟨r, List.mem_cons_self, hpacket⟩
        · obtain ⟨r', hr', hq⟩ := ih hrest
          exact ⟨r', List.mem_cons_of_mem _ hr', hq⟩
      · simp at h

theorem Performance.isUpdate_of_play {p : Performance} {c : Context} {q : Packet}
    (h : .sent q ∈ (p.play c).1) : q.kind.isUpdate = true := by
  obtain ⟨r, -, hr⟩ := packet_of_play h
  exact Context.isUpdate_packet hr

namespace Worker

variable {w w' w'' : Worker}

/-- What a worker does at a time: it handles one packet at most, and writes to one server at most. -/
inductive Step : Worker → Worker → Prop
  | arrived (w : Worker) (a : Arrival) : Step w (w.deliver a).1
  | joined (w : Worker) (server : Address) (accepted : Bool) :
    Step w (w.addServer server accepted).2
  | left (w : Worker) (server : Address) : Step w (w.removeServer server).2
  | offered (w : Worker) (registry : Registry) : Step w { w with registry }
  | renamed (w : Worker) (workerId : String) :
    Step w { w with settings := { w.settings with workerId } }
  | flagged (w : Worker) (stopped running : Bool) : Step w { w with stopped, running }
  | told (w : Worker) (server : Address) {p : Packet} (hp : p.kind.isAnswered = false) :
    Step w (w.sendTo server p).2
  | asked (w : Worker) (server : Address) : Step w (askAll.askOne w server)
  | idle {w w' : Worker} {server : Address} (h : w.receive server = (none, w')) : Step w w'
  | handled {w w₁ : Worker} {server : Address} {event : Session.Event}
    (h : w.receive server = (some event, w₁)) : Step w (w₁.dispatch server event).2
  | taken {w : Worker} {j : AssignedJob} {rest : List AssignedJob} (h : w.queue = j :: rest) :
    Step w { w with queue := rest }
  | ended (w : Worker) : Step w w.shutdown

/-- Steps lead from one worker to the other. -/
abbrev Evolves : Worker → Worker → Prop := Relation.ReflTransGen Step

/-- The states that a worker can be in between two operations, and within one between two packets. -/
def Reached (settings : WorkerSettings) (w : Worker) : Prop := Evolves (withSettings settings) w

/-- What happens while a function runs: something arrives, or a server is told of a job. -/
inductive Telling : Worker → Worker → Prop
  | arrived (w : Worker) (a : Arrival) : Telling w (w.deliver a).1
  | told (w : Worker) (server : Address) {p : Packet} (hp : p.kind.isUpdate = true) :
    Telling w (w.sendTo server p).2

/-- What happens while a worker works. The execution of a job counts as one. -/
inductive Labour : Worker → Worker → Prop
  | arrived (w : Worker) (a : Arrival) : Labour w (w.deliver a).1
  | flagged (w : Worker) (stopped running : Bool) : Labour w { w with stopped, running }
  | asked (w : Worker) (server : Address) : Labour w (askAll.askOne w server)
  | idle {w w' : Worker} {server : Address} (h : w.receive server = (none, w')) : Labour w w'
  | handled {w w₁ : Worker} {server : Address} {event : Session.Event}
    (h : w.receive server = (some event, w₁)) : Labour w (w₁.dispatch server event).2
  | executed {w : Worker} {j : AssignedJob} {rest : List AssignedJob} {s : Scene}
    (h : w.queue = j :: rest) (hs : s.worker = { w with queue := rest }) :
    Labour w (s.execute j).worker

/-- What operations are made of. -/
inductive Move : Worker → Worker → Prop
  | joined (w : Worker) (server : Address) (accepted : Bool) :
    Move w (w.addServer server accepted).2
  | left (w : Worker) (server : Address) : Move w (w.removeServer server).2
  | offered (w : Worker) (registry : Registry) : Move w { w with registry }
  | renamed (w : Worker) (workerId : String) :
    Move w { w with settings := { w.settings with workerId } }
  | told (w : Worker) (server : Address) {p : Packet} (hp : p.kind.isAnswered = false) :
    Move w (w.sendTo server p).2
  | ended (w : Worker) : Move w w.shutdown
  | worked {w w' : Worker} (h : Labour w w') : Move w w'

abbrev Tells : Worker → Worker → Prop := Relation.ReflTransGen Telling

abbrev Labours : Worker → Worker → Prop := Relation.ReflTransGen Labour

abbrev Moves : Worker → Worker → Prop := Relation.ReflTransGen Move

theorem chain_foldl {α : Type} {R : Worker → Worker → Prop} {f : Worker → α → Worker}
    (hf : ∀ w a, Relation.ReflTransGen R w (f w a)) (w : Worker) (as : List α) :
    Relation.ReflTransGen R w (as.foldl f w) := by
  induction as generalizing w with
  | nil => exact .refl
  | cons a rest ih => exact (hf w a).trans (ih (f w a))

theorem tells_report (w : Worker) (server : Address) (kind : Kind) (hkind : kind.isUpdate = true)
    (handle body : Bytes) : Tells w (w.report server kind handle body).2 := by
  unfold report
  split
  · next hp => exact .single (.told w server (by rw [Packet.kind_of_ofFields hp, hkind]))
  · exact .refl

theorem tells_reportFailure (w : Worker) (server : Address) (handle message : Bytes) :
    Tells w (w.reportFailure server handle message) :=
  (tells_report w server .workException rfl handle message).tail (.told _ server rfl)

theorem tells_reportSuccess (w : Worker) (server : Address) (handle : Bytes) (function : String)
    (result : JobResult) : Tells w (w.reportSuccess server handle function result) := by
  have hwarned : Tells w (if result.warnings.isEmpty then w
      else (w.report server .workWarning handle result.warnings).2) := by
    split
    · exact .refl
    · exact tells_report w server .workWarning rfl handle result.warnings
  unfold reportSuccess
  generalize (if result.warnings.isEmpty then w
    else (w.report server .workWarning handle result.warnings).2) = warned at hwarned
  have hcompleted := hwarned.trans
    (tells_report warned server .workComplete rfl handle result.results)
  dsimp only
  split
  · next heq =>
    rw [heq] at hcompleted
    exact hcompleted
  · next heq =>
    rw [heq] at hcompleted
    exact hcompleted.trans (tells_reportFailure ..)

theorem tells_reportEnd (w : Worker) (server : Address) (handle : Bytes) (function : String)
    (outcome : Outcome) : Tells w (w.reportEnd server handle function outcome) := by
  cases outcome with
  | failed message => exact tells_reportFailure ..
  | returned result =>
    simp only [reportEnd]
    split
    · exact tells_reportSuccess ..
    · split
      · exact tells_reportFailure ..
      · exact tells_reportFailure ..

end Worker

namespace Scene

open Worker

/-- The next cue is something that arrives, if there is one. -/
theorem worker_advance (s : Scene) :
    s.advance.worker = s.worker ∨ ∃ a, s.advance.worker = (s.worker.deliver a).1 := by
  unfold advance
  split
  · exact .inl rfl
  · exact .inr ⟨_, rfl⟩

theorem tells_advance (s : Scene) : Tells s.worker s.advance.worker := by
  rcases s.worker_advance with heq | ⟨a, heq⟩
  · rw [heq]
  · rw [heq]
    exact .single (.arrived s.worker a)

theorem tells_sleep (s : Scene) : Tells s.worker s.sleep.worker := by
  unfold sleep
  generalize s.cues.takeWhile (·.during) = cues
  induction cues generalizing s with
  | nil => exact .refl
  | cons _ rest ih => exact (tells_advance s).trans (ih s.advance)

theorem tells_play (s : Scene) (server : Address) (deadline : Option Instant)
    (moments : List Moment) (hsent : ∀ p, .sent p ∈ moments → p.kind.isUpdate = true) :
    Tells s.worker (s.play server deadline moments).1.worker := by
  induction moments generalizing s with
  | nil => exact .refl
  | cons moment rest ih =>
    have hrest : ∀ p, .sent p ∈ rest → p.kind.isUpdate = true :=
      fun p hp => hsent p (List.mem_cons_of_mem _ hp)
    cases moment with
    | sent p =>
      have htold := Telling.told s.worker server (hsent p List.mem_cons_self)
      exact (ih { s with worker := (s.worker.sendTo server p).2 } hrest).head htold
    | pause ms =>
      simp only [play]
      split
      · exact tells_sleep s
      · exact (tells_sleep s).trans (ih { s.sleep with now := s.now.afterMillis ms } hrest)

theorem tells_execute (s : Scene) (j : AssignedJob) : Tells s.worker (s.execute j).worker := by
  unfold execute
  split
  · exact .refl
  · exact (tells_play s j.server _ _ fun _ => Performance.isUpdate_of_play).trans
      (tells_reportEnd ..)

end Scene

namespace Worker

theorem labours_askAll (w : Worker) : Labours w w.askAll :=
  chain_foldl (fun w server => .single (.asked w server)) w w.servers

theorem labours_pump (w : Worker) (server : Address) : Labours w (w.pump server).2 := by
  fun_induction pump w server with
  | case1 w w' hreceive => exact .single (.idle hreceive)
  | case2 w event w' hreceive e w'' hdispatch =>
    have hhandled := Labour.handled hreceive
    rw [hdispatch] at hhandled
    exact .single hhandled
  | case3 w event w' hreceive w'' hdispatch ih =>
    have hhandled := Labour.handled hreceive
    rw [hdispatch] at hhandled
    exact ih.head hhandled

theorem labours_pumpAll (w : Worker) (servers : List Address) :
    Labours w (w.pumpAll servers).2 := by
  induction servers generalizing w with
  | nil => exact .refl
  | cons server rest ih =>
    have hpump := labours_pump w server
    simp only [pumpAll]
    split
    · next hfirst =>
      rw [hfirst] at hpump
      exact hpump
    · next w' hfirst =>
      rw [hfirst] at hpump
      exact hpump.trans (ih w')

end Worker

namespace Scene

open Worker

theorem labours_turn (s : Scene) : Labours s.worker s.turn.2.worker := by
  have hpumped := (labours_askAll s.worker).trans
    (labours_pumpAll s.worker.askAll s.worker.askAll.servers)
  unfold turn
  dsimp only
  split
  · next hpump =>
    rw [hpump] at hpumped
    exact hpumped
  · next worker hpump =>
    rw [hpump] at hpumped
    split
    · exact hpumped
    · next j rest hqueue => exact hpumped.tail (.executed hqueue rfl)

theorem labours_run (s : Scene) : Labours s.worker s.run.2.worker := by
  fun_induction run s with
  | case1 s e s' hturn =>
    have := labours_turn s
    rwa [hturn] at this
  | case2 s s' hturn hpanicked =>
    have := labours_turn s
    rwa [hturn] at this
  | case3 s s' hturn hgoes hahead ih =>
    have := labours_turn s
    rw [hturn] at this
    exact this.trans ih
  | case4 s s' hturn hgoes hahead hcues =>
    have := labours_turn s
    rwa [hturn] at this
  | case5 s s' hturn hgoes hahead cue rest hcues ih =>
    have := labours_turn s
    rw [hturn] at this
    rcases s'.worker_advance with heq | ⟨a, heq⟩
    · exact this.trans (heq ▸ ih)
    · exact (this.tail (heq ▸ .arrived s'.worker a)).trans ih

end Scene

namespace Worker

theorem labours_work (w : Worker) (now : Instant) (cues : List Cue) (abandon : Bool) :
    Labours w (w.work now cues abandon).2.1 := by
  unfold work
  split
  · exact .refl
  · have hrun := (Scene.labours_run
      { worker := { w with stopped := false, running := true }, cues, now }).head (.flagged w false true)
    dsimp only
    split
    · next s heq =>
      rw [heq] at hrun
      exact hrun.tail (.flagged s.worker s.worker.stopped false)
    · next s heq =>
      rw [heq] at hrun
      split
      · exact hrun
      · split
        · exact hrun.tail (.flagged s.worker true false)
        · exact hrun

theorem moves_broadcast (w : Worker) {p : Packet} (hp : p.kind.isAnswered = false) :
    Moves w (w.broadcast p) :=
  chain_foldl (fun w server => .single (.told w server hp)) w w.servers

theorem moves_perform (w : Worker) (operation : Operation) : Moves w (w.perform operation) := by
  cases operation with
  | addServer server accepted => exact .single (.joined w server accepted)
  | removeServer server => exact .single (.left w server)
  | setWorkerId workerId => exact (moves_broadcast _ rfl).head (.renamed w workerId)
  | register d =>
    have hoffered := Move.offered w (w.registry.register d).2
    simp only [perform, register]
    split
    · next hp => exact (moves_broadcast _ (Definition.isAnswered_announcement hp)).head hoffered
    · exact .single hoffered
  | unregister name =>
    simp only [perform, unregister]
    split
    · exact (moves_broadcast _ rfl).head (.offered w (w.registry.unregister name).2)
    · exact .refl
  | unregisterAll => exact (moves_broadcast _ rfl).head (.offered w ∅)
  | stop => exact .single (.worked (.flagged w true w.running))
  | shutdown => exact .single (.ended w)
  | work now cues abandon =>
    exact Relation.ReflTransGen.mono (fun _ _ => Move.worked) _ _ (labours_work w now cues abandon)
  | arrival a => exact .single (.worked (.arrived w a))

theorem moves_performAll (w : Worker) (operations : List Operation) :
    Moves w (w.performAll operations) :=
  chain_foldl moves_perform w operations

theorem Telling.step (h : Telling w w') : Step w w' := by
  cases h with
  | arrived a => exact .arrived w a
  | told server hp => exact .told w server (Kind.isAnswered_of_isUpdate hp)

theorem evolves_of_tells (h : Tells w w') : Evolves w w' :=
  Relation.ReflTransGen.mono (fun _ _ => Telling.step) _ _ h

theorem Labour.evolves (h : Labour w w') : Evolves w w' := by
  cases h with
  | arrived a => exact .single (.arrived w a)
  | flagged stopped running => exact .single (.flagged w stopped running)
  | asked server => exact .single (.asked w server)
  | idle hreceive => exact .single (.idle hreceive)
  | handled hreceive => exact .single (.handled hreceive)
  | @executed j rest s hqueue hs =>
    have htold := evolves_of_tells (s.tells_execute j)
    rw [hs] at htold
    exact htold.head (.taken hqueue)

theorem evolves_of_labours (h : Labours w w') : Evolves w w' := by
  induction h with
  | refl => exact .refl
  | tail _ hlabour ih => exact ih.trans hlabour.evolves

theorem Move.evolves (h : Move w w') : Evolves w w' := by
  cases h with
  | joined server accepted => exact .single (.joined w server accepted)
  | left server => exact .single (.left w server)
  | offered registry => exact .single (.offered w registry)
  | renamed workerId => exact .single (.renamed w workerId)
  | told server hp => exact .single (.told w server hp)
  | ended => exact .single (.ended w)
  | worked hlabour => exact hlabour.evolves

theorem evolves_of_moves (h : Moves w w') : Evolves w w' := by
  induction h with
  | refl => exact .refl
  | tail _ hmove ih => exact ih.trans hmove.evolves

theorem evolves_perform (w : Worker) (operation : Operation) :
    Evolves w (w.perform operation) :=
  evolves_of_moves (moves_perform w operation)

theorem evolves_performAll (w : Worker) (operations : List Operation) :
    Evolves w (w.performAll operations) :=
  evolves_of_moves (moves_performAll w operations)

end Worker

end Gearman
