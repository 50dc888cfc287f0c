import Gearman.Proofs.Worker.Assignments

/-!
What the work of a worker comes to for its sessions: one after the other goes on, or is given up along
with its jobs.
-/

namespace Gearman

/-- Whether a request tells what the worker offers, or who it is. -/
def Packet.isAnnouncement (p : Packet) : Bool :=
  match p.kind with
  | .canDo | .canDoTimeout | .cantDo | .resetAbilities | .setClientId => true
  | _ => false

theorem Packet.isAnnouncement_of_isUpdate {p : Packet} (h : p.kind.isUpdate = true) :
    p.isAnnouncement = false := by
  unfold isAnnouncement
  cases hkind : p.kind <;> first | rfl | (rw [hkind] at h; contradiction)

namespace Worker

variable {limit : UInt32} {P : Packet → Prop} {w w' w₁ : Worker} {server : Address} {m : Member}

/-- The session of one server goes on, in which packets that satisfy `P` are sent, or is given up. -/
inductive Change (P : Packet → Prop) : Worker → Worker → Prop
  | session {w w' : Worker} {server : Address} {m m' : Member} {ps : List Packet}
    (hm : w.members.get? server = some m) (hreplaced : Replaced server m' w w')
    (hregistry : w'.registry = w.registry) (hsent : m'.session.sent = m.session.sent ++ ps)
    (hps : ∀ p ∈ ps, P p) : Change P w w'
  | lost {w w' : Worker} {server : Address} (hlost : Lost server w w')
    (hregistry : w'.registry = w.registry) : Change P w w'

abbrev Changes (P : Packet → Prop) : Worker → Worker → Prop := Relation.ReflTransGen (Change P)

/-- A session that goes on without a word. -/
theorem Change.silent {m' : Member} (hm : w.members.get? server = some m)
    (hreplaced : Replaced server m' w w') (hregistry : w'.registry = w.registry)
    (hsent : m'.session.sent = m.session.sent) : Change P w w' :=
  .session hm hreplaced hregistry (by rw [hsent, List.append_nil]) (by simp)

theorem Change.spoken {m' : Member} {p : Packet} (hm : w.members.get? server = some m)
    (hreplaced : Replaced server m' w w') (hregistry : w'.registry = w.registry)
    (hsent : m'.session.sent = m.session.sent ++ [p]) (hp : P p) : Change P w w' :=
  .session hm hreplaced hregistry hsent (by simpa using hp)

theorem registry_sendTo (w : Worker) (server : Address) (p : Packet) :
    (w.sendTo server p).2.registry = w.registry := by
  unfold sendTo
  repeat' split
  all_goals first | rfl | exact registry_dropSession _ _

/-- A request numbers a task and leaves the rest of the worker to its member. -/
theorem eq_of_ask {m' : Member} {kind : Kind} {r : Except Error Unit}
    (h : w.ask m kind = (r, m', w')) : ∃ issued, w' = { w with issued } := by
  unfold ask at h
  split at h
  · cases h
    exact ⟨w.issued, rfl⟩
  · split at h
    all_goals
      cases h
      exact ⟨_, rfl⟩

theorem registry_request (w : Worker) (server : Address) (kind : Kind) :
    (w.request server kind).registry = w.registry := by
  unfold request
  split
  · rfl
  · split
    · next hask =>
      obtain ⟨issued, rfl⟩ := eq_of_ask hask
      rfl
    · next hask =>
      obtain ⟨issued, rfl⟩ := eq_of_ask hask
      exact registry_dropSession _ _

theorem Sound.changes_deliver (hw : Sound limit w) (a : Arrival) : Changes P w (w.deliver a).1 := by
  unfold Worker.deliver
  split
  · exact .refl
  · next m hm =>
    exact .single (.silent hm (replaced_insert ..) rfl ((hw.member _ m hm).session.deliver a).2)

theorem Sound.changes_sendTo (hw : Sound limit w) (server : Address) {p : Packet} (hp : P p) :
    Changes P w (w.sendTo server p).2 := by
  have hregistry := registry_sendTo w server p
  cases hm : w.members.get? server with
  | none =>
    rw [sendTo_none hm]
  | some m =>
    rcases hw.sendTo_cases hm p with ⟨-, session, -, hsent, -, hreplaced⟩ | ⟨-, -, hreplaced⟩ |
      ⟨-, hlost⟩
    · exact .single (.spoken hm hreplaced hregistry hsent hp)
    · exact .single (.silent hm hreplaced hregistry rfl)
    · exact .single (.lost hlost hregistry)

theorem Sound.changes_request (hw : Sound limit w) (hm : w.members.get? server = some m)
    (hnone : m.outstanding = none) {kind : Kind} (hkind : kind = .grabJob ∨ kind = .preSleep)
    (hp : P (.request kind [])) : Changes P w (w.request server kind) := by
  have hregistry := registry_request w server kind
  rcases hw.request_cases hm hnone hkind with ⟨session, task, -, hsent, hreplaced⟩ | hlost
  · exact .single (.spoken hm hreplaced hregistry hsent hp)
  · exact .single (.lost hlost hregistry)

theorem Sound.changes_idle (hw : Sound limit w) (h : w.receive server = (none, w')) :
    Changes P w w' := by
  have hregistry := registry_of_receive h
  rcases hw.receive_none h with rfl | ⟨m, session, hm, -, hsent, hreplaced⟩ | hlost
  · exact .refl
  · exact .single (.silent hm hreplaced hregistry hsent)
  · exact .single (.lost hlost hregistry)

/-- Changes in which nothing is announced. -/
abbrev Works : Worker → Worker → Prop := Changes fun p => p.isAnnouncement = false

theorem Sound.works_askOne (hw : Sound limit w) (server : Address) :
    Works w (askAll.askOne w server) := by
  unfold askAll.askOne
  split
  · exact .refl
  · next m hm =>
    split
    · next hidle => exact hw.changes_request hm (by simp_all) (.inl rfl) rfl
    · exact .refl

theorem Sound.works_tells (hw : Sound limit w) (h : Tells w w') : Works w w' := by
  induction h with
  | refl => exact .refl
  | @tail w₁ w₂ htells htelling ih =>
    have hw₁ := hw.tells htells
    refine ih.trans ?_
    cases htelling with
    | arrived a => exact hw₁.changes_deliver a
    | told server hp => exact hw₁.changes_sendTo server (Packet.isAnnouncement_of_isUpdate hp)

/-- An answer that assigns no job. -/
theorem Sound.works_reply (hw : Sound limit w) {id : TaskId} {p : Packet}
    (h : w.receive server = (some (.reply id p), w₁))
    (hkind : ¬ (p.kind = .jobAssign ∨ p.kind = .jobAssignUniq)) :
    Works w (w₁.dispatch server (.reply id p)).2 := by
  obtain ⟨m, session, task, hm, hsent, -, hw₂, hreplaced, -, -, -, -, -, hdispatch⟩ := hw.reply h
  have hregistry := registry_of_receive h
  have hanswered : Works w (w₁.answered server session) :=
    .single (.silent hm hreplaced hregistry hsent)
  rw [hdispatch]
  simp only [answer]
  split
  · next heq => exact absurd (.inl heq) hkind
  · next heq => exact absurd (.inr heq) hkind
  · exact hanswered.trans (hw₂.changes_request hreplaced.get?_self rfl (.inr rfl) rfl)
  · exact hanswered

theorem Sound.works_unsolicited (hw : Sound limit w) {p : Packet}
    (h : w.receive server = (some (.unsolicited p), w₁))
    (hkind : ¬ (p.kind = .jobAssign ∨ p.kind = .jobAssignUniq)) :
    Works w (w₁.dispatch server (.unsolicited p)).2 := by
  obtain ⟨-, m, session, hm, -, hsent, hreplaced⟩ := hw.receive_unsolicited h
  have hread : Works w w₁ := .single (.silent hm hreplaced (registry_of_receive h) hsent)
  simp only [dispatch, handleUnsolicited]
  split
  · next heq => exact absurd (.inl heq) hkind
  · next heq => exact absurd (.inr heq) hkind
  · exact hread.tail (.lost (lost_dropSession ..) (registry_dropSession ..))
  · exact hread

/-- A packet that is handled changes the sessions, and makes one job if it assigns one that is on
offer. -/
theorem Sound.handled_cases (hw : Sound limit w) {event : Session.Event}
    (h : w.receive server = (some event, w₁)) :
    Works w (w₁.dispatch server event).2 ∨
      ∃ w₂ handle function unique data d, Works w w₂ ∧
        event.packet.Assigns handle function unique data ∧
        w.registry.get? (Text.Utf8.lossy function) = some d ∧
        (w₁.dispatch server event).2 =
          { w₂ with queue := w₂.queue ++ [jobOf server handle function unique data d] } := by
  by_cases hkind : event.packet.kind = .jobAssign ∨ event.packet.kind = .jobAssignUniq
  · obtain ⟨m, session, m₂, w₂, hm, hsent, -, rfl, hw₂, hreplaced, hregistry, -, hdispatch⟩ :=
      hw.assigning h hkind
    have hread : Works w w₂ := .single (.silent hm hreplaced hregistry hsent)
    rw [hdispatch]
    cases hassignment : assignment event.packet with
    | error e =>
      rw [Worker.assign, hassignment]
      exact .inl hread
    | ok fields =>
      obtain ⟨handle, function, unique, data⟩ := fields
      have hassigns := Packet.assigns_of_assignment hkind hassignment
      cases hd : w.registry.get? (Text.Utf8.lossy function) with
      | some d =>
        refine .inr ⟨w₂, handle, function, unique, data, d, hread, hassigns, hd, ?_⟩
        rw [← hregistry] at hd
        exact assign_of_offered hassigns hd
      | none =>
        rw [← hregistry] at hd
        rw [assign_of_unknown hassigns hd]
        exact .inl (hread.trans (hw₂.changes_sendTo server rfl))
  · left
    cases event with
    | reply id p => exact hw.works_reply h hkind
    | unsolicited p => exact hw.works_unsolicited h hkind

end Worker

end Gearman
