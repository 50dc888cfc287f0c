import Gearman.Proofs.Worker.Announcements

/-!
Registrations that are turned down.

A function is put on offer before its announcement is made. So one that cannot be announced is on offer
all the same, in the place of the one that had its name, and as long as it is there no server can be told
of the offer and none joins.
-/

namespace Gearman

/-- Whether no request can tell a server of the function: it has a timeout, and the seconds cannot be
counted, or its name holds a zero byte or leaves no room for them. -/
def Definition.Unsayable (d : Definition) : Prop :=
  (∃ e, d.timeoutSeconds = .error e) ∨
    ∃ seconds, d.timeoutSeconds = .ok (some seconds) ∧ (0 ∈ Text.Utf8.encode d.name ∨
      UInt32.size ≤ (Bytes.joinFields [Text.Utf8.encode d.name, writeCounter seconds]).length)

theorem Definition.announcement_eq_error_iff {d : Definition} :
    (∃ e, d.announcement = .error e) ↔ d.Unsayable := by
  unfold Unsayable announcement
  rcases d.timeoutSeconds with e | (_ | seconds)
  · simp
  · simp
  · have hmade : ∀ r : Except Error Packet, (∃ e, r = .error e) ↔ ¬ ∃ p, r = .ok p := by
      intro r
      cases r <;> simp
    simp only [hmade, Packet.ofFields_eq_ok, exists_and_left, exists_eq, and_true, not_and_or, Nat.not_lt]
    simp only [List.dropLast_cons_cons, List.dropLast_singleton, List.forall_mem_singleton, not_not,
      Except.ok.injEq, Option.some.injEq, exists_eq_left', reduceCtorEq, exists_false, false_or, or_comm]

namespace Worker

variable {limit : UInt32} {w : Worker} {name : String} {d : Definition}

theorem registry_broadcast (w : Worker) (p : Packet) : (w.broadcast p).registry = w.registry := by
  unfold broadcast
  generalize w.servers = servers
  induction servers generalizing w with
  | nil => rfl
  | cons server rest ih => exact (ih _).trans (registry_sendTo w server p)

/-- An operation that puts no function with this name on offer and takes none off it. -/
def Operation.Spares (name : String) : Operation → Prop
  | .register d => d.name ≠ name
  | .unregister other => other ≠ name
  | .unregisterAll => False
  | _ => True

theorem Sound.get?_perform (hw : Sound limit w) {op : Operation} (hop : op.Spares name) :
    (w.perform op).registry.get? name = w.registry.get? name := by
  cases op with
  | addServer server accepted => exact congrArg (·.get? name) (hw.addServer_cases server accepted).1
  | removeServer server => exact congrArg (·.get? name) (hw.spoke_removeServer server).registry
  | setWorkerId workerId => exact congrArg (·.get? name) (registry_broadcast _ _)
  | register d =>
    have hregistry : (w.register d).2.registry = (w.registry.register d).2 := by
      unfold Worker.register
      dsimp only
      split
      · exact registry_broadcast _ _
      · rfl
    rw [perform, hregistry, Registry.get?_register, if_neg hop]
  | unregister other =>
    simp only [perform, Worker.unregister]
    split
    · rw [registry_broadcast, Registry.get?_unregister, if_neg hop]
    · rfl
  | unregisterAll => contradiction
  | stop => rfl
  | shutdown => exact congrArg (·.get? name) (spoke_shutdown w).registry
  | work now cues abandon =>
    exact congrArg (·.get? name) (hw.spoke_of_labours (labours_work w now cues abandon)).registry
  | arrival a => exact congrArg (·.get? name) (spoke_of_works (hw.changes_deliver a)).registry

theorem Sound.get?_performAll (hw : Sound limit w) {operations : List Operation}
    (hops : ∀ op ∈ operations, op.Spares name) :
    (w.performAll operations).registry.get? name = w.registry.get? name := by
  induction operations generalizing w with
  | nil => rfl
  | cons op rest ih =>
    have hrest := ih (hw.evolves (evolves_perform w op))
      fun op' hop' => hops op' (List.mem_cons_of_mem _ hop')
    exact hrest.trans (hw.get?_perform (hops op List.mem_cons_self))

/-- What cannot be made cannot be sent. -/
theorem sendAll_of_error_mem {ps : List (Except Error Packet)} {e : Error} (h : .error e ∈ ps)
    (s : Session) : ∃ e' s', sendAll s ps = (.error e', s') := by
  induction ps generalizing s with
  | nil => simp at h
  | cons first rest ih =>
    cases first with
    | error e' => exact ⟨e', s, rfl⟩
    | ok p =>
      have hrest : .error e ∈ rest := by simpa using h
      rcases hsend : s.send p with ⟨e' | ⟨⟩, s'⟩
      · exact ⟨e', s', by simp only [sendAll, hsend]⟩
      · obtain ⟨e', s'', hsendAll⟩ := ih hrest s'
        exact ⟨e', s'', by simp only [sendAll, hsend, hsendAll]⟩

/-- No server joins a worker that offers a function it cannot be told of. -/
theorem addServer_of_unsayable (hd : w.registry.get? name = some d) (hunsayable : d.Unsayable)
    {server : Address} (hnew : w.hasServer server = false) (accepted : Bool) :
    ∃ e, (w.addServer server accepted).1 = .error e ∧
      (w.addServer server accepted).2.members = w.members := by
  obtain ⟨e, he⟩ := Definition.announcement_eq_error_iff.2 hunsayable
  have hmem : .error e ∈ w.introduction := by
    rw [introduction, List.mem_cons, List.mem_map]
    exact .inr ⟨d, Registry.mem_definitions.2 ⟨name, hd⟩, he⟩
  -- If the server accepts the connection, the introduction is as far as it goes.
  unfold addServer
  simp only [hnew, Bool.false_eq_true, if_false]
  split
  · next e' _ _ => exact ⟨e', rfl, rfl⟩
  · next session _ =>
    obtain ⟨e', s', hsendAll⟩ := sendAll_of_error_mem hmem session
    simp only [hsendAll]
    exact ⟨e', rfl, members_retire _ _⟩

/-- A registration that is turned down was made all the same. -/
theorem register_error {w' : Worker} {e : Error} (h : w.register d = (.error e, w')) :
    d.announcement = .error e ∧ w' = { w with registry := (w.registry.register d).2 } := by
  unfold Worker.register at h
  dsimp only at h
  split at h
  · cases h
  · next hannouncement =>
    cases h
    exact ⟨hannouncement, rfl⟩

/-- A registration that is turned down, because no request can tell a server of the function. No session
was sent anything and nothing but the offer has changed, but there the function is, in the place of the
one that had its name. Until the name is registered again or withdrawn, no server joins. -/
theorem rejected_registration_stays {settings : WorkerSettings} {before : List Operation} {e : Error}
    (h : (((withSettings settings).performAll before).register d).1 = .error e) :
    let w := (withSettings settings).performAll before
    let w' := (w.register d).2
    d.Unsayable ∧ w' = { w with registry := w'.registry } ∧
      (∀ name, w'.registry.get? name = if d.name = name then some d else w.registry.get? name) ∧
      ∀ after : List Operation, (∀ op ∈ after, op.Spares d.name) → ∀ server accepted,
        (w'.performAll after).hasServer server = false →
          ∃ e, ((w'.performAll after).addServer server accepted).1 = .error e ∧
            ((w'.performAll after).addServer server accepted).2.members =
              (w'.performAll after).members := by
  intro w w'
  have hregister : w.register d = (.error e, w') := Prod.ext h rfl
  obtain ⟨hannouncement, hw'⟩ := register_error hregister
  have hunsayable := Definition.announcement_eq_error_iff.1 ⟨e, hannouncement⟩
  have hoffer : ∀ name, w'.registry.get? name =
      if d.name = name then some d else w.registry.get? name := by
    intro name
    rw [hw']
    exact Registry.get?_register
  refine ⟨hunsayable, by rw [hw'], hoffer, fun after hafter server accepted hnew => ?_⟩
  have hsound : Sound settings.connection.maxPayloadSize w' :=
    ((sound_withSettings settings).evolves (evolves_performAll _ before)).evolves
      (evolves_perform w (.register d))
  have hstays := (hsound.get?_performAll hafter).trans (hoffer d.name)
  rw [if_pos rfl] at hstays
  exact addServer_of_unsayable hstays hunsayable hnew accepted

/-- A function whose name only a request without a timeout can hold. -/
def unspeakable (timeout : Option Duration) : Definition :=
  .ofFunction "a\x00b" timeout fun _ => ⟨[], .failed ""⟩

/-- A worker that offers the function without a timeout. -/
def offering : List Operation := [.register (unspeakable none)]

/-- The registration with a timeout is turned down. -/
def rejection : Except Error Unit × Worker :=
  ((withSettings { workerId := "w" }).performAll offering).register
    (unspeakable (some (.ofMillis 1000)))

theorem rejected_registration_stays_unspeakable :
    rejection.1 = .error (.nulInIdentifier .canDoTimeout) ∧
      ∃ e, (rejection.2.addServer .default true).1 = .error e := by
  have hrejected : rejection.1 = .error (.nulInIdentifier .canDoTimeout) := rfl
  obtain ⟨-, -, -, hbarred⟩ := rejected_registration_stays hrejected
  have hnew : rejection.2.hasServer .default = false := by decide +kernel
  obtain ⟨e, he, -⟩ := hbarred [] (by simp) .default true hnew
  exact ⟨hrejected, e, he⟩

/-- The function that was on offer before is lost, and no server joins any more. -/
theorem rejected_registration_bars_servers :
    rejection.1 = .error (.nulInIdentifier .canDoTimeout) ∧
      (((withSettings { workerId := "w" }).performAll offering).registry.get? "a\x00b").map
        (·.timeout) = some none ∧
      (((withSettings { workerId := "w" }).performAll offering).addServer .default true).1.toOption =
        some true ∧
      (rejection.2.registry.get? "a\x00b").map (·.timeout) = some (some (.ofMillis 1000)) ∧
      (rejection.2.addServer .default true).1.toOption = none := by
  exact ⟨rfl, by decide +kernel, by decide +kernel, by decide +kernel, by decide +kernel⟩

end Worker

end Gearman
