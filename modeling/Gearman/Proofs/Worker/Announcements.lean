import Gearman.Proofs.Worker.Abilities

/-!
What servers were told is what the worker offers, whenever they joined and whatever was registered or
withdrawn in between.
-/

namespace Gearman

/-- A function that can be announced to servers, whose packets are not longer than `limit`. -/
def Definition.Announceable (limit : UInt32) (d : Definition) : Prop :=
  ∃ p, d.announcement = .ok p ∧ p.payload.length ≤ limit.toNat

/-- A function that can be announced can also be withdrawn. -/
theorem Definition.Announceable.length_name {limit : UInt32} {d : Definition}
    (h : d.Announceable limit) : (Text.Utf8.encode d.name).length ≤ limit.toNat := by
  obtain ⟨p, hp, hlength⟩ := h
  refine Nat.le_trans ?_ hlength
  rcases announcement_cases hp with ⟨-, rfl⟩ | ⟨seconds, -, hmade⟩
  · exact Nat.le_refl _
  · obtain ⟨-, -, rfl⟩ := Packet.ofFields_eq_ok.1 hmade
    rw [Bytes.joinFields_cons_cons, List.length_append]
    exact Nat.le_add_right _ _

theorem Definition.kind_of_announcement {d : Definition} {p : Packet} (h : d.announcement = .ok p) :
    p.kind ≠ .setClientId := by
  rcases announcement_cases h with ⟨-, rfl⟩ | ⟨seconds, -, hp⟩
  · simp [Packet.request]
  · rw [Packet.kind_of_ofFields hp]
    simp

namespace Worker

variable {limit : UInt32} {P : Packet → Prop} {w w' w'' w₁ : Worker} {server : Address} {m : Member}
  {p : Packet}

/-- What was sent over a session tells what is on offer and who the worker is. -/
structure Informed (r : Registry) (workerId : String) (sent : List Packet) : Prop where
  abilities : (Abilities.ofSent sent).Match r
  workerId : (sent.filter (·.kind = .setClientId)).getLast? =
    some (.request .setClientId (Text.Utf8.encode workerId))

/-- Packets that announce nothing. -/
def Plain (ps : List Packet) : Prop := ∀ p ∈ ps, p.isAnnouncement = false

theorem Informed.of_plain {r : Registry} {workerId : String} {sent ps : List Packet}
    (h : Informed r workerId sent) (hps : Plain ps) : Informed r workerId (sent ++ ps) where
  abilities := by
    rw [Abilities.ofSent, List.foldl_append, Abilities.foldl_learn_of_plain hps]
    exact h.abilities
  workerId := by
    have hnone : ps.filter (·.kind = .setClientId) = [] := by
      refine List.filter_eq_nil_iff.2 fun p hp hkind => ?_
      have hplain := hps p hp
      simp_all [Packet.isAnnouncement]
    rw [List.filter_append, hnone, List.append_nil]
    exact h.workerId

/-- Between `w` and `w'` the offer stayed as it was, and the servers that are left were sent packets of
which `P` holds. -/
structure Spoke (P : List Packet → Prop) (w w' : Worker) : Prop where
  registry : w'.registry = w.registry
  settings : w'.settings = w.settings
  member : ∀ server m', w'.members.get? server = some m' → ∃ m ps,
    w.members.get? server = some m ∧ m'.session.sent = m.session.sent ++ ps ∧ P ps

theorem spoke_of_members (hregistry : w'.registry = w.registry) (hsettings : w'.settings = w.settings)
    (hmembers : w'.members = w.members) : Spoke Plain w w' where
  registry := hregistry
  settings := hsettings
  member server m' hm' := ⟨m', [], hmembers ▸ hm', (List.append_nil _).symm, by simp [Plain]⟩

theorem Spoke.trans (h : Spoke Plain w w') (h' : Spoke Plain w' w'') : Spoke Plain w w'' where
  registry := h'.registry.trans h.registry
  settings := h'.settings.trans h.settings
  member server m'' hm'' := by
    obtain ⟨m', ps', hm', hsent', hps'⟩ := h'.member server m'' hm''
    obtain ⟨m, ps, hm, hsent, hps⟩ := h.member server m' hm'
    refine ⟨m, ps ++ ps', hm, by rw [hsent', hsent, List.append_assoc], fun p hp => ?_⟩
    rcases List.mem_append.1 hp with hp | hp
    · exact hps p hp
    · exact hps' p hp

theorem spoke_of_works (h : Works w w') : Spoke Plain w w' := by
  induction h with
  | refl => exact spoke_of_members rfl rfl rfl
  | tail _ hchange ih =>
    refine ih.trans ?_
    cases hchange with
    | @session server m m' ps hm hreplaced hregistry hsent hps =>
      refine ⟨hregistry, hreplaced.settings, fun other n hn => ?_⟩
      rw [hreplaced.members] at hn
      split at hn
      · next heq =>
        cases hn
        exact ⟨m, ps, heq ▸ hm, hsent, hps⟩
      · exact ⟨n, [], hn, (List.append_nil _).symm, by simp [Plain]⟩
    | lost hlost hregistry =>
      refine ⟨hregistry, hlost.settings, fun other n hn => ?_⟩
      rw [hlost.members] at hn
      split at hn
      · contradiction
      · exact ⟨n, [], hn, (List.append_nil _).symm, by simp [Plain]⟩

/-- While a worker works it announces nothing. -/
theorem Sound.spoke_of_labour (hw : Sound limit w) (h : Labour w w') : Spoke Plain w w' := by
  cases h with
  | arrived a => exact spoke_of_works (hw.changes_deliver a)
  | flagged => exact spoke_of_members rfl rfl rfl
  | asked server => exact spoke_of_works (hw.works_askOne server)
  | idle hreceive => exact spoke_of_works (hw.changes_idle hreceive)
  | handled hreceive =>
    rcases hw.handled_cases hreceive with hworks | ⟨w₂, handle, function, unique, data, d, hworks, -, -, heq⟩
    · exact spoke_of_works hworks
    · rw [heq]
      exact (spoke_of_works hworks).trans (spoke_of_members rfl rfl rfl)
  | @executed j rest s hqueue hs =>
    have htaken := (hw.step (.taken hqueue)).1
    have htold := spoke_of_works (htaken.works_tells (hs ▸ s.tells_execute j))
    have htaking : Spoke Plain w { w with queue := rest } := spoke_of_members rfl rfl rfl
    exact htaking.trans htold

theorem Sound.spoke_of_labours (hw : Sound limit w) (h : Labours w w') : Spoke Plain w w' := by
  induction h with
  | refl => exact spoke_of_members rfl rfl rfl
  | tail hlabours hlabour ih => exact ih.trans ((hw.labours hlabours).spoke_of_labour hlabour)

theorem offer_of_changes (h : Changes P w w') :
    w'.registry = w.registry ∧ w'.settings = w.settings := by
  induction h with
  | refl => exact ⟨rfl, rfl⟩
  | tail _ hchange ih =>
    obtain ⟨hregistry, hsettings⟩ := ih
    cases hchange with
    | session _ hreplaced hsame => exact ⟨hsame.trans hregistry, hreplaced.settings.trans hsettings⟩
    | lost hlost hsame => exact ⟨hsame.trans hregistry, hlost.settings.trans hsettings⟩

theorem Sound.changes_foldl_sendTo (hw : Sound limit w) (hp : p.kind.isAnswered = false)
    (servers : List Address) :
    Changes (· = p) w (servers.foldl (fun w server => (w.sendTo server p).2) w) := by
  induction servers generalizing w with
  | nil => exact .refl
  | cons server rest ih =>
    exact (hw.changes_sendTo (P := (· = p)) server rfl).trans (ih (hw.sendTo server hp).1)

/-- Of a packet within the limit every server that is left has got one. -/
theorem Sound.sent_of_foldl_sendTo (hw : Sound limit w) (hp : p.kind.isAnswered = false)
    (hfits : p.payload.length ≤ limit.toNat) {servers : List Address} (hnodup : servers.Nodup)
    (hm : (servers.foldl (fun w server => (w.sendTo server p).2) w).members.get? server = some m) :
    ∃ m₀, w.members.get? server = some m₀ ∧
      m.session.sent = m₀.session.sent ++ if server ∈ servers then [p] else [] := by
  induction servers generalizing w with
  | nil => exact ⟨m, hm, by simp⟩
  | cons first rest ih =>
    obtain ⟨hfirst, hrest⟩ := List.nodup_cons.1 hnodup
    obtain ⟨m₁, hm₁, hsent₁⟩ := ih (hw.sendTo first hp).1 hrest hm
    have hsends := hw.sends_sendTo first p
    rw [Packet.within_of_le hfits] at hsends
    by_cases heq : first = server
    · subst heq
      obtain ⟨m₀, hm₀, hsent⟩ := hsends.self m₁ hm₁
      exact ⟨m₀, hm₀, by rw [hsent₁, hsent, if_neg hfirst, if_pos List.mem_cons_self,
        List.append_nil]⟩
    · obtain ⟨m₀, hm₀, hsent⟩ := hsends.other server m₁ heq hm₁
      exact ⟨m₀, hm₀, by simp [hsent₁, hsent, Ne.symm heq]⟩

/-- A broadcast within the limit reaches every server that is left. -/
theorem Sound.spoke_broadcast (hw : Sound limit w) (hp : p.kind.isAnswered = false)
    (hfits : p.payload.length ≤ limit.toNat) : Spoke (· = [p]) w (w.broadcast p) := by
  obtain ⟨hregistry, hsettings⟩ := offer_of_changes (hw.changes_foldl_sendTo hp w.servers)
  refine ⟨hregistry, hsettings, fun server m hm => ?_⟩
  have hnodup : w.servers.Nodup := w.members.nodup_keys
  obtain ⟨m₀, hm₀, hsent⟩ := hw.sent_of_foldl_sendTo hp hfits hnodup hm
  have hmem : server ∈ w.servers := List.mem_map.2 ⟨_, Table.mem_entries_of_get? hm₀, rfl⟩
  rw [if_pos hmem] at hsent
  exact ⟨m₀, [p], hm₀, hsent, rfl⟩

/-- What was sent all at once was all that was to be sent. -/
theorem sent_of_sendAll {s s' : Session} {ps : List (Except Error Packet)}
    (hclear : s.Clear limit []) (h : sendAll s ps = (.ok (), s')) :
    ∃ qs, ps = qs.map .ok ∧ s'.sent = s.sent ++ qs := by
  induction ps generalizing s with
  | nil =>
    cases h
    exact ⟨[], rfl, (List.append_nil _).symm⟩
  | cons first rest ih =>
    cases first with
    | error e => cases h
    | ok p =>
      simp only [sendAll] at h
      split at h
      · next s₁ hsend =>
        obtain ⟨hclear₁, hsent, -⟩ := hclear.send_ok hsend
        obtain ⟨qs, rfl, hsent'⟩ := ih hclear₁ h
        exact ⟨p :: qs, rfl, by rw [hsent', hsent, List.append_assoc, List.singleton_append]⟩
      · cases h

/-- A server that joins has been told who the worker is and all that it offers. -/
theorem Sound.addServer_cases (hw : Sound limit w) (server : Address) (accepted : Bool) :
    (w.addServer server accepted).2.registry = w.registry ∧
      (w.addServer server accepted).2.settings = w.settings ∧
      ∀ other m, (w.addServer server accepted).2.members.get? other = some m →
        w.members.get? other = some m ∨
        ∃ ps, w.registry.definitions.map Definition.announcement = ps.map .ok ∧
          m.session.sent = w.idPacket :: ps ++ [.request .grabJob []] := by
  have hretire : ∀ (issued : Nat) (s : Session), let w' := { w with issued }.retire s
      w'.registry = w.registry ∧ w'.settings = w.settings ∧ w'.members = w.members := by
    intro issued s
    obtain ⟨given, heq, -⟩ := retire_eq { w with issued } s
    simp only [heq, and_self]
  unfold Worker.addServer
  split
  · exact ⟨rfl, rfl, fun _ _ hm => .inl hm⟩
  · dsimp only
    split
    · exact ⟨rfl, rfl, fun _ _ hm => .inl hm⟩
    · next session hinit =>
      obtain ⟨hclear, hfresh⟩ := Session.Clear.fresh hinit
      rw [hw.settings] at hclear
      split
      · next e session' _ =>
        obtain ⟨hregistry, hsettings, hmembers⟩ := hretire w.issued session'
        exact ⟨hregistry, hsettings, fun _ _ hm => .inl (hmembers ▸ hm)⟩
      · next session' hsendAll =>
        obtain ⟨qs, hqs, hsent⟩ := sent_of_sendAll hclear hsendAll
        obtain ⟨p, ps, rfl, hp, hps⟩ := List.map_eq_cons_iff.1 hqs.symm
        cases hp
        have hclear' := (sendAll_clear hclear w.isAnswered_introduction hsendAll).2 rfl
        rcases ask_cases (m := { session := session' }) w hclear' (.inl rfl) with
          ⟨asking, task, -, hsent', hask⟩ | ⟨e, failed, -, hask⟩
        · rw [hask]
          refine ⟨rfl, rfl, fun other m hm => ?_⟩
          rw [Table.get?_insert] at hm
          split at hm
          · cases hm
            exact .inr ⟨ps, hps.symm, by simp [hsent', hsent, hfresh]⟩
          · exact .inl hm
        · rw [hask]
          obtain ⟨hregistry, hsettings, hmembers⟩ := hretire (w.issued + 1) failed
          exact ⟨hregistry, hsettings, fun _ _ hm => .inl (hmembers ▸ hm)⟩

/-- An operation none of whose announcements is refused. A function that was announced can always be
withdrawn, and a server that cannot be told what is on offer does not join. -/
def Operation.Announceable (limit : UInt32) : Operation → Prop
  | .register d => d.Announceable limit
  | .setWorkerId workerId => (Text.Utf8.encode workerId).length ≤ limit.toNat
  | _ => True

/-- Every server knows what is on offer and who the worker is. -/
def Announced (w : Worker) : Prop :=
  ∀ server m, w.members.get? server = some m → Informed w.registry w.workerId m.session.sent

/-- What holds between operations none of whose announcements is refused. -/
structure Current (limit : UInt32) (w : Worker) : Prop where
  sound : Sound limit w
  offer : ∀ name d, w.registry.get? name = some d → d.name = name ∧ d.Announceable limit
  announced : w.Announced

/-- A worker that goes on without a word to its servers about the offer. -/
theorem Current.of_spoke (h : Current limit w) (hspoke : Spoke Plain w w') (hw' : Sound limit w') :
    Current limit w' where
  sound := hw'
  offer := by
    rw [hspoke.registry]
    exact h.offer
  announced server m' hm' := by
    obtain ⟨m, ps, hm, hsent, hps⟩ := hspoke.member server m' hm'
    rw [hspoke.registry, workerId, hspoke.settings, hsent]
    exact (h.announced server m hm).of_plain hps

/-- A change of the offer that every server is told of. -/
theorem Current.broadcast (h : Current limit w) (hw₁ : Sound limit w₁)
    (hmembers : w₁.members = w.members)
    (hoffer : ∀ name d, w₁.registry.get? name = some d → d.name = name ∧ d.Announceable limit)
    (hp : p.kind.isAnswered = false) (hfits : p.payload.length ≤ limit.toNat)
    (hinformed : ∀ sent, Informed w.registry w.workerId sent →
      Informed w₁.registry w₁.workerId (sent ++ [p])) : Current limit (w₁.broadcast p) := by
  have hspoke := hw₁.spoke_broadcast hp hfits
  refine ⟨hw₁.evolves (evolves_of_moves (moves_broadcast w₁ hp)), ?_, fun server m hm => ?_⟩
  · rw [hspoke.registry]
    exact hoffer
  · obtain ⟨m₀, ps, hm₀, hsent, rfl⟩ := hspoke.member server m hm
    rw [hspoke.registry, workerId, hspoke.settings, hsent]
    exact hinformed _ (h.announced server m₀ (hmembers ▸ hm₀))

/-- What is told of the offer leaves the name of the worker as it was. -/
theorem Informed.of_match {r r' : Registry} {workerId : String} {sent : List Packet}
    (h : Informed r workerId sent) (hkind : p.kind ≠ .setClientId)
    (hmatch : ((Abilities.ofSent sent).learn p).Match r') : Informed r' workerId (sent ++ [p]) where
  abilities := by rwa [Abilities.ofSent, List.foldl_append]
  workerId := by simpa [hkind] using h.workerId

theorem Current.register (h : Current limit w) {d : Definition} (hd : d.Announceable limit) :
    Current limit (w.register d).2 := by
  obtain ⟨p, hp, hfits⟩ := hd
  have hkind := Definition.kind_of_announcement hp
  simp only [Worker.register, hp]
  refine h.broadcast (h.sound.of_members rfl rfl fun _ hj => hj) rfl (fun name d' hd' => ?_)
    (Definition.isAnswered_announcement hp) hfits fun sent hsent => hsent.of_match hkind ?_
  · rw [Registry.get?_register] at hd'
    split at hd'
    · next heq =>
      cases hd'
      exact ⟨heq, p, hp, hfits⟩
    · exact h.offer name d' hd'
  · obtain ⟨told, htold, hlearn⟩ := Abilities.learn_announcement (.ofSent sent) hp
    rw [hlearn]
    exact hsent.abilities.register htold

theorem Current.unregister (h : Current limit w) (name : String) :
    Current limit (w.unregister name).2 := by
  unfold Worker.unregister
  split
  · next hknown =>
    obtain ⟨d, hd⟩ := Table.contains_iff.1 hknown
    obtain ⟨rfl, hannounceable⟩ := h.offer name d hd
    refine h.broadcast (h.sound.of_members rfl rfl fun _ hj => hj) rfl (fun name d' hd' => ?_)
      rfl hannounceable.length_name
      fun sent hsent => hsent.of_match (by simp [Packet.request]) (hsent.abilities.unregister d.name)
    rw [Registry.get?_unregister] at hd'
    split at hd'
    · contradiction
    · exact h.offer name d' hd'
  · exact h

theorem Current.unregisterAll (h : Current limit w) : Current limit w.unregisterAll :=
  h.broadcast (h.sound.of_members rfl rfl fun _ hj => hj) rfl (fun _ _ hd => by contradiction) rfl
    (Nat.zero_le _)
    fun _ hsent => hsent.of_match (by simp [Packet.request]) Abilities.match_empty

theorem Current.setWorkerId (h : Current limit w) {workerId : String}
    (hfits : (Text.Utf8.encode workerId).length ≤ limit.toNat) :
    Current limit (w.setWorkerId workerId) := by
  refine h.broadcast (h.sound.of_members rfl rfl fun _ hj => hj) rfl h.offer rfl hfits
    fun sent hsent => ⟨?_, ?_⟩
  · rw [Abilities.ofSent, List.foldl_append]
    exact hsent.abilities
  · simp [idPacket, Worker.workerId, Packet.request]

theorem Current.addServer (h : Current limit w) (server : Address) (accepted : Bool) :
    Current limit (w.addServer server accepted).2 := by
  obtain ⟨hregistry, hsettings, hmembers⟩ := h.sound.addServer_cases server accepted
  refine ⟨(h.sound.addServer server accepted).1, ?_, fun other m hm => ?_⟩
  · rw [hregistry]
    exact h.offer
  · rw [hregistry, workerId, hsettings]
    rcases hmembers other m hm with hm | ⟨ps, hps, hsent⟩
    · exact h.announced other m hm
    · have hnone : ps.filter (·.kind = .setClientId) = [] := by
        refine List.filter_eq_nil_iff.2 fun p hp => ?_
        have hmem : .ok p ∈ w.registry.definitions.map Definition.announcement :=
          hps ▸ List.mem_map_of_mem hp
        obtain ⟨d, -, hd⟩ := List.mem_map.1 hmem
        simpa using Definition.kind_of_announcement hd
      have hknown : Informed w.registry w.workerId (w.idPacket :: ps) := by
        have hmatch := Abilities.match_of_announcements (fun name d hd => (h.offer name d hd).1) hps
        exact ⟨hmatch, by simp [hnone, idPacket, Packet.request]⟩
      rw [hsent]
      exact hknown.of_plain (by simp [Plain, Packet.isAnnouncement, Packet.request])

theorem Sound.spoke_removeServer (hw : Sound limit w) (server : Address) :
    Spoke Plain w (w.removeServer server).2 := by
  refine spoke_of_works (.single (.lost (hw.lost_removeServer server) ?_))
  unfold Worker.removeServer
  split
  · rfl
  · exact registry_retire ..

/-- A worker that was shut down has nobody to tell anything. -/
theorem spoke_shutdown (w : Worker) : Spoke Plain w w.shutdown := by
  obtain ⟨given, hfold, -⟩ := foldl_closeMember w w.members.values
  unfold shutdown
  rw [hfold]
  exact ⟨rfl, rfl, by simp⟩

theorem Current.perform (h : Current limit w) {operation : Operation}
    (hop : operation.Announceable limit) : Current limit (w.perform operation) := by
  have hw' := h.sound.evolves (evolves_perform w operation)
  cases operation with
  | addServer server accepted => exact h.addServer server accepted
  | removeServer server => exact h.of_spoke (h.sound.spoke_removeServer server) hw'
  | setWorkerId workerId => exact h.setWorkerId hop
  | register d => exact h.register hop
  | unregister name => exact h.unregister name
  | unregisterAll => exact h.unregisterAll
  | stop => exact h.of_spoke (spoke_of_members rfl rfl rfl) hw'
  | shutdown => exact h.of_spoke (spoke_shutdown w) hw'
  | work now cues abandon =>
    exact h.of_spoke (h.sound.spoke_of_labours (labours_work w now cues abandon)) hw'
  | arrival a => exact h.of_spoke (spoke_of_works (h.sound.changes_deliver a)) hw'

theorem Current.performAll (h : Current limit w) {operations : List Operation}
    (hops : ∀ op ∈ operations, op.Announceable limit) : Current limit (w.performAll operations) := by
  induction operations generalizing w with
  | nil => exact h
  | cons op rest ih =>
    exact ih (h.perform (hops op List.mem_cons_self)) fun op' hop' => hops op' (List.mem_cons_of_mem _ hop')

theorem current_withSettings (settings : WorkerSettings) :
    Current settings.connection.maxPayloadSize (withSettings settings) where
  sound := sound_withSettings settings
  offer _ _ hd := by contradiction
  announced := by simp [Announced, withSettings]

/-- Servers know what a worker offers. As long as no announcement is refused, what was sent over each
session adds up to the functions on offer, each with the timeout of its definition, and the last word on
the name of the worker is the one that it goes by. -/
theorem servers_know_the_offer (settings : WorkerSettings) (operations : List Operation)
    (hops : ∀ op ∈ operations, op.Announceable settings.connection.maxPayloadSize) :
    let w := (withSettings settings).performAll operations
    ∀ server m, w.members.get? server = some m →
      (∀ bytes timeout, (Abilities.ofSent m.session.sent).get? bytes = some timeout ↔
        ∃ name d, w.registry.get? name = some d ∧ Text.Utf8.encode name = bytes ∧
          d.timeoutSeconds = .ok timeout) ∧
      (m.session.sent.filter (·.kind = .setClientId)).getLast? =
        some (.request .setClientId (Text.Utf8.encode w.workerId)) := by
  intro w server m hm
  have hinformed := ((current_withSettings settings).performAll hops).announced server m hm
  exact ⟨hinformed.abilities, hinformed.workerId⟩

/-- A function that always fails. -/
def failing (timeout : Option Duration) : Definition :=
  .ofFunction "f" timeout fun _ => ⟨[], .failed ""⟩

/-- A worker that takes its function off the offer and puts it back with a limit of a second and a
half, while it has a server. -/
def withdrawal : List Operation :=
  [.register (failing none), .addServer .default true, .unregister "f", .setWorkerId "w",
    .register (failing (some (.ofMillis 1500)))]

theorem servers_know_the_offer_withdrawal : ∃ m,
    ((withSettings { workerId := "" }).performAll withdrawal).members.get? .default = some m ∧
    (Abilities.ofSent m.session.sent).get? (Text.Utf8.encode "f") = some (some 2) ∧
    (m.session.sent.filter (·.kind = .setClientId)).getLast? =
      some (.request .setClientId (Text.Utf8.encode "w")) := by
  have hops : ∀ op ∈ withdrawal, op.Announceable Header.defaultMaxPayload := by
    simp only [withdrawal, List.mem_cons, List.not_mem_nil, or_false]
    rintro op (rfl | rfl | rfl | rfl | rfl)
    · exact ⟨_, rfl, by decide⟩
    · trivial
    · trivial
    · exact (by decide : (Text.Utf8.encode "w").length ≤ Header.defaultMaxPayload.toNat)
    · exact ⟨_, rfl, by decide⟩
  have hopen : (((withSettings { workerId := "" }).performAll withdrawal).members.get?
      .default).isSome = true := by decide +kernel
  have hname : ((withSettings { workerId := "" }).performAll withdrawal).workerId = "w" := by
    decide +kernel
  have hoffer : (((withSettings { workerId := "" }).performAll withdrawal).registry.get? "f").map
      (·.timeout) = some (some (.ofMillis 1500)) := by decide +kernel
  obtain ⟨m, hm⟩ := Option.isSome_iff_exists.1 hopen
  obtain ⟨d, hd, hlimit⟩ := Option.map_eq_some_iff.1 hoffer
  have htimeout : d.timeoutSeconds = .ok (some 2) := by
    rw [Definition.timeoutSeconds, hlimit]
    rfl
  obtain ⟨habilities, hid⟩ := servers_know_the_offer { workerId := "" } withdrawal hops .default m hm
  rw [hname] at hid
  exact ⟨m, hm, (habilities _ _).2 ⟨"f", d, hd, rfl, htimeout⟩, hid⟩

end Worker

end Gearman
