import Gearman.Proofs.Job.Counters
import Gearman.Proofs.Packet.Fields
import Gearman.Proofs.Worker.Changes

/-!
What servers learn from the announcements of a worker, and when that is what it offers.
-/

namespace Gearman

namespace Registry

variable {r : Registry} {d : Definition} {name : String}

theorem get?_register : (r.register d).2.get? name = if d.name = name then some d else r.get? name :=
  Table.get?_insert

theorem get?_unregister {other : String} :
    (r.unregister name).2.get? other = if name = other then none else r.get? other :=
  Table.get?_erase

/-- The definitions that are listed are those that are on offer. -/
theorem mem_definitions : d ∈ r.definitions ↔ ∃ name, r.get? name = some d := by
  simp only [definitions, names, List.mem_filterMap, List.mem_mergeSort]
  refine ⟨fun ⟨name, _, hname⟩ => ⟨name, hname⟩, fun ⟨name, hname⟩ => ⟨name, ?_, hname⟩⟩
  exact List.mem_map.2 ⟨_, Table.mem_entries_of_get? hname, rfl⟩

end Registry

/-- What a server knows of the functions of a worker: under the bytes of each name, the seconds that an
execution may take, if that was said. -/
abbrev Abilities : Type := Table Bytes (Option UInt64)

namespace Abilities

/-- What a server knows after a request. -/
def learn (known : Abilities) (p : Packet) : Abilities :=
  match p.kind with
  | .canDo => known.insert p.payload none
  | .canDoTimeout =>
    let (name, seconds) := p.handleAndRest
    known.insert name (readCounter "timeout" seconds).toOption
  | .cantDo => known.erase p.payload
  | .resetAbilities => ∅
  | _ => known

/-- What a server knows after some requests, if it has known nothing before. -/
def ofSent (ps : List Packet) : Abilities := ps.foldl learn ∅

/-- The functions known are those on offer, each with the timeout of its definition. -/
def Match (known : Abilities) (r : Registry) : Prop :=
  ∀ bytes timeout, known.get? bytes = some timeout ↔
    ∃ name d, r.get? name = some d ∧ Text.Utf8.encode name = bytes ∧ d.timeoutSeconds = .ok timeout

variable {known : Abilities} {r : Registry} {d : Definition} {p : Packet} {ps : List Packet}

theorem learn_announcement (known : Abilities) (h : d.announcement = .ok p) :
    ∃ timeout, d.timeoutSeconds = .ok timeout ∧
      known.learn p = known.insert (Text.Utf8.encode d.name) timeout := by
  rcases Definition.announcement_cases h with ⟨hnone, rfl⟩ | ⟨seconds, hseconds, hp⟩
  · exact ⟨none, hnone, rfl⟩
  · obtain ⟨-, hnul, rfl⟩ := Packet.ofFields_eq_ok.1 hp
    refine ⟨some seconds, hseconds, ?_⟩
    have hname : 0 ∉ Text.Utf8.encode d.name := by simpa using hnul
    simp [learn, Packet.handleAndRest_joinFields hname, readCounter_writeCounter, Except.toOption]

/-- Requests that announce nothing teach nothing. -/
theorem foldl_learn_of_plain (hps : ∀ p ∈ ps, p.isAnnouncement = false) :
    ps.foldl learn known = known := by
  induction ps with
  | nil => rfl
  | cons p rest ih =>
    have hp := hps p List.mem_cons_self
    have hlearn : known.learn p = known := by
      unfold learn
      unfold Packet.isAnnouncement at hp
      split <;> simp_all
    rw [List.foldl_cons, hlearn, ih fun q hq => hps q (List.mem_cons_of_mem _ hq)]

theorem match_empty : Match ∅ ∅ := by
  intro bytes timeout
  simp only [Table.get?_empty, reduceCtorEq, false_iff]
  rintro ⟨name, d, hd, -⟩
  contradiction

theorem Match.register (h : known.Match r) {told : Option UInt64} (htold : d.timeoutSeconds = .ok told) :
    Match (known.insert (Text.Utf8.encode d.name) told) (r.register d).2 := by
  intro bytes timeout
  simp only [Table.get?_insert, Registry.get?_register]
  constructor
  · intro hget
    split at hget
    · next heq =>
      cases hget
      exact ⟨d.name, d, if_pos rfl, heq, htold⟩
    · next hne =>
      obtain ⟨name, d', hd', rfl, htimeout⟩ := (h bytes timeout).1 hget
      refine ⟨name, d', ?_, rfl, htimeout⟩
      rwa [if_neg fun heq => hne (congrArg _ heq)]
  · rintro ⟨name, d', hd', rfl, htimeout⟩
    split at hd'
    · next heq =>
      cases hd'
      obtain rfl : told = timeout := Except.ok.inj (htold.symm.trans htimeout)
      exact if_pos (congrArg _ heq)
    · next hne =>
      rw [if_neg fun heq => hne (Text.Utf8.encode_injective heq)]
      exact (h _ timeout).2 ⟨name, d', hd', rfl, htimeout⟩

theorem Match.unregister (h : known.Match r) (name : String) :
    Match (known.erase (Text.Utf8.encode name)) (r.unregister name).2 := by
  intro bytes timeout
  simp only [Table.get?_erase, Registry.get?_unregister]
  constructor
  · intro hget
    split at hget
    · contradiction
    · next hne =>
      obtain ⟨other, d, hd, rfl, htimeout⟩ := (h bytes timeout).1 hget
      refine ⟨other, d, ?_, rfl, htimeout⟩
      rwa [if_neg fun heq => hne (congrArg _ heq)]
  · rintro ⟨other, d, hd, rfl, htimeout⟩
    split at hd
    · contradiction
    · next hne =>
      rw [if_neg fun heq => hne (Text.Utf8.encode_injective heq)]
      exact (h _ timeout).2 ⟨other, d, hd, rfl, htimeout⟩

/-- Of the functions on offer at least these are known, and nothing else. -/
structure Covers (known : Abilities) (r : Registry) (ds : List Definition) : Prop where
  offered : ∀ bytes timeout, known.get? bytes = some timeout →
    ∃ name d, r.get? name = some d ∧ Text.Utf8.encode name = bytes ∧ d.timeoutSeconds = .ok timeout
  known : ∀ d ∈ ds, ∃ timeout, d.timeoutSeconds = .ok timeout ∧
    known.get? (Text.Utf8.encode d.name) = some timeout

theorem Covers.insert {ds : List Definition} (h : Covers known r ds) (hd : r.get? d.name = some d)
    {told : Option UInt64} (htold : d.timeoutSeconds = .ok told) :
    Covers (known.insert (Text.Utf8.encode d.name) told) r (d :: ds) where
  offered bytes timeout hget := by
    rw [Table.get?_insert] at hget
    split at hget
    · next heq =>
      cases hget
      exact ⟨d.name, d, hd, heq, htold⟩
    · exact h.offered bytes timeout hget
  known d' hd' := by
    rw [Table.get?_insert]
    rcases List.mem_cons.1 hd' with rfl | hd'
    · exact ⟨told, htold, if_pos rfl⟩
    · obtain ⟨timeout, htimeout', hget⟩ := h.known d' hd'
      refine ⟨timeout, htimeout', ?_⟩
      split
      · next heq =>
        -- Two definitions of one name: both are the one on offer.
        obtain ⟨name, d'', hd'', hname, htimeout⟩ := h.offered _ _ hget
        rw [← heq] at hname
        obtain rfl := Text.Utf8.encode_injective hname
        rw [hd] at hd''
        cases hd''
        exact congrArg some (Except.ok.inj (htold.symm.trans htimeout))
      · exact hget

/-- Announcements of functions on offer add up. -/
theorem Covers.foldl_learn {ds new : List Definition} (h : Covers known r ds)
    (hnew : ∀ d ∈ new, r.get? d.name = some d)
    (hps : new.map Definition.announcement = ps.map .ok) :
    Covers (ps.foldl learn known) r (new.reverse ++ ds) := by
  induction new generalizing known ds ps with
  | nil =>
    obtain rfl : ps = [] := by simpa using hps.symm
    exact h
  | cons d new ih =>
    obtain ⟨p, rest, rfl, hp, hrest⟩ := List.map_eq_cons_iff.1 hps.symm
    obtain ⟨told, htold, hlearn⟩ := learn_announcement known hp.symm
    rw [List.foldl_cons, hlearn, List.reverse_cons, List.append_assoc]
    exact ih (h.insert (hnew d List.mem_cons_self) htold)
      (fun d' hd' => hnew d' (List.mem_cons_of_mem _ hd')) hrest.symm

/-- A server that is told of all functions on offer knows them. -/
theorem match_of_announcements (hnamed : ∀ name d, r.get? name = some d → d.name = name)
    (hps : r.definitions.map Definition.announcement = ps.map .ok) :
    Match (ps.foldl learn ∅) r := by
  have hnew : ∀ d ∈ r.definitions, r.get? d.name = some d := by
    intro d hd
    obtain ⟨name, hname⟩ := Registry.mem_definitions.1 hd
    rwa [hnamed name d hname]
  have hnothing : Covers ∅ r [] := ⟨by simp, by simp⟩
  have hcovers := hnothing.foldl_learn hnew hps
  refine fun bytes timeout => ⟨hcovers.offered bytes timeout, ?_⟩
  rintro ⟨name, d, hd, rfl, htimeout⟩
  obtain ⟨told, htold, hget⟩ := hcovers.known d (by simp [Registry.mem_definitions.2 ⟨name, hd⟩])
  obtain rfl : told = timeout := Except.ok.inj (htold.symm.trans htimeout)
  rwa [hnamed name d hd] at hget

end Abilities

end Gearman
