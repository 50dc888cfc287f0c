import Gearman.Proofs.Client.Disturbance
import Gearman.Proofs.Client.Routing

/-!
What a client has collected of a job stays: while the job is tracked, data, warnings and exceptions only
grow. The exception is a reply that names the handle of a job that is tracked already. Its result starts
over, and all that was collected is lost.
-/

namespace Gearman

namespace JobResult

/-- All that was collected in `r` stands at the front of what was collected in `r'`. -/
structure Grows (r r' : JobResult) : Prop where
  results : r.results <+: r'.results
  warnings : r.warnings <+: r'.warnings
  exceptions : r.exceptions <+: r'.exceptions

theorem Grows.refl (r : JobResult) : Grows r r :=
  ⟨List.prefix_refl _, List.prefix_refl _, List.prefix_refl _⟩

theorem Grows.trans {r r' r'' : JobResult} (h : Grows r r') (h' : Grows r' r'') : Grows r r'' :=
  ⟨h.results.trans h'.results, h.warnings.trans h'.warnings, h.exceptions.trans h'.exceptions⟩

theorem grows_applyStatus (r : JobResult) (p : Packet) : Grows r (r.applyStatus p).2 := by
  unfold applyStatus
  repeat' split
  all_goals exact ⟨List.prefix_refl _, List.prefix_refl _, List.prefix_refl _⟩

/-- No packet takes anything back, whether or not it can be read. -/
theorem grows_apply (r : JobResult) (p : Packet) : Grows r (r.apply p).2 := by
  unfold apply
  dsimp only
  split
  · exact ⟨List.prefix_append _ _, List.prefix_refl _, List.prefix_refl _⟩
  · exact ⟨List.prefix_refl _, List.prefix_append _ _, List.prefix_refl _⟩
  · exact grows_applyStatus r p
  · exact ⟨List.prefix_append _ _, List.prefix_refl _, List.prefix_refl _⟩
  · exact ⟨List.prefix_refl _, List.prefix_refl _, List.prefix_append _ _⟩
  · exact ⟨List.prefix_refl _, List.prefix_refl _, List.prefix_refl _⟩
  · exact .refl r

end JobResult

namespace Client

variable {c c' : Client} {job : JobHandle} {e : Happening} {log : History} {r r' : JobResult}

/-- Who is tracked after a happening that creates no job was tracked before it. -/
theorem Entry.grows_next {entry : Entry} (hcreates : e.creates job = false)
    (h : (entry.next job e).tracked = some r') : ∃ r, entry.tracked = some r ∧ r.Grows r' := by
  simp only [next, hcreates, Bool.false_eq_true, if_false] at h
  split at h
  · contradiction
  · split at h
    · exact ⟨r', h, .refl r'⟩
    · next p hreport =>
      split at h
      · contradiction
      · obtain ⟨r, hr, rfl⟩ := Option.map_eq_some_iff.1 h
        exact ⟨r, hr, r.grows_apply p⟩

theorem Entry.grows_foldl {entry : Entry} (hlog : ∀ e ∈ log, e.creates job = false)
    (h : (log.foldl (next job) entry).tracked = some r') :
    ∃ r, entry.tracked = some r ∧ r.Grows r' := by
  induction log generalizing entry with
  | nil => exact ⟨r', h, .refl r'⟩
  | cons e rest ih =>
    obtain ⟨r₁, hr₁, hgrows₁⟩ := ih (fun e he => hlog e (List.mem_cons_of_mem _ he)) h
    obtain ⟨r, hr, hgrows⟩ := grows_next (hlog e List.mem_cons_self) hr₁
    exact ⟨r, hr, hgrows.trans hgrows₁⟩

/-- Accumulated results only grow, however many packets are handled and whatever else happens, as long
as no reply creates the job again. Such a reply makes its result start over. -/
theorem tracked_results_grow (settings : ClientSettings) {past : History}
    (hc : Chain Step (withSettings settings) past c) (job : JobHandle) :
    (∀ log c' r r', Chain Step c log c' → (∀ e ∈ log, e.creates job = false) →
      c.jobs.get? job = some r → c'.jobs.get? job = some r' → r.Grows r') ∧
    ∀ e c', Step c [e] c' → e.creates job = true →
      c'.jobs.get? job = some (.pending job.handle) := by
  have hsound : Sound c := sound_of_chain hc
  refine ⟨fun log c' r r' hlog hnew hr hr' => ?_, fun e c' hstep hcreates => ?_⟩
  · have htracked : (log.foldl (Entry.next job) (c.entry job)).tracked = some r' := by
      rw [← entry_chain hsound hlog job]
      exact hr'
    obtain ⟨old, hold, hgrows⟩ := Entry.grows_foldl hnew htracked
    obtain rfl : r = old := Option.some.inj (hr.symm.trans hold)
    exact hgrows
  · have hentry := entry_step hsound hstep job
    have htracked : (c'.entry job).tracked = some (.pending job.handle) := by
      rw [hentry]
      simp [Entry.next, hcreates]
    exact htracked

namespace Errand

/-- A report that brings one byte of data for the job that `occupied` knows of. -/
def data : Packet := .response .workData [0x42, 0, 0x78]

/-- The client that has read such a report. -/
def reading (c : Client) : Client :=
  ((c.deliver ⟨.default, data.encode, .none⟩).1.receive .default).2

/-- The client that has handled such a report. -/
def informed (c : Client) : Client := ((reading c).handleUpdate .default data).2

theorem evolves_occupied : Evolves Step (withSettings {}) occupied :=
  performAll_preparations ▸ evolves_performAll (withSettings {}) preparations

theorem drive_informed {c : Client}
    (h : (c.deliver ⟨.default, data.encode, .none⟩).1.receive .default =
      (.ok (some (.unsolicited data)), reading c)) :
    Chain Step c [.packet .default (.unsolicited data) none] (informed c) :=
  (Chain.single (Step.drive (.arrival c _))).trans (.single (.drive (.report h rfl)))

end Errand

open Errand

/-- Data is added to the data that was there. -/
theorem tracked_results_grow_data : ∃ past log r r',
    Chain Step (withSettings {}) past (informed occupied) ∧
    Chain Step (informed occupied) log (informed (informed occupied)) ∧
    (informed occupied).jobs.get? ⟨[0x42], .default⟩ = some r ∧ r.results = [0x78] ∧
    (informed (informed occupied)).jobs.get? ⟨[0x42], .default⟩ = some r' ∧
    r'.results = [0x78, 0x78] ∧ r.Grows r' := by
  obtain ⟨past, hpast⟩ := evolves_occupied
  have hfirst := drive_informed (c := occupied) (by cbv)
  have hsecond := drive_informed (c := informed occupied) (by cbv)
  have hr : (informed occupied).jobs.get? ⟨[0x42], .default⟩ =
      some { handle := [0x42], results := [0x78] } := by
    cbv
  have hr' : (informed (informed occupied)).jobs.get? ⟨[0x42], .default⟩ =
      some { handle := [0x42], results := [0x78, 0x78] } := by
    cbv
  exact ⟨_, _, _, _, hpast.trans hfirst, hsecond, hr, rfl, hr', rfl,
    (tracked_results_grow {} (hpast.trans hfirst) _).1 _ _ _ _ hsecond (by simp [Happening.creates])
      hr hr'⟩

/-- A second submission that is answered with the handle of a tracked job costs the job its data. -/
theorem second_creation_starts_over : ∃ past c e c' r r',
    Chain Step (withSettings {}) past c ∧ Step c [e] c' ∧
    e = .packet .default (.reply 1 (created [0x42])) (some (.submission false none)) ∧
    c.jobs.get? ⟨[0x42], .default⟩ = some r ∧ r.results = [0x78] ∧
    c'.jobs.get? ⟨[0x42], .default⟩ = some r' ∧ r'.results = [] ∧ ¬ r.Grows r' := by
  obtain ⟨past, hpast⟩ := evolves_occupied
  have hinformed := drive_informed (c := occupied) (by cbv)
  obtain ⟨log, hasked⟩ : Evolves Step (informed occupied) (asking (informed occupied)) :=
    evolves_start (hearing []) .default rfl
  have harrived : Chain Step (asking (informed occupied)) [] _ :=
    .single (.drive (.arrival _ ⟨.default, (created [0x42]).encode, .none⟩))
  have hread : ((asking (informed occupied)).deliver
      ⟨.default, (created [0x42]).encode, .none⟩).1.receive .default =
        (.ok (some (.reply 1 (created [0x42]))), told (informed occupied) [0x42]) := by
    cbv
  have hexchange : (told (informed occupied) [0x42]).exchange? 1 =
      some (.submission false none) := by
    cbv
  have hreply := Step.drive (Drive.reply hread)
  rw [hexchange] at hreply
  refine ⟨_, _, _, _, { handle := [0x42], results := [0x78] }, { handle := [0x42] },
    ((hpast.trans hinformed).trans hasked).trans harrived, hreply, rfl, ?_, rfl, ?_, rfl, ?_⟩
  · cbv
  · cbv
  · rintro ⟨hresults, -, -⟩
    exact absurd hresults (by decide)

end Client

end Gearman
