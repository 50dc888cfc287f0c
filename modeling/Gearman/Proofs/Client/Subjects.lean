import Gearman.Proofs.Client.Effects
import Gearman.Proofs.Job.Refusals

/-!
The job that a report is added to, and the fields of the report.

The handle is cut off the front of the payload without a look at how many fields there are; the counters
of a status report are read from all its fields. Both find the same handle.
-/

namespace Gearman

namespace Packet

variable {p : Packet} {fields : List Bytes} {n : Nat}

theorem handleAndRest_of_not_mem (h : 0 ∉ p.payload) : p.handleAndRest = (p.payload, []) := by
  rw [handleAndRest, Bytes.cut?_eq_none_iff.2 h, Option.getD_none]

/-- Of two fields or more the first is the handle, and the others make the rest. -/
theorem handleAndRest_of_fields (h : p.fields (n + 2) = .ok fields) :
    ∃ handle rest, fields = handle :: rest ∧ p.handleAndRest = (handle, Bytes.joinFields rest) := by
  obtain ⟨hlength, hzero, hpayload⟩ := (fields_eq_ok (le_of_fields h)).1 h
  match fields, hlength with
  | handle :: second :: others, _ =>
    refine ⟨handle, second :: others, rfl, ?_⟩
    rw [handleAndRest, hpayload, Bytes.joinFields_cons_cons,
      Bytes.cut?_append (hzero handle (by simp)), Option.getD_some]

/-- Without a zero byte there is one field, whether or not there would be room for more. -/
theorem fields_of_not_mem (h : 0 ∉ p.payload) (n : Nat) :
    p.fields (n + 2) = .error (if n + 2 ≤ maxFields then .missingFields p.kind (n + 2) 1
      else .panicked "capacity overflow") := by
  have hcount : p.payload.count 0 = 0 := List.count_eq_zero.2 h
  split
  · next hroom => exact (fields_eq_error hroom).2 ⟨by omega, by rw [hcount]⟩
  · next hlong => exact fields_of_lt (Nat.lt_of_not_le hlong)

theorem ReportsStatus.handle_eq {handle numerator denominator : Bytes}
    (h : p.ReportsStatus handle numerator denominator) : p.handleAndRest.1 = handle := by
  obtain ⟨_, _, heq, hcut⟩ := handleAndRest_of_fields ((reportsStatus_iff h.kind).1 h)
  cases heq
  rw [hcut]

end Packet

/-- The status reports that a result accepts, and what they make of it. -/
theorem JobResult.apply_workStatus_eq_ok {r r' : JobResult} {p : Packet} {last : Bool}
    (hkind : p.kind = .workStatus) : r.apply p = (.ok last, r') ↔
      last = false ∧ ∃ handle numerator denominator n d,
        p.ReportsStatus handle numerator denominator ∧ readCounter "numerator" numerator = .ok n ∧
          readCounter "denominator" denominator = .ok d ∧
          r' = { r with numerator := n, denominator := d } := by
  simp only [apply, hkind]
  constructor
  · intro h
    cases hfields : p.fields 3 with
    | error e => simp [applyStatus, hfields] at h
    | ok fields =>
      obtain ⟨handle, numerator, denominator, -, hreports⟩ :=
        Packet.exists_reportsStatus hkind hfields
      rw [applyStatus_of_reports r hreports] at h
      split at h
      · cases h
      · cases h
      · next n d hnumerator hdenominator =>
        cases h
        exact ⟨rfl, handle, numerator, denominator, n, d, hreports, hnumerator, hdenominator, rfl⟩
  · rintro ⟨rfl, handle, numerator, denominator, n, d, hreports, hnumerator, hdenominator, rfl⟩
    rw [applyStatus_of_reports r hreports, hnumerator, hdenominator]

namespace Client

variable {c : Client} {server : Address} {p : Packet} {r r' : JobResult}

theorem dispatch_update (hresponse : p.isResponse = true) (hkind : p.kind.isUpdate = true) :
    c.dispatch server (.unsolicited p) = c.handleUpdate server p :=
  if_pos (by rw [hresponse, hkind, Bool.and_self])

theorem handleUpdate_untracked (h : c.jobs.get? (subject server p) = none) :
    c.handleUpdate server p = (.ok (), c) := by
  unfold subject at h
  simp only [handleUpdate, h]

/-- A report that can be read, and is not the last one, changes the result of its job and is news. -/
theorem handleUpdate_tracked (h : c.jobs.get? (subject server p) = some r)
    (happly : r.apply p = (.ok false, r')) :
    c.handleUpdate server p = (.ok (), { c with
      jobs := c.jobs.insert (subject server p) r'
      updates := c.updates ++ [⟨subject server p, p⟩] }) := by
  unfold subject at h ⊢
  simp only [handleUpdate, h, happly, note, Bool.false_eq_true, if_false]

/-- The handle in front of a payload is the first of its fields, and what is behind it are the others,
however many are asked for; there are none without a zero byte. So a status report that can be read goes
to the job that is named in front of its counters, and to no other. -/
theorem named_job_gets_counters :
    (∀ (p : Packet) (n : Nat), 2 ≤ n →
      (∀ fields, p.fields n = .ok fields → fields.head? = some p.handleAndRest.1 ∧
        Bytes.joinFields fields.tail = p.handleAndRest.2) ∧
      (0 ∉ p.payload → p.handleAndRest = (p.payload, []) ∧
        p.fields n = .error (if n ≤ Packet.maxFields then .missingFields p.kind n 1
          else .panicked "capacity overflow"))) ∧
    ∀ (p : Packet) (r r' : JobResult) (last : Bool), p.kind = .workStatus →
      r.apply p = (.ok last, r') →
        ∃ handle numerator denominator n d, p.fields 3 = .ok [handle, numerator, denominator] ∧
          readCounter "numerator" numerator = .ok n ∧
          readCounter "denominator" denominator = .ok d ∧
          r' = { r with numerator := n, denominator := d } ∧
          ∀ (c : Client) (server : Address), p.isResponse = true →
            (c.jobs.get? ⟨handle, server⟩ = none → c.dispatch server (.unsolicited p) = (.ok (), c)) ∧
            ∀ known, c.jobs.get? ⟨handle, server⟩ = some known →
              c.dispatch server (.unsolicited p) = (.ok (), { c with
                jobs := c.jobs.insert ⟨handle, server⟩
                  { known with numerator := n, denominator := d }
                updates := c.updates ++ [⟨⟨handle, server⟩, p⟩] }) := by
  refine ⟨fun p n hn => ?_, fun p r r' last hkind happly => ?_⟩
  · obtain ⟨n, rfl⟩ := Nat.exists_eq_add_of_le' hn
    refine ⟨fun fields hfields => ?_,
      fun hzero => ⟨Packet.handleAndRest_of_not_mem hzero, Packet.fields_of_not_mem hzero n⟩⟩
    obtain ⟨handle, rest, rfl, hcut⟩ := Packet.handleAndRest_of_fields hfields
    rw [hcut]
    exact ⟨rfl, rfl⟩
  · obtain ⟨rfl, handle, numerator, denominator, n, d, hreports, hnumerator, hdenominator, rfl⟩ :=
      (JobResult.apply_workStatus_eq_ok hkind).1 happly
    refine ⟨handle, numerator, denominator, n, d, (Packet.reportsStatus_iff hkind).1 hreports,
      hnumerator, hdenominator, rfl, fun c server hresponse => ?_⟩
    have hsubject : subject server p = ⟨handle, server⟩ := by rw [subject, hreports.handle_eq]
    have hupdate : p.kind.isUpdate = true := by rw [hkind]; rfl
    rw [dispatch_update hresponse hupdate, ← hsubject]
    refine ⟨handleUpdate_untracked, fun known hknown => handleUpdate_tracked hknown ?_⟩
    exact (JobResult.apply_workStatus_eq_ok hkind).2
      ⟨rfl, handle, numerator, denominator, n, d, hreports, hnumerator, hdenominator, rfl⟩

/-- A client of whose job "A" nothing was reported yet, and the report that 5 of 6 parts are done. -/
def expectant : Client := { jobs := (∅ : Table _ _).insert ⟨[0x41], .default⟩ (.pending [0x41]) }

def progress : Packet := .response .workStatus [0x41, 0, 0x35, 0, 0x36]

theorem named_job_gets_counters_progress :
    progress.fields 2 = .ok [[0x41], [0x35, 0, 0x36]] ∧ progress.handleAndRest.1 = [0x41] ∧
      (JobResult.pending [0x41]).apply progress =
        (.ok false, (JobResult.pending [0x41]).withStatus 5 6) ∧
      (expectant.dispatch .default (.unsolicited progress)).2.jobs.get? ⟨[0x41], .default⟩ =
        some ((JobResult.pending [0x41]).withStatus 5 6) := by
  have hsplit : progress.fields 2 = .ok [[0x41], [0x35, 0, 0x36]] := rfl
  have happly : (JobResult.pending [0x41]).apply progress =
      (.ok false, (JobResult.pending [0x41]).withStatus 5 6) := rfl
  obtain ⟨hcut, hcounters⟩ := named_job_gets_counters
  have hhandle := ((hcut progress 2 (Nat.le_refl 2)).1 _ hsplit).1
  obtain ⟨handle, numerator, denominator, n, d, hfields, -, -, hresult, hgets⟩ :=
    hcounters progress _ _ _ rfl happly
  have hthree : progress.fields 3 = .ok [[0x41], [0x35], [0x36]] := rfl
  cases hthree.symm.trans hfields
  have htracked : expectant.jobs.get? ⟨[0x41], .default⟩ = some (.pending [0x41]) :=
    Table.get?_insert_self
  refine ⟨hsplit, (Option.some.inj hhandle).symm, happly, ?_⟩
  rw [(hgets expectant .default rfl).2 _ htracked, hresult]
  exact Table.get?_insert_self

end Client

end Gearman
