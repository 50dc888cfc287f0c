import Gearman.Job.Result
import Gearman.Proofs.Packet.Fields

/-!
Packets that a result refuses, and what is left of the result.

A status report states two counters, and a result takes over the first of them before it looks at the
second. So a report with a good numerator and a bad denominator is refused and has changed the numerator
all the same. Every other refusal leaves the result as it was.
-/

namespace Gearman

namespace Packet

/-- A status report with these fields. Only the last one may hold zero bytes. -/
structure ReportsStatus (p : Packet) (handle numerator denominator : Bytes) : Prop where
  kind : p.kind = .workStatus
  nul : 0 ∉ handle ∧ 0 ∉ numerator
  payload : p.payload = Bytes.joinFields [handle, numerator, denominator]

/-- A status report whose numerator can be read, whatever stands behind it. -/
def StatesNumerator (p : Packet) (n : UInt64) : Prop :=
  ∃ handle numerator denominator, p.ReportsStatus handle numerator denominator ∧
    readCounter "numerator" numerator = .ok n

variable {p : Packet} {handle numerator denominator : Bytes}

/-- The fields of a status report are those that it was made of. -/
theorem reportsStatus_iff (hkind : p.kind = .workStatus) :
    p.ReportsStatus handle numerator denominator ↔
      p.fields 3 = .ok [handle, numerator, denominator] := by
  rw [fields_eq_ok (by decide)]
  constructor
  · intro h
    exact ⟨rfl, by simpa using h.nul, h.payload⟩
  · rintro ⟨-, hnul, hpayload⟩
    exact ⟨hkind, by simpa using hnul, hpayload⟩

theorem ReportsStatus.unique {handle' numerator' denominator' : Bytes}
    (h : p.ReportsStatus handle numerator denominator)
    (h' : p.ReportsStatus handle' numerator' denominator') :
    handle' = handle ∧ numerator' = numerator ∧ denominator' = denominator := by
  have hfields := (reportsStatus_iff h.kind).1 h
  rw [(reportsStatus_iff h.kind).1 h'] at hfields
  simpa using hfields

theorem exists_reportsStatus {fields : List Bytes} (hkind : p.kind = .workStatus)
    (h : p.fields 3 = .ok fields) : ∃ handle numerator denominator,
      fields = [handle, numerator, denominator] ∧ p.ReportsStatus handle numerator denominator := by
  obtain ⟨hlength, -, -⟩ := (fields_eq_ok (le_of_fields h)).1 h
  match fields, hlength with
  | [handle, numerator, denominator], _ =>
    exact ⟨handle, numerator, denominator, rfl, (reportsStatus_iff hkind).2 h⟩

end Packet

namespace JobResult

/-- Why a result refuses a packet, and what the packet leaves of it. -/
inductive Refuses (r : JobResult) (p : Packet) : Error → JobResult → Prop
  | kind (h : p.kind.isUpdate = false) : Refuses r p (.notAnUpdate p.kind) r
  | fields (hkind : p.kind = .workStatus) (h : p.payload.count 0 < 2) :
    Refuses r p (.missingFields .workStatus 3 (p.payload.count 0 + 1)) r
  | numerator {handle numerator denominator : Bytes} {e : Error}
    (h : p.ReportsStatus handle numerator denominator)
    (hnumerator : readCounter "numerator" numerator = .error e) : Refuses r p e r
  | denominator {handle numerator denominator : Bytes} {n : UInt64} {e : Error}
    (h : p.ReportsStatus handle numerator denominator)
    (hnumerator : readCounter "numerator" numerator = .ok n)
    (hdenominator : readCounter "denominator" denominator = .error e) :
    Refuses r p e { r with numerator := n }

variable {r r' : JobResult} {p : Packet} {e : Error}

/-- What a result makes of a status report, field by field. -/
theorem applyStatus_of_reports {handle numerator denominator : Bytes} (r : JobResult)
    (h : p.ReportsStatus handle numerator denominator) :
    r.applyStatus p =
      match readCounter "numerator" numerator, readCounter "denominator" denominator with
      | .error e, _ => (.error e, r)
      | .ok n, .error e => (.error e, { r with numerator := n })
      | .ok n, .ok d => (.ok false, { r with numerator := n, denominator := d }) := by
  simp only [applyStatus, (Packet.reportsStatus_iff h.kind).1 h, List.getD_cons_succ,
    List.getD_cons_zero]
  cases readCounter "numerator" numerator <;> cases readCounter "denominator" denominator <;> rfl

theorem refuses_of_applyStatus (hkind : p.kind = .workStatus) (h : r.applyStatus p = (.error e, r')) :
    Refuses r p e r' := by
  cases hfields : p.fields 3 with
  | error e' =>
    rw [applyStatus, hfields] at h
    cases h
    obtain ⟨hfew, rfl⟩ := (Packet.fields_eq_error (by decide)).1 hfields
    rw [hkind]
    exact .fields hkind hfew
  | ok fields =>
    obtain ⟨handle, numerator, denominator, -, hreports⟩ := Packet.exists_reportsStatus hkind hfields
    rw [applyStatus_of_reports r hreports] at h
    split at h
    · next hnumerator =>
      cases h
      exact .numerator hreports hnumerator
    · next hnumerator hdenominator =>
      cases h
      exact .denominator hreports hnumerator hdenominator
    · cases h

/-- A result refuses what is no report, and status reports that it cannot read. -/
theorem apply_eq_error : r.apply p = (.error e, r') ↔ Refuses r p e r' := by
  constructor
  · intro h
    unfold apply at h
    split at h
    case h_3 hkind => exact refuses_of_applyStatus hkind h
    case h_7 hdata hwarning hstatus hcomplete hexception hfail =>
      cases h
      refine .kind ?_
      cases hkind : p.kind <;> first | rfl | contradiction
    all_goals cases h
  · intro h
    cases h with
    | kind h =>
      unfold apply
      cases hkind : p.kind <;> first | rfl | (rw [hkind] at h; contradiction)
    | fields hkind hfew =>
      simp only [apply, hkind, applyStatus, (Packet.fields_eq_error (by decide)).2 ⟨hfew, rfl⟩]
    | numerator h hnumerator =>
      simp only [apply, h.kind, applyStatus_of_reports r h, hnumerator]
    | denominator h hnumerator hdenominator =>
      simp only [apply, h.kind, applyStatus_of_reports r h, hnumerator, hdenominator]

/-- A refusal leaves a result as it was, unless the packet states a numerator. Then that is all that has
changed. -/
theorem refused_report_leaves_result (h : r.apply p = (.error e, r')) :
    ((∀ n, ¬ p.StatesNumerator n) → r' = r) ∧
      ∀ n, p.StatesNumerator n → r' = { r with numerator := n } := by
  cases apply_eq_error.1 h with
  | kind hkind =>
    refine ⟨fun _ => rfl, ?_⟩
    rintro n ⟨_, _, _, hreports, -⟩
    rw [hreports.kind] at hkind
    contradiction
  | fields hkind hfew =>
    refine ⟨fun _ => rfl, ?_⟩
    rintro n ⟨_, _, _, hreports, -⟩
    have hfields := (Packet.fields_eq_error (by decide)).2 ⟨hfew, rfl⟩
    rw [(Packet.reportsStatus_iff hkind).1 hreports] at hfields
    contradiction
  | numerator hreports hnumerator =>
    refine ⟨fun _ => rfl, ?_⟩
    rintro n ⟨_, _, _, hreports', hread⟩
    obtain ⟨-, rfl, -⟩ := hreports.unique hreports'
    rw [hnumerator] at hread
    contradiction
  | denominator hreports hnumerator hdenominator =>
    refine ⟨fun hnone => absurd ⟨_, _, _, hreports, hnumerator⟩ (hnone _), ?_⟩
    rintro n ⟨_, _, _, hreports', hread⟩
    obtain ⟨-, rfl, -⟩ := hreports.unique hreports'
    rw [hnumerator] at hread
    cases hread
    rfl

/-- A report with a numerator that is no number, and a good denominator. -/
def garbage : Packet := .response .workStatus [0x41, 0, 0x78, 0, 0x35]

theorem garbage_states_nothing (n : UInt64) : ¬ garbage.StatesNumerator n := by
  rintro ⟨handle, numerator, denominator, hreports, hread⟩
  have hfields : garbage.fields 3 = .ok [[0x41], [0x78], [0x35]] := rfl
  have hunread : readCounter "numerator" [0x78] = .error (.notDecimal "numerator" "x") := rfl
  rw [(Packet.reportsStatus_iff rfl).1 hreports] at hfields
  cases hfields
  rw [hunread] at hread
  contradiction

theorem refused_report_leaves_result_garbage :
    ({ numerator := 7 } : JobResult).apply garbage =
      (.error (.notDecimal "numerator" "x"), { numerator := 7 }) := by
  have hrefused : (({ numerator := 7 } : JobResult).apply garbage).1 =
      .error (.notDecimal "numerator" "x") := rfl
  have hkept := (refused_report_leaves_result (Prod.ext hrefused rfl)).1 garbage_states_nothing
  exact Prod.ext hrefused hkept

/-- A report with the numerator 5 and a denominator that is no number. -/
def half : Packet := .response .workStatus [0x41, 0, 0x35, 0, 0x78]

/-- A report that is refused sets the numerator. -/
theorem half_read_report_changes_result :
    (pending [0x41]).apply half =
        (.error (.notDecimal "denominator" "x"), { pending [0x41] with numerator := 5 }) ∧
      { pending [0x41] with numerator := 5 } ≠ pending [0x41] := by
  exact ⟨rfl, by decide⟩

end JobResult

end Gearman
