import Gearman.Proofs.Job.Counters
import Gearman.Proofs.Packet.Joining
import Gearman.Worker.Execution
import Mathlib.Order.Bounds.Defs

/-!
The timeout that servers are told and the one that is enforced.

Servers are told whole seconds, and an execution is cut off after so many nanoseconds. The seconds are
counted in 64 bits: for all timeouts but those past the last full second that can be counted they are
the least number that covers the timeout, and past it there is no announcement.
-/

namespace Gearman

open Text

namespace Duration

/-- The numbers of whole seconds that are not less than the span. -/
def covers (d : Duration) : Set Nat := {n | d.toNanos ≤ n * 1000000000}

/-- The longest span that is covered by a number of seconds in 64 bits. -/
def coverable : Nat := (UInt64.size - 1) * 1000000000

variable {d : Duration}

/-- The seconds, a fraction counted as one, without regard to the 64 bits. -/
theorem isLeast_covers :
    IsLeast d.covers (d.seconds.toNat + if 0 < d.nanos then 1 else 0) := by
  have hnanos := d.nanos_lt
  constructor
  · show d.seconds.toNat * 1000000000 + d.nanos ≤ _
    split <;> omega
  · intro n (hn : d.seconds.toNat * 1000000000 + d.nanos ≤ n * 1000000000)
    split <;> omega

/-- The seconds can be counted if the span is not too long. -/
theorem ceilSeconds?_of_le (h : d.toNanos ≤ coverable) :
    ∃ seconds, d.ceilSeconds? = some seconds ∧ IsLeast d.covers seconds.toNat := by
  have hleast := d.isLeast_covers
  have hcoverable : coverable = 18446744073709551615 * 1000000000 := rfl
  unfold ceilSeconds?
  split
  · next hfraction =>
    rw [if_pos hfraction] at hleast
    have hroom : d.seconds.toNat + 1 < UInt64.size := by
      simp only [toNanos] at h
      simp only [UInt64.size]
      omega
    refine ⟨d.seconds + 1, if_pos hroom, ?_⟩
    rwa [UInt64.toNat_add, UInt64.toNat_one, Nat.mod_eq_of_lt hroom]
  · next hwhole =>
    rw [if_neg hwhole] at hleast
    exact ⟨d.seconds, rfl, hleast⟩

theorem ceilSeconds?_of_lt (h : coverable < d.toNanos) : d.ceilSeconds? = none := by
  have hnanos := d.nanos_lt
  have hseconds : d.seconds.toNat < 18446744073709551616 := d.seconds.toNat_lt_size
  have hcoverable : coverable = 18446744073709551615 * 1000000000 := rfl
  simp only [toNanos] at h
  unfold ceilSeconds?
  rw [if_pos (by omega), if_neg]
  simp only [UInt64.size]
  omega

/-- No number of seconds in 64 bits would do for a longer span. -/
theorem not_mem_covers (h : coverable < d.toNanos) (n : UInt64) : n.toNat ∉ d.covers := by
  intro (hn : d.toNanos ≤ n.toNat * 1000000000)
  have hlast : n.toNat ≤ UInt64.size - 1 := Nat.le_sub_one_of_lt n.toNat_lt_size
  exact absurd (Nat.le_trans hn (Nat.mul_le_mul_right _ hlast)) (Nat.not_le_of_lt h)

end Duration

/-- How long a function pauses, in nanoseconds. -/
def Moment.paused : List Moment → Nat
  | [] => 0
  | .sent _ :: rest => paused rest
  | .pause ms :: rest => ms * 1000000 + paused rest

/-- What is enforced is the timeout to the nanosecond: a function that pauses no longer than up to the
deadline is not cut off, and any other is. -/
theorem Scene.play_finished {deadline : Instant} (s : Scene) (server : Address) (moments : List Moment)
    (h : s.now.nanos ≤ deadline.nanos) :
    (s.play server (some deadline) moments).2 = true ↔
      s.now.nanos + Moment.paused moments ≤ deadline.nanos := by
  induction moments generalizing s with
  | nil => simpa [play, Moment.paused] using h
  | cons moment rest ih =>
    cases moment with
    | sent p => exact ih { s with worker := (s.worker.sendTo server p).2 } h
    | pause ms =>
      rw [play, Moment.paused, ← Nat.add_assoc, Option.any_some]
      split
      · next hlate =>
        have hover := Nat.lt_of_lt_of_le (of_decide_eq_true hlate)
          (Nat.le_add_right _ (Moment.paused rest))
        exact iff_of_false Bool.false_ne_true (Nat.not_le_of_lt hover)
      · next hintime =>
        exact ih { s.sleep with now := s.now.afterMillis ms }
          (Nat.le_of_not_lt fun hover => hintime (decide_eq_true hover))

namespace Definition

variable {name : String} {timeout : Duration} {seconds : UInt64}
  {body : Nat → Context → Performance} {p : Packet}

theorem announcement_eq (hseconds : timeout.ceilSeconds? = some seconds) :
    (⟨name, some timeout, body⟩ : Definition).announcement =
      Packet.ofFields .request .canDoTimeout [Utf8.encode name, writeCounter seconds] := by
  simp only [announcement, timeoutSeconds, hseconds]

/-- The announcement of a timeout is split into the name and the seconds again. -/
theorem fields_of_announcement (hseconds : timeout.ceilSeconds? = some seconds)
    (h : (⟨name, some timeout, body⟩ : Definition).announcement = .ok p) :
    p.kind = .canDoTimeout ∧ p.fields 2 = .ok [Utf8.encode name, writeCounter seconds] := by
  rw [announcement_eq hseconds] at h
  have hfields := Packet.fields_of_ofFields (by simp) h
  obtain ⟨-, -, rfl⟩ := Packet.ofFields_eq_ok.1 h
  exact ⟨rfl, hfields⟩

/-- There is an announcement if there is room for it. -/
theorem announcement_isOk (hseconds : timeout.ceilSeconds? = some seconds)
    (hname : 0 ∉ Utf8.encode name) :
    (∃ p, (⟨name, some timeout, body⟩ : Definition).announcement = .ok p) ↔
      (Utf8.encode name).length + 1 + (writeCounter seconds).length < UInt32.size := by
  rw [announcement_eq hseconds, Packet.ofFields_isOk]
  have hlength : Bytes.joinedLength [Utf8.encode name, writeCounter seconds] =
      (Utf8.encode name).length + 1 + (writeCounter seconds).length := by
    simp only [Bytes.joinedLength, List.flatten_cons, List.flatten_nil, List.length_append,
      List.length_cons, List.length_nil]
    omega
  simp [hlength, hname]

/-- Servers are told the least number of whole seconds that is not less than the timeout that is
enforced, and can read it off the announcement. A timeout that no number of seconds in 64 bits covers is
not announced, for the attempt is the end of the worker. -/
theorem announced_seconds_cover_timeout (name : String) (timeout : Duration)
    (body : Nat → Context → Performance) (hname : 0 ∉ Utf8.encode name) :
    let d : Definition := ⟨name, some timeout, body⟩
    (∀ (s : Scene) (server : Address) (deadline : Instant) (moments : List Moment),
      s.now.after? timeout = some deadline →
        ((s.play server (some deadline) moments).2 = true ↔
          Moment.paused moments ≤ timeout.toNanos)) ∧
    (timeout.toNanos ≤ Duration.coverable → ∃ seconds : UInt64,
      IsLeast timeout.covers seconds.toNat ∧ d.timeoutSeconds = .ok (some seconds) ∧
      ((∃ p, d.announcement = .ok p) ↔
        (Utf8.encode name).length + 1 + (writeCounter seconds).length < UInt32.size) ∧
      ∀ p, d.announcement = .ok p →
        p.kind = .canDoTimeout ∧ ∃ text, p.fields 2 = .ok [Utf8.encode name, text] ∧
          ∀ field, readCounter field text = .ok seconds) ∧
    (Duration.coverable < timeout.toNanos →
      (∀ n : UInt64, n.toNat ∉ timeout.covers) ∧
      d.announcement = .error (.panicked "attempt to add with overflow")) := by
  intro d
  refine ⟨fun s server deadline moments hdeadline => ?_, fun hcovered => ?_, fun hlong => ?_⟩
  · have hnanos := Instant.nanos_of_after? hdeadline
    rw [s.play_finished server moments (hnanos ▸ Nat.le_add_right _ _), hnanos,
      Nat.add_le_add_iff_left]
  · obtain ⟨seconds, hseconds, hleast⟩ := Duration.ceilSeconds?_of_le hcovered
    refine ⟨seconds, hleast, by simp only [d, timeoutSeconds, hseconds],
      announcement_isOk hseconds hname, fun p hp => ?_⟩
    obtain ⟨hkind, hfields⟩ := fields_of_announcement hseconds hp
    exact ⟨hkind, _, hfields, fun field => readCounter_writeCounter field seconds⟩
  · refine ⟨Duration.not_mem_covers hlong, ?_⟩
    simp only [d, announcement, timeoutSeconds, Duration.ceilSeconds?_of_lt hlong]

/-- The last timeout with a fraction of a second that is covered. -/
theorem announced_seconds_cover_timeout_limit :
    0 ∉ Utf8.encode "f" ∧
      (⟨18446744073709551614, 999999999, by decide⟩ : Duration).toNanos ≤ Duration.coverable ∧
      ∃ seconds : UInt64, IsLeast (⟨18446744073709551614, 999999999, by decide⟩ : Duration).covers
        seconds.toNat := by
  have hname : 0 ∉ Utf8.encode "f" := by decide
  have hcovered : (⟨18446744073709551614, 999999999, by decide⟩ : Duration).toNanos ≤
      Duration.coverable := by decide
  obtain ⟨-, hseconds, -⟩ := announced_seconds_cover_timeout "f"
    ⟨18446744073709551614, 999999999, by decide⟩ (fun _ _ => ⟨[], .failed ""⟩) hname
  obtain ⟨seconds, hleast, -⟩ := hseconds hcovered
  exact ⟨hname, hcovered, seconds, hleast⟩

/-- Servers are told nothing of the longest of all timeouts: its seconds, with the fraction counted as
one, have no room in 64 bits. -/
theorem longest_timeout_is_not_announced :
    (⟨"f", some ⟨18446744073709551615, 999999999, by decide⟩, fun _ _ => ⟨[], .failed ""⟩⟩ :
        Definition).timeoutSeconds = .error (.panicked "attempt to add with overflow") ∧
      ∀ p, (⟨"f", some ⟨18446744073709551615, 999999999, by decide⟩, fun _ _ => ⟨[], .failed ""⟩⟩ :
        Definition).announcement ≠ .ok p := by
  refine ⟨rfl, fun p => ?_⟩
  rintro ⟨⟩

end Definition

end Gearman
