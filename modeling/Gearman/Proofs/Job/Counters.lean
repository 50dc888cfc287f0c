import Gearman.Job.Counter
import Gearman.Proofs.Text.Decimal
import Gearman.Proofs.Text.Utf8

/-!
Counters that were written can be read.
-/

namespace Gearman

/-- The digits of a counter. -/
theorem writeCounter_eq (n : UInt64) :
    writeCounter n = (Nat.toDigits 10 n.toNat).flatMap String.utf8EncodeChar := by
  simp [writeCounter, Text.Utf8.encode, toString, Nat.repr]

/-- A counter is written without zero bytes, so that it can be a field in front of others. -/
theorem nul_not_mem_writeCounter (n : UInt64) : 0 ∉ writeCounter n := by
  have hdigits : ∀ c ∈ Text.digits, 0 ∉ String.utf8EncodeChar c :=
    Text.forall_digits (by decide)
  rw [writeCounter_eq, List.mem_flatMap]
  rintro ⟨c, hc, hmem⟩
  exact hdigits c (Text.mem_toDigits hc) hmem

theorem readCounter_writeCounter (field : String) (n : UInt64) :
    readCounter field (writeCounter n) = .ok n := by
  have hdigits : ∀ c ∈ Nat.toDigits 10 n.toNat, c ∈ Text.digits := fun c hc => Text.mem_toDigits hc
  have hdecode : Text.Utf8.decode? (writeCounter n) = some (Nat.toDigits 10 n.toNat) := by
    rw [writeCounter_eq, Text.Utf8.decode?_flatMap_encodeChar]
  have hparse : Text.Decimal.parse? (UInt64.size - 1) (Nat.toDigits 10 n.toNat) = some n.toNat :=
    Text.Decimal.parse?_toDigits (Nat.le_sub_one_of_lt n.toNat_lt_size)
  unfold readCounter
  split
  · next hempty =>
    rw [List.isEmpty_iff.1 hempty] at hdecode
    exact absurd (Option.some.inj hdecode).symm Nat.toDigits_ne_nil
  · simp only [hdecode, Option.bind_some, Text.trim_digits hdigits Nat.toDigits_ne_nil, hparse]
    rw [Nat.toUInt64_eq, UInt64.ofNat_toNat]

end Gearman
