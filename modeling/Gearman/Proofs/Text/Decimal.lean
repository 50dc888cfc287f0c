import Gearman.Text.Decimal

/-!
Numbers that were written in decimal digits can be read.
-/

namespace Gearman.Text

/-- The characters that decimal numerals are written with. -/
def digits : List Char := ['0', '1', '2', '3', '4', '5', '6', '7', '8', '9']

/-- What is true of the ten digits is true of each of them. -/
theorem forall_digits {P : Char → Prop} [DecidablePred P] (h : digits.all (P ·) = true) :
    ∀ c ∈ digits, P c := by
  simpa using h

theorem mem_digits {c : Char} (h : c.isDigit = true) : c ∈ digits := by
  simp only [Char.isDigit, Bool.and_eq_true, decide_eq_true_eq] at h
  have hlow : 48 ≤ c.toNat := UInt32.le_iff_toNat_le.1 h.1
  have hhigh : c.toNat ≤ 57 := UInt32.le_iff_toNat_le.1 h.2
  have hall : ∀ n < 10, Char.ofNat (48 + n) ∈ digits := by decide
  rw [← Char.ofNat_toNat c, ← Nat.add_sub_cancel' hlow]
  exact hall _ (by omega)

theorem mem_toDigits {n : Nat} {c : Char} (h : c ∈ Nat.toDigits 10 n) : c ∈ digits :=
  mem_digits (Nat.isDigit_of_mem_toDigits (by decide) (by decide) h)

variable {s : List Char}

theorem isBlank_eq_false_of_mem_digits : ∀ c ∈ digits, isBlank c = false :=
  forall_digits (by decide)

/-- A digit is where white space ends. -/
theorem dropWhile_isBlank_digits (h : ∀ c ∈ s, c ∈ digits) (hne : s ≠ []) (rest : List Char) :
    (s ++ rest).dropWhile isBlank = s ++ rest := by
  obtain ⟨c, tail, rfl⟩ := List.exists_cons_of_ne_nil hne
  have hc := isBlank_eq_false_of_mem_digits c (h c List.mem_cons_self)
  rw [List.cons_append, List.dropWhile_cons_of_neg (by rw [hc]; decide)]

/-- A text that ends in digits is trimmed only at its start. -/
theorem trim_append_digits (h : ∀ c ∈ s, c ∈ digits) (hne : s ≠ []) (text : List Char) :
    trim (text ++ s) = text.dropWhile isBlank ++ s := by
  have hstart : (text ++ s).dropWhile isBlank = text.dropWhile isBlank ++ s := by
    have hdigits := dropWhile_isBlank_digits h hne []
    rw [List.append_nil] at hdigits
    rw [List.dropWhile_append, hdigits]
    split
    · next hempty => rw [List.isEmpty_iff.1 hempty, List.nil_append]
    · rfl
  have hend : ∀ c ∈ s.reverse, c ∈ digits := by simpa using h
  rw [trim, hstart, List.reverse_append, dropWhile_isBlank_digits hend (by simpa using hne),
    ← List.reverse_append, List.reverse_reverse]

theorem trim_digits (h : ∀ c ∈ s, c ∈ digits) (hne : s ≠ []) : trim s = s :=
  trim_append_digits h hne []

namespace Decimal

/-- The value is the fold of the library by which it reads digits back. -/
theorem value_toDigits (n : Nat) : value (Nat.toDigits 10 n) = n :=
  Nat.ofDigitChars_toDigits (by decide) (by decide)

theorem isDigit_of_mem_digits : ∀ c ∈ digits, isDigit c = true := forall_digits (by decide)

theorem value?_toDigits {limit n : Nat} (h : n ≤ limit) :
    value? limit (Nat.toDigits 10 n) = some n := by
  rw [value?_eq, value_toDigits, if_pos h]

theorem parse?_toDigits {limit n : Nat} (h : n ≤ limit) :
    parse? limit (Nat.toDigits 10 n) = some n := by
  have hall : (Nat.toDigits 10 n).all isDigit = true :=
    List.all_eq_true.2 fun c hc => isDigit_of_mem_digits c (mem_toDigits hc)
  have hsign : '+' ∉ Nat.toDigits 10 n := fun hc => by
    have := mem_toDigits hc
    contradiction
  unfold parse?
  split
  · next rest heq =>
    rw [heq] at hsign
    exact absurd List.mem_cons_self hsign
  · simp [hall, Nat.toDigits_ne_nil, value?_toDigits h]

end Decimal

end Gearman.Text
