import Gearman.Proofs.Text.Decimal

/-!
The numerals that are read as numbers, and the white space that may surround them.

A numeral has no bound: leading zeros make it longer and not larger, and what is read is its value or,
past the limit of the reader, nothing.
-/

namespace Gearman.Text

variable {front back s : List Char}

/-- Trimming takes off white space and nothing else. -/
theorem exists_trim (s : List Char) : ∃ front back, s = front ++ trim s ++ back ∧
    (∀ c ∈ front, isBlank c = true) ∧ ∀ c ∈ back, isBlank c = true := by
  have hstart := List.takeWhile_append_dropWhile (p := isBlank) (l := s)
  have hend := List.takeWhile_append_dropWhile (p := isBlank) (l := (s.dropWhile isBlank).reverse)
  refine ⟨s.takeWhile isBlank, ((s.dropWhile isBlank).reverse.takeWhile isBlank).reverse, ?_,
    List.all_eq_true.1 List.all_takeWhile,
    fun c hc => List.all_eq_true.1 List.all_takeWhile c (List.mem_reverse.1 hc)⟩
  rw [List.append_assoc, trim, ← List.reverse_append, hend, List.reverse_reverse, hstart]

/-- White space around a text that neither starts nor ends with any is taken off. -/
theorem trim_surrounded (hfront : ∀ c ∈ front, isBlank c = true)
    (hback : ∀ c ∈ back, isBlank c = true) (hne : s ≠ [])
    (hhead : isBlank (s.head hne) = false) (hlast : isBlank (s.getLast hne) = false) :
    trim (front ++ s ++ back) = s := by
  have hback' : ∀ c ∈ back.reverse, isBlank c = true := fun c hc => hback c (List.mem_reverse.1 hc)
  have hkept : ∀ {text : List Char} (hne : text ≠ []) (rest : List Char),
      isBlank (text.head hne) = false → (text ++ rest).dropWhile isBlank = text ++ rest := by
    rintro (_ | ⟨c, tail⟩) hne rest hc
    · contradiction
    · rw [List.cons_append, List.dropWhile_cons_of_neg (by simpa using hc)]
  have hne' : s.reverse ≠ [] := by simpa using hne
  have hlast' : isBlank (s.reverse.head hne') = false := by simpa using hlast
  have hend := hkept hne' [] hlast'
  rw [List.append_nil] at hend
  rw [trim, List.append_assoc, List.dropWhile_append_of_pos hfront, hkept hne back hhead,
    List.reverse_append, List.dropWhile_append_of_pos hback', hend, List.reverse_reverse]

namespace Decimal

variable {limit m n : Nat} {digits : List Char}

/-- One digit or more, which write the number `n`. -/
structure IsDigits (digits : List Char) (n : Nat) : Prop where
  ne_nil : digits ≠ []
  isDigit : ∀ c ∈ digits, c.isDigit = true
  value : Nat.ofDigitChars 10 digits 0 = n

/-- The numerals of a number: digits, in front of which may be a plus sign. -/
inductive Numeral : List Char → Nat → Prop
  | plain {digits : List Char} {n : Nat} (h : IsDigits digits n) : Numeral digits n
  | signed {digits : List Char} {n : Nat} (h : IsDigits digits n) : Numeral ('+' :: digits) n

theorem IsDigits.isBlank_eq_false (h : IsDigits digits n) : ∀ c ∈ digits, isBlank c = false :=
  fun c hc => isBlank_eq_false_of_mem_digits c (mem_digits (h.isDigit c hc))

theorem numeral_iff_of_head? (h : ∀ rest, s ≠ '+' :: rest) : Numeral s n ↔ IsDigits s n := by
  refine ⟨fun hnumeral => ?_, .plain⟩
  cases hnumeral with
  | plain hdigits => exact hdigits
  | signed hdigits => exact absurd rfl (h _)

/-- The sign is no digit. -/
theorem numeral_signed_iff : Numeral ('+' :: digits) n ↔ IsDigits digits n := by
  refine ⟨fun hnumeral => ?_, .signed⟩
  cases hnumeral with
  | plain hdigits => exact absurd (hdigits.isDigit '+' List.mem_cons_self) (by decide)
  | signed hdigits => exact hdigits

theorem value?_eq_some : value? limit digits = some n ↔
    Nat.ofDigitChars 10 digits 0 = n ∧ n ≤ limit := by
  have hvalue : value digits = Nat.ofDigitChars 10 digits 0 := rfl
  rw [value?_eq, hvalue, Option.ite_none_right_eq_some, Option.some.injEq, and_comm]
  exact and_congr_right fun h => by rw [h]

theorem digits_eq_some :
    (if !digits.isEmpty && digits.all isDigit then value? limit digits else none) = some n ↔
      IsDigits digits n ∧ n ≤ limit := by
  have hisDigit : ∀ c : Char, isDigit c = c.isDigit := fun _ => rfl
  rw [Option.ite_none_right_eq_some, value?_eq_some]
  constructor
  · rintro ⟨hdigits, hvalue, hle⟩
    simp only [Bool.and_eq_true, Bool.not_eq_true', List.isEmpty_eq_false_iff, List.all_eq_true,
      hisDigit] at hdigits
    exact ⟨⟨hdigits.1, hdigits.2, hvalue⟩, hle⟩
  · rintro ⟨hdigits, hle⟩
    simp only [Bool.and_eq_true, Bool.not_eq_true', List.isEmpty_eq_false_iff, List.all_eq_true,
      hisDigit]
    exact ⟨⟨hdigits.ne_nil, hdigits.isDigit⟩, hdigits.value, hle⟩

/-- What is read are the numerals of the numbers up to the limit. -/
theorem parse?_eq_some : parse? limit s = some n ↔ Numeral s n ∧ n ≤ limit := by
  unfold parse?
  split
  · rw [numeral_signed_iff]
    exact digits_eq_some
  · next hsign =>
    rw [numeral_iff_of_head? hsign]
    exact digits_eq_some

/-- A numeral has one value. -/
theorem Numeral.unique (h : Numeral s n) (h' : Numeral s m) : n = m := by
  have hread := parse?_eq_some.2 ⟨h, Nat.le_max_left n m⟩
  rw [parse?_eq_some.2 ⟨h', Nat.le_max_right n m⟩] at hread
  exact (Option.some.inj hread).symm

theorem Numeral.ne_nil (h : Numeral s n) : s ≠ [] := by
  cases h with
  | plain h => exact h.ne_nil
  | signed h => exact List.cons_ne_nil _ _

/-- A numeral starts with a digit or a sign and ends with a digit, so that white space around it ends
there. -/
theorem Numeral.trim_surrounded (h : Numeral s n) (hfront : ∀ c ∈ front, isBlank c = true)
    (hback : ∀ c ∈ back, isBlank c = true) : trim (front ++ s ++ back) = s := by
  cases h with
  | plain h =>
    exact Text.trim_surrounded hfront hback h.ne_nil
      (h.isBlank_eq_false _ (List.head_mem _)) (h.isBlank_eq_false _ (List.getLast_mem _))
  | signed h =>
    have hplus : isBlank '+' = false := by decide
    refine Text.trim_surrounded hfront hback (List.cons_ne_nil _ _) hplus ?_
    rw [List.getLast_cons h.ne_nil]
    exact h.isBlank_eq_false _ (List.getLast_mem _)

end Decimal

end Gearman.Text
