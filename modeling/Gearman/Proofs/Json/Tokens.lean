import Gearman.Json.Token
import Gearman.Json.Writer
import Gearman.Proofs.Text.Decimal

/-!
Written strings and numbers are read as single tokens.

A string ends at the quote that was written behind it, since no quote is left inside. A number ends where
its digits end, so what follows must not be read as a part of it (`EndsNumber`).
-/

namespace Gearman

namespace Text

/-- Only the number zero is written with a zero in front. -/
theorem eq_zero_of_head?_toDigits {n : Nat} (h : (Nat.toDigits 10 n).head? = some '0') : n = 0 := by
  induction n using Nat.strongRecOn with
  | _ n ih =>
    by_cases hsmall : n < 10
    · rw [Nat.toDigits_of_lt_base hsmall, List.head?_cons, Option.some.injEq,
        Nat.digitChar_eq_zero] at h
      exact h
    · rw [Nat.toDigits_of_base_le (by decide) (Nat.le_of_not_lt hsmall)] at h
      obtain ⟨c, tail, hdigits⟩ := List.exists_cons_of_ne_nil (Nat.toDigits_ne_nil (b := 10) (n := n / 10))
      rw [hdigits, List.cons_append, List.head?_cons, Option.some.injEq] at h
      have hzero := ih (n / 10) (by omega) (by rw [hdigits, List.head?_cons, h])
      omega

end Text

namespace Json

/-- As what a written character is read. -/
def element (c : Char) : Element :=
  if c.toNat < 0x20 ∧ c ∉ ['\x08', '\x0c', '\n', '\r', '\t'] then .unit c.toNat else .char c

/-- The digits of a control character that has no short escape. -/
theorem unit?_hexByte : ∀ n < 0x20, unit? '0' '0' (Nat.digitChar (n.toUInt8.toNat / 16))
    (Nat.digitChar (n.toUInt8.toNat % 16)) = some n := by
  decide

theorem scanString_short {c d : Char} (hc : c ≠ 'u') (h : unescape? c = some d) (rest : List Char) :
    scanString ('\\' :: c :: rest) =
      (scanString rest).map fun x => (.char d :: x.1, x.2) := by
  rw [scanString]
  · rw [h]
    cases scanString rest <;> rfl
  · intro _ _ _ _ _ hu
    exact absurd hu hc

theorem scanString_unit {a b c d : Char} {n : Nat} (h : unit? a b c d = some n) (rest : List Char) :
    scanString ('\\' :: 'u' :: a :: b :: c :: d :: rest) =
      (scanString rest).map fun x => (.unit n :: x.1, x.2) := by
  simp only [scanString, h]
  cases scanString rest <;> rfl

theorem scanString_plain {c : Char} (hquote : c ≠ '"') (hslash : c ≠ '\\') (hc : 0x20 ≤ c.toNat)
    (rest : List Char) :
    scanString (c :: rest) = (scanString rest).map fun x => (.char c :: x.1, x.2) := by
  have hplain : (c.toNat < 0x20 || c = '\\') = false := by
    simp [hslash, Nat.not_lt_of_le hc]
  rw [scanString]
  · rw [hplain]
    rfl
  · exact hquote
  · intro _ _ _ _ _ h
    exact absurd h hslash
  · intro _ _ h
    exact absurd h hslash

/-- Each written character is read as one element. -/
theorem scanString_escape (c : Char) (rest : List Char) :
    scanString (escape c ++ rest) = (scanString rest).map fun x => (element c :: x.1, x.2) := by
  unfold escape
  split
  · exact scanString_short (by decide) rfl rest
  · exact scanString_short (by decide) rfl rest
  · exact scanString_short (by decide) rfl rest
  · exact scanString_short (by decide) rfl rest
  · exact scanString_short (by decide) rfl rest
  · exact scanString_short (by decide) rfl rest
  · exact scanString_short (by decide) rfl rest
  · next hquote hslash hback hform hline hreturn htab =>
    by_cases hc : c.toNat < 0x20
    · have helement : element c = .unit c.toNat := by
        rw [element, if_pos ⟨hc, by simp_all⟩]
      rw [if_pos hc, helement]
      exact scanString_unit (unit?_hexByte _ hc) rest
    · have helement : element c = .char c := by
        rw [element, if_neg fun h => hc h.1]
      rw [if_neg hc, helement]
      exact scanString_plain hquote hslash (Nat.le_of_not_lt hc) rest

theorem scanString_written (s rest : List Char) :
    scanString (s.flatMap escape ++ '"' :: rest) = some (s.map element, rest) := by
  induction s with
  | nil => rfl
  | cons c tail ih =>
    rw [List.flatMap_cons, List.append_assoc, scanString_escape, ih]
    rfl

/-- A unit that is no half of a pair is a character. -/
theorem assemble?_unit {n : Nat} (hn : n < 0xD800) (elements : List Element) :
    assemble? (.unit n :: elements) = (assemble? elements).map (Char.ofNat n :: ·) := by
  have hlead : isLead n = false := by
    simp only [isLead, Bool.and_eq_false_iff, decide_eq_false_iff_not]
    omega
  have htrail : isTrail n = false := by
    simp only [isTrail, Bool.and_eq_false_iff, decide_eq_false_iff_not]
    omega
  cases elements with
  | nil => simp [assemble?, hlead, htrail]
  | cons e more => cases e <;> simp [assemble?, hlead, htrail]

theorem assemble?_element (s : List Char) : assemble? (s.map element) = some s := by
  induction s with
  | nil => rfl
  | cons c tail ih =>
    rw [List.map_cons, element]
    split
    · next hc =>
      rw [assemble?_unit (Nat.lt_trans hc.1 (by decide)), ih, Char.ofNat_toNat]
      rfl
    · rw [assemble?, ih]
      rfl

theorem scan_writeString (s : String) (rest : List Char) :
    scan (writeString s ++ rest) = some (.string (some s), rest) := by
  have htext : writeString s ++ rest = '"' :: (s.toList.flatMap escape ++ '"' :: rest) := by
    simp [writeString]
  rw [htext, scan, scanString_written]
  simp [assemble?_element]

/-- Nothing at the front of the text would be read as a part of a number. -/
def EndsNumber (s : List Char) : Prop :=
  ∀ c ∈ s.head?, Text.Decimal.isDigit c = false ∧ c ≠ '.' ∧ c ≠ 'e' ∧ c ≠ 'E'

theorem EndsNumber.span (h : EndsNumber rest) :
    rest.takeWhile Text.Decimal.isDigit = [] ∧ rest.dropWhile Text.Decimal.isDigit = rest := by
  cases rest with
  | nil => exact ⟨rfl, rfl⟩
  | cons c tail =>
    have hc : ¬ Text.Decimal.isDigit c = true := by simp [(h c rfl).1]
    exact ⟨List.takeWhile_cons_of_neg hc, List.dropWhile_cons_of_neg hc⟩

theorem EndsNumber.isPlain (h : EndsNumber rest) :
    isPlain rest = true ∧ dropFraction? rest = some rest ∧ dropExponent? rest = some rest := by
  cases rest with
  | nil => exact ⟨rfl, rfl, rfl⟩
  | cons c tail =>
    obtain ⟨-, hpoint, hsmall, hlarge⟩ := h c rfl
    refine ⟨?_, ?_, ?_⟩
    · unfold Json.isPlain
      split <;> simp_all
    · unfold dropFraction?
      split <;> simp_all
    · unfold dropExponent?
      split <;> simp_all

/-- The digits of a number that is below the bound, and no more than these. -/
theorem scanUnsigned_toDigits {n : Nat} (hn : n < UInt64.size) (h : EndsNumber rest) :
    scanUnsigned (Nat.toDigits 10 n ++ rest) = some (some n, rest) := by
  have hdigits : ∀ c ∈ Nat.toDigits 10 n, Text.Decimal.isDigit c = true :=
    fun c hc => Text.Decimal.isDigit_of_mem_digits c (Text.mem_toDigits hc)
  have hvalue : Text.Decimal.value? (UInt64.size - 1) (Nat.toDigits 10 n) = some n :=
    Text.Decimal.value?_toDigits (Nat.le_sub_one_of_lt hn)
  have hzero : ('0' == (Nat.toDigits 10 n).headD '1' && (Nat.toDigits 10 n).length ≠ 1) = false := by
    rw [Bool.and_eq_false_iff]
    cases hhead : '0' == (Nat.toDigits 10 n).headD '1' with
    | false => exact .inl rfl
    | true =>
      obtain ⟨c, tail, hcons⟩ := List.exists_cons_of_ne_nil (Nat.toDigits_ne_nil (b := 10) (n := n))
      rw [hcons, List.headD_cons, beq_iff_eq] at hhead
      have hn : n = 0 := Text.eq_zero_of_head?_toDigits (by rw [hcons, ← hhead]; rfl)
      subst hn
      exact .inr rfl
  obtain ⟨htake, hdrop⟩ := h.span
  obtain ⟨hplain, hfraction, hexponent⟩ := h.isPlain
  simp only [scanUnsigned, List.takeWhile_append_of_pos hdigits,
    List.dropWhile_append_of_pos hdigits, htake, hdrop, List.append_nil, hfraction, hexponent,
    hplain, hvalue, if_true]
  rw [hzero]
  simp [Nat.toDigits_ne_nil]

theorem scan_writeNat {n : Nat} (hn : n < UInt64.size) (h : EndsNumber rest) :
    scan (writeNat n ++ rest) = some (.number (some n), rest) := by
  have htext : writeNat n = Nat.toDigits 10 n := by simp [writeNat]
  obtain ⟨c, tail, hcons⟩ := List.exists_cons_of_ne_nil (Nat.toDigits_ne_nil (b := 10) (n := n))
  have hc : c ∈ Text.digits := Text.mem_toDigits (n := n) (by simp [hcons])
  have hscan : scan (writeNat n ++ rest) =
      (scanUnsigned (writeNat n ++ rest)).map fun x => (.number x.1, x.2) := by
    rw [htext, hcons, List.cons_append]
    simp only [Text.digits, List.mem_cons, List.not_mem_nil, or_false] at hc
    rcases hc with rfl | rfl | rfl | rfl | rfl | rfl | rfl | rfl | rfl | rfl <;> rfl
  rw [hscan, htext, scanUnsigned_toDigits hn h]
  rfl

/-- White space starts no token. -/
theorem isSpace_of_scan {c : Char} (h : scan (c :: rest) = some (t, next)) : isSpace c = false := by
  have hspace : ∀ d ∈ [' ', '\t', '\n', '\r'], scan (d :: rest) = none := by
    simp only [List.mem_cons, List.not_mem_nil, or_false, forall_eq_or_imp, forall_eq]
    exact ⟨rfl, rfl, rfl, rfl⟩
  have hc : c ∉ [' ', '\t', '\n', '\r'] := fun hmem => by
    rw [hspace c hmem] at h
    contradiction
  simpa [isSpace, and_assoc] using hc

/-- A token at the front of a text is the first of its tokens. -/
theorem tokens_of_scan (h : scan s = some (t, next)) : tokens s = (tokens next).map (t :: ·) := by
  cases s with
  | nil => contradiction
  | cons c rest =>
    have hstart : (c :: rest).dropWhile isSpace = c :: rest :=
      List.dropWhile_cons_of_neg (by simp [isSpace_of_scan h])
    rw [tokens]
    split
    · next hnil =>
      rw [hstart] at hnil
      contradiction
    · next c' rest' hcons =>
      rw [hstart] at hcons
      cases hcons
      split
      · next hnone =>
        rw [h] at hnone
        contradiction
      · next hsome =>
        rw [h] at hsome
        cases hsome
        rfl

@[simp]
theorem tokens_nil : tokens [] = some [] := by
  rw [tokens]
  rfl

end Json

end Gearman
