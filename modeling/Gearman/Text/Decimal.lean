import Gearman.Text.Blank

/-!
Decimal numerals of bounded value: an optional plus sign, then at least one digit, leading zeros
allowed.
-/

namespace Gearman.Text.Decimal

def isDigit (c : Char) : Bool := '0' ≤ c && c ≤ '9'

/-- The number that a digit writes. -/
def digit (c : Char) : Nat := c.toNat - '0'.toNat

/-- The number that a run of digits writes. -/
def value (digits : List Char) : Nat := digits.foldl (fun n c => 10 * n + digit c) 0

/-- The number that a run of digits writes, if it is at most `limit`. A run is read no further than to
the digit that exceeds the limit. -/
def value? (limit : Nat) (digits : List Char) : Option Nat :=
  go 0 digits
where
  go (n : Nat) : List Char → Option Nat
    | [] => some n
    | c :: rest => if 10 * n + digit c ≤ limit then go (10 * n + digit c) rest else none

/-- The number that a numeral writes, if it is at most `limit`. -/
def parse? (limit : Nat) (s : List Char) : Option Nat :=
  let digits := match s with
    | '+' :: rest => rest
    | s => s
  if !digits.isEmpty && digits.all isDigit then value? limit digits else none

/-- More digits never make a smaller number. -/
theorem le_foldl (digits : List Char) (n : Nat) :
    n ≤ digits.foldl (fun n c => 10 * n + digit c) n := by
  induction digits generalizing n with
  | nil => exact Nat.le_refl _
  | cons c rest ih =>
    have := ih (10 * n + digit c)
    simp only [List.foldl_cons]
    omega

/-- Reading stops early, but only at a number that is too large. -/
theorem value?_eq (limit : Nat) (digits : List Char) :
    value? limit digits = if value digits ≤ limit then some (value digits) else none := by
  suffices h : ∀ n ≤ limit, value?.go limit n digits =
      if digits.foldl (fun n c => 10 * n + digit c) n ≤ limit then
        some (digits.foldl (fun n c => 10 * n + digit c) n)
      else none from h 0 (Nat.zero_le _)
  induction digits with
  | nil =>
    intro n hn
    simp [value?.go, hn]
  | cons c rest ih =>
    intro n _
    simp only [value?.go, List.foldl_cons]
    split
    · next h => exact ih _ h
    · next h =>
      have := le_foldl rest (10 * n + digit c)
      exact (if_neg (by omega)).symm

end Gearman.Text.Decimal
