import Gearman.Text.Decimal

/-!
The tokens of a JSON document.
-/

namespace Gearman.Json

inductive Token where
  | openArray | closeArray | openObject | closeObject | colon | comma
  | null | bool (b : Bool)
  | number (natural : Option Nat)
  | string (text : Option String)
deriving DecidableEq, Repr

/-- One element of a string: a character, or a 16-bit unit that an escape names by its number. -/
inductive Element where
  | char (c : Char)
  | unit (n : Nat)

def hexDigit? (c : Char) : Option Nat :=
  if '0' ≤ c && c ≤ '9' then some (c.toNat - '0'.toNat)
  else if 'a' ≤ c && c ≤ 'f' then some (c.toNat - 'a'.toNat + 10)
  else if 'A' ≤ c && c ≤ 'F' then some (c.toNat - 'A'.toNat + 10)
  else none

/-- The number that four hexadecimal digits write. -/
def unit? (a b c d : Char) : Option Nat := do
  return (((← hexDigit? a) * 16 + (← hexDigit? b)) * 16 + (← hexDigit? c)) * 16 + (← hexDigit? d)

/-- The character that a backslash and `c` stand for. -/
def unescape? : Char → Option Char
  | '"' => some '"'
  | '\\' => some '\\'
  | '/' => some '/'
  | 'b' => some '\x08'
  | 'f' => some '\x0c'
  | 'n' => some '\n'
  | 'r' => some '\r'
  | 't' => some '\t'
  | _ => none

/-- Reads the elements of a string up to its closing quote, behind which the second part starts. -/
def scanString : List Char → Option (List Element × List Char)
  | [] => none
  | '"' :: rest => some ([], rest)
  | '\\' :: 'u' :: a :: b :: c :: d :: rest =>
    match unit? a b c d, scanString rest with
    | some n, some (elements, rest) => some (.unit n :: elements, rest)
    | _, _ => none
  | '\\' :: c :: rest =>
    match unescape? c, scanString rest with
    | some c, some (elements, rest) => some (.char c :: elements, rest)
    | _, _ => none
  | c :: rest =>
    if c.toNat < 0x20 || c = '\\' then none
    else (scanString rest).map fun (elements, rest) => (.char c :: elements, rest)

def isLead (n : Nat) : Bool := 0xD800 ≤ n && n < 0xDC00

def isTrail (n : Nat) : Bool := 0xDC00 ≤ n && n < 0xE000

/-- The text of a string. Two units that form a surrogate pair are one character; a unit that is half
of a pair and stands alone is no text. -/
def assemble? : List Element → Option (List Char)
  | [] => some []
  | .char c :: rest => (assemble? rest).map (c :: ·)
  | .unit lead :: .unit trail :: rest =>
    if isLead lead then
      if isTrail trail then
        (assemble? rest).map
          (Char.ofNat (0x10000 + (lead - 0xD800) * 0x400 + (trail - 0xDC00)) :: ·)
      else none
    else if isTrail lead then none
    else (assemble? (.unit trail :: rest)).map (Char.ofNat lead :: ·)
  | .unit n :: rest =>
    if isLead n || isTrail n then none
    else (assemble? rest).map (Char.ofNat n :: ·)

/-- Drops a run of at least one digit. -/
def dropDigits? (s : List Char) : Option (List Char) :=
  match s with
  | c :: rest => if Text.Decimal.isDigit c then some (rest.dropWhile Text.Decimal.isDigit) else none
  | [] => none

/-- Drops the fraction of a number, if there is one. -/
def dropFraction? : List Char → Option (List Char)
  | '.' :: rest => dropDigits? rest
  | s => some s

/-- Drops the exponent of a number, if there is one. -/
def dropExponent? : List Char → Option (List Char)
  | 'e' :: '+' :: rest | 'e' :: '-' :: rest | 'E' :: '+' :: rest | 'E' :: '-' :: rest =>
    dropDigits? rest
  | 'e' :: rest | 'E' :: rest => dropDigits? rest
  | s => some s

/-- Whether neither a fraction nor an exponent follows. -/
def isPlain : List Char → Bool
  | '.' :: _ | 'e' :: _ | 'E' :: _ => false
  | _ => true

/-- Reads an unsigned number: digits without a leading zero, a fraction, an exponent. -/
def scanUnsigned (s : List Char) : Option (Option Nat × List Char) :=
  let digits := s.takeWhile Text.Decimal.isDigit
  let rest := s.dropWhile Text.Decimal.isDigit
  if digits.isEmpty || ('0' == digits.headD '1' && digits.length ≠ 1) then none
  else
    match dropFraction? rest with
    | none => none
    | some afterFraction =>
      match dropExponent? afterFraction with
      | none => none
      | some stop =>
        some (if isPlain rest then Text.Decimal.value? (UInt64.size - 1) digits else none, stop)

/-- Reads the token at the front of a text that starts with no white space. -/
def scan : List Char → Option (Token × List Char)
  | '[' :: rest => some (.openArray, rest)
  | ']' :: rest => some (.closeArray, rest)
  | '\x7b' :: rest => some (.openObject, rest)
  | '\x7d' :: rest => some (.closeObject, rest)
  | ':' :: rest => some (.colon, rest)
  | ',' :: rest => some (.comma, rest)
  | 'n' :: 'u' :: 'l' :: 'l' :: rest => some (.null, rest)
  | 't' :: 'r' :: 'u' :: 'e' :: rest => some (.bool true, rest)
  | 'f' :: 'a' :: 'l' :: 's' :: 'e' :: rest => some (.bool false, rest)
  | '"' :: rest =>
    (scanString rest).map fun (elements, rest) =>
      (.string ((assemble? elements).map String.ofList), rest)
  | '-' :: rest => (scanUnsigned rest).map fun (_, rest) => (.number none, rest)
  | s => (scanUnsigned s).map fun (natural, rest) => (.number natural, rest)

def isSpace (c : Char) : Bool := c = ' ' || c = '\t' || c = '\n' || c = '\r'

theorem length_dropWhile_le (p : Char → Bool) (s : List Char) :
    (s.dropWhile p).length ≤ s.length :=
  (List.dropWhile_sublist p).length_le

theorem length_of_scanString {s rest : List Char} {elements : List Element}
    (h : scanString s = some (elements, rest)) : rest.length < s.length := by
  fun_induction scanString s generalizing elements rest with
  | case1 => contradiction
  | case2 =>
    cases h
    simp
  | case3 _ _ _ _ _ _ _ _ hs _ ih =>
    cases h
    have := ih hs
    simp only [List.length_cons]
    omega
  | case4 => contradiction
  | case5 _ _ _ _ _ _ hs _ ih =>
    cases h
    have := ih hs
    simp only [List.length_cons]
    omega
  | case6 => contradiction
  | case7 => contradiction
  | case8 _ _ _ _ _ _ ih =>
    obtain ⟨⟨tailElements, tailRest⟩, hs, he⟩ := Option.map_eq_some_iff.1 h
    cases he
    have := ih hs
    simp only [List.length_cons]
    omega

theorem length_of_dropDigits? {s rest : List Char} (h : dropDigits? s = some rest) :
    rest.length < s.length := by
  unfold dropDigits? at h
  split at h
  · next c tail =>
    split at h
    · cases h
      exact Nat.lt_succ_of_le (length_dropWhile_le _ _)
    · contradiction
  · contradiction

theorem length_of_scanUnsigned {s rest : List Char} {n : Option Nat}
    (h : scanUnsigned s = some (n, rest)) : rest.length < s.length := by
  simp only [scanUnsigned] at h
  split at h
  · contradiction
  · next hdigits =>
    have hs : (s.takeWhile Text.Decimal.isDigit).length +
        (s.dropWhile Text.Decimal.isDigit).length = s.length := by
      rw [← List.length_append, List.takeWhile_append_dropWhile]
    have hpos : 0 < (s.takeWhile Text.Decimal.isDigit).length := by
      rw [List.length_pos_iff]
      intro hnil
      simp [hnil] at hdigits
    split at h
    · contradiction
    · next fraction hfraction =>
      have h₁ : fraction.length ≤ (s.dropWhile Text.Decimal.isDigit).length := by
        unfold dropFraction? at hfraction
        split at hfraction
        · next tail heq =>
          rw [heq]
          have := length_of_dropDigits? hfraction
          simp only [List.length_cons]
          omega
        · cases hfraction
          exact Nat.le_refl _
      split at h
      · contradiction
      · next stop hstop =>
        have h₂ : stop.length ≤ fraction.length := by
          unfold dropExponent? at hstop
          split at hstop <;> first
            | (have hlt := length_of_dropDigits? hstop; simp only [List.length_cons]; omega)
            | (cases hstop; exact Nat.le_refl _)
        simp only [Option.some.injEq, Prod.mk.injEq] at h
        obtain ⟨_, rfl⟩ := h
        omega

theorem length_of_scan {s rest : List Char} {t : Token} (h : scan s = some (t, rest)) :
    rest.length < s.length := by
  unfold scan at h
  split at h
  all_goals first
    | (cases h; simp only [List.length_cons]; omega)
    | (obtain ⟨⟨e, r⟩, hs, he⟩ := Option.map_eq_some_iff.1 h
       cases he
       first
         | (have hlt := length_of_scanString hs; simp only [List.length_cons]; omega)
         | (have hlt := length_of_scanUnsigned hs; simp only [List.length_cons]; omega)
         | exact length_of_scanUnsigned hs)

/-- The tokens of a document, or `none` if some part of it is no token. -/
def tokens (s : List Char) : Option (List Token) :=
  match _hs : s.dropWhile isSpace with
  | [] => some []
  | c :: rest =>
    match _hscan : scan (c :: rest) with
    | none => none
    | some (t, next) => (tokens next).map (t :: ·)
termination_by s.length
decreasing_by
  have h₁ := length_of_scan _hscan
  have h₂ := length_dropWhile_le isSpace s
  rw [_hs] at h₂
  omega

end Gearman.Json
