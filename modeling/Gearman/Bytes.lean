/-!
Byte strings, 32-bit words with the most significant byte first, and fields that a zero byte
separates.

The last field of a payload may itself hold zero bytes, so the number of fields is always said by
the reader: `splitFields k` cuts `k` fields off the front and leaves the rest whole.
-/

namespace Gearman

/-- A byte string. -/
abbrev Bytes := List UInt8

namespace Bytes

/-- The four bytes of a word, most significant first. -/
def ofWord (w : UInt32) : Bytes :=
  [(w >>> 24).toUInt8, (w >>> 16).toUInt8, (w >>> 8).toUInt8, w.toUInt8]

/-- The word that four bytes spell, most significant first. -/
def word (a b c d : UInt8) : UInt32 :=
  (a.toUInt32 <<< 24) ||| (b.toUInt32 <<< 16) ||| (c.toUInt32 <<< 8) ||| d.toUInt32

/-- The bytes before the first zero byte and those behind it, or `none` without a zero byte. -/
def cut? (bs : Bytes) : Option (Bytes × Bytes) :=
  match bs.dropWhile (· != 0) with
  | [] => none
  | _ :: rest => some (bs.takeWhile (· != 0), rest)

/-- Cuts `k` fields off the front; the last field of the result is everything behind them. An error
counts the fields that there are. -/
def splitFields : Nat → Bytes → Except Nat (List Bytes)
  | 0, bs => .ok [bs]
  | k + 1, bs =>
    match bs.cut? with
    | none => .error 1
    | some (field, rest) =>
      match splitFields k rest with
      | .ok fields => .ok (field :: fields)
      | .error found => .error (found + 1)

/-- The fields with single zero bytes between them. -/
def joinFields (fields : List Bytes) : Bytes :=
  List.intercalate [0] fields

/-- The length of the joined fields, separators included. -/
def joinedLength (fields : List Bytes) : Nat :=
  fields.flatten.length + (fields.length - 1)

/-- Whether there are at least `n` bytes. Those behind the `n`-th are not looked at. -/
def reaches (bs : Bytes) (n : Nat) : Bool := n = 0 || !(bs.drop (n - 1)).isEmpty

theorem reaches_iff {bs : Bytes} {n : Nat} : bs.reaches n = true ↔ n ≤ bs.length := by
  simp only [reaches, Bool.or_eq_true, decide_eq_true_eq, Bool.not_eq_true',
    List.isEmpty_eq_false_iff, ne_eq, List.drop_eq_nil_iff]
  omega

theorem cut?_eq_none_iff {bs : Bytes} : bs.cut? = none ↔ 0 ∉ bs := by
  induction bs with
  | nil => simp [cut?]
  | cons b bs ih =>
    by_cases h : b = 0
    · simp [cut?, h]
    · have step : (b :: bs).dropWhile (· != 0) = bs.dropWhile (· != 0) := by simp [h]
      have none_iff : cut? (b :: bs) = none ↔ cut? bs = none := by
        simp only [cut?, step]
        split <;> simp_all
      rw [none_iff, ih]
      simp [Ne.symm h]

/-- A cut loses nothing but the zero byte that it was made at, and the first part holds none. -/
theorem cut?_eq_some {bs field rest : Bytes} (h : bs.cut? = some (field, rest)) :
    bs = field ++ 0 :: rest ∧ 0 ∉ field := by
  induction bs generalizing field with
  | nil => simp [cut?] at h
  | cons b bs ih =>
    by_cases hb : b = 0
    · simp only [cut?, hb] at h
      obtain ⟨rfl, rfl⟩ : field = [] ∧ bs = rest := by simpa [eq_comm] using h
      simp [hb]
    · have drop : (b :: bs).dropWhile (· != 0) = bs.dropWhile (· != 0) := by simp [hb]
      have take : (b :: bs).takeWhile (· != 0) = b :: bs.takeWhile (· != 0) := by simp [hb]
      simp only [cut?, drop, take] at h
      split at h
      · contradiction
      · next x tail hd =>
        simp only [Option.some.injEq, Prod.mk.injEq] at h
        have hcut : cut? bs = some (bs.takeWhile (· != 0), rest) := by simp [cut?, hd, h.2]
        have := ih hcut
        obtain ⟨rfl, rfl⟩ := h
        refine ⟨?_, ?_⟩
        · rw [List.cons_append, ← this.1]
        · simp only [List.mem_cons, not_or]
          exact ⟨Ne.symm hb, this.2⟩

end Bytes

end Gearman
