import Gearman.Text.Utf8

/-!
Texts are read as they were written, and nothing but what was written is read as a text.
-/

namespace Gearman.Text.Utf8

/-- A byte that carries six bits is taken for the next one of a sequence. -/
theorem sequence_cons {n v k : Nat} {lo hi : UInt8} (hlo : lo.toNat ≤ k % 64 + 128)
    (hhi : k % 64 + 128 ≤ hi.toNat) (rest : Bytes) :
    decode.sequence n lo hi v (UInt8.ofNat (k % 64 + 128) :: rest) =
      if n ≤ 1 then some (Char.ofNat (v * 64 + k % 64)) :: decode rest
      else decode.sequence (n - 1) 0x80 0xBF (v * 64 + k % 64) rest := by
  have hbyte : (UInt8.ofNat (k % 64 + 128)).toNat = k % 64 + 128 :=
    UInt8.toNat_ofNat_of_lt' (by simp only [UInt8.size]; omega)
  have hbits : (k % 64 + 128) % 64 = k % 64 := by omega
  have hin : (lo ≤ UInt8.ofNat (k % 64 + 128) && UInt8.ofNat (k % 64 + 128) ≤ hi) = true := by
    simp only [Bool.and_eq_true, decide_eq_true_eq, UInt8.le_iff_toNat_le, hbyte]
    exact ⟨hlo, hhi⟩
  rw [decode.sequence, if_pos hin, hbyte, hbits]

theorem sequence_cons_tail {n v k : Nat} (rest : Bytes) :
    decode.sequence n 0x80 0xBF v (UInt8.ofNat (k % 64 + 128) :: rest) =
      if n ≤ 1 then some (Char.ofNat (v * 64 + k % 64)) :: decode rest
      else decode.sequence (n - 1) 0x80 0xBF (v * 64 + k % 64) rest :=
  sequence_cons (Nat.le_add_left 128 _)
    (Nat.le_trans (Nat.add_le_add_right (Nat.le_of_lt_succ (Nat.mod_lt _ (by decide))) 128)
      (by decide)) rest

/-- The lead bytes of sequences of two, three and four bytes, with the bits that they carry. -/
theorem lead_two : ∀ k < 32, 2 ≤ k →
    ¬UInt8.ofNat (k + 192) < 0x80 ∧ lead? (UInt8.ofNat (k + 192)) = some (1, 0x80, 0xBF) ∧
      leadBits (UInt8.ofNat (k + 192)) 1 = k := by
  decide

theorem lead_three : ∀ k < 16,
    ¬UInt8.ofNat (k + 224) < 0x80 ∧
      lead? (UInt8.ofNat (k + 224)) =
        some (2, if k = 0 then 0xA0 else 0x80, if k = 13 then 0x9F else 0xBF) ∧
      leadBits (UInt8.ofNat (k + 224)) 2 = k := by
  decide

theorem lead_four : ∀ k < 5,
    ¬UInt8.ofNat (k + 240) < 0x80 ∧
      lead? (UInt8.ofNat (k + 240)) =
        some (3, if k = 0 then 0x90 else 0x80, if k = 4 then 0x8F else 0xBF) ∧
      leadBits (UInt8.ofNat (k + 240)) 3 = k := by
  decide

variable {v : Nat}

theorem decode_one (h : v ≤ 0x7F) (rest : Bytes) :
    decode (UInt8.ofNat v :: rest) = some (Char.ofNat v) :: decode rest := by
  have hbyte : (UInt8.ofNat v).toNat = v := UInt8.toNat_ofNat_of_lt' (by simp only [UInt8.size]; omega)
  have hascii : UInt8.ofNat v < 0x80 := by
    rw [UInt8.lt_iff_toNat_lt, hbyte]
    exact Nat.lt_succ_of_le h
  rw [decode, if_pos hascii, hbyte]

theorem decode_two (hlow : 0x80 ≤ v) (hhigh : v ≤ 0x7FF) (rest : Bytes) :
    decode (UInt8.ofNat (v / 64 % 32 + 192) :: UInt8.ofNat (v % 64 + 128) :: rest) =
      some (Char.ofNat v) :: decode rest := by
  obtain ⟨hascii, hlead, hbits⟩ := lead_two (v / 64 % 32) (by omega) (by omega)
  have hvalue : v / 64 % 32 * 64 + v % 64 = v := by omega
  rw [decode, if_neg hascii, hlead]
  simp only [hbits, sequence_cons_tail]
  rw [if_pos (by decide), hvalue]

/-- The second byte rules out overlong forms and surrogates. -/
theorem decode_three (hlow : 0x800 ≤ v) (hhigh : v ≤ 0xFFFF) (hchar : v < 0xD800 ∨ 0xDFFF < v)
    (rest : Bytes) :
    decode (UInt8.ofNat (v / 4096 % 16 + 224) :: UInt8.ofNat (v / 64 % 64 + 128) ::
      UInt8.ofNat (v % 64 + 128) :: rest) = some (Char.ofNat v) :: decode rest := by
  obtain ⟨hascii, hlead, hbits⟩ := lead_three (v / 4096 % 16) (by omega)
  have hvalue : (v / 4096 % 16 * 64 + v / 64 % 64) * 64 + v % 64 = v := by omega
  have hlo : (if v / 4096 % 16 = 0 then 0xA0 else 0x80 : UInt8).toNat ≤ v / 64 % 64 + 128 := by
    split <;> simp only [UInt8.reduceToNat] <;> omega
  have hhi : v / 64 % 64 + 128 ≤ (if v / 4096 % 16 = 13 then 0x9F else 0xBF : UInt8).toNat := by
    split <;> simp only [UInt8.reduceToNat] <;> omega
  rw [decode, if_neg hascii, hlead]
  simp only [hbits, sequence_cons hlo hhi, sequence_cons_tail]
  rw [if_neg (by decide), if_pos (by decide), hvalue]

/-- The second byte rules out overlong forms and values past the last code point. -/
theorem decode_four (hlow : 0x10000 ≤ v) (hhigh : v < 0x110000) (rest : Bytes) :
    decode (UInt8.ofNat (v / 262144 % 8 + 240) :: UInt8.ofNat (v / 4096 % 64 + 128) ::
      UInt8.ofNat (v / 64 % 64 + 128) :: UInt8.ofNat (v % 64 + 128) :: rest) =
        some (Char.ofNat v) :: decode rest := by
  obtain ⟨hascii, hlead, hbits⟩ := lead_four (v / 262144 % 8) (by omega)
  have hvalue : ((v / 262144 % 8 * 64 + v / 4096 % 64) * 64 + v / 64 % 64) * 64 + v % 64 = v := by
    omega
  have hlo : (if v / 262144 % 8 = 0 then 0x90 else 0x80 : UInt8).toNat ≤ v / 4096 % 64 + 128 := by
    split <;> simp only [UInt8.reduceToNat] <;> omega
  have hhi : v / 4096 % 64 + 128 ≤ (if v / 262144 % 8 = 4 then 0x8F else 0xBF : UInt8).toNat := by
    split <;> simp only [UInt8.reduceToNat] <;> omega
  rw [decode, if_neg hascii, hlead]
  simp only [hbits, sequence_cons hlo hhi, sequence_cons_tail]
  rw [if_neg (by decide), if_neg (by decide), if_pos (by decide), hvalue]

/-- The encoding of a character is read as that character. -/
theorem decode_encodeChar (c : Char) (rest : Bytes) :
    decode (String.utf8EncodeChar c ++ rest) = some c :: decode rest := by
  have hvalid : c.val.toNat < 0xD800 ∨ 0xDFFF < c.val.toNat ∧ c.val.toNat < 0x110000 := c.valid
  have hchar : Char.ofNat c.val.toNat = c := Char.ofNat_toNat c
  unfold String.utf8EncodeChar
  dsimp only
  split
  · next hone => exact (decode_one hone rest).trans (by rw [hchar])
  · next hone =>
    split
    · next htwo => exact (decode_two (by omega) htwo rest).trans (by rw [hchar])
    · next htwo =>
      split
      · next hthree => exact (decode_three (by omega) hthree (by omega) rest).trans (by rw [hchar])
      · next hthree => exact (decode_four (by omega) (by omega) rest).trans (by rw [hchar])

theorem decode_flatMap_encodeChar (s : List Char) :
    decode (s.flatMap String.utf8EncodeChar) = s.map some := by
  induction s with
  | nil => rfl
  | cons c rest ih => rw [List.flatMap_cons, decode_encodeChar, ih, List.map_cons]

theorem decode?_flatMap_encodeChar (s : List Char) :
    decode? (s.flatMap String.utf8EncodeChar) = some s := by
  rw [decode?, decode_flatMap_encodeChar]
  induction s with
  | nil => rfl
  | cons c rest ih => simp [ih]

/-- A text is read as it was written. -/
theorem lossy_encode (s : String) : lossy (encode s) = s := by
  rw [lossy, encode, decode_flatMap_encodeChar, List.map_map]
  have hid : s.toList.map ((·.getD '\uFFFD') ∘ some) = s.toList := List.map_id _
  rw [hid, String.ofList_toList]

/-- Texts can be told apart by their encodings. -/
theorem encode_injective {s t : String} (h : encode s = encode t) : s = t := by
  rw [← lossy_encode s, h, lossy_encode]

/-- Only the character with code zero is written with a zero byte: all bytes of longer sequences
are past `0x7F`. -/
theorem eq_nul_of_mem_encodeChar {c : Char} (h : 0 ∈ String.utf8EncodeChar c) : c = '\x00' := by
  have hzero : ∀ {k : Nat}, k < 256 → 0 = UInt8.ofNat k → k = 0 := fun hk h =>
    (UInt8.toNat_ofNat_of_lt' hk).symm.trans (congrArg UInt8.toNat h).symm
  have hfollower : ∀ k, 0 ≠ UInt8.ofNat (k % 64 + 128) := fun k heq => by
    have := hzero (by omega) heq
    omega
  unfold String.utf8EncodeChar at h
  dsimp only at h
  split at h
  · next hone =>
    have hc : c.val.toNat = 0 := hzero (by omega) (List.mem_singleton.1 h)
    rw [← Char.ofNat_toNat c, Char.toNat, hc]
  · have hlead : ∀ k, 0 < k → k < 256 → 0 ≠ UInt8.ofNat k := fun k hpos hk heq =>
      Nat.ne_of_gt hpos (hzero hk heq)
    (repeat' split at h) <;>
      simp only [List.mem_cons, hfollower, List.not_mem_nil, or_false] at h <;>
      exact absurd h (hlead _ (by omega) (by omega))

/-- The bytes of a text without zero characters can be a field in front of others. -/
theorem nul_not_mem_encode {s : String} (h : '\x00' ∉ s.toList) : 0 ∉ encode s := by
  rw [encode, List.mem_flatMap]
  rintro ⟨c, hc, hmem⟩
  exact h (eq_nul_of_mem_encodeChar hmem ▸ hc)

section Decoding

variable {b lo hi : UInt8} {n v : Nat} {bs : Bytes} {c : Char} {out : List (Option Char)}

/-- The lead bytes, by the number of bytes that follow, and the bounds of the first of these. -/
theorem lead?_cases (h : lead? b = some (n, lo, hi)) :
    0x80 ≤ lo.toNat ∧ hi.toNat ≤ 0xBF ∧
      (n = 1 ∧ 0xC2 ≤ b.toNat ∧ b.toNat < 0xE0 ∨
        n = 2 ∧ 0xE0 ≤ b.toNat ∧ b.toNat < 0xF0 ∧ (b.toNat = 0xE0 → 0xA0 ≤ lo.toNat) ∧
          (b.toNat = 0xED → hi.toNat ≤ 0x9F) ∨
        n = 3 ∧ 0xF0 ≤ b.toNat ∧ b.toNat < 0xF5 ∧ (b.toNat = 0xF0 → 0x90 ≤ lo.toNat) ∧
          (b.toNat = 0xF4 → hi.toNat ≤ 0x8F)) := by
  simp only [lead?, UInt8.lt_iff_toNat_lt, ← UInt8.toNat_inj, UInt8.reduceToNat] at h
  repeat' split at h
  all_goals cases h
  all_goals
    simp only [UInt8.reduceToNat]
    grind

/-- The next byte of a sequence that is read as a character. -/
theorem sequence_eq_cons (h : decode.sequence n lo hi v bs = some c :: out) :
    ∃ b rest, bs = b :: rest ∧ lo.toNat ≤ b.toNat ∧ b.toNat ≤ hi.toNat ∧
      (if n ≤ 1 then some (Char.ofNat (v * 64 + b.toNat % 64)) :: decode rest
        else decode.sequence (n - 1) 0x80 0xBF (v * 64 + b.toNat % 64) rest) = some c :: out := by
  cases bs with
  | nil => cases h
  | cons b rest =>
    rw [decode.sequence] at h
    split at h
    · next hin =>
      simp only [Bool.and_eq_true, decide_eq_true_eq, UInt8.le_iff_toNat_le] at hin
      exact ⟨b, rest, rfl, hin.1, hin.2, h⟩
    · repeat' split at h
      all_goals cases h

theorem sequence_one (h : decode.sequence 1 lo hi v bs = some c :: out) :
    ∃ b rest, bs = b :: rest ∧ lo.toNat ≤ b.toNat ∧ b.toNat ≤ hi.toNat ∧
      c = Char.ofNat (v * 64 + b.toNat % 64) ∧ out = decode rest := by
  obtain ⟨b, rest, rfl, hlo, hhi, hnext⟩ := sequence_eq_cons h
  rw [if_pos (Nat.le_refl 1)] at hnext
  cases hnext
  exact ⟨b, rest, rfl, hlo, hhi, rfl, rfl⟩

/-- The bytes behind the first one that follows have the same bounds in all sequences. -/
theorem sequence_more (hn : 1 < n) (h : decode.sequence n lo hi v bs = some c :: out) :
    ∃ b rest, bs = b :: rest ∧ lo.toNat ≤ b.toNat ∧ b.toNat ≤ hi.toNat ∧
      decode.sequence (n - 1) 0x80 0xBF (v * 64 + b.toNat % 64) rest = some c :: out := by
  obtain ⟨b, rest, rfl, hlo, hhi, hnext⟩ := sequence_eq_cons h
  rw [if_neg (Nat.not_le_of_lt hn)] at hnext
  exact ⟨b, rest, rfl, hlo, hhi, hnext⟩

/-- A code point is the code of its character. -/
theorem val_ofNat (h : v < 0xD800 ∨ 0xDFFF < v ∧ v < 0x110000) : (Char.ofNat v).val.toNat = v := by
  have hvalid : v.isValidChar := h
  rw [Char.ofNat, dif_pos hvalid]
  rfl

theorem ofNat_of_eq_toNat {k : Nat} (h : k = b.toNat) : UInt8.ofNat k = b := by
  rw [h, UInt8.ofNat_toNat]

variable {b₀ b₁ b₂ b₃ : UInt8}

theorem encodeChar_one (h : b₀.toNat ≤ 0x7F) :
    String.utf8EncodeChar (Char.ofNat b₀.toNat) = [b₀] := by
  simp only [String.utf8EncodeChar, val_ofNat (v := b₀.toNat) (by omega), if_pos h,
    UInt8.ofNat_toNat]

theorem encodeChar_two (hlow : 0xC2 ≤ b₀.toNat) (hhigh : b₀.toNat < 0xE0)
    (h₁ : 0x80 ≤ b₁.toNat ∧ b₁.toNat ≤ 0xBF) :
    String.utf8EncodeChar (Char.ofNat (leadBits b₀ 1 * 64 + b₁.toNat % 64)) = [b₀, b₁] := by
  have hbits : leadBits b₀ 1 = b₀.toNat % 32 := rfl
  generalize hv : leadBits b₀ 1 * 64 + b₁.toNat % 64 = v
  have hchar : v < 0xD800 := by omega
  simp only [String.utf8EncodeChar, val_ofNat (.inl hchar)]
  rw [if_neg (by omega), if_pos (by omega), ofNat_of_eq_toNat (b := b₀) (by omega),
    ofNat_of_eq_toNat (b := b₁) (by omega)]

theorem encodeChar_three (hlow : 0xE0 ≤ b₀.toNat) (hhigh : b₀.toNat < 0xF0)
    (h₁ : 0x80 ≤ b₁.toNat ∧ b₁.toNat ≤ 0xBF) (h₂ : 0x80 ≤ b₂.toNat ∧ b₂.toNat ≤ 0xBF)
    (hoverlong : b₀.toNat = 0xE0 → 0xA0 ≤ b₁.toNat)
    (hsurrogate : b₀.toNat = 0xED → b₁.toNat ≤ 0x9F) :
    String.utf8EncodeChar
      (Char.ofNat ((leadBits b₀ 2 * 64 + b₁.toNat % 64) * 64 + b₂.toNat % 64)) = [b₀, b₁, b₂] := by
  have hbits : leadBits b₀ 2 = b₀.toNat % 16 := rfl
  generalize hv : (leadBits b₀ 2 * 64 + b₁.toNat % 64) * 64 + b₂.toNat % 64 = v
  have hchar : v < 0xD800 ∨ 0xDFFF < v ∧ v < 0x110000 := by omega
  simp only [String.utf8EncodeChar, val_ofNat hchar]
  rw [if_neg (by omega), if_neg (by omega), if_pos (by omega),
    ofNat_of_eq_toNat (b := b₀) (by omega), ofNat_of_eq_toNat (b := b₁) (by omega),
    ofNat_of_eq_toNat (b := b₂) (by omega)]

theorem encodeChar_four (hlow : 0xF0 ≤ b₀.toNat) (hhigh : b₀.toNat < 0xF5)
    (h₁ : 0x80 ≤ b₁.toNat ∧ b₁.toNat ≤ 0xBF) (h₂ : 0x80 ≤ b₂.toNat ∧ b₂.toNat ≤ 0xBF)
    (h₃ : 0x80 ≤ b₃.toNat ∧ b₃.toNat ≤ 0xBF) (hoverlong : b₀.toNat = 0xF0 → 0x90 ≤ b₁.toNat)
    (hlast : b₀.toNat = 0xF4 → b₁.toNat ≤ 0x8F) :
    String.utf8EncodeChar (Char.ofNat (((leadBits b₀ 3 * 64 + b₁.toNat % 64) * 64 +
      b₂.toNat % 64) * 64 + b₃.toNat % 64)) = [b₀, b₁, b₂, b₃] := by
  have hbits : leadBits b₀ 3 = b₀.toNat % 8 := rfl
  generalize hv : ((leadBits b₀ 3 * 64 + b₁.toNat % 64) * 64 + b₂.toNat % 64) * 64 +
    b₃.toNat % 64 = v
  have hchar : 0xDFFF < v ∧ v < 0x110000 := by omega
  simp only [String.utf8EncodeChar, val_ofNat (.inr hchar)]
  rw [if_neg (by omega), if_neg (by omega), if_neg (by omega),
    ofNat_of_eq_toNat (b := b₀) (by omega), ofNat_of_eq_toNat (b := b₁) (by omega),
    ofNat_of_eq_toNat (b := b₂) (by omega), ofNat_of_eq_toNat (b := b₃) (by omega)]

/-- A sequence that is read as a character is how the character is written. -/
theorem sequence_eq_encodeChar {rest : Bytes} (hlead : lead? b₀ = some (n, lo, hi))
    (h : decode.sequence n lo hi (leadBits b₀ n) rest = some c :: out) :
    ∃ rest', b₀ :: rest = String.utf8EncodeChar c ++ rest' ∧ out = decode rest' := by
  obtain ⟨hlo, hhi, ⟨rfl, hlow, hhigh⟩ | ⟨rfl, hlow, hhigh, hfirst, hlast⟩ |
    ⟨rfl, hlow, hhigh, hfirst, hlast⟩⟩ := lead?_cases hlead
  · obtain ⟨b₁, rest, rfl, hlo₁, hhi₁, rfl, rfl⟩ := sequence_one h
    have hbyte : 0x80 ≤ b₁.toNat ∧ b₁.toNat ≤ 0xBF := by omega
    exact ⟨rest, by rw [encodeChar_two hlow hhigh hbyte]; rfl, rfl⟩
  · obtain ⟨b₁, rest, rfl, hlo₁, hhi₁, h⟩ := sequence_more (by decide) h
    obtain ⟨b₂, rest, rfl, hlo₂, hhi₂, rfl, rfl⟩ := sequence_one h
    have hbyte : 0x80 ≤ b₁.toNat ∧ b₁.toNat ≤ 0xBF := by omega
    have hcode := encodeChar_three hlow hhigh hbyte ⟨hlo₂, hhi₂⟩ (by omega) (by omega)
    exact ⟨rest, by rw [hcode]; rfl, rfl⟩
  · obtain ⟨b₁, rest, rfl, hlo₁, hhi₁, h⟩ := sequence_more (by decide) h
    obtain ⟨b₂, rest, rfl, hlo₂, hhi₂, h⟩ := sequence_more (by decide) h
    obtain ⟨b₃, rest, rfl, hlo₃, hhi₃, rfl, rfl⟩ := sequence_one h
    have hbyte : 0x80 ≤ b₁.toNat ∧ b₁.toNat ≤ 0xBF := by omega
    have hcode := encodeChar_four hlow hhigh hbyte ⟨hlo₂, hhi₂⟩ ⟨hlo₃, hhi₃⟩ (by omega)
      (by omega)
    exact ⟨rest, by rw [hcode]; rfl, rfl⟩

/-- A character that is read first was written first. -/
theorem decode_eq_cons (h : decode bs = some c :: out) :
    ∃ rest, bs = String.utf8EncodeChar c ++ rest ∧ out = decode rest := by
  cases bs with
  | nil => cases h
  | cons b₀ rest =>
    rw [decode] at h
    split at h
    · next hascii =>
      cases h
      have hone : b₀.toNat ≤ 0x7F := Nat.le_of_lt_succ (UInt8.lt_iff_toNat_lt.1 hascii)
      exact ⟨rest, by rw [encodeChar_one hone, List.singleton_append], rfl⟩
    · split at h
      · cases h
      · next hlead => exact sequence_eq_encodeChar hlead h

theorem sequence_ne_nil : decode.sequence n lo hi v bs ≠ [] := by
  induction bs generalizing n lo hi v with
  | nil => exact List.cons_ne_nil _ _
  | cons b rest ih =>
    rw [decode.sequence]
    split
    · dsimp only
      split
      · exact List.cons_ne_nil _ _
      · exact ih
    · repeat' split
      all_goals exact List.cons_ne_nil _ _

theorem decode_eq_nil (h : decode bs = []) : bs = [] := by
  cases bs with
  | nil => rfl
  | cons b rest =>
    rw [decode] at h
    split at h
    · cases h
    · split at h
      · cases h
      · exact absurd h sequence_ne_nil

theorem eq_of_decode_eq_map {s : List Char} (h : decode bs = s.map some) :
    bs = s.flatMap String.utf8EncodeChar := by
  induction s generalizing bs with
  | nil => exact decode_eq_nil h
  | cons c s ih =>
    obtain ⟨rest, rfl, hrest⟩ := decode_eq_cons h
    rw [List.flatMap_cons, ← ih hrest.symm]

/-- The bytes that are read as a text are those that it is written with. -/
theorem decode?_eq_some {s : List Char} :
    decode? bs = some s ↔ bs = s.flatMap String.utf8EncodeChar := by
  refine ⟨fun h => eq_of_decode_eq_map ?_, fun h => h ▸ decode?_flatMap_encodeChar s⟩
  rw [decode?] at h
  generalize decode bs = read at h ⊢
  induction read generalizing s with
  | nil =>
    cases h
    rfl
  | cons c rest ih =>
    simp only [List.mapM_cons, id, Option.pure_def, Option.bind_eq_bind,
      Option.bind_eq_some_iff] at h
    obtain ⟨c, rfl, s, hs, h⟩ := h
    cases h
    rw [List.map_cons, ih hs]

end Decoding

end Gearman.Text.Utf8
