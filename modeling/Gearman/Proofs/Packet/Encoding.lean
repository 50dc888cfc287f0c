import Mathlib.Algebra.GroupWithZero.Nat
import Gearman.Packet.Codec

/-!
Encoded packets are read back.
-/

namespace Gearman

namespace Bytes

/-- The four bytes of a word are its digits. -/
theorem toNat_word (a b c d : UInt8) : (word a b c d).toNat =
    a.toNat * 2 ^ 24 + b.toNat * 2 ^ 16 + c.toNat * 2 ^ 8 + d.toNat := by
  have hfirst : ∀ a b : Nat, a * 2 ^ 24 + b * 2 ^ 16 = (a * 2 ^ 8 + b) * 2 ^ 16 := by omega
  have hsecond : ∀ a b c : Nat, (a * 2 ^ 8 + b) * 2 ^ 16 + c * 2 ^ 8 =
      (a * 2 ^ 16 + b * 2 ^ 8 + c) * 2 ^ 8 := by
    omega
  have hall : ∀ a b c : Nat, (a * 2 ^ 16 + b * 2 ^ 8 + c) * 2 ^ 8 =
      a * 2 ^ 24 + b * 2 ^ 16 + c * 2 ^ 8 := by
    intro a b c
    simp only [Nat.add_mul, Nat.mul_assoc, Nat.reducePow, Nat.reduceMul]
  have ha := a.toNat_lt
  have hb := b.toNat_lt
  have hc := c.toNat_lt
  have hd := d.toNat_lt
  have hor : ∀ x y k : Nat, y < 2 ^ k → x * 2 ^ k ||| y = x * 2 ^ k + y := by
    intro x y k hy
    rw [← Nat.shiftLeft_eq, Nat.shiftLeft_add_eq_or_of_lt hy]
  have hshift : ∀ (x : UInt8) (k : UInt32) (n : Nat), k.toNat = n → n ≤ 24 →
      (x.toUInt32 <<< k).toNat = x.toNat * 2 ^ n := by
    intro x k n hk hn
    have hx := x.toNat_lt
    have hmod : k.toNat % 32 = n := by omega
    have hpow : 2 ^ n ≤ 2 ^ 24 := Nat.pow_le_pow_right (by decide) hn
    have hlt : x.toNat * 2 ^ n < 2 ^ 32 :=
      Nat.lt_of_lt_of_le (Nat.mul_lt_mul_of_pos_right hx (Nat.two_pow_pos _)) (by omega)
    rw [UInt32.toNat_shiftLeft, UInt8.toNat_toUInt32, hmod, Nat.shiftLeft_eq, Nat.mod_eq_of_lt hlt]
  rw [word, UInt32.toNat_or, UInt32.toNat_or, UInt32.toNat_or, hshift a 24 24 rfl (by decide),
    hshift b 16 16 rfl (by decide), hshift c 8 8 rfl (by decide), UInt8.toNat_toUInt32]
  rw [hor _ _ 24 (by omega), hfirst, hor _ _ 16 (by omega), hsecond, hor _ _ 8 hd, hall]

theorem word_ofWord (w : UInt32) :
    word (w >>> 24).toUInt8 (w >>> 16).toUInt8 (w >>> 8).toUInt8 w.toUInt8 = w := by
  have hw := w.toNat_lt
  apply UInt32.toNat_inj.1
  rw [toNat_word]
  simp only [UInt32.toNat_toUInt8, UInt32.toNat_shiftRight, Nat.shiftRight_eq_div_pow]
  change w.toNat / 2 ^ 24 % 2 ^ 8 * 2 ^ 24 + w.toNat / 2 ^ 16 % 2 ^ 8 * 2 ^ 16 +
    w.toNat / 2 ^ 8 % 2 ^ 8 * 2 ^ 8 + w.toNat % 2 ^ 8 = w.toNat
  omega

end Bytes

theorem Header.length_encode (h : Header) : h.encode.length = size := by
  obtain ⟨magic, kind, length⟩ := h
  cases magic <;> rfl

/-- A header is read back from its own bytes, whatever follows them. -/
theorem Header.decode_encode (h : Header) (more : Bytes) : decode (h.encode ++ more) = .ok h := by
  obtain ⟨magic, kind, length⟩ := h
  have hkind : Kind.ofCode? kind.code = some kind := Kind.ofCode?_eq_some_iff.2 rfl
  have hmagic := Magic.ofBytes?_bytes magic
  cases magic with
  | request =>
    simp only [Magic.bytes] at hmagic
    simp only [encode, Magic.bytes, Bytes.ofWord, List.cons_append, List.nil_append, decode, hmagic,
      Bytes.word_ofWord, hkind]
  | response =>
    simp only [Magic.bytes] at hmagic
    simp only [encode, Magic.bytes, Bytes.ofWord, List.cons_append, List.nil_append, decode, hmagic,
      Bytes.word_ofWord, hkind]

namespace Packet

theorem length_encode (p : Packet) : p.encode.length = p.encodedLength := by
  rw [encode, List.length_append, Header.length_encode, encodedLength]

/-- A packet is read back from its own bytes, whatever follows them. -/
theorem decode_encode {p : Packet} (hlength : p.payload.length < UInt32.size) (more : Bytes) :
    decode (p.encode ++ more) = .ok p := by
  have hsize : p.header.encode.length = Header.size := p.header.length_encode
  have hword : p.header.length.toNat = p.payload.length := by
    simp only [header, Nat.toUInt32_eq, UInt32.toNat_ofNat']
    exact Nat.mod_eq_of_lt hlength
  have hlong : ¬ (p.header.encode ++ p.payload ++ more).length < p.header.packetLength := by
    simp only [List.length_append, hsize, Header.packetLength, hword]
    omega
  rw [decode, encode, List.append_assoc, Header.decode_encode, ← List.append_assoc]
  simp only [if_neg hlong, ← hsize, hword]
  simp [header]

end Packet

end Gearman
