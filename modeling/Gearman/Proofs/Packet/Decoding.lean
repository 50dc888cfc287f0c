import Gearman.Proofs.Packet.Encoding
import Gearman.Proofs.Packet.Frames

/-!
What reading makes of a byte string.

Reading accepts what writing produces, whatever follows, and nothing else. Of every other byte string it
reports the first of four faults: `Packet.Decoding` says which one.
-/

namespace Gearman

namespace Bytes

/-- The number that bytes spell, most significant first. -/
def number (bs : Bytes) : Nat := bs.foldl (fun n b => n * 256 + b.toNat) 0

theorem number_eq_toNat_word (a b c d : UInt8) : number [a, b, c, d] = (word a b c d).toNat := by
  rw [toNat_word]
  simp only [number, List.foldl_cons, List.foldl_nil]
  omega

/-- Four bytes spell a word. -/
theorem toNat_ofNat_number {bs : Bytes} (h : bs.length = 4) :
    (UInt32.ofNat (number bs)).toNat = number bs := by
  match bs with
  | [a, b, c, d] => rw [number_eq_toNat_word, UInt32.ofNat_toNat]

/-- A word has no other bytes than those that it was put together from. -/
theorem ofWord_word (a b c d : UInt8) : ofWord (word a b c d) = [a, b, c, d] := by
  have ha := a.toNat_lt
  have hb := b.toNat_lt
  have hc := c.toNat_lt
  have hd := d.toNat_lt
  simp only [ofWord, List.cons.injEq, and_true, ← UInt8.toNat_inj, UInt32.toNat_toUInt8,
    UInt32.toNat_shiftRight, Nat.shiftRight_eq_div_pow, toNat_word]
  simp only [UInt32.reduceToNat, Nat.reduceMod, Nat.reducePow]
  omega

end Bytes

theorem Magic.ofBytes?_eq_some_iff {bs : Bytes} {m : Magic} : ofBytes? bs = some m ↔ bs = m.bytes := by
  constructor
  · intro h
    unfold ofBytes? at h
    split at h
    · next hrequest =>
      cases h
      exact hrequest
    · split at h
      · next hresponse =>
        cases h
        exact hresponse
      · contradiction
  · rintro rfl
    exact ofBytes?_bytes m

theorem Magic.ofBytes?_eq_none_iff {bs : Bytes} : ofBytes? bs = none ↔ ∀ m : Magic, bs ≠ m.bytes := by
  simp [Option.eq_none_iff_forall_ne_some, ofBytes?_eq_some_iff]

theorem Kind.ofCode?_eq_none_iff {code : UInt32} : ofCode? code = none ↔ ∀ k : Kind, k.code ≠ code := by
  simp [Option.eq_none_iff_forall_ne_some, ofCode?_eq_some_iff]

namespace Header

variable {bs : Bytes} {h : Header}

/-- Some bytes begin with a header that says this. -/
structure Heads (h : Header) (bs : Bytes) : Prop where
  size_le : size ≤ bs.length
  magic : bs.take 4 = h.magic.bytes
  kind : Bytes.number ((bs.drop 4).take 4) = h.kind.code.toNat
  length : Bytes.number ((bs.drop 8).take 4) = h.length.toNat

/-- A header is read word by word. -/
theorem decode_of_size_le (hsize : size ≤ bs.length) : decode bs =
    match Magic.ofBytes? (bs.take 4) with
    | none => .error (.badMagic (bs.take 4))
    | some magic =>
      match Kind.ofCode? (.ofNat (Bytes.number ((bs.drop 4).take 4))) with
      | none => .error (.unknownKind (.ofNat (Bytes.number ((bs.drop 4).take 4))))
      | some kind => .ok ⟨magic, kind, .ofNat (Bytes.number ((bs.drop 8).take 4))⟩ := by
  obtain ⟨m₀, m₁, m₂, m₃, c₀, c₁, c₂, c₃, l₀, l₁, l₂, l₃, rest, rfl⟩ := exists_of_size_le hsize
  simp only [List.drop_succ_cons, List.drop_zero, List.take_succ_cons, List.take_zero,
    Bytes.number_eq_toNat_word, UInt32.ofNat_toNat]
  rfl

theorem decode_of_lt_size (hshort : bs.length < size) :
    decode bs = .error (.truncated size bs.length) := by
  unfold decode
  split
  · simp only [size, List.length_cons] at hshort
    omega
  · rfl

theorem decode_eq_ok_iff : decode bs = .ok h ↔ h.Heads bs := by
  constructor
  · intro hdecode
    have hsize : size ≤ bs.length := size_le_of_decode hdecode
    rw [decode_of_size_le hsize] at hdecode
    split at hdecode
    · contradiction
    · next magic hmagic =>
      split at hdecode
      · contradiction
      · next kind hkind =>
        cases hdecode
        rw [Magic.ofBytes?_eq_some_iff] at hmagic
        rw [Kind.ofCode?_eq_some_iff] at hkind
        have hwords : ((bs.drop 4).take 4).length = 4 ∧ ((bs.drop 8).take 4).length = 4 := by
          simp only [size] at hsize
          simp only [List.length_take, List.length_drop]
          omega
        refine ⟨hsize, hmagic, ?_, (Bytes.toNat_ofNat_number hwords.2).symm⟩
        rw [hkind, Bytes.toNat_ofNat_number hwords.1]
  · intro hheads
    have hcode : UInt32.ofNat (Bytes.number ((bs.drop 4).take 4)) = h.kind.code := by
      rw [hheads.kind, UInt32.ofNat_toNat]
    rw [decode_of_size_le hheads.size_le, Magic.ofBytes?_eq_some_iff.2 hheads.magic, hcode]
    simp only [Kind.ofCode?_eq_some_iff.2 rfl, hheads.length, UInt32.ofNat_toNat]

/-- A header is read only from its own bytes. -/
theorem Heads.encode_isPrefix (hheads : h.Heads bs) : h.encode <+: bs := by
  obtain ⟨m₀, m₁, m₂, m₃, c₀, c₁, c₂, c₃, l₀, l₁, l₂, l₃, rest, rfl⟩ :=
    exists_of_size_le hheads.size_le
  have hmagic : [m₀, m₁, m₂, m₃] = h.magic.bytes := hheads.magic
  have hkind : h.kind.code = Bytes.word c₀ c₁ c₂ c₃ := by
    rw [← UInt32.toNat_inj, ← Bytes.number_eq_toNat_word]
    exact hheads.kind.symm
  have hlength : h.length = Bytes.word l₀ l₁ l₂ l₃ := by
    rw [← UInt32.toNat_inj, ← Bytes.number_eq_toNat_word]
    exact hheads.length.symm
  refine ⟨rest, ?_⟩
  rw [encode, ← hmagic, hkind, hlength, Bytes.ofWord_word, Bytes.ofWord_word]
  rfl

end Header

namespace Packet

variable {bs : Bytes} {p : Packet} {r : Except Error Packet}

/-- What is to be made of some bytes: each case is left to the bytes that none before it applies to. -/
inductive Decoding (bs : Bytes) : Except Error Packet → Prop
  | short (hshort : bs.length < Header.size) :
    Decoding bs (.error (.truncated Header.size bs.length))
  | badMagic (hsize : Header.size ≤ bs.length) (hmagic : ∀ m : Magic, bs.take 4 ≠ m.bytes) :
    Decoding bs (.error (.badMagic (bs.take 4)))
  | unknownKind {m : Magic} {code : UInt32} (hsize : Header.size ≤ bs.length)
    (hmagic : bs.take 4 = m.bytes) (hcode : Bytes.number ((bs.drop 4).take 4) = code.toNat)
    (hkind : ∀ k : Kind, k.code ≠ code) : Decoding bs (.error (.unknownKind code))
  | truncated {h : Header} (hheads : h.Heads bs)
    (hshort : bs.length < Header.size + h.length.toNat) :
    Decoding bs (.error (.truncated (Header.size + h.length.toNat) bs.length))
  | packet {h : Header} (hheads : h.Heads bs)
    (hlong : Header.size + h.length.toNat ≤ bs.length) :
    Decoding bs (.ok ⟨h.magic, h.kind, (bs.drop Header.size).take h.length.toNat⟩)

/-- A header that cannot be read is the fault of its bytes. -/
theorem decoding_of_header {e : Error} (h : Header.decode bs = .error e) :
    Decoding bs (.error e) := by
  by_cases hsize : Header.size ≤ bs.length
  · rw [Header.decode_of_size_le hsize] at h
    split at h
    · next hmagic =>
      cases h
      exact .badMagic hsize (Magic.ofBytes?_eq_none_iff.1 hmagic)
    · next magic hmagic =>
      split at h
      · next hkind =>
        cases h
        have hcode : ((bs.drop 4).take 4).length = 4 := by
          simp only [Header.size] at hsize
          simp only [List.length_take, List.length_drop]
          omega
        exact .unknownKind hsize (Magic.ofBytes?_eq_some_iff.1 hmagic)
          (Bytes.toNat_ofNat_number hcode).symm (Kind.ofCode?_eq_none_iff.1 hkind)
      · contradiction
  · rw [Header.decode_of_lt_size (Nat.lt_of_not_le hsize)] at h
    cases h
    exact .short (Nat.lt_of_not_le hsize)

theorem decoding_decode (bs : Bytes) : Decoding bs (decode bs) := by
  unfold decode
  split
  · next e he => exact decoding_of_header he
  · next h hheader =>
    have hheads := Header.decode_eq_ok_iff.1 hheader
    split
    · next hshort => exact .truncated hheads hshort
    · next hlong => exact .packet hheads (Nat.le_of_not_lt hlong)

theorem Decoding.decode_eq (h : Decoding bs r) : decode bs = r := by
  cases h with
  | short hshort => simp only [decode, Header.decode_of_lt_size hshort]
  | badMagic hsize hmagic =>
    simp only [decode, Header.decode_of_size_le hsize, Magic.ofBytes?_eq_none_iff.2 hmagic]
  | unknownKind hsize hmagic hcode hkind =>
    simp only [decode, Header.decode_of_size_le hsize, Magic.ofBytes?_eq_some_iff.2 hmagic, hcode,
      UInt32.ofNat_toNat, Kind.ofCode?_eq_none_iff.2 hkind]
  | @truncated header hheads hshort =>
    have hlength : bs.length < header.packetLength := hshort
    simp only [decode, Header.decode_eq_ok_iff.2 hheads, if_pos hlength]
    rfl
  | @packet header hheads hlong =>
    have hlength : ¬ bs.length < header.packetLength := Nat.not_lt_of_le hlong
    simp only [decode, Header.decode_eq_ok_iff.2 hheads, if_neg hlength]

/-- A packet is read only from its own bytes. -/
theorem encode_prefix_of_decode (h : decode bs = .ok p) : p.encode <+: bs := by
  obtain ⟨header, hdecode, hlong, rfl⟩ := decode_eq_ok.1 h
  obtain ⟨rest, rfl⟩ := (Header.decode_eq_ok_iff.1 hdecode).encode_isPrefix
  have hsize : header.encode.length = Header.size := header.length_encode
  have hrest : header.length.toNat ≤ rest.length := by
    simp only [Header.packetLength, List.length_append, hsize] at hlong
    omega
  have hpayload : (header.encode ++ rest).drop Header.size = rest := by
    rw [← hsize, List.drop_left]
  have hheader : Packet.header ⟨header.magic, header.kind, rest.take header.length.toNat⟩ = header := by
    simp [Packet.header, hrest]
  rw [hpayload, encode, hheader]
  exact (List.prefix_append_right_inj _).2 (List.take_prefix _ _)

/-- Reading a packet undoes writing it, whatever follows, and accepts nothing that was not written.
What it makes of any bytes is the one thing that is to be made of them. -/
theorem decode_exact :
    (∀ p : Packet, p.payload.length < UInt32.size → ∀ more, decode (p.encode ++ more) = .ok p) ∧
    (∀ bs p, decode bs = .ok p → p.encode <+: bs) ∧
    ∀ bs r, decode bs = r ↔ Decoding bs r := by
  refine ⟨fun p hp => decode_encode hp, fun bs p => encode_prefix_of_decode,
    fun bs r => ⟨?_, Decoding.decode_eq⟩⟩
  rintro rfl
  exact decoding_decode bs

/-- Of several faults the first is reported. -/
example : decode [0, 0x52, 0x45, 0x50, 0, 0, 0, 5, 0, 0, 0, 1] = .error (.badMagic [0, 0x52, 0x45, 0x50]) :=
  rfl

end Packet

end Gearman
