import Gearman.Proofs.Packet.Fields

/-!
Joining fields to a payload and splitting a payload into fields, over all fields and all payloads.

Joining fails for the length first and for a zero byte second. What it accepts is found again by
splitting, and what splitting finds makes the payload again. No payload is split into more fields than
there is room for.
-/

namespace Gearman.Packet

variable {magic : Magic} {kind : Kind} {fields : List Bytes} {p : Packet}

/-- The length is looked at first. -/
theorem ofFields_of_size_le (h : UInt32.size ≤ Bytes.joinedLength fields) :
    ofFields magic kind fields =
      .error (.payloadTooLarge (Bytes.joinedLength fields) 0xFFFFFFFF) := by
  rw [ofFields, if_neg (Nat.not_lt_of_le h)]

/-- Of fields that are not too long, only the last may hold a zero byte. -/
theorem ofFields_of_mem (h : Bytes.joinedLength fields < UInt32.size) {field : Bytes}
    (hfield : field ∈ fields.dropLast) (hzero : 0 ∈ field) :
    ofFields magic kind fields = .error (.nulInIdentifier kind) := by
  have hany : fields.dropLast.any (0 ∈ ·) = true :=
    List.any_eq_true.2 ⟨field, hfield, decide_eq_true hzero⟩
  rw [ofFields, if_pos h, if_pos hany]

theorem ofFields_isOk : (∃ p, ofFields magic kind fields = .ok p) ↔
    Bytes.joinedLength fields < UInt32.size ∧ ∀ field ∈ fields.dropLast, 0 ∉ field := by
  simp only [ofFields_eq_ok, Bytes.length_joinFields, exists_and_left, exists_eq, and_true]

/-- The packet that some fields make is split into the same fields. -/
theorem fields_of_ofFields (hne : fields ≠ []) (h : ofFields magic kind fields = .ok p) :
    p.fields fields.length = .ok fields := by
  obtain ⟨hfits, hzero, rfl⟩ := ofFields_eq_ok.1 h
  obtain ⟨first, rest, rfl⟩ := List.exists_cons_of_ne_nil hne
  -- The separators alone are fewer than the length field can count.
  have hroom : rest.length < maxFields := by
    rw [Bytes.length_joinFields, Bytes.joinedLength, List.length_cons] at hfits
    simp only [maxFields, UInt32.size] at *
    omega
  exact fields_joinFields first rest hroom hzero

/-- The fields that a packet is split into make the same packet, if its payload is not too long. -/
theorem ofFields_of_fields {n : Nat} (h : p.fields (n + 1) = .ok fields)
    (hfits : p.payload.length < UInt32.size) : ofFields p.magic p.kind fields = .ok p := by
  obtain ⟨-, hzero, hpayload⟩ := (fields_eq_ok (le_of_fields h)).1 h
  rw [hpayload] at hfits
  exact ofFields_eq_ok.2 ⟨hfits, hzero, by rw [← hpayload]⟩

/-- A payload has enough fields if it has a zero byte for each but the last. -/
theorem fields_isOk {n : Nat} (hn : n < maxFields) :
    (∃ fields, p.fields (n + 1) = .ok fields) ↔ n ≤ p.payload.count 0 := by
  cases hfields : p.fields (n + 1) with
  | ok fields =>
    have hnone : ¬ p.payload.count 0 < n := fun hfew => by
      rw [(fields_eq_error hn).2 ⟨hfew, rfl⟩] at hfields
      contradiction
    simpa using hnone
  | error e =>
    obtain ⟨hfew, -⟩ := (fields_eq_error hn).1 hfields
    simpa using hfew

/-- Joining and splitting undo each other. Fields are joined if the payload fits the length field and
only the last of them holds a zero byte, and the payload is split into the same fields again. A payload
is split into as many fields as are asked for if it has the zero bytes for it; joined again, they are
the payload, and make the packet if that is not too long. But nobody can ask for more fields than there
is room for, whatever the payload holds. -/
theorem joining_inverts_splitting (magic : Magic) (kind : Kind) (fields : List Bytes) (p : Packet)
    (n : Nat) :
    (fields ≠ [] →
      ((∃ p, ofFields magic kind fields = .ok p) ↔
        fields.flatten.length + (fields.length - 1) < UInt32.size ∧
          ∀ field ∈ fields.dropLast, 0 ∉ field) ∧
      (UInt32.size ≤ fields.flatten.length + (fields.length - 1) →
        ofFields magic kind fields = .error (.payloadTooLarge
          (fields.flatten.length + (fields.length - 1)) 0xFFFFFFFF)) ∧
      (fields.flatten.length + (fields.length - 1) < UInt32.size →
        (∃ field ∈ fields.dropLast, 0 ∈ field) →
        ofFields magic kind fields = .error (.nulInIdentifier kind) ∧
          (Error.nulInIdentifier kind).category = .malformedPayload) ∧
      ∀ p, ofFields magic kind fields = .ok p → p.fields fields.length = .ok fields) ∧
    (1 ≤ n →
      (n ≤ maxFields → ((∃ fields, p.fields n = .ok fields) ↔ n - 1 ≤ p.payload.count 0) ∧
        ∀ e, p.fields n = .error e → e = .missingFields p.kind n (p.payload.count 0 + 1)) ∧
      (maxFields < n → p.fields n = .error (.panicked "capacity overflow")) ∧
      ∀ fields, p.fields n = .ok fields → fields.length = n ∧ Bytes.joinFields fields = p.payload ∧
        (∀ field ∈ fields.dropLast, 0 ∉ field) ∧
        (p.payload.length < UInt32.size → ofFields p.magic p.kind fields = .ok p)) := by
  refine ⟨fun hne => ⟨ofFields_isOk, ofFields_of_size_le, ?_, fun p => fields_of_ofFields hne⟩,
    fun hn => ?_⟩
  · rintro hlength ⟨field, hfield, hzero⟩
    exact ⟨ofFields_of_mem hlength hfield hzero, rfl⟩
  · obtain ⟨n, rfl⟩ := Nat.exists_eq_add_of_le' hn
    refine ⟨fun hroom => ⟨fields_isOk hroom, fun e he => ((fields_eq_error hroom).1 he).2⟩,
      fields_of_lt, fun fields hfields => ?_⟩
    obtain ⟨hlength, hzero, hpayload⟩ := (fields_eq_ok (le_of_fields hfields)).1 hfields
    exact ⟨hlength, hpayload.symm, hzero, ofFields_of_fields hfields⟩

/-- An empty payload has no zero byte, yet it is not told that it has too few. -/
theorem fields_beyond_room_are_not_counted :
    (Packet.response .jobAssign []).payload.count 0 = 0 ∧
      (Packet.response .jobAssign []).fields 1152921504606846976 =
        .error (.panicked "capacity overflow") ∧
      (Packet.response .jobAssign []).fields 1152921504606846976 ≠
        .error (.missingFields .jobAssign 1152921504606846976 1) := by
  have hpanics : (Packet.response .jobAssign []).fields 1152921504606846976 =
      .error (.panicked "capacity overflow") := fields_of_lt (by decide)
  refine ⟨rfl, hpanics, ?_⟩
  rw [hpanics]
  rintro ⟨⟩

/-- Only the last field keeps its zero bytes. -/
example : Packet.fields ⟨.response, .jobAssign, [0x48, 0, 0x72, 0, 0x61, 0, 0x62]⟩ 3 =
    .ok [[0x48], [0x72], [0x61, 0, 0x62]] := rfl

end Gearman.Packet
