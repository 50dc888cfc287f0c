import Gearman.Packet.Codec

/-!
Fields that were joined are found again, as long as only the last of them holds zero bytes.
-/

namespace Gearman

namespace Bytes

theorem cut?_append {field : Bytes} (h : 0 ∉ field) (rest : Bytes) :
    (field ++ 0 :: rest).cut? = some (field, rest) := by
  have hne : ∀ b ∈ field, (b != 0) = true := by
    rintro b hb
    rw [bne_iff_ne]
    rintro rfl
    exact h hb
  simp [cut?, List.dropWhile_append_of_pos hne, List.takeWhile_append_of_pos hne]

theorem joinFields_singleton (field : Bytes) : joinFields [field] = field := by
  simp [joinFields]

theorem joinFields_cons_cons (first second : Bytes) (rest : List Bytes) :
    joinFields (first :: second :: rest) = first ++ 0 :: joinFields (second :: rest) := by
  simp [joinFields]

theorem length_joinFields (fields : List Bytes) :
    (joinFields fields).length = joinedLength fields := by
  induction fields with
  | nil => rfl
  | cons first rest ih =>
    cases rest with
    | nil => simp [joinFields_singleton, joinedLength]
    | cons second rest =>
      simp only [joinFields_cons_cons, List.length_append, List.length_cons, ih, joinedLength,
        List.flatten_cons]
      omega

theorem splitFields_joinFields {first : Bytes} {rest : List Bytes}
    (h : ∀ field ∈ (first :: rest).dropLast, 0 ∉ field) :
    splitFields rest.length (joinFields (first :: rest)) = .ok (first :: rest) := by
  induction rest generalizing first with
  | nil => simp [splitFields, joinFields_singleton]
  | cons second rest ih =>
    have hrest : ∀ field ∈ (second :: rest).dropLast, 0 ∉ field :=
      fun field hfield => h field (by simp [List.dropLast, hfield])
    rw [joinFields_cons_cons, List.length_cons, splitFields,
      cut?_append (h first (by simp [List.dropLast]))]
    simp only [ih hrest]

theorem joinFields_cons {rest : List Bytes} (first : Bytes) (h : rest ≠ []) :
    joinFields (first :: rest) = first ++ 0 :: joinFields rest := by
  cases rest with
  | nil => contradiction
  | cons second rest => exact joinFields_cons_cons first second rest

/-- Splitting is the reverse of joining. -/
theorem splitFields_eq_ok {k : Nat} {bs : Bytes} {fields : List Bytes} :
    splitFields k bs = .ok fields ↔ fields.length = k + 1 ∧
      (∀ field ∈ fields.dropLast, 0 ∉ field) ∧ bs = joinFields fields := by
  constructor
  · intro h
    induction k generalizing bs fields with
    | zero =>
      cases h
      simp [joinFields_singleton]
    | succ k ih =>
      simp only [splitFields] at h
      split at h
      · contradiction
      · next first rest hcut =>
        obtain ⟨rfl, hfirst⟩ := cut?_eq_some hcut
        split at h
        · next fields' hfields =>
          cases h
          obtain ⟨hlength, hnul, rfl⟩ := ih hfields
          have hne : fields' ≠ [] := List.ne_nil_of_length_eq_add_one hlength
          refine ⟨by simp [hlength], ?_, (joinFields_cons first hne).symm⟩
          rw [List.dropLast_cons_of_ne_nil hne]
          simpa using ⟨hfirst, hnul⟩
        · contradiction
  · rintro ⟨hlength, hnul, rfl⟩
    match fields, hlength with
    | first :: rest, hlength =>
      obtain rfl : rest.length = k := by simpa using hlength
      exact splitFields_joinFields hnul

/-- Bytes that cannot be split have too few zero bytes. -/
theorem splitFields_eq_error {k found : Nat} {bs : Bytes} :
    splitFields k bs = .error found ↔ bs.count 0 < k ∧ found = bs.count 0 + 1 := by
  induction k generalizing bs found with
  | zero => simp [splitFields]
  | succ k ih =>
    cases hcut : bs.cut? with
    | none =>
      simp [splitFields, hcut, List.count_eq_zero.2 (cut?_eq_none_iff.1 hcut), eq_comm]
    | some parts =>
      obtain ⟨field, rest⟩ := parts
      obtain ⟨rfl, hfield⟩ := cut?_eq_some hcut
      have hcount : (field ++ 0 :: rest).count 0 = rest.count 0 + 1 := by
        simp [List.count_append, List.count_eq_zero.2 hfield]
      rw [splitFields, hcut, hcount, Nat.add_lt_add_iff_right]
      cases hrest : splitFields k rest with
      | ok fields =>
        have hnone : ¬ rest.count 0 < k := fun hlt => by
          have := ih.2 ⟨hlt, rfl⟩
          rw [hrest] at this
          contradiction
        simp [hrest, hnone]
      | error found' =>
        obtain ⟨hlt, rfl⟩ := ih.1 hrest
        simp [hrest, hlt, eq_comm]

end Bytes

namespace Packet

variable {magic : Magic} {kind : Kind} {fields : List Bytes}

/-- The fields that make a packet, and the packet that they make. -/
theorem ofFields_eq_ok {p : Packet} : ofFields magic kind fields = .ok p ↔
    (Bytes.joinFields fields).length < UInt32.size ∧ (∀ field ∈ fields.dropLast, 0 ∉ field) ∧
      p = ⟨magic, kind, Bytes.joinFields fields⟩ := by
  rw [Bytes.length_joinFields]
  unfold ofFields
  split
  · next hlength =>
    split
    · next hnul =>
      obtain ⟨field, hfield, hmem⟩ := List.any_eq_true.1 hnul
      simp only [reduceCtorEq, false_iff, not_and]
      exact fun _ hnone => absurd (by simpa using hmem) (hnone field hfield)
    · next hnul =>
      have hnone : ∀ field ∈ fields.dropLast, 0 ∉ field := by simpa using hnul
      simp only [Except.ok.injEq, hlength, true_and]
      exact ⟨fun h => ⟨hnone, h.symm⟩, fun h => h.2.symm⟩
  · next hlength => simp [hlength]

theorem handleAndRest_joinFields {handle : Bytes} (h : 0 ∉ handle) (rest : Bytes) :
    handleAndRest ⟨magic, kind, Bytes.joinFields [handle, rest]⟩ = (handle, rest) := by
  rw [Bytes.joinFields_cons_cons, Bytes.joinFields_singleton]
  simp [handleAndRest, Bytes.cut?_append h]

theorem fields_succ {p : Packet} {n : Nat} (hn : n < maxFields) :
    p.fields (n + 1) = match p.payload.splitFields n with
      | .ok fields => .ok fields
      | .error found => .error (.missingFields p.kind (n + 1) found) :=
  if_pos hn

/-- There is no room for so many fields. -/
theorem fields_of_lt {p : Packet} {n : Nat} (h : maxFields < n) :
    p.fields n = .error (.panicked "capacity overflow") :=
  if_neg (Nat.not_le_of_lt h)

theorem le_of_fields {p : Packet} {n : Nat} (h : p.fields n = .ok fields) : n ≤ maxFields := by
  refine Nat.le_of_not_lt fun hlt => ?_
  rw [fields_of_lt hlt] at h
  contradiction

theorem fields_joinFields (first : Bytes) (rest : List Bytes) (hroom : rest.length < maxFields)
    (h : ∀ field ∈ (first :: rest).dropLast, 0 ∉ field) :
    Packet.fields ⟨magic, kind, Bytes.joinFields (first :: rest)⟩ (rest.length + 1) =
      .ok (first :: rest) := by
  rw [fields_succ hroom, Bytes.splitFields_joinFields h]

theorem fields_eq_ok {p : Packet} {n : Nat} (hn : n < maxFields) : p.fields (n + 1) = .ok fields ↔
    fields.length = n + 1 ∧ (∀ field ∈ fields.dropLast, 0 ∉ field) ∧
      p.payload = Bytes.joinFields fields := by
  rw [← Bytes.splitFields_eq_ok, fields_succ hn]
  cases p.payload.splitFields n <;> simp

theorem fields_eq_error {p : Packet} {n : Nat} {e : Error} (hn : n < maxFields) :
    p.fields (n + 1) = .error e ↔
      p.payload.count 0 < n ∧ e = .missingFields p.kind (n + 1) (p.payload.count 0 + 1) := by
  rw [fields_succ hn]
  cases hsplit : p.payload.splitFields n with
  | ok fields =>
    have henough : ¬ p.payload.count 0 < n := fun hlt => by
      have := Bytes.splitFields_eq_error.2 ⟨hlt, rfl⟩
      rw [hsplit] at this
      contradiction
    simp [henough]
  | error found =>
    obtain ⟨hlt, rfl⟩ := Bytes.splitFields_eq_error.1 hsplit
    simp [hlt, eq_comm]

end Packet

end Gearman
