/-!
Tables: maps that list their entries in the order in which the keys first arrived.
-/

namespace Gearman

/-- A map from `κ` to `α` that remembers the order of arrival of its keys. -/
structure Table (κ α : Type) where
  /-- The entries, oldest key first. -/
  entries : List (κ × α)
  nodup_keys : (entries.map (·.1)).Nodup

namespace Table

variable {κ α : Type} [DecidableEq κ]

instance : EmptyCollection (Table κ α) where
  emptyCollection := ⟨[], List.nodup_nil⟩

instance : Inhabited (Table κ α) where
  default := ∅

def keys (t : Table κ α) : List κ := t.entries.map (·.1)

def values (t : Table κ α) : List α := t.entries.map (·.2)

def size (t : Table κ α) : Nat := t.entries.length

/-- The sum of a measure over the values. -/
def total (t : Table κ α) (f : α → Nat) : Nat := t.entries.foldr (fun e n => f e.2 + n) 0

def isEmpty (t : Table κ α) : Bool := t.entries.isEmpty

/-- The value of `k`, if it has one. -/
def get? (t : Table κ α) (k : κ) : Option α :=
  go t.entries
where
  go : List (κ × α) → Option α
    | [] => none
    | (k', a) :: rest => if k' = k then some a else go rest

def contains (t : Table κ α) (k : κ) : Bool := (t.get? k).isSome

/-- The entries with `a` as the value of `k`. -/
def upsert (k : κ) (a : α) : List (κ × α) → List (κ × α)
  | [] => [(k, a)]
  | (k', a') :: rest => if k' = k then (k, a) :: rest else (k', a') :: upsert k a rest

theorem keys_upsert (k : κ) (a : α) (entries : List (κ × α)) :
    (upsert k a entries).map (·.1) =
      if k ∈ entries.map (·.1) then entries.map (·.1) else entries.map (·.1) ++ [k] := by
  induction entries with
  | nil => rfl
  | cons e rest ih =>
    simp only [upsert]
    by_cases he : e.1 = k
    · simp [he]
    · by_cases hrest : k ∈ rest.map (·.1) <;> simp_all [Ne.symm he]

theorem nodup_upsert (k : κ) (a : α) {entries : List (κ × α)}
    (h : (entries.map (·.1)).Nodup) : ((upsert k a entries).map (·.1)).Nodup := by
  rw [keys_upsert]
  split
  · exact h
  · next hnew =>
    rw [List.nodup_append]
    refine ⟨h, by simp, fun x hx y hy hxy => hnew ?_⟩
    rw [← List.mem_singleton.1 hy, ← hxy]
    exact hx

/-- Gives `k` the value `a`. A key that is present keeps its place, a new one goes to the end. -/
def insert (t : Table κ α) (k : κ) (a : α) : Table κ α :=
  ⟨upsert k a t.entries, nodup_upsert k a t.nodup_keys⟩

/-- Keeps the entries that satisfy `p`. -/
def filter (t : Table κ α) (p : κ → α → Bool) : Table κ α where
  entries := t.entries.filter fun e => p e.1 e.2
  nodup_keys := t.nodup_keys.sublist (List.filter_sublist.map _)

def erase (t : Table κ α) (k : κ) : Table κ α :=
  t.filter fun k' _ => k' ≠ k

variable {t : Table κ α} {k k' : κ} {a : α}

/-- A key has a value exactly if it has an entry. -/
theorem get?_eq_some_iff : t.get? k = some a ↔ (k, a) ∈ t.entries := by
  obtain ⟨entries, hnodup⟩ := t
  simp only [get?]
  induction entries with
  | nil => simp [get?.go]
  | cons e rest ih =>
    obtain ⟨k', a'⟩ := e
    simp only [List.map_cons, List.nodup_cons] at hnodup
    by_cases he : k' = k
    · subst he
      have hnew : (k', a) ∉ rest := fun h => hnodup.1 (List.mem_map.2 ⟨_, h, rfl⟩)
      simp [get?.go, hnew, eq_comm]
    · simp [get?.go, he, ih hnodup.2, Ne.symm he]

theorem get?_eq_none_iff : t.get? k = none ↔ k ∉ t.keys := by
  constructor
  · intro hnone hmem
    obtain ⟨⟨k', a⟩, ha, rfl⟩ := List.mem_map.1 hmem
    rw [get?_eq_some_iff.2 ha] at hnone
    contradiction
  · intro hnot
    cases hget : t.get? k with
    | none => rfl
    | some a => exact absurd (List.mem_map.2 ⟨_, get?_eq_some_iff.1 hget, rfl⟩) hnot

theorem contains_iff : t.contains k = true ↔ ∃ a, t.get? k = some a := by
  simp [contains, Option.isSome_iff_exists]

@[simp]
theorem get?_empty : (∅ : Table κ α).get? k = none := rfl

@[simp]
theorem contains_empty : (∅ : Table κ α).contains k = false := rfl

/-- A table is empty if no key has a value. -/
theorem isEmpty_iff : t.isEmpty = true ↔ ∀ k, t.get? k = none := by
  simp only [get?_eq_none_iff, isEmpty, keys, List.isEmpty_iff]
  constructor
  · rintro h k
    simp [h]
  · intro h
    rw [List.eq_nil_iff_forall_not_mem]
    exact fun e he => h e.1 (List.mem_map.2 ⟨e, he, rfl⟩)

theorem eq_empty_iff : t = ∅ ↔ ∀ k, t.get? k = none := by
  rw [← isEmpty_iff]
  obtain ⟨entries, hnodup⟩ := t
  constructor
  · intro h
    rw [h]
    rfl
  · intro h
    obtain rfl : entries = [] := by simpa [isEmpty] using h
    rfl

@[simp]
theorem get?_filter {p : κ → α → Bool} : (t.filter p).get? k = (t.get? k).filter (p k) := by
  refine Option.ext fun a => ?_
  rw [get?_eq_some_iff, filter, List.mem_filter, ← get?_eq_some_iff]
  simp

@[simp, grind =]
theorem get?_insert_self : (t.insert k a).get? k = some a := by
  rw [get?_eq_some_iff]
  simp only [insert]
  induction t.entries with
  | nil => simp [upsert]
  | cons e rest ih =>
    simp only [upsert]
    split
    · simp
    · exact List.mem_cons_of_mem _ ih

@[simp, grind =]
theorem get?_insert_of_ne (h : k ≠ k') : (t.insert k a).get? k' = t.get? k' := by
  simp only [get?, insert]
  induction t.entries with
  | nil => simp [upsert, get?.go, h]
  | cons e rest ih =>
    simp only [upsert]
    split <;> simp_all [get?.go]

theorem get?_insert : (t.insert k a).get? k' = if k = k' then some a else t.get? k' := by
  split
  · next h => rw [h, get?_insert_self]
  · next h => exact get?_insert_of_ne h

/-- A value that a key has already changes nothing. -/
theorem insert_of_get? (h : t.get? k = some a) : t.insert k a = t := by
  obtain ⟨entries, hnodup⟩ := t
  have hsame : upsert k a entries = entries := by
    simp only [get?] at h
    clear hnodup
    induction entries with
    | nil => contradiction
    | cons e rest ih =>
      obtain ⟨k', a'⟩ := e
      simp only [get?.go] at h
      by_cases he : k' = k
      · subst he
        obtain rfl : a' = a := by simpa using h
        simp [upsert]
      · rw [if_neg he] at h
        simp [upsert, he, ih h]
  simp only [insert, hsame]

@[simp, grind =]
theorem get?_erase_self : (t.erase k).get? k = none := by
  simp [erase]

@[simp, grind =]
theorem get?_erase_of_ne (h : k ≠ k') : (t.erase k).get? k' = t.get? k' := by
  cases hget : t.get? k' <;> simp [erase, hget, Ne.symm h]

theorem get?_erase : (t.erase k).get? k' = if k = k' then none else t.get? k' := by
  split
  · next h => rw [h, get?_erase_self]
  · next h => exact get?_erase_of_ne h

theorem contains_insert :
    (t.insert k a).contains k' = true ↔ k = k' ∨ t.contains k' = true := by
  simp only [contains, get?_insert]
  split <;> simp_all

theorem contains_erase :
    (t.erase k).contains k' = true ↔ k ≠ k' ∧ t.contains k' = true := by
  simp only [contains, get?_erase]
  split <;> simp_all

theorem mem_entries_of_get? (h : t.get? k = some a) : (k, a) ∈ t.entries :=
  get?_eq_some_iff.1 h

/-- A key whose entry satisfies `p` stays. -/
theorem mem_keys_filter {p : κ → α → Bool} (h : t.get? k = some a) (hp : p k a = true) :
    k ∈ (t.filter p).keys :=
  List.mem_map.2 ⟨(k, a), List.mem_filter.2 ⟨mem_entries_of_get? h, hp⟩, rfl⟩

/-- A new value takes the place of the old one in every sum over the values. -/
theorem total_insert {b : α} (f : α → Nat) (h : t.get? k = some a) :
    (t.insert k b).total f + f a = t.total f + f b := by
  simp only [get?] at h
  simp only [insert, total]
  generalize t.entries = entries at h ⊢
  induction entries with
  | nil => simp [get?.go] at h
  | cons e rest ih =>
    obtain ⟨k', a'⟩ := e
    by_cases he : k' = k
    · have : a' = a := by simpa [get?.go, he] using h
      subst this
      simp only [upsert, he, if_true, List.foldr_cons]
      omega
    · have := ih (by simpa [get?.go, he] using h)
      simp only [upsert, he, if_false, List.foldr_cons]
      omega

theorem total_erase_le (f : α → Nat) : (t.erase k).total f ≤ t.total f := by
  simp only [erase, filter, total]
  induction t.entries with
  | nil => exact Nat.le_refl _
  | cons e rest ih =>
    simp only [List.filter_cons]
    split
    · exact Nat.add_le_add_left ih _
    · exact Nat.le_trans ih (Nat.le_add_left _ _)

end Table

end Gearman
