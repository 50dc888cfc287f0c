import Gearman.Job.Status
import Gearman.Proofs.Job.Counters
import Gearman.Proofs.Packet.Joining
import Gearman.Proofs.Text.Numerals

/-!
The fields from which counters are read, and the packets from which the status of a job is read.
-/

namespace Gearman

open Text Text.Decimal

/-- What a field that states a counter may hold: nothing, which is zero, or a numeral, around which
may be white space. -/
inductive StatesCounter : Bytes → Nat → Prop
  | nothing : StatesCounter [] 0
  | numeral {front numeral back : List Char} {n : Nat} (h : Numeral numeral n)
    (hfront : ∀ c ∈ front, isBlank c = true) (hback : ∀ c ∈ back, isBlank c = true) :
    StatesCounter ((front ++ numeral ++ back).flatMap String.utf8EncodeChar) n

variable {bs : Bytes} {field : String} {m n : Nat}

/-- A field that is not empty is read as a text, trimmed and read as a numeral. -/
theorem statesCounter_iff (hne : bs ≠ []) : StatesCounter bs n ↔
    ∃ s, Utf8.decode? bs = some s ∧ Numeral (trim s) n := by
  constructor
  · intro h
    cases h with
    | nothing => contradiction
    | numeral h hfront hback =>
      exact ⟨_, Utf8.decode?_eq_some.2 rfl, by rwa [h.trim_surrounded hfront hback]⟩
  · rintro ⟨s, hs, h⟩
    obtain ⟨front, back, htrim, hfront, hback⟩ := exists_trim s
    rw [Utf8.decode?_eq_some.1 hs, htrim]
    exact .numeral h hfront hback

theorem statesCounter_nil : StatesCounter [] n ↔ n = 0 := by
  refine ⟨fun h => ?_, fun h => h ▸ .nothing⟩
  generalize hbs : ([] : Bytes) = bs at h
  cases h with
  | nothing => rfl
  | @numeral front numeral back n h _ _ =>
    have hread : some [] = some (front ++ numeral ++ back) := Utf8.decode?_eq_some.2 hbs
    have hempty : numeral = [] := by simp_all
    exact absurd hempty h.ne_nil

/-- A field states one counter at most. -/
theorem StatesCounter.unique (h : StatesCounter bs n) (h' : StatesCounter bs m) : n = m := by
  by_cases hne : bs = []
  · subst hne
    rw [statesCounter_nil.1 h, statesCounter_nil.1 h']
  · obtain ⟨s, hs, hnumeral⟩ := (statesCounter_iff hne).1 h
    obtain ⟨s', hs', hnumeral'⟩ := (statesCounter_iff hne).1 h'
    obtain rfl : s = s' := Option.some.inj (hs.symm.trans hs')
    exact hnumeral.unique hnumeral'

/-- What is read is the counter that the field states, if it is below 2^64. -/
theorem readCounter_of_states (h : StatesCounter bs n) (hn : n < UInt64.size) :
    readCounter field bs = .ok n.toUInt64 := by
  unfold readCounter
  split
  · next hempty =>
    obtain rfl : n = 0 := statesCounter_nil.1 (List.isEmpty_iff.1 hempty ▸ h)
    rfl
  · next hne =>
    obtain ⟨s, hs, hnumeral⟩ := (statesCounter_iff (by simpa using hne)).1 h
    have hparse : parse? (UInt64.size - 1) (trim s) = some n :=
      parse?_eq_some.2 ⟨hnumeral, Nat.le_sub_one_of_lt hn⟩
    simp only [hs, Option.bind_some, hparse]

/-- A field that states no counter below 2^64 is reported as it stands. -/
theorem readCounter_cases (field : String) (bs : Bytes) :
    (∃ n < UInt64.size, StatesCounter bs n ∧ readCounter field bs = .ok n.toUInt64) ∨
      readCounter field bs = .error (.notDecimal field (Utf8.lossy bs)) := by
  by_cases hstates : ∃ n < UInt64.size, StatesCounter bs n
  · obtain ⟨n, hn, h⟩ := hstates
    exact .inl ⟨n, hn, h, readCounter_of_states h hn⟩
  · refine .inr ?_
    unfold readCounter
    split
    · next hempty =>
      have hzero : StatesCounter bs 0 := List.isEmpty_iff.1 hempty ▸ .nothing
      exact absurd ⟨0, by decide, hzero⟩ hstates
    · next hne =>
      split
      · next n hread =>
        obtain ⟨s, hs, hparse⟩ := Option.bind_eq_some_iff.1 hread
        obtain ⟨hnumeral, hle⟩ := parse?_eq_some.1 hparse
        have h := (statesCounter_iff (by simpa using hne)).2 ⟨s, hs, hnumeral⟩
        exact absurd ⟨n, Nat.lt_of_le_sub_one (by decide) hle, h⟩ hstates
      · rfl

/-- A counter is read from the fields that state it, and from no others. -/
theorem readCounter_eq_ok (field : String) {n : UInt64} :
    readCounter field bs = .ok n ↔ StatesCounter bs n.toNat := by
  constructor
  · intro h
    obtain ⟨k, hk, hstates, hread⟩ | hread := readCounter_cases field bs
    · obtain rfl : n = k.toUInt64 := Except.ok.inj (h.symm.trans hread)
      rwa [Nat.toUInt64_eq, UInt64.toNat_ofNat_of_lt' hk]
    · rw [h] at hread
      cases hread
  · intro h
    rw [readCounter_of_states h n.toNat_lt_size, Nat.toUInt64_eq, UInt64.ofNat_toNat]

/-- A numeral past the limit is refused. -/
theorem readCounter_of_size_le (h : StatesCounter bs n) (hn : UInt64.size ≤ n) :
    readCounter field bs = .error (.notDecimal field (Utf8.lossy bs)) := by
  obtain ⟨k, hk, hstates, -⟩ | hread := readCounter_cases field bs
  · exact absurd hk (Nat.not_lt_of_le (h.unique hstates ▸ hn))
  · exact hread

namespace Packet

variable {p : Packet} {handle known running numerator denominator : Bytes}

/-- An answer to the question about a job, with these fields. Only the last one may hold zero bytes. -/
structure AnswersStatus (p : Packet) (handle known running numerator denominator : Bytes) :
    Prop where
  kind : p.kind = .statusRes
  nul : ∀ field ∈ [handle, known, running, numerator], 0 ∉ field
  payload : p.payload = Bytes.joinFields [handle, known, running, numerator, denominator]

theorem AnswersStatus.fields_eq (h : p.AnswersStatus handle known running numerator denominator) :
    p.fields 5 = .ok [handle, known, running, numerator, denominator] :=
  (fields_eq_ok (by decide)).2 ⟨rfl, h.nul, h.payload⟩

theorem exists_answersStatus {fields : List Bytes} (hkind : p.kind = .statusRes)
    (h : p.fields 5 = .ok fields) : ∃ handle known running numerator denominator,
      p.AnswersStatus handle known running numerator denominator := by
  obtain ⟨hlength, hnul, hpayload⟩ := (fields_eq_ok (le_of_fields h)).1 h
  match fields, hlength with
  | [handle, known, running, numerator, denominator], _ =>
    exact ⟨handle, known, running, numerator, denominator, hkind, hnul, hpayload⟩

end Packet

namespace JobStatus

variable {p : Packet} {st : JobStatus} {handle known running numerator denominator : Bytes}

theorem ofPacket_of_answers (h : p.AnswersStatus handle known running numerator denominator) :
    ofPacket p = do
      return {
        known := isSet known
        running := isSet running
        numerator := ← readCounter "numerator" numerator
        denominator := ← readCounter "denominator" denominator } := by
  rw [ofPacket, if_pos h.kind, h.fields_eq]
  rfl

/-- What is read has all the fields of an answer. -/
theorem answers_of_ofPacket (h : ofPacket p = .ok st) :
    ∃ handle known running numerator denominator,
      p.AnswersStatus handle known running numerator denominator := by
  unfold ofPacket at h
  split at h
  · next hkind =>
    cases hfields : p.fields 5 with
    | error e =>
      rw [hfields] at h
      cases h
    | ok fields => exact Packet.exists_answersStatus hkind hfields
  · cases h

/-- An answer is read as what its fields say. -/
theorem ofPacket_eq_ok (h : p.AnswersStatus handle known running numerator denominator) :
    ofPacket p = .ok st ↔ st.known = isSet known ∧ st.running = isSet running ∧
      StatesCounter numerator st.numerator.toNat ∧
      StatesCounter denominator st.denominator.toNat := by
  rw [ofPacket_of_answers h, ← readCounter_eq_ok "numerator", ← readCounter_eq_ok "denominator"]
  cases readCounter "numerator" numerator with
  | error e => simp [bind, Except.bind]
  | ok n =>
    cases readCounter "denominator" denominator with
    | error e => simp [bind, Except.bind]
    | ok d =>
      obtain ⟨known', running', n', d'⟩ := st
      simp [bind, Except.bind, pure, Except.pure, eq_comm]

theorem ofPacket_isOk : (∃ st, ofPacket p = .ok st) ↔
    p.kind = .statusRes ∧ 4 ≤ p.payload.count 0 ∧
      ∀ handle known running numerator denominator,
        p.AnswersStatus handle known running numerator denominator →
          (∃ n < UInt64.size, StatesCounter numerator n) ∧
            ∃ d < UInt64.size, StatesCounter denominator d := by
  constructor
  · rintro ⟨st, hst⟩
    obtain ⟨_, _, _, _, _, hanswers⟩ := answers_of_ofPacket hst
    refine ⟨hanswers.kind, (Packet.fields_isOk (by decide)).1 ⟨_, hanswers.fields_eq⟩, ?_⟩
    intro handle known running numerator denominator hanswers
    obtain ⟨-, -, hn, hd⟩ := (ofPacket_eq_ok hanswers).1 hst
    exact ⟨⟨_, st.numerator.toNat_lt_size, hn⟩, ⟨_, st.denominator.toNat_lt_size, hd⟩⟩
  · rintro ⟨hkind, hcount, hfields⟩
    obtain ⟨fields, hsplit⟩ := (Packet.fields_isOk (by decide)).2 hcount
    obtain ⟨handle, known, running, numerator, denominator, hanswers⟩ :=
      Packet.exists_answersStatus hkind hsplit
    obtain ⟨⟨n, hn, hnumerator⟩, ⟨d, hd, hdenominator⟩⟩ := hfields _ _ _ _ _ hanswers
    refine ⟨⟨isSet known, isSet running, UInt64.ofNat n, UInt64.ofNat d⟩,
      (ofPacket_eq_ok hanswers).2 ⟨rfl, rfl, ?_, ?_⟩⟩
    · rwa [UInt64.toNat_ofNat_of_lt' hn]
    · rwa [UInt64.toNat_ofNat_of_lt' hd]

/-- How a flag is written. -/
def flag (b : Bool) : Bytes := if b then [0x31] else [0x30]

theorem isSet_flag (b : Bool) : isSet (flag b) = b := by
  cases b <;> rfl

/-- The payload that answers with a status. -/
def payload (st : JobStatus) (handle : Bytes) : Bytes :=
  Bytes.joinFields [handle, flag st.known, flag st.running, writeCounter st.numerator,
    writeCounter st.denominator]

/-- A status is read back from its payload. -/
theorem ofPacket_payload (magic : Magic) (st : JobStatus) (h : 0 ∉ handle) :
    ofPacket ⟨magic, .statusRes, st.payload handle⟩ = .ok st := by
  have hflag : ∀ b, 0 ∉ flag b := by decide
  have hanswers : Packet.AnswersStatus ⟨magic, .statusRes, st.payload handle⟩ handle
      (flag st.known) (flag st.running) (writeCounter st.numerator)
      (writeCounter st.denominator) :=
    ⟨rfl, by simp [h, hflag, nul_not_mem_writeCounter], rfl⟩
  have hwritten : ∀ n : UInt64, StatesCounter (writeCounter n) n.toNat := fun n =>
    (readCounter_eq_ok "").1 (readCounter_writeCounter "" n)
  exact (ofPacket_eq_ok hanswers).2
    ⟨(isSet_flag _).symm, (isSet_flag _).symm, hwritten _, hwritten _⟩

/-- Counters are read from the fields that state them and from no others; a numeral past the limit is
refused, however it is written. A status is read from an answer with all its fields, of which the last
two state counters, and it is read back from its own payload. -/
theorem counters_are_read_exactly :
    (∀ (field : String) (bs : Bytes) (n : UInt64),
      readCounter field bs = .ok n ↔ StatesCounter bs n.toNat) ∧
    (∀ (field : String) (bs : Bytes) (n : Nat), StatesCounter bs n → UInt64.size ≤ n →
      readCounter field bs = .error (.notDecimal field (Utf8.lossy bs))) ∧
    (∀ p : Packet, (∃ st, ofPacket p = .ok st) ↔
      p.kind = .statusRes ∧ 4 ≤ p.payload.count 0 ∧
        ∀ handle known running numerator denominator,
          p.AnswersStatus handle known running numerator denominator →
            (∃ n < UInt64.size, StatesCounter numerator n) ∧
              ∃ d < UInt64.size, StatesCounter denominator d) ∧
    ∀ (magic : Magic) (handle : Bytes) (st : JobStatus), 0 ∉ handle →
      ofPacket ⟨magic, .statusRes, st.payload handle⟩ = .ok st := by
  refine ⟨fun field bs n => readCounter_eq_ok field, fun field bs n => readCounter_of_size_le,
    fun p => ofPacket_isOk, fun magic handle st h => ofPacket_payload magic st h⟩

/-- The first number past the limit, and the last one before it. -/
theorem counters_are_read_exactly_limit :
    StatesCounter (Utf8.encode " +018446744073709551616") UInt64.size ∧
      readCounter "numerator" (Utf8.encode " +018446744073709551616") =
        .error (.notDecimal "numerator" " +018446744073709551616") ∧
      ofPacket ⟨.response, .statusRes, payload ⟨true, false, 18446744073709551615, 0⟩ [0x48]⟩ =
        .ok ⟨true, false, 18446744073709551615, 0⟩ := by
  have hdigits : IsDigits "018446744073709551616".toList UInt64.size :=
    ⟨by decide, by simp, rfl⟩
  have hblank : isBlank ' ' = true := rfl
  have hstates : StatesCounter (Utf8.encode " +018446744073709551616") UInt64.size :=
    @StatesCounter.numeral [' '] _ [] _ (.signed hdigits) (by simp [hblank]) (by simp)
  obtain ⟨-, hrefused, -, hread⟩ := counters_are_read_exactly
  refine ⟨hstates, ?_, hread .response [0x48] _ (by decide)⟩
  rw [hrefused "numerator" _ _ hstates (Nat.le_refl _), Utf8.lossy_encode]

end JobStatus

end Gearman
