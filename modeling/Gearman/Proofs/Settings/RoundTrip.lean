import Gearman.Proofs.Json.Documents
import Gearman.Settings.Document

/-!
Settings are loaded from the documents that were written of them.

Spans of time are written in whole milliseconds, so all that is lost is what a span has beyond these.
-/

namespace Gearman

open Json (Member Spells)

theorem Json.natural?_number {n bound : Nat} (h : n < bound) :
    (Json.number (some n)).natural? bound = some n := by
  rw [natural?, if_pos h]

namespace Duration

variable {d : Duration}

/-- The span without the part of a millisecond at its end. -/
def floorMillis (d : Duration) : Duration where
  seconds := d.seconds
  nanos := d.nanos / 1000000 * 1000000
  nanos_lt := by
    have := d.nanos_lt
    omega

theorem floorMillis_eq (h : d.nanos % 1000000 = 0) : d.floorMillis = d := by
  have hnanos : d.nanos / 1000000 * 1000000 = d.nanos := by omega
  simp only [floorMillis, hnanos]

theorem ofMillis_toMillis (h : d.toMillis < UInt64.size) :
    ofMillis d.toMillis.toUInt64 = d.floorMillis := by
  have hword : d.toMillis.toUInt64.toNat = d.toMillis := by
    rw [Nat.toUInt64_eq, UInt64.toNat_ofNat_of_lt' h]
  have hmillis : d.toMillis = d.seconds.toNat * 1000 + d.nanos / 1000000 := by
    simp only [toMillis, toNanos]
    omega
  have hnanos := d.nanos_lt
  have hseconds : d.toMillis.toUInt64 / 1000 = d.seconds := by
    rw [← UInt64.toNat_inj, UInt64.toNat_div, hword]
    simp only [hmillis, UInt64.reduceToNat]
    omega
  simp only [ofMillis, floorMillis, hseconds, hword, mk.injEq, true_and]
  omega

def document (d : Duration) : Json := .number (some (d.toMillis % UInt64.size))

theorem spells_write (d : Duration) : Spells d.write d.document :=
  Json.spells_writeNat (Nat.mod_lt _ (by decide))

theorem ofJson?_document (h : d.toMillis < UInt64.size) : ofJson? d.document = some d.floorMillis := by
  have hnatural : d.document.natural? UInt64.size = some d.toMillis := by
    rw [document, Nat.mod_eq_of_lt h, Json.natural?_number h]
  rw [ofJson?, hnatural, Option.map_some, ofMillis_toMillis h]

end Duration

namespace ConnectionSettings

variable {s : ConnectionSettings}

/-- The settings with the span of time in them rounded down to whole milliseconds. -/
def floorMillis (s : ConnectionSettings) : ConnectionSettings :=
  { s with connectTimeout := s.connectTimeout.floorMillis }

def members (s : ConnectionSettings) : List Member :=
  [⟨"read_chunk_size", Json.writeNat s.readChunkSize.toNat, .number (some s.readChunkSize.toNat)⟩,
   ⟨"initial_buffer_capacity", Json.writeNat s.initialBufferCapacity.toNat,
    .number (some s.initialBufferCapacity.toNat)⟩,
   ⟨"max_payload_size", Json.writeNat s.maxPayloadSize.toNat, .number (some s.maxPayloadSize.toNat)⟩,
   ⟨"connect_timeout_ms", s.connectTimeout.write, s.connectTimeout.document⟩]

def document (s : ConnectionSettings) : Json := .object (s.members.map Member.entry)

theorem spells_write (s : ConnectionSettings) : Spells s.write s.document := by
  have hsize : s.maxPayloadSize.toNat < UInt64.size :=
    Nat.lt_trans s.maxPayloadSize.toNat_lt_size (by decide)
  refine Json.spells_writeObject s.members ?_
  simp only [members, List.mem_cons, List.not_mem_nil, or_false, forall_eq_or_imp, forall_eq]
  exact ⟨Json.spells_writeNat s.readChunkSize.toNat_lt_size,
    Json.spells_writeNat s.initialBufferCapacity.toNat_lt_size, Json.spells_writeNat hsize,
    s.connectTimeout.spells_write⟩

theorem word64?_number (n : UInt64) : ofJson?.word64? (.number (some n.toNat)) = some n := by
  rw [ofJson?.word64?, Json.natural?_number n.toNat_lt_size, Option.map_some, Nat.toUInt64_eq,
    UInt64.ofNat_toNat]

theorem word32?_number (n : UInt32) : ofJson?.word32? (.number (some n.toNat)) = some n := by
  rw [ofJson?.word32?, Json.natural?_number n.toNat_lt_size, Option.map_some, Nat.toUInt32_eq,
    UInt32.ofNat_toNat]

theorem ofJson?_document (h : s.connectTimeout.toMillis < UInt64.size) :
    ofJson? s.document = some s.floorMillis := by
  have hfields : s.document.fields? fieldNames =
      some (s.members.map fun m => some m.document) := rfl
  simp [ofJson?, hfields, members, Json.orElse, word64?_number, word32?_number,
    Duration.ofJson?_document h, floorMillis]

end ConnectionSettings

namespace ClientSettings

variable {s : ClientSettings}

/-- The spans of time in the settings. -/
def durations (s : ClientSettings) : List Duration :=
  [s.connection.connectTimeout, s.submitTimeout, s.requestTimeout]

theorem forall_durations {P : Duration → Prop} : (∀ d ∈ s.durations, P d) ↔
    P s.connection.connectTimeout ∧ P s.submitTimeout ∧ P s.requestTimeout := by
  simp [durations]

/-- The settings with every span of time rounded down to whole milliseconds. -/
def floorMillis (s : ClientSettings) : ClientSettings where
  connection := s.connection.floorMillis
  submitTimeout := s.submitTimeout.floorMillis
  requestTimeout := s.requestTimeout.floorMillis

theorem floorMillis_eq (h : ∀ d ∈ s.durations, d.nanos % 1000000 = 0) : s.floorMillis = s := by
  obtain ⟨hconnect, hsubmit, hrequest⟩ := forall_durations.1 h
  simp only [floorMillis, ConnectionSettings.floorMillis, Duration.floorMillis_eq hconnect,
    Duration.floorMillis_eq hsubmit, Duration.floorMillis_eq hrequest]

def members (s : ClientSettings) : List Member :=
  [⟨"connection", s.connection.write, s.connection.document⟩,
   ⟨"submit_timeout_ms", s.submitTimeout.write, s.submitTimeout.document⟩,
   ⟨"request_timeout_ms", s.requestTimeout.write, s.requestTimeout.document⟩]

def document (s : ClientSettings) : Json := .object (s.members.map Member.entry)

theorem spells_write (s : ClientSettings) : Spells s.write s.document := by
  refine Json.spells_writeObject s.members ?_
  simp only [members, List.mem_cons, List.not_mem_nil, or_false, forall_eq_or_imp, forall_eq]
  exact ⟨s.connection.spells_write, s.submitTimeout.spells_write, s.requestTimeout.spells_write⟩

theorem ofJson?_document (h : ∀ d ∈ s.durations, d.toMillis < UInt64.size) :
    ofJson? s.document = some s.floorMillis := by
  obtain ⟨hconnect, hsubmit, hrequest⟩ := forall_durations.1 h
  have hfields : s.document.fields? fieldNames =
      some (s.members.map fun m => some m.document) := rfl
  simp [ofJson?, hfields, members, Json.orElse, ConnectionSettings.ofJson?_document hconnect,
    Duration.ofJson?_document hsubmit, Duration.ofJson?_document hrequest, floorMillis]

end ClientSettings

namespace WorkerSettings

variable {s : WorkerSettings}

/-- The spans of time in the settings. -/
def durations (s : WorkerSettings) : List Duration := [s.connection.connectTimeout, s.pollInterval]

theorem forall_durations {P : Duration → Prop} :
    (∀ d ∈ s.durations, P d) ↔ P s.connection.connectTimeout ∧ P s.pollInterval := by
  simp [durations]

/-- The settings with every span of time rounded down to whole milliseconds. -/
def floorMillis (s : WorkerSettings) : WorkerSettings where
  connection := s.connection.floorMillis
  workerId := s.workerId
  pollInterval := s.pollInterval.floorMillis

theorem floorMillis_eq (h : ∀ d ∈ s.durations, d.nanos % 1000000 = 0) : s.floorMillis = s := by
  obtain ⟨hconnect, hpoll⟩ := forall_durations.1 h
  simp only [floorMillis, ConnectionSettings.floorMillis, Duration.floorMillis_eq hconnect,
    Duration.floorMillis_eq hpoll]

def members (s : WorkerSettings) : List Member :=
  [⟨"connection", s.connection.write, s.connection.document⟩,
   ⟨"worker_id", Json.writeString s.workerId, .string (some s.workerId)⟩,
   ⟨"poll_interval_ms", s.pollInterval.write, s.pollInterval.document⟩]

def document (s : WorkerSettings) : Json := .object (s.members.map Member.entry)

theorem spells_write (s : WorkerSettings) : Spells s.write s.document := by
  refine Json.spells_writeObject s.members ?_
  simp only [members, List.mem_cons, List.not_mem_nil, or_false, forall_eq_or_imp, forall_eq]
  exact ⟨s.connection.spells_write, Json.spells_writeString _, s.pollInterval.spells_write⟩

theorem ofJson?_document (usual : WorkerSettings) (h : ∀ d ∈ s.durations, d.toMillis < UInt64.size) :
    ofJson? usual s.document = some s.floorMillis := by
  obtain ⟨hconnect, hpoll⟩ := forall_durations.1 h
  have hfields : s.document.fields? fieldNames =
      some (s.members.map fun m => some m.document) := rfl
  simp [ofJson?, hfields, members, Json.orElse, Json.text?,
    ConnectionSettings.ofJson?_document hconnect, Duration.ofJson?_document hpoll, floorMillis]

end WorkerSettings

namespace Json

variable {text : List Char} {document : Json}

/-- What is loaded from a written document is what is read from the document. -/
theorem load_of_spells {α : Type} {ofJson? : Json → Option α} {a : α} (h : Spells text document)
    (ha : ofJson? document = some a) : load ofJson? (String.ofList text) = .ok a := by
  simp only [load, parse_of_spells h, Option.bind_some, ha]

/-- Settings whose spans of time are below 2^64 milliseconds are loaded from their document with these
spans rounded down to whole milliseconds. So they are the same if the spans were whole milliseconds. What
worker it is that loads the settings makes no difference, since the document names the worker. -/
theorem settings_survive_document :
    (∀ s : ClientSettings, (∀ d ∈ s.durations, d.toMillis < UInt64.size) →
      ClientSettings.fromJson s.toJson = .ok s.floorMillis ∧
        ((∀ d ∈ s.durations, d.nanos % 1000000 = 0) → ClientSettings.fromJson s.toJson = .ok s)) ∧
    ∀ (process : Nat) (s : WorkerSettings), (∀ d ∈ s.durations, d.toMillis < UInt64.size) →
      WorkerSettings.fromJson process s.toJson = .ok s.floorMillis ∧
        ((∀ d ∈ s.durations, d.nanos % 1000000 = 0) →
          WorkerSettings.fromJson process s.toJson = .ok s) := by
  constructor
  · intro s hfits
    have hload := load_of_spells s.spells_write (ClientSettings.ofJson?_document hfits)
    refine ⟨hload, fun hwhole => ?_⟩
    rw [ClientSettings.floorMillis_eq hwhole] at hload
    exact hload
  · intro process s hfits
    have hload := load_of_spells s.spells_write
      (WorkerSettings.ofJson?_document (.ofProcess process) hfits)
    refine ⟨hload, fun hwhole => ?_⟩
    rw [WorkerSettings.floorMillis_eq hwhole] at hload
    exact hload

/-- The longest wait that can be written, with a fraction of a millisecond, and a name that needs escapes
of every kind. -/
theorem settings_survive_document_longest :
    let client : ClientSettings := { submitTimeout := ⟨18446744073709551, 615999999, by decide⟩ }
    let worker : WorkerSettings := { workerId := "\"w\\\x01\n\u00e9\"" }
    (∀ d ∈ client.durations, d.toMillis < UInt64.size) ∧
      ClientSettings.fromJson client.toJson =
        .ok { submitTimeout := ⟨18446744073709551, 615000000, by decide⟩ } ∧
      (∀ d ∈ worker.durations, d.toMillis < UInt64.size ∧ d.nanos % 1000000 = 0) ∧
      WorkerSettings.fromJson 7 worker.toJson = .ok worker := by
  intro client worker
  obtain ⟨hclient, hworker⟩ := settings_survive_document
  have hshort : ∀ d ∈ client.durations, d.toMillis < UInt64.size := by decide
  have hwhole : ∀ d ∈ worker.durations, d.toMillis < UInt64.size ∧ d.nanos % 1000000 = 0 := by decide
  have hfloor : client.floorMillis =
      { submitTimeout := ⟨18446744073709551, 615000000, by decide⟩ } := by decide +kernel
  exact ⟨hshort, hfloor ▸ (hclient client hshort).1, hwhole,
    (hworker 7 worker fun d hd => (hwhole d hd).1).2 fun d hd => (hwhole d hd).2⟩

end Json

end Gearman
