import Gearman.Json.Reader
import Gearman.Json.Writer
import Gearman.Settings

/-!
Settings, addresses and priorities as JSON documents. A settings document may leave out any field,
which then has its usual value; spans of time are whole milliseconds.
-/

namespace Gearman

namespace Duration

/-- The milliseconds of a span as a document holds them, in 64 bits. -/
def write (d : Duration) : List Char := Json.writeNat (d.toMillis % UInt64.size)

def ofJson? (document : Json) : Option Duration :=
  (document.natural? UInt64.size).map fun ms => .ofMillis ms.toUInt64

end Duration

namespace ConnectionSettings

def fieldNames : List String :=
  ["read_chunk_size", "initial_buffer_capacity", "max_payload_size", "connect_timeout_ms"]

def write (s : ConnectionSettings) : List Char :=
  Json.writeObject
    [("read_chunk_size", Json.writeNat s.readChunkSize.toNat),
     ("initial_buffer_capacity", Json.writeNat s.initialBufferCapacity.toNat),
     ("max_payload_size", Json.writeNat s.maxPayloadSize.toNat),
     ("connect_timeout_ms", s.connectTimeout.write)]

def ofJson? (document : Json) : Option ConnectionSettings := do
  let usual : ConnectionSettings := {}
  match ← document.fields? fieldNames with
  | [chunk, capacity, payload, timeout] =>
    return {
      readChunkSize := ← Json.orElse usual.readChunkSize (word64? ·) chunk
      initialBufferCapacity := ← Json.orElse usual.initialBufferCapacity (word64? ·) capacity
      maxPayloadSize := ← Json.orElse usual.maxPayloadSize (word32? ·) payload
      connectTimeout := ← Json.orElse usual.connectTimeout Duration.ofJson? timeout }
  | _ => none
where
  word64? (document : Json) : Option UInt64 := (document.natural? UInt64.size).map (·.toUInt64)
  word32? (document : Json) : Option UInt32 := (document.natural? UInt32.size).map (·.toUInt32)

end ConnectionSettings

namespace ClientSettings

def fieldNames : List String := ["connection", "submit_timeout_ms", "request_timeout_ms"]

def write (s : ClientSettings) : List Char :=
  Json.writeObject
    [("connection", s.connection.write),
     ("submit_timeout_ms", s.submitTimeout.write),
     ("request_timeout_ms", s.requestTimeout.write)]

def ofJson? (document : Json) : Option ClientSettings := do
  let usual : ClientSettings := {}
  match ← document.fields? fieldNames with
  | [connection, submit, request] =>
    return {
      connection := ← Json.orElse usual.connection ConnectionSettings.ofJson? connection
      submitTimeout := ← Json.orElse usual.submitTimeout Duration.ofJson? submit
      requestTimeout := ← Json.orElse usual.requestTimeout Duration.ofJson? request }
  | _ => none

end ClientSettings

namespace WorkerSettings

def fieldNames : List String := ["connection", "worker_id", "poll_interval_ms"]

def write (s : WorkerSettings) : List Char :=
  Json.writeObject
    [("connection", s.connection.write),
     ("worker_id", Json.writeString s.workerId),
     ("poll_interval_ms", s.pollInterval.write)]

/-- Reads the settings of a worker; what the document leaves out is as in `usual`. -/
def ofJson? (usual : WorkerSettings) (document : Json) : Option WorkerSettings := do
  match ← document.fields? fieldNames with
  | [connection, workerId, interval] =>
    return {
      connection := ← Json.orElse usual.connection ConnectionSettings.ofJson? connection
      workerId := ← Json.orElse usual.workerId Json.text? workerId
      pollInterval := ← Json.orElse usual.pollInterval Duration.ofJson? interval }
  | _ => none

end WorkerSettings

namespace Json

/-- Reads a document with `ofJson?`; a text that is no such document is a fault of the settings. -/
def load {α : Type} (ofJson? : Json → Option α) (s : String) : Except Error α :=
  match (parse s).bind ofJson? with
  | some a => .ok a
  | none => .error .settings

end Json

namespace ConnectionSettings

def toJson (s : ConnectionSettings) : String := String.ofList s.write

def fromJson (s : String) : Except Error ConnectionSettings := Json.load ofJson? s

end ConnectionSettings

namespace ClientSettings

def toJson (s : ClientSettings) : String := String.ofList s.write

def fromJson (s : String) : Except Error ClientSettings := Json.load ofJson? s

end ClientSettings

namespace WorkerSettings

def toJson (s : WorkerSettings) : String := String.ofList s.write

/-- Reads the settings of a worker that is known by its process unless the text names it. -/
def fromJson (process : Nat) (s : String) : Except Error WorkerSettings :=
  Json.load (ofJson? (ofProcess process)) s

end WorkerSettings

namespace Address

/-- An address as a document names both its fields. -/
def toJson (a : Address) : String :=
  String.ofList (Json.writeObject
    [("host", Json.writeString a.host), ("port", Json.writeNat a.port.toNat)])

def ofJson? (document : Json) : Option Address := do
  match ← document.fields? ["host", "port"] with
  | [some host, some port] =>
    return ⟨← host.text?, (← port.natural? UInt16.size).toUInt16⟩
  | _ => none

def fromJson (s : String) : Except Error Address := Json.load ofJson? s

end Address

namespace Priority

def toJson (p : Priority) : String := String.ofList (Json.writeString p.name)

def ofName? (name : String) : Option Priority := all.find? (·.name = name)

/-- A priority is written as its name, or as an object with its name as the only key and no value. -/
def ofJson? : Json → Option Priority
  | .string (some name) => ofName? name
  | .object [(some name, .null)] => ofName? name
  | _ => none

def fromJson (s : String) : Except Error Priority := Json.load ofJson? s

end Priority

end Gearman
