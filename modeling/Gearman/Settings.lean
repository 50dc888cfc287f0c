import Gearman.Address
import Gearman.Duration
import Gearman.Packet.Header

/-!
Settings of connections, clients and workers.
-/

namespace Gearman

/-- The settings of a connection. -/
structure ConnectionSettings where
  /-- The most bytes that one read takes. -/
  readChunkSize : UInt64 := 8192
  /-- The room set aside for buffered bytes. -/
  initialBufferCapacity : UInt64 := 8192
  /-- The longest payload that is sent or accepted. -/
  maxPayloadSize : UInt32 := Header.defaultMaxPayload
  connectTimeout : Duration := .ofMillis 5000
deriving DecidableEq, Repr

/-- The settings of a client. -/
structure ClientSettings where
  connection : ConnectionSettings := {}
  /-- How long a submission waits for the handle of its job. -/
  submitTimeout : Duration := .ofMillis 2000
  /-- How long any other request waits for its reply. -/
  requestTimeout : Duration := .ofMillis 2000
deriving DecidableEq, Repr

/-- The settings of a worker. -/
structure WorkerSettings where
  connection : ConnectionSettings := {}
  /-- The name under which job servers list the worker. -/
  workerId : String
  /-- How long an idle worker waits before it looks at its connections again. -/
  pollInterval : Duration := .ofMillis 10
deriving DecidableEq, Repr

namespace ConnectionSettings

instance : Inhabited ConnectionSettings where
  default := {}

/-- Sets the most bytes that one read takes; a read takes at least one. -/
def withReadChunkSize (s : ConnectionSettings) (size : UInt64) : ConnectionSettings :=
  { s with readChunkSize := max size 1 }

/-- The bytes that one read takes if they are there. A size of zero counts as one. -/
def readChunk (s : ConnectionSettings) : Nat := max s.readChunkSize.toNat 1

theorem readChunk_pos (s : ConnectionSettings) : 0 < s.readChunk := by
  simp only [readChunk]
  omega

end ConnectionSettings

namespace ClientSettings

instance : Inhabited ClientSettings where
  default := {}

end ClientSettings

namespace WorkerSettings

/-- The settings of a worker that is known by its process. -/
def ofProcess (process : Nat) : WorkerSettings where
  workerId := "gearman-worker-" ++ toString process

end WorkerSettings

end Gearman
