import Gearman.Job.Basic
import Gearman.Proofs.Text.Utf8
import Gearman.Proofs.Worker.Assignments

/-!
A job reaches the worker that is to do it as the client has submitted it.
-/

namespace Gearman

namespace Packet

/-- The assignment that a server makes of a submission. It tells the unique id to workers that have
asked for it. -/
def assigning (submission : Packet) (handle : Bytes) (tellsUnique : Bool) : Except Error Packet :=
  match submission.fields 3 with
  | .ok [function, unique, data] =>
    if tellsUnique then ofFields .response .jobAssignUniq [handle, function, unique, data]
    else ofFields .response .jobAssign [handle, function, data]
  | .ok fields => .error (.missingFields submission.kind 3 fields.length)
  | .error e => .error e

end Packet

namespace Job

variable {j : Job} {handle : Bytes} {tellsUnique : Bool}

/-- What an assignment of the job tells of its unique id. -/
def toldUnique (j : Job) (tellsUnique : Bool) : Option String :=
  if tellsUnique then some j.uniqueId else none

/-- The fields of an assignment of the job. -/
def assignedFields (j : Job) (handle : Bytes) (tellsUnique : Bool) : List Bytes :=
  handle :: Text.Utf8.encode j.function ::
    ((j.toldUnique tellsUnique).map Text.Utf8.encode).toList ++ [j.data]

/-- The submission of a job carries its three components. -/
theorem toPacket_eq (hfunction : '\x00' ∉ j.function.toList) (hunique : '\x00' ∉ j.uniqueId.toList)
    (hlength : Bytes.joinedLength [Text.Utf8.encode j.function, Text.Utf8.encode j.uniqueId, j.data] <
      UInt32.size) :
    ∃ submission, j.toPacket = .ok submission ∧
      submission.kind = .submission j.priority j.background ∧
      submission.fields 3 =
        .ok [Text.Utf8.encode j.function, Text.Utf8.encode j.uniqueId, j.data] := by
  have hnul : ∀ field ∈ [Text.Utf8.encode j.function, Text.Utf8.encode j.uniqueId, j.data].dropLast,
      0 ∉ field := by
    simp [Text.Utf8.nul_not_mem_encode hfunction, Text.Utf8.nul_not_mem_encode hunique]
  rw [← Bytes.length_joinFields] at hlength
  exact ⟨_, Packet.ofFields_eq_ok.2 ⟨hlength, hnul, rfl⟩, rfl,
    Packet.fields_joinFields _ _ (by simp [Packet.maxFields]) hnul⟩

/-- The assignment that a server makes of the components of a job is one of that job. -/
theorem assigns_of_fields {submission : Packet} (hfields : submission.fields 3 =
      .ok [Text.Utf8.encode j.function, Text.Utf8.encode j.uniqueId, j.data])
    (hfunction : '\x00' ∉ j.function.toList) (hunique : '\x00' ∉ j.uniqueId.toList)
    (hhandle : 0 ∉ handle)
    (hlength : Bytes.joinedLength (j.assignedFields handle tellsUnique) < UInt32.size) :
    ∃ p, submission.assigning handle tellsUnique = .ok p ∧
      p.Assigns handle (Text.Utf8.encode j.function)
        ((j.toldUnique tellsUnique).map Text.Utf8.encode) j.data := by
  rw [← Bytes.length_joinFields] at hlength
  simp only [Packet.assigning, hfields]
  have hfunction := Text.Utf8.nul_not_mem_encode hfunction
  have hunique := Text.Utf8.nul_not_mem_encode hunique
  cases tellsUnique with
  | false =>
    refine ⟨_, Packet.ofFields_eq_ok.2 ⟨hlength, by simp [hhandle, hfunction], rfl⟩, rfl, ?_, rfl⟩
    simp [toldUnique, hhandle, hfunction]
  | true =>
    refine ⟨_, Packet.ofFields_eq_ok.2 ⟨hlength, by simp [hhandle, hfunction, hunique], rfl⟩, rfl, ?_,
      rfl⟩
    simp [toldUnique, hhandle, hfunction, hunique]

/-- The job as a worker queues it. -/
def queuedAs (j : Job) (server : Address) (handle : Bytes) (tellsUnique : Bool)
    (definition : Definition) : AssignedJob where
  server
  handle
  function := j.function
  uniqueId := j.toldUnique tellsUnique
  data := j.data
  definition

/-- Texts that went through a packet are the texts of the job. -/
theorem jobOf_eq (server : Address) (d : Definition) :
    Worker.jobOf server handle (Text.Utf8.encode j.function)
      ((j.toldUnique tellsUnique).map Text.Utf8.encode) j.data d =
        j.queuedAs server handle tellsUnique d := by
  have hid : Text.Utf8.lossy ∘ Text.Utf8.encode = id := funext Text.Utf8.lossy_encode
  simp only [Worker.jobOf, queuedAs, Text.Utf8.lossy_encode, Option.map_map, hid, Option.map_id_fun,
    id]

end Job

namespace Worker

/-- A worker that offers the function of a submitted job queues that job when the server assigns it,
with the same function, unique id and data under the handle that the server has chosen, whatever the
worker has been through and whether it has asked for the job or not. -/
theorem job_arrives_unchanged {j : Job} {handle : Bytes} {tellsUnique : Bool}
    (hfunction : '\x00' ∉ j.function.toList) (hunique : '\x00' ∉ j.uniqueId.toList)
    (hhandle : 0 ∉ handle)
    (hsubmission : Bytes.joinedLength
      [Text.Utf8.encode j.function, Text.Utf8.encode j.uniqueId, j.data] < UInt32.size)
    (hassignment : Bytes.joinedLength (j.assignedFields handle tellsUnique) < UInt32.size) :
    ∃ submission p, j.toPacket = .ok submission ∧
      submission.kind = .submission j.priority j.background ∧
      submission.assigning handle tellsUnique = .ok p ∧
      ∀ (server : Address) (w : Worker) (d : Definition), w.registry.get? j.function = some d →
        w.assign server p =
          { w with queue := w.queue ++ [j.queuedAs server handle tellsUnique d] } ∧
        ∀ (settings : WorkerSettings) (event : Session.Event) (w₁ : Worker), Reached settings w →
          w.receive server = (some event, w₁) → event.packet = p →
          Queued (j.queuedAs server handle tellsUnique d) w (w₁.dispatch server event).2 := by
  obtain ⟨submission, hpacket, hkind, hfields⟩ := Job.toPacket_eq hfunction hunique hsubmission
  obtain ⟨p, hassigning, hassigns⟩ :=
    Job.assigns_of_fields hfields hfunction hunique hhandle hassignment
  refine ⟨submission, p, hpacket, hkind, hassigning, fun server w d hd => ?_⟩
  rw [← Text.Utf8.lossy_encode j.function] at hd
  rw [← Job.jobOf_eq]
  exact ⟨assign_of_offered hassigns hd, fun settings event w₁ hreached hreceive hevent =>
    hreached.sound.queued hreceive (hevent ▸ hassigns) hd⟩

/-- A function name outside of ASCII, an empty unique id, and data that begin and end with a zero
byte. -/
theorem job_arrives_unchanged_empty_id : ∃ submission p,
    Job.toPacket ⟨"größe", "", [0, 1, 0], .high, true⟩ = .ok submission ∧
    submission.kind = .submission .high true ∧
    submission.assigning [0x48] true = .ok p ∧
    ∀ server, ((((withSettings { workerId := "" }).register
      (.ofFunction "größe" none fun c => ⟨[], .returned (.success c.data)⟩)).2).assign server p).queue.map
        (fun j => (j.server, j.handle, j.function, j.uniqueId, j.data)) =
        [(server, [0x48], "größe", some "", [0, 1, 0])] := by
  obtain ⟨submission, p, hpacket, hkind, hassigning, hqueued⟩ :=
    @job_arrives_unchanged ⟨"größe", "", [0, 1, 0], .high, true⟩ [0x48] true (by decide)
      (by decide) (by decide) (by decide) (by decide)
  refine ⟨submission, p, hpacket, hkind, hassigning, fun server => ?_⟩
  rw [(hqueued server _ _ rfl).1]
  rfl

end Worker

end Gearman
