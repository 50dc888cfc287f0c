import Gearman.Proofs.Session.Sending
import Gearman.Proofs.Task.Lifecycle
import Gearman.Task.Script

/-!
What becomes of a task that is submitted to a live session.

The request is written before the task is told. So a task that can make nothing of that, since it has
failed or was answered before, has its request sent all the same, and no answer to it is awaited.
-/

namespace Gearman

namespace Task

variable {η : Type} {t : Task η}

/-- Whether the session can tell from the task, once the request was sent, if an answer is to come. -/
def isSubmittable (t : Task η) : Bool :=
  match t.state with
  | .fresh | .submitted => true
  | .finished => !t.request.kind.isAnswered
  | .running | .failed => false

variable [Responder η]

/-- Only a task whose request is answered listens for responses. -/
theorem isAnswered_deliver (h : t.state.isListening = true → t.request.kind.isAnswered = true)
    (p : Packet) : (t.deliver p).2.request = t.request ∧
      ((t.deliver p).2.state.isListening = true → t.request.kind.isAnswered = true) := by
  unfold deliver
  cases hstate : t.state with
  | fresh =>
    cases p.isRequest <;> cases hanswered : t.request.kind.isAnswered <;>
      simp [sentState, hanswered, hstate, TaskState.isListening]
  | submitted | running =>
    have hanswered : t.request.kind.isAnswered = true := h (by simp [hstate, TaskState.isListening])
    cases p.isResponse with
    | false => simp [hanswered]
    | true => exact ⟨(t.respond_eq p).1, fun _ => hanswered⟩
  | finished | failed => simp [hstate, TaskState.isListening]

theorem isAnswered_deliverAll (h : t.state.isListening = true → t.request.kind.isAnswered = true)
    (ps : List Packet) : (t.deliverAll ps).request = t.request ∧
      ((t.deliverAll ps).state.isListening = true → t.request.kind.isAnswered = true) := by
  induction ps generalizing t with
  | nil => exact ⟨rfl, h⟩
  | cons p rest ih =>
    obtain ⟨hrequest, hnext⟩ := isAnswered_deliver h p
    have hrest := ih (t := (t.deliver p).2) (by rwa [hrequest])
    rwa [hrequest] at hrest

end Task

/-- Whether a packet that is to be sent goes out. -/
structure Connection.Takes (c : Connection) (p : Packet) : Prop where
  fits : p.payload.length ≤ c.maxPayload.toNat
  writable : c.isWritable = true

namespace Session

variable {η : Type} [Responder η] {s : Session} {c : Connection} {t : Task η}

/-- How a session with connection `c` comes out of the submission of `t`, and how the task does. -/
inductive Submission (s : Session) (c : Connection) (t : Task η) :
    Except Error Unit × Session × Task η → Prop
  | tooLong (hlong : c.maxPayload.toNat < t.request.payload.length) :
    Submission s c t (.error (.payloadTooLarge t.request.payload.length c.maxPayload), s, t)
  | broken {e : Error} {s' : Session} (hbroken : c.isWritable = false) (hfault : e.isBreak = true)
    (hclosed : s'.isClosed = true) (hsent : s'.sent = s.sent) : Submission s c t (.error e, s', t)
  | submitted {s' : Session} (htakes : c.Takes t.request) (hstate : t.isSubmittable = true)
    (hlive : s'.isLive = true) (houtgoing : s'.outgoing = s.outgoing ++ [t.request])
    (hawaiting : s'.awaiting = s.awaiting ++ awaitedOf t) :
    Submission s c t (.ok (), s', t.afterSending)
  /-- The server is to answer, but no answer is awaited. -/
  | unawaited {s' : Session} (htakes : c.Takes t.request)
    (hstate : t.state = .running ∨ t.state = .finished)
    (hanswered : t.request.kind.isAnswered = true) (hlive : s'.isLive = true)
    (houtgoing : s'.outgoing = s.outgoing ++ [t.request]) (hawaiting : s'.awaiting = s.awaiting) :
    Submission s c t (.ok (), s', t)
  | failed {s' : Session} (htakes : c.Takes t.request) (hstate : t.state = .failed)
    (hlive : s'.isLive = true) (houtgoing : s'.outgoing = s.outgoing ++ [t.request])
    (hawaiting : s'.awaiting = s.awaiting) :
    Submission s c t (.error (.alreadyFailed t.name t.request.summary), s', t)

/-- Nothing has happened unless the stream broke, or the request was sent and its answer is awaited if and
only if there is to be one. -/
def AllOrNothing (s : Session) (t : Task η) : Except Error Unit × Session × Task η → Prop
  | (.error e, s', t') => t' = t ∧ (s'.outgoing = s.outgoing ∧ s'.awaiting = s.awaiting ∨
      s'.isClosed = true ∧ e.isBreak = true)
  | (.ok (), s', _) => s'.outgoing = s.outgoing ++ [t.request] ∧ s'.awaiting = s.awaiting ++ awaitedOf t

theorem submission_submit (hlive : s.connection? = some c)
    (hanswered : t.state.isListening = true → t.request.kind.isAnswered = true) :
    Submission s c t (s.submit t) := by
  have hsending := sending_send hlive t.request
  rw [submit_eq]
  generalize s.send t.request = r at hsending ⊢
  rcases hsending with hlong | @⟨c', hfits, hwritable, houtgoing⟩ | ⟨hfits, hbroken, hfault, hclosed, hsent⟩
  · exact .tooLong hlong
  · have hgrown : c'.outgoing = s.outgoing ++ [t.request] := by
      rw [houtgoing, outgoing, hlive, Option.elim_some]
    have htakes : c.Takes t.request := ⟨hfits, hwritable⟩
    have hsubmitted : t.isSubmittable = true → Submission s c t
        (.ok (), { s with phase := .live c' (s.awaiting ++ awaitedOf t) }, t.afterSending) :=
      fun hstate => .submitted htakes hstate rfl hgrown rfl
    have hunawaited : t.state = .running ∨ t.state = .finished → t.request.kind.isAnswered = true →
        Submission s c t (.ok (), { s with phase := .live c' s.awaiting }, t) :=
      fun hstate hkind => .unawaited htakes hstate hkind rfl hgrown rfl
    have hsame : t.state ≠ .fresh → t.afterSending = t := fun hstale => if_neg hstale
    -- The request is out. What becomes of the queue and the task is up to the state of the task.
    cases hstate : t.state with
    | fresh =>
      have hall := hsubmitted (by simp [Task.isSubmittable, hstate])
      cases hkind : t.request.kind.isAnswered <;>
        simpa [Task.afterSending, hstate, Task.sentState, hkind, await, awaitedOf] using hall
    | submitted =>
      have hkind := hanswered (by simp [hstate, TaskState.isListening])
      simpa [hsame, hstate, hkind, await, awaitedOf] using
        hsubmitted (by simp [Task.isSubmittable, hstate])
    | running =>
      have hkind := hanswered (by simp [hstate, TaskState.isListening])
      simpa [hsame, hstate] using hunawaited (.inl hstate) hkind
    | finished =>
      cases hkind : t.request.kind.isAnswered with
      | true =>
        simpa [hsame, hstate] using hunawaited (.inr hstate) hkind
      | false =>
        simpa [hsame, hstate, hkind, awaitedOf] using
          hsubmitted (by simp [Task.isSubmittable, hstate, hkind])
    | failed =>
      have hfailed : Submission s c t (.error (.alreadyFailed t.name t.request.summary),
          { s with phase := .live c' s.awaiting }, t) := .failed htakes hstate rfl hgrown rfl
      simpa [hsame, hstate] using hfailed
  · exact .broken hbroken hfault hclosed hsent

omit [Responder η] in
/-- All of a submission happens or nothing does, but for a task that cannot be submitted and whose request
goes out. -/
theorem Submission.allOrNothing_iff {r : Except Error Unit × Session × Task η}
    (h : Submission s c t r) : AllOrNothing s t r ↔ (c.Takes t.request → t.isSubmittable = true) := by
  cases h with
  | tooLong hlong =>
    exact iff_of_true ⟨rfl, .inl ⟨rfl, rfl⟩⟩ fun htakes => absurd htakes.fits (Nat.not_le_of_lt hlong)
  | broken hbroken hfault hclosed hsent =>
    refine iff_of_true ⟨rfl, .inr ⟨hclosed, hfault⟩⟩ fun htakes => ?_
    rw [htakes.writable] at hbroken
    contradiction
  | submitted htakes hstate hlive houtgoing hawaiting =>
    exact iff_of_true ⟨houtgoing, hawaiting⟩ fun _ => hstate
  | unawaited htakes hstate hanswered hlive houtgoing hawaiting =>
    refine iff_of_false ?_ fun hsubmittable => ?_
    · rintro ⟨-, hmore⟩
      rw [hawaiting] at hmore
      simp [awaitedOf, hanswered] at hmore
    · have := hsubmittable htakes
      rcases hstate with hstate | hstate <;> simp [Task.isSubmittable, hstate, hanswered] at this
  | failed htakes hstate hlive houtgoing hawaiting =>
    refine iff_of_false ?_ fun hsubmittable => ?_
    · rintro ⟨-, ⟨hsame, -⟩ | ⟨hclosed, -⟩⟩
      · simp [hsame] at houtgoing
      · rw [(of_isClosed hclosed).1] at hlive
        contradiction
    · have := hsubmittable htakes
      simp [Task.isSubmittable, hstate] at this

/-- The submission of a task in any state to a live session. A packet that is too long changes nothing, and
a broken stream ends the session; otherwise the request goes out, and it is awaited if the task is fresh or
was submitted before and is answered. A task that is running, or finished with an answer, is sent again
without being awaited, and a task that has failed is sent again although it answers with an error. So all
of a submission happens or nothing does, unless such a task's request goes out. -/
theorem submission_of_any_task {id : TaskId} {request : Packet} {responder : Option η} {t₀ : Task η}
    (hlive : s.connection? = some c) (hnew : Task.new id request responder = .ok t₀) (ps : List Packet) :
    Submission s c (t₀.deliverAll ps) (s.submit (t₀.deliverAll ps)) ∧
      (AllOrNothing s (t₀.deliverAll ps) (s.submit (t₀.deliverAll ps)) ↔
        (c.Takes (t₀.deliverAll ps).request → (t₀.deliverAll ps).isSubmittable = true)) := by
  have hfresh : t₀.state = .fresh := by
    unfold Task.new at hnew
    split at hnew
    · cases hnew
      rfl
    · contradiction
  have hanswered := Task.isAnswered_deliverAll (t := t₀) (by simp [hfresh, TaskState.isListening]) ps
  rw [← hanswered.1] at hanswered
  have hsubmission := submission_submit hlive hanswered.2
  exact ⟨hsubmission, hsubmission.allOrNothing_iff⟩

/-- A session that was just opened. -/
def opened : Session := (({ address := .default, settings := {} } : Session).init true).2

/-- An echo request that takes no reply for an answer. -/
def grumbling : Task Script :=
  { id := 0, request := .request .echoReq [0x61], responder := some ⟨[.refuse "x"], 0⟩,
    isRequest_request := rfl }

theorem submission_of_any_task_fresh : ∃ c, opened.connection? = some c ∧
    Task.new 0 (.request .echoReq [0x61]) (some ⟨[.refuse "x"], 0⟩) = .ok grumbling ∧
    AllOrNothing opened grumbling (opened.submit grumbling) := by
  have hlive : opened.connection? = some (Connection.fresh .default {}) := rfl
  have hnew : Task.new 0 (.request .echoReq [0x61]) (some ⟨[.refuse "x"], 0⟩) = .ok grumbling := rfl
  exact ⟨_, hlive, hnew, (submission_of_any_task hlive hnew []).2.2 fun _ => rfl⟩

/-- What the server answers. -/
def echoed : Arrival := ⟨.default, (Packet.response .echoRes [0x61]).encode, .none⟩

/-- The session and the task once the server has answered it. -/
def refused : Session × Task Script :=
  let submitted := (opened.submit grumbling).2
  ((submitted.1.deliver echoed).1.step.2, (submitted.2.deliver (.response .echoRes [0x61])).2)

/-- Another echo request. -/
def following : Task Script :=
  { id := 1, request := .request .echoReq [0x62], responder := none, isRequest_request := rfl }

/-- A task that has failed is submitted again: that is an error, and yet its request goes out, and the
answer to it is not awaited. It is taken for the answer to the next task. -/
theorem failed_task_is_sent_again :
    let again := refused.1.submit refused.2
    refused.1.outgoing = [grumbling.request] ∧ refused.2.state = .failed ∧
      again.1 = .error (.alreadyFailed refused.2.name refused.2.request.summary) ∧
      again.2.1.outgoing = [grumbling.request, grumbling.request] ∧ again.2.1.awaiting = [] ∧
      ¬ AllOrNothing refused.1 refused.2 again ∧
      ((again.2.1.submit following).2.1.deliver echoed).1.step.1 =
        .ok (some (.reply 1 (.response .echoRes [0x61]))) := by
  intro again
  have hfirst : refused.1.outgoing = [grumbling.request] := by decide +kernel
  have herror : again.1 = .error (.alreadyFailed refused.2.name refused.2.request.summary) := rfl
  have hagain : again.2.1.outgoing = [grumbling.request, grumbling.request] := by decide +kernel
  have hlive : again.2.1.isClosed = false := by decide +kernel
  refine ⟨hfirst, rfl, herror, hagain, by decide +kernel, ?_, rfl⟩
  generalize again = r at herror hagain hlive ⊢
  obtain ⟨answer, s', t'⟩ := r
  cases herror
  rintro ⟨-, ⟨hsame, -⟩ | ⟨hclosed, -⟩⟩
  · rw [hfirst, hagain] at hsame
    contradiction
  · rw [hlive] at hclosed
    contradiction

end Session

end Gearman
