import Gearman.Task

/-!
The life of a task: which states it goes through, what brings it from one to the next, and which packets
its responder is asked about.
-/

namespace Gearman

/-- A responder and the packets that it was asked about, oldest first. -/
structure Recorder (η : Type) where
  responder : η
  heard : List Packet := []

instance {η : Type} [Responder η] : Responder (Recorder η) where
  respond r p :=
    ((Responder.respond r.responder p).1, ⟨(Responder.respond r.responder p).2, r.heard ++ [p]⟩)

/-- Whether a task in this state hands responses to its responder. -/
def TaskState.isListening : TaskState → Bool
  | .submitted | .running => true
  | _ => false

/-- Whether a task in this state is over. -/
def TaskState.isOver : TaskState → Bool
  | .finished | .failed => true
  | _ => false

namespace Task

variable {η θ : Type}

/-- The task with what `f` makes of its responder. -/
def mapResponder (f : η → θ) (t : Task η) : Task θ where
  id := t.id
  request := t.request
  responder := t.responder.map f
  state := t.state
  isRequest_request := t.isRequest_request

/-- The packets that a recorded responder was asked about. -/
def heard (t : Task (Recorder η)) : List Packet := t.responder.elim [] (·.heard)

variable [Responder η] [Responder θ]

/-- One turn of a delivery. A response to a submitted task makes it running and is looked at again; every
other turn ends the delivery with an answer. -/
def turn (t : Task η) (p : Packet) : Option (Except Error TaskState) × Task η :=
  match t.state with
  | .fresh =>
    if p.isRequest then (some (.ok t.sentState), { t with state := t.sentState })
    else (some (.ok .fresh), t)
  | .submitted =>
    if p.isResponse then (none, { t with state := .running }) else (some (.ok .submitted), t)
  | .running =>
    if p.isResponse then (some (t.respond p).1, (t.respond p).2) else (some (.ok .running), t)
  | .finished => (some (.ok .finished), t)
  | .failed => (some (.error (.alreadyFailed t.name t.request.summary)), t)

/-- The responder finds that the packet completes the request. -/
def Completes (t : Task η) (p : Packet) : Prop :=
  ∃ r, t.responder = some r ∧ (Responder.respond r p).1 = .ok true

/-- There is no responder, or it cannot read the packet. -/
def Fails (t : Task η) (p : Packet) : Prop :=
  ∀ r, t.responder = some r → ∃ e, (Responder.respond r p).1 = .error e

/-- The task after some packets were delivered to it. -/
def deliverAll (t : Task η) (ps : List Packet) : Task η := ps.foldl (fun t p => (t.deliver p).2) t

/-- The responses among some packets that find the task submitted or running. -/
def due (t : Task η) : List Packet → List Packet
  | [] => []
  | p :: rest =>
    (if t.state.isListening && p.isResponse then [p] else []) ++ (t.deliver p).2.due rest

/-- What a turn makes of a task. -/
structure Turned (t : Task η) (p : Packet) (t' : Task η) : Prop where
  rank_le : t.state.rank ≤ t'.state.rank
  request : t'.request = t.request
  fresh : t.state = .fresh → t'.state =
    if p.isRequest then if t.request.kind.isAnswered then .submitted else .finished else .fresh
  submitted : t.state = .submitted → t'.state = if p.isResponse then .running else .submitted
  finished_iff : t.state = .running → (t'.state = .finished ↔ p.isResponse = true ∧ t.Completes p)
  failed_iff : t.state ≠ .failed →
    (t'.state = .failed ↔ t.state = .running ∧ p.isResponse = true ∧ t.Fails p)
  ended : t.state.isOver = true → t' = t
  /-- Only a running task asks its responder, and only about responses. -/
  responder : t'.responder =
    if t.state = .running ∧ p.isResponse = true then
      t.responder.map fun r => (Responder.respond r p).2
    else t.responder

variable {t : Task η} {p : Packet}

/-- How a running task is left by a response. -/
theorem respond_eq (t : Task η) (p : Packet) :
    (t.respond p).2.request = t.request ∧
      (t.respond p).2.responder = t.responder.map (fun r => (Responder.respond r p).2) ∧
      ((t.respond p).2.state = .finished ↔ t.Completes p) ∧
      ((t.respond p).2.state = .failed ↔ t.Fails p) ∧
      TaskState.running.rank ≤ (t.respond p).2.state.rank := by
  unfold respond
  cases hresponder : t.responder with
  | none => simp [Completes, Fails, hresponder, TaskState.rank]
  | some r =>
    rcases hanswer : Responder.respond r p with ⟨_ | ⟨_ | _⟩, r'⟩ <;>
      simp [Completes, Fails, hresponder, hanswer, TaskState.rank]

theorem turned (t : Task η) (p : Packet) : Turned t p (t.turn p).2 := by
  obtain ⟨hrequest, hresponder, hfinished, hfailed, hrank⟩ := t.respond_eq p
  unfold turn
  cases hstate : t.state with
  | fresh =>
    cases hp : p.isRequest <;> cases hk : t.request.kind.isAnswered <;>
      constructor <;> simp [hstate, sentState, hp, hk, TaskState.rank, TaskState.isOver]
  | submitted =>
    cases hp : p.isResponse <;>
      constructor <;> simp [hstate, hp, TaskState.rank, TaskState.isOver]
  | running =>
    cases hp : p.isResponse with
    | false => constructor <;> simp [hstate, hp, TaskState.isOver]
    | true =>
      constructor <;> simp [hstate, hp, hrequest, hresponder, hfinished, hfailed, hrank, TaskState.isOver]
  | finished => constructor <;> simp [hstate, TaskState.isOver]
  | failed => constructor <;> simp [hstate, TaskState.isOver]

/-- A delivery takes one turn, or two if a response makes a submitted task running, and the last one
answers. -/
theorem deliver_turns (t : Task η) (p : Packet) :
    ∃ t₁, (t₁ = t ∨ t.turn p = (none, t₁)) ∧ t₁.turn p = (some (t.deliver p).1, (t.deliver p).2) := by
  by_cases h : t.state = .submitted ∧ p.isResponse = true
  · refine ⟨{ t with state := .running }, .inr (by simp [turn, h.1, h.2]), ?_⟩
    simp only [turn, deliver, h.1, h.2, if_true]
    rfl
  · refine ⟨t, .inl rfl, ?_⟩
    unfold turn deliver
    cases hstate : t.state with
    | submitted => simp [hstate] at h ⊢; simp [h]
    | _ => simp only <;> split <;> rfl

omit [Responder η] in
theorem sentState_ne_failed (t : Task η) : t.sentState ≠ .failed := by
  unfold sentState
  split <;> simp

/-- A turn answers with an error if it leaves a failed task, and else with the state that it leaves. -/
theorem answer_of_turn {t' : Task η} {answer : Except Error TaskState}
    (h : t.turn p = (some answer, t')) :
    if t'.state = .failed then ∃ e, answer = .error e else answer = .ok t'.state := by
  unfold turn respond at h
  repeat' split at h
  all_goals cases h
  all_goals simp_all [sentState_ne_failed]

theorem rank_deliver (t : Task η) (p : Packet) : t.state.rank ≤ (t.deliver p).2.state.rank := by
  obtain ⟨t₁, hfirst, hlast⟩ := t.deliver_turns p
  have hrank := (t₁.turned p).rank_le
  rw [hlast] at hrank
  rcases hfirst with rfl | hfirst
  · exact hrank
  · have hrank₁ := (t.turned p).rank_le
    rw [hfirst] at hrank₁
    exact Nat.le_trans hrank₁ hrank

/-- A delivery fails if and only if it leaves a failed task. -/
theorem answer_of_deliver (t : Task η) (p : Packet) :
    if (t.deliver p).2.state = .failed then ∃ e, (t.deliver p).1 = .error e
    else (t.deliver p).1 = .ok (t.deliver p).2.state := by
  obtain ⟨t₁, -, hlast⟩ := t.deliver_turns p
  exact answer_of_turn hlast

/-- A task that is over changes no more. -/
theorem deliver_of_isOver (h : t.state.isOver = true) (p : Packet) : (t.deliver p).2 = t := by
  unfold deliver
  cases hstate : t.state <;> simp_all [TaskState.isOver]

theorem deliverAll_of_isOver (h : t.state.isOver = true) (ps : List Packet) :
    t.deliverAll ps = t := by
  induction ps with
  | nil => rfl
  | cons p rest ih =>
    rw [deliverAll, List.foldl_cons, deliver_of_isOver h]
    exact ih

theorem rank_deliverAll (t : Task η) (ps : List Packet) :
    t.state.rank ≤ (t.deliverAll ps).state.rank := by
  induction ps generalizing t with
  | nil => exact Nat.le_refl _
  | cons p rest ih => exact Nat.le_trans (t.rank_deliver p) (ih _)

/-- A task that is over is not asked to hear any more packets. -/
theorem due_of_isOver (h : t.state.isOver = true) (ps : List Packet) : t.due ps = [] := by
  induction ps with
  | nil => rfl
  | cons p rest ih =>
    have hdeaf : t.state.isListening = false := by
      cases hstate : t.state <;> simp_all [TaskState.isOver, TaskState.isListening]
    simp only [due, hdeaf, Bool.false_and, Bool.false_eq_true, if_false, List.nil_append]
    rw [deliver_of_isOver h, ih]

theorem due_append (t : Task η) (ps qs : List Packet) :
    t.due (ps ++ qs) = t.due ps ++ (t.deliverAll ps).due qs := by
  induction ps generalizing t with
  | nil => rfl
  | cons p rest ih =>
    rw [List.cons_append, due, due, ih, List.append_assoc]
    rfl

section Map

variable {f : η → θ} (hf : ∀ r p, Responder.respond (f r) p =
  ((Responder.respond r p).1, f (Responder.respond r p).2))

include hf

theorem respond_mapResponder (t : Task η) (p : Packet) :
    (t.mapResponder f).respond p = ((t.respond p).1, (t.respond p).2.mapResponder f) := by
  unfold respond
  cases hresponder : t.responder with
  | none => simp [mapResponder, hresponder, name]
  | some r =>
    rcases hanswer : Responder.respond r p with ⟨_ | ⟨_ | _⟩, r'⟩ <;>
      simp [mapResponder, hresponder, hf, hanswer, name]

/-- A task behaves in the same way with any responder that gives the same answers. -/
theorem deliver_mapResponder (t : Task η) (p : Packet) :
    (t.mapResponder f).deliver p = ((t.deliver p).1, (t.deliver p).2.mapResponder f) := by
  have hrespond := t.respond_mapResponder hf p
  unfold deliver
  rw [hrespond]
  cases hstate : t.state with
  | fresh => cases p.isRequest <;> simp [mapResponder, hstate, sentState]
  | submitted => cases p.isResponse <;> simp [mapResponder, hstate]
  | running => cases p.isResponse <;> simp [mapResponder, hstate]
  | finished => simp [mapResponder, hstate]
  | failed => simp [mapResponder, hstate, name]

theorem deliverAll_mapResponder (t : Task η) (ps : List Packet) :
    (t.mapResponder f).deliverAll ps = (t.deliverAll ps).mapResponder f := by
  induction ps generalizing t with
  | nil => rfl
  | cons p rest ih =>
    simp only [deliverAll, List.foldl_cons, deliver_mapResponder hf]
    exact ih _

theorem due_mapResponder (t : Task η) (ps : List Packet) : (t.mapResponder f).due ps = t.due ps := by
  induction ps generalizing t with
  | nil => rfl
  | cons p rest ih =>
    simp only [due, deliver_mapResponder hf, ih]
    rfl

end Map

/-- The task with a responder that remembers what it was asked about. -/
def recorded (t : Task η) : Task (Recorder η) := t.mapResponder fun r => ⟨r, []⟩

omit [Responder η] in
theorem mapResponder_recorded (t : Task η) : t.recorded.mapResponder (·.responder) = t := by
  obtain ⟨id, request, responder, state, hrequest⟩ := t
  cases responder <;> rfl

/-- A responder is asked about a packet if that is a response to a task that listens. -/
theorem heard_deliver (t : Task (Recorder η)) (p : Packet) :
    (t.deliver p).2.responder.isSome = t.responder.isSome ∧
      (t.deliver p).2.heard = t.heard ++
        if t.responder.isSome then if t.state.isListening && p.isResponse then [p] else []
        else [] := by
  have hrespond : (t.respond p).2.responder.isSome = t.responder.isSome ∧
      (t.respond p).2.heard = t.heard ++ if t.responder.isSome then [p] else [] := by
    obtain ⟨-, hresponder, -⟩ := t.respond_eq p
    simp only [heard, hresponder]
    cases t.responder <;> simp [Responder.respond]
  unfold deliver
  cases t.state with
  | submitted | running =>
    cases hp : p.isResponse with
    | false => simp [TaskState.isListening]
    | true => simpa [TaskState.isListening] using hrespond
  | fresh => cases p.isRequest <;> simp [TaskState.isListening, heard]
  | finished | failed => simp [TaskState.isListening]

theorem heard_deliverAll (t : Task (Recorder η)) (ps : List Packet) :
    (t.deliverAll ps).heard = t.heard ++ if t.responder.isSome then t.due ps else [] := by
  induction ps generalizing t with
  | nil => simp [deliverAll, due]
  | cons p rest ih =>
    obtain ⟨hsome, hheard⟩ := t.heard_deliver p
    refine (ih (t.deliver p).2).trans ?_
    rw [hsome, hheard, due, List.append_assoc]
    cases t.responder.isSome <;> simp

theorem isResponse_of_mem_due {ps : List Packet} (h : p ∈ t.due ps) : p.isResponse = true := by
  induction ps generalizing t with
  | nil => simp [due] at h
  | cons q rest ih =>
    simp only [due, List.mem_append] at h
    rcases h with h | h
    · split at h
      · next hq =>
        rw [List.mem_singleton.1 h]
        simp_all
      · simp at h
    · exact ih h

/-- Whatever is delivered to a task, and whatever its responder makes of it. A delivery takes one turn or
two, and the state goes only forward; each turn brings it just where the request and the answer of the
responder say. A delivery fails if and only if it leaves a failed task. The responder is asked, once each
and in order, about the responses that find the task submitted or running, and about nothing else; so it
is not asked again once the task is over. -/
theorem follows_lifecycle (t : Task η) :
    (∀ p, Turned t p (t.turn p).2) ∧
    (∀ p, ∃ t₁, (t₁ = t ∨ t.turn p = (none, t₁)) ∧
      t₁.turn p = (some (t.deliver p).1, (t.deliver p).2)) ∧
    (∀ p, if (t.deliver p).2.state = .failed then ∃ e, (t.deliver p).1 = .error e
      else (t.deliver p).1 = .ok (t.deliver p).2.state) ∧
    ∀ ps, t.state.rank ≤ (t.deliverAll ps).state.rank ∧
      (t.recorded.deliverAll ps).mapResponder (·.responder) = t.deliverAll ps ∧
      (t.recorded.deliverAll ps).heard = (if t.responder.isSome then t.due ps else []) ∧
      (∀ p ∈ t.due ps, p.isResponse = true) ∧
      ((t.deliverAll ps).state.isOver = true →
        ∀ qs, t.deliverAll (ps ++ qs) = t.deliverAll ps ∧ t.due (ps ++ qs) = t.due ps) := by
  refine ⟨t.turned, t.deliver_turns, t.answer_of_deliver, fun ps => ⟨t.rank_deliverAll ps, ?_, ?_,
    fun p hp => isResponse_of_mem_due hp, fun hover qs => ⟨?_, ?_⟩⟩⟩
  · rw [← deliverAll_mapResponder (f := Recorder.responder) fun _ _ => rfl, mapResponder_recorded]
  · have hsome : t.recorded.responder.isSome = t.responder.isSome := Option.isSome_map
    have hnone : t.recorded.heard = [] := by
      cases hresponder : t.responder <;> simp [heard, recorded, mapResponder, hresponder]
    have hdue : t.recorded.due ps = t.due ps := by
      rw [← due_mapResponder (f := Recorder.responder) fun _ _ => rfl, mapResponder_recorded]
    rw [heard_deliverAll, hsome, hnone, hdue, List.nil_append]
  · rw [deliverAll, List.foldl_append]
    exact deliverAll_of_isOver hover qs
  · rw [due_append, due_of_isOver hover, List.append_nil]

end Task

end Gearman
