import Gearman.Proofs.Client.Evolution

/-!
The run state of a client only moves forward.
-/

namespace Gearman

/-- The place of a state in the life of a client. -/
def RunState.rank : RunState → Nat
  | .running => 0
  | .shuttingDown => 1
  | .terminated => 2

/-- Nothing comes after the end. -/
theorem RunState.eq_terminated {s : RunState} (h : RunState.terminated.rank ≤ s.rank) :
    s = .terminated := by
  cases s with
  | terminated => rfl
  | running => exact absurd h (by decide)
  | shuttingDown => exact absurd h (by decide)

namespace Client

variable {c c' : Client}

theorem rank_shutdownNow (c : Client) : c.state.rank ≤ c.shutdownNow.state.rank := by
  rw [state_shutdownNow]
  cases c.state <;> decide

theorem rank_drive {log : History} (h : Drive c log c') : c.state.rank ≤ c'.state.rank := by
  cases h with
  | arrival a =>
    obtain ⟨sessions, heq⟩ := deliver_keeps c a
    exact Nat.le_of_eq (by rw [heq])
  | idle hr =>
    obtain ⟨sessions, rfl⟩ := receive_keeps hr
    exact Nat.le_refl _
  | failed hr => exact Nat.le_of_eq (by rw [(lost_of_receive hr).state])
  | reply hr =>
    obtain ⟨sessions, rfl⟩ := receive_keeps hr
    exact Nat.le_of_eq (by rw [(handleReply_keeps _ _ _ _).1])
  | report hr =>
    obtain ⟨sessions, rfl⟩ := receive_keeps hr
    exact Nat.le_of_eq (by rw [(handleUpdate_keeps _ _ _).1])
  | expelled hr =>
    obtain ⟨sessions, rfl⟩ := receive_keeps hr
    exact Nat.le_of_eq (by rw [(lost_discard _ _).state])
  | deserted => exact rank_shutdownNow c

/-- No step takes the run state back. -/
theorem rank_step {log : History} (h : Step c log c') : c.state.rank ≤ c'.state.rank := by
  cases h with
  | drive hdrive => exact rank_drive hdrive
  | added server =>
    obtain ⟨sessions, heq⟩ := addServer_keeps c server
    exact Nat.le_of_eq (by rw [heq])
  | removed => exact Nat.le_of_eq (by rw [(lost_discard _ _).state])
  | opened env server =>
    obtain ⟨sessions, heq⟩ := session_keeps c env server
    exact Nat.le_of_eq (by rw [heq])
  | asked hs hx htask hask =>
    obtain ⟨-, s', -, -, -, rfl⟩ := ask_ok hask (new_ok htask).2.2.2
    exact Nat.le_refl _
  | refused hs htask hask he =>
    exact Nat.le_of_eq (by rw [ask_refused hask (new_ok htask).2.2.2 he])
  | severed hs htask hask he => exact Nat.le_of_eq (by rw [(ask_severed hs hask he).state])
  | released id => exact Nat.le_refl _
  | detached hopen =>
    unfold detach
    split <;> exact Nat.le_refl _
  | collected hr =>
    simp only [takeResult, hr, releaseUpdates]
    exact Nat.le_refl _
  | drained => exact Nat.le_refl _
  | closing hrunning =>
    rw [hrunning]
    exact Nat.zero_le _
  | ended => exact rank_shutdownNow c

theorem rank_performAll (c : Client) (operations : List Operation) :
    c.state.rank ≤ (c.performAll operations).state.rank := by
  obtain ⟨log, h⟩ := evolves_performAll c operations
  exact h.invariant (P := fun c' => c.state.rank ≤ c'.state.rank)
    (fun hstep hle => Nat.le_trans hle (rank_step hstep)) (Nat.le_refl _)

end Client

end Gearman
