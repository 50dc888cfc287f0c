import Gearman.Worker.Execution

/-!
The work loop: ask for jobs, read what has come, execute one job, and start over.

A worker that gets nowhere that way waits for the next cue. When there is none, it is told to stop.
-/

namespace Gearman

/-- How much a worker has to do, for its sessions and for its jobs. -/
def Worker.load (w : Worker) : Nat :=
  w.members.total (·.session.load) + w.queue.length

namespace Scene

/-- Asks for jobs, reads what has come, and executes the oldest job. -/
def turn (s : Scene) : Except Error Unit × Scene :=
  let asked := s.worker.askAll
  match asked.pumpAll asked.servers with
  | (.error e, worker) => (.error e, { s with worker })
  | (.ok (), worker) =>
    match worker.queue with
    | [] => (.ok (), { s with worker })
    | j :: rest => (.ok (), { s with worker := { worker with queue := rest } }.execute j)

/-- Whether less lies ahead of `s` than of `before`. -/
def isAhead (s before : Scene) : Bool :=
  s.cues.length < before.cues.length ||
    (s.cues.length = before.cues.length && s.worker.load < before.worker.load)

theorem cues_advance_le (s : Scene) : s.advance.cues.length ≤ s.cues.length := by
  unfold advance
  split
  · exact Nat.le_refl _
  · next heq =>
    rw [heq]
    exact Nat.le_succ _

theorem cues_sleep_le (s : Scene) : s.sleep.cues.length ≤ s.cues.length := by
  unfold sleep
  generalize s.cues.takeWhile (·.during) = cues
  induction cues generalizing s with
  | nil => exact Nat.le_refl _
  | cons _ rest ih => exact Nat.le_trans (ih s.advance) (cues_advance_le s)

theorem cues_play_le (s : Scene) (server : Address) (deadline : Option Instant)
    (moments : List Moment) :
    (s.play server deadline moments).1.cues.length ≤ s.cues.length := by
  induction moments generalizing s with
  | nil => exact Nat.le_refl _
  | cons moment rest ih =>
    cases moment with
    | sent p => exact ih _
    | pause ms =>
      simp only [play]
      split
      · exact cues_sleep_le s
      · exact Nat.le_trans (ih _) (cues_sleep_le s)

theorem cues_execute_le (s : Scene) (j : AssignedJob) :
    (s.execute j).cues.length ≤ s.cues.length := by
  unfold execute
  split
  · exact Nat.le_refl _
  · exact cues_play_le _ _ _ _

/-- What was going to arrive does not grow. -/
theorem cues_of_turn {s s' : Scene} {r : Except Error Unit} (h : s.turn = (r, s')) :
    s'.cues.length ≤ s.cues.length := by
  simp only [turn] at h
  split at h
  · cases h
    exact Nat.le_refl _
  · split at h
    · cases h
      exact Nat.le_refl _
    · cases h
      exact cues_execute_le _ _

/-- Works until it breaks down, or gets nowhere and nothing is going to arrive. -/
def run (s : Scene) : Except Error Unit × Scene :=
  match _hturn : s.turn with
  | (.error e, s') => (.error e, s')
  | (.ok (), s') =>
    if s'.panicked then (.ok (), s')
    else if _hahead : s'.isAhead s = true then s'.run
    else
      match _hcues : s'.cues with
      | [] => (.ok (), s')
      | _ :: _ => s'.advance.run
termination_by (s.cues.length, s.worker.load)
decreasing_by
  · simp only [isAhead, Bool.or_eq_true, Bool.and_eq_true, decide_eq_true_eq] at _hahead
    rcases _hahead with h | ⟨h, hload⟩
    · exact .left _ _ h
    · rw [h]
      exact .right _ hload
  · refine .left _ _ (Nat.lt_of_lt_of_le ?_ (cues_of_turn _hturn))
    simp [advance, _hcues]

end Scene

namespace Worker

/-- How a run of a worker was left. -/
inductive Departure where
  /-- The worker has stopped. -/
  | stopped
  /-- The run was given up without a word to the worker. -/
  | abandoned
  /-- The work broke down: the clock cannot tell the deadline of a job. -/
  | panicked
deriving DecidableEq, Repr

/-- Works until nothing arrives any more and the worker is told to stop. Word to stop is sent by the
means that were at hand before the run: if they have been used, or if the run is to be abandoned, the
worker does not hear of the end and counts as running for good. So does one whose work breaks down. -/
def work (w : Worker) (now : Instant) (cues : List Cue) (abandon : Bool) :
    Except Error Departure × Worker × List Bool :=
  if w.running then (.error .alreadyWorking, w, [])
  else
    let heard := !w.stopped && !abandon
    let scene : Scene := { worker := { w with stopped := false, running := true }, cues, now }
    match scene.run with
    | (.error e, s) => (.error e, { s.worker with running := false }, s.delivered)
    | (.ok (), s) =>
      if s.panicked then (.ok .panicked, s.worker, s.delivered)
      else if heard then
        (.ok .stopped, { s.worker with running := false, stopped := true }, s.delivered)
      else (.ok .abandoned, s.worker, s.delivered)

end Worker

end Gearman
