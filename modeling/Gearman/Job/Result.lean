import Gearman.Job.Counter
import Gearman.Packet.Codec

/-!
Results of jobs: what the worker's reports about a job add up to.
-/

namespace Gearman

/-- What is known of the outcome of a job. -/
structure JobResult where
  handle : Bytes := []
  succeeded : Bool := false
  results : Bytes := []
  warnings : Bytes := []
  exceptions : Bytes := []
  numerator : UInt64 := 0
  denominator : UInt64 := 0
deriving DecidableEq, Repr

namespace JobResult

instance : Inhabited JobResult where
  default := {}

def success (data : Bytes) : JobResult := { succeeded := true, results := data }

def failure : JobResult := {}

/-- The result of a job of which nothing was reported yet. -/
def pending (handle : Bytes) : JobResult := { handle }

def withWarning (r : JobResult) (bs : Bytes) : JobResult :=
  { r with warnings := r.warnings ++ bs }

def withException (r : JobResult) (bs : Bytes) : JobResult :=
  { r with exceptions := r.exceptions ++ bs }

def withStatus (r : JobResult) (numerator denominator : UInt64) : JobResult :=
  { r with numerator, denominator }

/-- One step in the making of a result by a worker function. -/
inductive Edit where
  | success (data : Bytes)
  | failure
  | warning (bs : Bytes)
  | exception (bs : Bytes)
  | status (numerator denominator : UInt64)
deriving DecidableEq, Repr

/-- Success and failure start over, all other steps add to what is there. -/
def edit (r : JobResult) : Edit → JobResult
  | .success data => success data
  | .failure => failure
  | .warning bs => r.withWarning bs
  | .exception bs => r.withException bs
  | .status numerator denominator => r.withStatus numerator denominator

/-- The result that some steps make out of a failure. -/
def ofEdits (edits : List Edit) : JobResult := edits.foldl edit failure

/-- Reads the two counters of a status report into a result. A numerator that was understood stays,
even when the denominator is not. -/
def applyStatus (r : JobResult) (p : Packet) : Except Error Bool × JobResult :=
  match p.fields 3 with
  | .error e => (.error e, r)
  | .ok fields =>
    match readCounter "numerator" (fields.getD 1 []) with
    | .error e => (.error e, r)
    | .ok numerator =>
      let r := { r with numerator }
      match readCounter "denominator" (fields.getD 2 []) with
      | .error e => (.error e, r)
      | .ok denominator => (.ok false, { r with denominator })

/-- Adds one report to a result, and says whether it was the last one of the job. -/
def apply (r : JobResult) (p : Packet) : Except Error Bool × JobResult :=
  let body := p.handleAndRest.2
  match p.kind with
  | .workData => (.ok false, { r with results := r.results ++ body })
  | .workWarning => (.ok false, r.withWarning body)
  | .workStatus => r.applyStatus p
  | .workComplete => (.ok true, { r with results := r.results ++ body, succeeded := true })
  | .workException => (.ok true, { r.withException body with succeeded := false })
  | .workFail => (.ok true, { r with succeeded := false })
  | kind => (.error (.notAnUpdate kind), r)

/-- Only a final report is said to be the last one. -/
theorem isFinal_of_apply {r r' : JobResult} {p : Packet} {last : Bool}
    (h : r.apply p = (.ok last, r')) : last = p.kind.isFinal := by
  obtain ⟨magic, kind, payload⟩ := p
  cases kind <;> simp_all [apply, applyStatus, Kind.isFinal]
  · repeat' split at h
    all_goals simp_all

end JobResult

end Gearman
