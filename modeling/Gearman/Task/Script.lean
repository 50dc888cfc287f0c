import Gearman.Task

/-!
Responders that follow a script.
-/

namespace Gearman

/-- What a scripted responder says of a response. -/
inductive Verdict where
  /-- The request is complete. -/
  | complete
  | goOn
  | refuse (reason : String)
deriving DecidableEq, Repr

/-- A responder that speaks its verdicts one after the other and goes on when none is left. -/
structure Script where
  verdicts : List Verdict := []
  /-- How often it was asked. -/
  calls : Nat := 0
deriving DecidableEq, Repr

namespace Script

def respond (s : Script) (p : Packet) : Except Error Bool × Script :=
  let s' : Script := ⟨s.verdicts.tail, s.calls + 1⟩
  match s.verdicts.head? with
  | some .complete => (.ok true, s')
  | some .goOn | none => (.ok false, s')
  | some (.refuse reason) => (.error (.malformed (reason ++ " on " ++ p.summary)), s')

instance : Responder Script where
  respond := respond

end Script

end Gearman
