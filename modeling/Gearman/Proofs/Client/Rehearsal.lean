import Gearman.Client.Request
import Gearman.Proofs.Client.Chronicle

/-!
Rehearsals: pumping and waiting with a bound on the packets and the rounds. A rehearsal that comes to its
end tells what really happens, and it can be computed.
-/

namespace Gearman.Client

variable {α : Type} {n : Nat} {c c' : Client} {server : Address} {log : History}

/-- Pumps a server for less than `n` packets, and tells what happens. -/
def rehearsePump : Nat → Client → Address → Option ((Except Error Unit × Client) × History)
  | 0, _, _ => none
  | n + 1, c, server =>
    match c.receive server with
    | (.error e, c') => some ((.error e, c'), [.forgotten server])
    | (.ok none, c') => some ((.ok (), c'), [])
    | (.ok (some event), c') =>
      match c'.dispatch server event with
      | (.error e, c'') => some ((.error e, c''), c'.dispatchHistory server event)
      | (.ok (), c'') =>
        (rehearsePump n c'' server).map fun (r, log) => (r, c'.dispatchHistory server event ++ log)

theorem pump_of_rehearsal {r : Except Error Unit × Client}
    (h : rehearsePump n c server = some (r, log)) :
    c.pump server = r ∧ c.pumpHistory server = log := by
  induction n generalizing c r log with
  | zero => contradiction
  | succ n ih =>
    rw [rehearsePump] at h
    split at h
    · next hreceive =>
      cases h
      exact ⟨pump_fault hreceive, pumpHistory_fault hreceive⟩
    · next hreceive =>
      cases h
      exact ⟨pump_idle hreceive, pumpHistory_idle hreceive⟩
    · next event c₁ hreceive =>
      rw [pump_event hreceive, pumpHistory_event hreceive]
      cases hdispatch : c₁.dispatch server event with
      | mk answer c₂ =>
        rw [hdispatch] at h
        cases answer with
        | error e =>
          cases h
          exact ⟨rfl, List.append_nil _⟩
        | ok _ =>
          obtain ⟨⟨r', log'⟩, hrest, heq⟩ := Option.map_eq_some_iff.1 h
          cases heq
          obtain ⟨hpump, hlog⟩ := ih hrest
          exact ⟨hpump, congrArg (c₁.dispatchHistory server event ++ ·) hlog⟩

/-- Waits for less than `n` rounds for a server of which less than `n` packets come at a time, and tells
what happens. -/
def Watch.rehearse (w : Watch α) (server : Address) (bound : Nat) :
    Nat → List Arrival → Client → Option (Waited α × History)
  | 0, _, _ => none
  | n + 1, arrivals, c =>
    match w.settled c with
    | some (outcome, c) => some (⟨some outcome, c, arrivals⟩, [])
    | none =>
      match rehearsePump bound c server with
      | none => none
      | some ((.error e, c'), log) => some (⟨some (.error e), c', arrivals⟩, log)
      | some ((.ok (), c'), log) =>
        match if w.waits c' then none else w.settled c' with
        | some (outcome, c) => some (⟨some outcome, c, arrivals⟩, log)
        | none =>
          if w.ready c' then
            (w.rehearse server bound n arrivals c').map fun (waited, more) => (waited, log ++ more)
          else
            match arrivals with
            | [] => some (⟨none, c', []⟩, log)
            | a :: rest =>
              (w.rehearse server bound n rest (c'.deliver a).1).map
                fun (waited, more) => (waited, log ++ more)

theorem Watch.run_of_rehearsal {w : Watch α} {bound : Nat} {arrivals : List Arrival}
    {waited : Waited α} (hdrive : ∀ c, w.drive c = c.pump server)
    (h : w.rehearse server bound n arrivals c = some (waited, log)) :
    w.run arrivals c = waited ∧ w.history (·.pumpHistory server) arrivals c = log := by
  induction n generalizing c arrivals waited log with
  | zero => contradiction
  | succ n ih =>
    rw [rehearse] at h
    split at h
    · next hsettled =>
      cases h
      exact ⟨run_settled hsettled, history_settled hsettled⟩
    · next hsettled =>
      split at h
      · contradiction
      · next hpump =>
        cases h
        obtain ⟨hpumped, hlog⟩ := pump_of_rehearsal hpump
        rw [← hdrive] at hpumped
        exact ⟨run_fault hsettled hpumped, (history_fault hsettled hpumped).trans hlog⟩
      · next c₁ log₁ hpump =>
        obtain ⟨hpumped, hlog⟩ := pump_of_rehearsal hpump
        rw [← hdrive] at hpumped
        rw [run_round hsettled hpumped, history_round hsettled hpumped, hlog]
        split at h
        · next hanswer =>
          cases h
          rw [hanswer]
          exact ⟨rfl, List.append_nil _⟩
        · next hanswer =>
          rw [hanswer]
          split at h
          · next hready =>
            obtain ⟨⟨waited', more⟩, hrest, heq⟩ := Option.map_eq_some_iff.1 h
            cases heq
            obtain ⟨hrun, hmore⟩ := ih hrest
            simp only [hready, if_true, hrun, hmore, and_self]
          · next hready =>
            rw [if_neg hready, if_neg hready]
            split at h
            · cases h
              exact ⟨rfl, List.append_nil _⟩
            · obtain ⟨⟨waited', more⟩, hrest, heq⟩ := Option.map_eq_some_iff.1 h
              cases heq
              obtain ⟨hrun, hmore⟩ := ih hrest
              exact ⟨hrun, by simp only [hmore]⟩

end Gearman.Client
