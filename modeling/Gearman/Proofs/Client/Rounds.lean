import Gearman.Client.Wait

/-!
Reading packet by packet, and waiting round by round.

What arrives later continues a wait that has come to its deadline, and does nothing to one that is
over: `Watch.run_append`.
-/

namespace Gearman.Client

variable {c c' : Client} {server : Address} {event : Session.Event} {e : Error}

theorem pump_idle (h : c.receive server = (.ok none, c')) : c.pump server = (.ok (), c') := by
  rw [pump]
  split <;> simp_all

theorem pump_fault (h : c.receive server = (.error e, c')) : c.pump server = (.error e, c') := by
  rw [pump]
  split <;> simp_all

theorem pump_event (h : c.receive server = (.ok (some event), c')) :
    c.pump server =
      match c'.dispatch server event with
      | (.error e, c'') => (.error e, c'')
      | (.ok (), c'') => c''.pump server := by
  rw [pump]
  split
  · simp_all
  · simp_all
  · next event' c₁ hreceive =>
    obtain ⟨rfl, rfl⟩ : event' = event ∧ c₁ = c' := by simpa [h, eq_comm] using hreceive
    split <;> simp_all

namespace Watch

variable {α : Type} {w : Watch α} {arrivals : List Arrival}

theorem run_settled {r : Except Error α} (h : w.settled c = some (r, c')) :
    w.run arrivals c = ⟨some r, c', arrivals⟩ := by
  rw [run]
  simp only [h]

theorem run_fault (h : w.settled c = none) (hdrive : w.drive c = (.error e, c')) :
    w.run arrivals c = ⟨some (.error e), c', arrivals⟩ := by
  rw [run]
  simp only [h]
  split
  · next hdriven =>
    rw [hdrive] at hdriven
    cases hdriven
    rfl
  · next hdriven =>
    rw [hdrive] at hdriven
    cases hdriven

/-- A round that reads without a fault ends the wait, or starts the next round, with or without the
next arrival. -/
theorem run_round (h : w.settled c = none) (hdrive : w.drive c = (.ok (), c')) :
    w.run arrivals c =
      match if w.waits c' then none else w.settled c' with
      | some (outcome, c) => ⟨some outcome, c, arrivals⟩
      | none =>
        if w.ready c' then w.run arrivals c'
        else
          match arrivals with
          | [] => ⟨none, c', []⟩
          | a :: rest => w.run rest (c'.deliver a).1 := by
  rw [run]
  simp only [h]
  split
  · next hdriven =>
    rw [hdrive] at hdriven
    cases hdriven
  · next hdriven =>
    rw [hdrive] at hdriven
    cases hdriven
    rfl

/-- What becomes of a wait that has read all that had arrived when more arrives. -/
def resume (w : Watch α) (waited : Waited α) (more : List Arrival) : Waited α :=
  match waited with
  | ⟨some r, c, rest⟩ => ⟨some r, c, rest ++ more⟩
  | ⟨none, c, rest⟩ =>
    match more with
    | [] => ⟨none, c, rest⟩
    | a :: more => w.run more (c.deliver a).1

theorem run_append (w : Watch α) (arrivals more : List Arrival) (c : Client) :
    w.run (arrivals ++ more) c = w.resume (w.run arrivals c) more := by
  fun_induction Watch.run w arrivals c with
  | case1 arrivals c outcome c' hsettled => rw [run_settled hsettled, resume]
  | case2 arrivals c hsettled e c' hfault => rw [run_fault hsettled hfault, resume]
  | case3 arrivals c hsettled c' hdriven outcome c'' hanswer =>
    rw [dite_eq_ite] at hanswer
    rw [run_round hsettled hdriven, hanswer, resume]
  | case4 arrivals c hsettled c' hdriven hanswer hready ih =>
    rw [dite_eq_ite] at hanswer
    rw [run_round hsettled hdriven, hanswer, if_pos hready, ih]
  | case5 c hsettled c' hdriven hanswer hready =>
    rw [dite_eq_ite] at hanswer
    rw [run_round hsettled hdriven, hanswer, if_neg hready]
    cases more with
    | nil => rfl
    | cons a rest => rfl
  | case6 c hsettled c' hdriven hanswer hready a rest ih =>
    rw [dite_eq_ite] at hanswer
    rw [List.cons_append, run_round hsettled hdriven, hanswer, if_neg hready]
    exact ih

end Watch

end Gearman.Client
