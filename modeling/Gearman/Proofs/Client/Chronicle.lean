import Gearman.Proofs.Client.History
import Gearman.Proofs.Client.Rounds

/-!
What happens while a client waits, told by functions that follow the reading of packets and the rounds of
a wait. The history that they give is the one of a chain of steps from the client that begins to wait to
the one that has its answer.
-/

namespace Gearman.Client

variable {α : Type} {c c' : Client} {server : Address} {event : Session.Event}

/-- What an event that was read brings about. -/
def dispatchHistory (c : Client) (server : Address) (event : Session.Event) : History :=
  match event with
  | .reply id p => [.packet server (.reply id p) (c.exchange? id)]
  | .unsolicited p =>
    if p.isReport then [.packet server (.unsolicited p) none]
    else [.packet server (.unsolicited p) none, .forgotten server] ++
      if (c.discard server).sessions.isEmpty then [.ended] else []

/-- What happens while a server is pumped. -/
def pumpHistory (c : Client) (server : Address) : History :=
  match _hreceive : c.receive server with
  | (.error _, _) => [.forgotten server]
  | (.ok none, _) => []
  | (.ok (some event), c') =>
    match _hdispatch : c'.dispatch server event with
    | (.error _, _) => c'.dispatchHistory server event
    | (.ok (), c'') => c'.dispatchHistory server event ++ c''.pumpHistory server
termination_by c.backlog server
decreasing_by
  have h := backlog_of_receive _hreceive
  have hsessions := sessions_of_dispatch _hdispatch
  simp only [backlog, hsessions, Header.size] at h ⊢
  omega

/-- What happens while some servers are pumped one after the other. -/
def pumpAllHistory (c : Client) : List Address → History
  | [] => []
  | server :: rest => c.pumpHistory server ++ (c.pump server).2.pumpAllHistory rest

/-- What happens during a wait; `told` says it of one reading. -/
def Watch.history (w : Watch α) (told : Client → History) (arrivals : List Arrival) (c : Client) :
    History :=
  match w.settled c with
  | some _ => []
  | none =>
    match _hdrive : w.drive c with
    | (.error _, _) => told c
    | (.ok (), c') =>
      match if w.waits c' then none else w.settled c' with
      | some _ => told c
      | none =>
        if _hready : w.ready c' = true then told c ++ w.history told arrivals c'
        else
          match arrivals with
          | [] => told c
          | a :: rest => told c ++ w.history told rest (c'.deliver a).1
termination_by (arrivals.length, c.totalLoad)
decreasing_by
  · exact .right _ (w.totalLoad_drive _hdrive _hready)
  · exact .left _ _ (by simp)

/-- What happens while someone waits for the reply to an exchange. -/
def replyHistory (id : TaskId) (server : Address) (arrivals : List Arrival) (c : Client) : History :=
  (replyTo id server).history (·.pumpHistory server) arrivals c

/-- What happens while someone waits for the end of a job. -/
def endHistory (job : JobHandle) (arrivals : List Arrival) (c : Client) : History :=
  (endOf job).history (·.pumpHistory job.server) arrivals c

/-- What happens while someone waits for the end of all jobs. -/
def idleHistory (arrivals : List Arrival) (c : Client) : History :=
  endOfJobs.history (fun c => c.pumpAllHistory c.liveServers) arrivals c

/-- What happens while a client is drained. -/
def drainHistory (c : Client) : History :=
  if c.isTerminated then []
  else c.pumpAllHistory c.liveServers ++ [.drained (c.pumpAll c.liveServers).updates]

theorem pumpHistory_fault {e : Error} (h : c.receive server = (.error e, c')) :
    c.pumpHistory server = [.forgotten server] := by
  rw [pumpHistory]
  split <;> simp_all

theorem pumpHistory_idle (h : c.receive server = (.ok none, c')) : c.pumpHistory server = [] := by
  rw [pumpHistory]
  split <;> simp_all

theorem pumpHistory_event (h : c.receive server = (.ok (some event), c')) :
    c.pumpHistory server = c'.dispatchHistory server event ++
      match c'.dispatch server event with
      | (.error _, _) => []
      | (.ok (), c'') => c''.pumpHistory server := by
  rw [pumpHistory]
  split
  · simp_all
  · simp_all
  · next event' c₁ hreceive =>
    obtain ⟨rfl, rfl⟩ : event' = event ∧ c₁ = c' := by simpa [h, eq_comm] using hreceive
    split <;> simp_all

namespace Watch

variable {w : Watch α} {told : Client → History} {arrivals : List Arrival}

theorem history_settled {r : Except Error α} (h : w.settled c = some (r, c')) :
    w.history told arrivals c = [] := by
  rw [history]
  simp only [h]

theorem history_fault {e : Error} (h : w.settled c = none) (hdrive : w.drive c = (.error e, c')) :
    w.history told arrivals c = told c := by
  rw [history]
  simp only [h]
  split
  · rfl
  · next hdriven =>
    rw [hdrive] at hdriven
    cases hdriven

theorem history_round (h : w.settled c = none) (hdrive : w.drive c = (.ok (), c')) :
    w.history told arrivals c = told c ++
      match if w.waits c' then none else w.settled c' with
      | some _ => []
      | none =>
        if w.ready c' then w.history told arrivals c'
        else
          match arrivals with
          | [] => []
          | a :: rest => w.history told rest (c'.deliver a).1 := by
  rw [history]
  simp only [h]
  split
  · next hdriven =>
    rw [hdrive] at hdriven
    cases hdriven
  · next c₁ hdriven =>
    obtain rfl : c₁ = c' := by simpa [hdrive, eq_comm] using hdriven
    split
    · simp_all
    · split
      · rfl
      · cases arrivals <;> simp

end Watch

/-- Handling what was read is a chain of steps, however it ends. -/
theorem chain_dispatch (h : c.receive server = (.ok (some event), c')) :
    Chain Drive c (c'.dispatchHistory server event) (c'.dispatch server event).2 := by
  cases event with
  | reply id p => exact .single (.reply h)
  | unsolicited p =>
    simp only [dispatchHistory, dispatch, handleUnsolicited]
    cases hp : p.isReport with
    | true =>
      rw [Packet.isReport] at hp
      simp only [hp, if_true]
      exact .single (.report h hp)
    | false =>
      have hexpelled := Chain.single (Drive.expelled h hp)
      rw [Packet.isReport] at hp
      simp only [hp, Bool.false_eq_true, if_false, dropSession]
      split
      · next hempty => exact hexpelled.trans (.single (.deserted hempty))
      · rwa [List.append_nil]

theorem chain_pump (c : Client) (server : Address) :
    Chain Drive c (c.pumpHistory server) (c.pump server).2 := by
  fun_induction pumpHistory c server with
  | case1 c e c' hreceive =>
    rw [pump_fault hreceive]
    exact .single (.failed hreceive)
  | case2 c c' hreceive =>
    rw [pump_idle hreceive]
    exact .single (.idle hreceive)
  | case3 c event c' hreceive e c'' hdispatch =>
    have hchain := chain_dispatch hreceive
    rw [hdispatch] at hchain
    rw [pump_event hreceive, hdispatch]
    exact hchain
  | case4 c event c' hreceive c'' hdispatch ih =>
    have hchain := chain_dispatch hreceive
    rw [hdispatch] at hchain
    rw [pump_event hreceive, hdispatch]
    exact hchain.trans ih

theorem chain_pumpAll (c : Client) (servers : List Address) :
    Chain Drive c (c.pumpAllHistory servers) (c.pumpAll servers) := by
  induction servers generalizing c with
  | nil => exact .refl c
  | cons first rest ih => exact (chain_pump c first).trans (ih (c.pump first).2)

/-- A wait that drives the client in steps ends in a state that such steps lead to. There it finds its
answer, or it was ended by a fault, or it finds nothing at the deadline. -/
theorem Watch.chain_run {w : Watch α} {told : Client → History}
    (hdrive : ∀ c, Chain Drive c (told c) (w.drive c).2) (arrivals : List Arrival) (c : Client) :
    ∃ c', Chain Drive c (w.history told arrivals c) c' ∧
      ((∃ r, (w.run arrivals c).outcome = some r ∧
          w.settled c' = some (r, (w.run arrivals c).client)) ∨
        (∃ e, (w.run arrivals c).outcome = some (.error e)) ∧
          (w.run arrivals c).client = c' ∨
        (w.run arrivals c).outcome = none ∧ (w.run arrivals c).client = c' ∧
          (w.waits c' = true ∨ w.settled c' = none)) := by
  fun_induction Watch.history w told arrivals c with
  | case1 arrivals c answer hsettled =>
    rw [run_settled hsettled]
    exact ⟨c, .refl c, .inl ⟨_, rfl, hsettled⟩⟩
  | case2 arrivals c hsettled e c' hfault =>
    have hchain := hdrive c
    rw [hfault] at hchain
    rw [run_fault hsettled hfault]
    exact ⟨c', hchain, .inr (.inl ⟨⟨e, rfl⟩, rfl⟩)⟩
  | case3 arrivals c hsettled c' hdriven answer hanswer =>
    have hchain := hdrive c
    rw [hdriven] at hchain
    rw [dite_eq_ite] at hanswer
    rw [run_round hsettled hdriven, hanswer]
    split at hanswer
    · contradiction
    · exact ⟨c', hchain, .inl ⟨_, rfl, hanswer⟩⟩
  | case4 arrivals c hsettled c' hdriven hanswer hready ih =>
    have hchain := hdrive c
    rw [hdriven] at hchain
    rw [dite_eq_ite] at hanswer
    rw [run_round hsettled hdriven, hanswer, if_pos hready]
    obtain ⟨c'', hrest, hend⟩ := ih
    exact ⟨c'', hchain.trans hrest, hend⟩
  | case5 c hsettled c' hdriven hanswer hready =>
    have hchain := hdrive c
    rw [hdriven] at hchain
    rw [dite_eq_ite] at hanswer
    rw [run_round hsettled hdriven, hanswer, if_neg hready]
    refine ⟨c', hchain, .inr (.inr ⟨rfl, rfl, ?_⟩)⟩
    split at hanswer
    · next hwaits => exact .inl hwaits
    · exact .inr hanswer
  | case6 c hsettled c' hdriven hanswer hready a rest ih =>
    have hchain := hdrive c
    rw [hdriven] at hchain
    rw [dite_eq_ite] at hanswer
    rw [run_round hsettled hdriven, hanswer, if_neg hready]
    obtain ⟨c'', hrest, hend⟩ := ih
    exact ⟨c'', hchain.trans ((Chain.single (.arrival c' a)).trans hrest), hend⟩

end Gearman.Client
