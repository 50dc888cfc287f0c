import Gearman.Proofs.Client.Chronicle
import Gearman.Proofs.Client.Order
import Gearman.Proofs.Client.Queues
import Gearman.Proofs.Session.Holding

/-!
Waiting while a server sends whole packets. However the bytes are cut, the packets are handled one after the
other, and a wait sees them all unless it is over before. So what holds of a wait follows from what handling
one packet does: `Course.run`.
-/

namespace Gearman.Client

variable {α : Type} {c c' : Client} {server : Address} {arrivals : List Arrival} {p : Packet}
  {ps : List Packet} {log : History}

/-- The bytes that a server sends. -/
def bytesFrom (server : Address) (arrivals : List Arrival) : Bytes :=
  arrivals.flatMap fun a => if a.server = server then a.bytes else []

/-- What is there of a server's stream and was not handled, together with what is still to arrive, is these
packets, and maybe the start of one more. -/
structure Brings (c : Client) (server : Address) (arrivals : List Arrival) (ps : List Packet) : Prop where
  frames : ∃ s limit bs, c.sessions.get? server = some s ∧ s.Holds limit bs ∧
    Packet.Frames limit (bs ++ bytesFrom server arrivals) ps
  open_ : ∀ a ∈ arrivals, a.server = server → a.ending = .none

theorem Brings.of_sessions (h : c.Brings server arrivals ps) (hsessions : c'.sessions = c.sessions) :
    c'.Brings server arrivals ps := by
  refine ⟨?_, h.open_⟩
  rw [hsessions]
  exact h.frames

/-- A read takes the next packet, or finds that it is not in the buffer yet. -/
theorem Brings.receive (h : c.Brings server arrivals ps) :
    (∃ c', c.receive server = (.ok none, c') ∧ c'.Brings server arrivals ps ∧
      (arrivals = [] → c'.isReady server = false → ps = [])) ∨
    ∃ p rest c', ps = p :: rest ∧
      c.receive server = (.ok (some (Session.classify (c.queue server) p).1), c') ∧
      c'.queue server = (Session.classify (c.queue server) p).2 ∧ c'.Brings server arrivals rest := by
  obtain ⟨⟨s, limit, bs, hs, hholds, hframes⟩, hopen⟩ := h
  rw [queue_of_get? hs]
  obtain ⟨s', hstep, hholds', -, hunready⟩ | ⟨p, s', hstep, hframe, hholds', hawaiting⟩ :=
    hholds.step_cases hframes.fault?
  · refine .inl ⟨{ c with sessions := c.sessions.insert server s' },
      by simp [Client.receive, hs, hholds.isLive, hstep],
      ⟨⟨s', limit, bs, Table.get?_insert_self, hholds', hframes⟩, hopen⟩, fun hnone hready => ?_⟩
    rw [isReady, Table.get?_insert_self] at hready
    rw [hnone, bytesFrom, List.flatMap_nil, List.append_nil] at hframes
    exact hframes.eq_nil (hunready hready)
  · obtain ⟨rest, rfl, hrest⟩ := hframes.next hframe
    exact .inr ⟨p, rest, { c with sessions := c.sessions.insert server s' }, rfl,
      by simp [Client.receive, hs, hholds.isLive, hstep],
      by rw [queue_insert rfl, if_pos rfl, hawaiting],
      ⟨s', limit, _, Table.get?_insert_self, hholds', hrest⟩, hopen⟩

/-- What arrives was to arrive. -/
theorem Brings.deliver {a : Arrival} (h : c.Brings server (a :: arrivals) ps) :
    (c.deliver a).1.Brings server arrivals ps := by
  obtain ⟨⟨s, limit, bs, hs, hholds, hframes⟩, hopen⟩ := h
  have hopen' : ∀ a ∈ arrivals, a.server = server → a.ending = .none := fun a ha =>
    hopen a (List.mem_cons_of_mem _ ha)
  by_cases heq : a.server = server
  · obtain ⟨from_, bytes, ending⟩ := a
    obtain rfl : from_ = server := heq
    obtain rfl : ending = .none := hopen _ List.mem_cons_self rfl
    refine ⟨⟨(s.deliver ⟨from_, bytes, .none⟩).1, limit, bs ++ bytes, ?_,
      hholds.deliver from_ bytes, ?_⟩, hopen'⟩
    · simp [Client.deliver, hs]
    · simpa [bytesFrom] using hframes
  · refine ⟨⟨s, limit, bs, ?_, hholds, ?_⟩, hopen'⟩
    · unfold Client.deliver
      split
      · exact hs
      · exact (Table.get?_insert_of_ne heq).trans hs
    · simpa [bytesFrom, heq] using hframes

/-- `P` is kept while the packets of a server are handled, all of them without an error. It tells what has
happened, the client, and the packets to come. -/
structure Course (server : Address) (P : History → Client → List Packet → Prop) : Prop where
  idle : ∀ {log c ps c'}, P log c ps → c.receive server = (.ok none, c') → P log c' ps
  arrival : ∀ {log c ps} a, P log c ps → P log (c.deliver a).1 ps
  packet : ∀ {log c p ps c'}, P log c (p :: ps) →
    c.receive server = (.ok (some (Session.classify (c.queue server) p).1), c') →
    ∃ c'', c'.dispatch server (Session.classify (c.queue server) p).1 = (.ok (), c'') ∧
      P (log ++ c'.dispatchHistory server (Session.classify (c.queue server) p).1) c'' ps

namespace Course

variable {P : History → Client → List Packet → Prop}

/-- Pumping handles the packets that are in the buffer. If it leaves nothing to be read, all of them are. -/
theorem pump (hcourse : Course server P) (hbrings : c.Brings server arrivals ps) (hP : P log c ps) :
    ∃ c' left, c.pump server = (.ok (), c') ∧ c'.Brings server arrivals left ∧
      P (log ++ c.pumpHistory server) c' left ∧
      (arrivals = [] → c'.isReady server = false → left = []) := by
  induction ps generalizing c log with
  | nil =>
    obtain ⟨c', hreceive, hbrings', hnone⟩ | ⟨p, rest, c', hps, -⟩ := hbrings.receive
    · rw [pump_idle hreceive, pumpHistory_idle hreceive, List.append_nil]
      exact ⟨c', [], rfl, hbrings', hcourse.idle hP hreceive, hnone⟩
    · contradiction
  | cons first rest ih =>
    obtain ⟨c', hreceive, hbrings', hnone⟩ | ⟨p, rest', c', hps, hreceive, -, hbrings'⟩ :=
      hbrings.receive
    · rw [pump_idle hreceive, pumpHistory_idle hreceive, List.append_nil]
      exact ⟨c', first :: rest, rfl, hbrings', hcourse.idle hP hreceive, hnone⟩
    · obtain ⟨rfl, rfl⟩ := List.cons_eq_cons.1 hps
      obtain ⟨c'', hdispatch, hP'⟩ := hcourse.packet hP hreceive
      rw [pump_event hreceive, pumpHistory_event hreceive, hdispatch, ← List.append_assoc]
      exact ih (hbrings'.of_sessions (sessions_of_dispatch hdispatch)) hP'

/-- A wait that ends at the latest when all packets are handled finds its answer, whatever arrives behind
them. What it has not seen of them is still to come. -/
theorem run (hcourse : Course server P) {w : Watch α} (hdrive : ∀ c, w.drive c = c.pump server)
    (hready : ∀ c, w.ready c = c.isReady server)
    (hend : ∀ log c, P log c [] → w.waits c = false ∧ ∃ answer, w.settled c = some answer)
    (hbrings : c.Brings server arrivals ps) (hP : P log c ps) (behind : List Arrival) :
    ∃ c' outcome c'' arrivals' left, w.settled c' = some (outcome, c'') ∧
      w.run (arrivals ++ behind) c = ⟨some outcome, c'', arrivals' ++ behind⟩ ∧
      P (log ++ w.history (·.pumpHistory server) (arrivals ++ behind) c) c' left ∧
      c'.Brings server arrivals' left := by
  fun_induction Watch.run w arrivals c generalizing log ps with
  | case1 arrivals c outcome c' hsettled =>
    rw [Watch.run_settled hsettled, Watch.history_settled hsettled, List.append_nil]
    exact ⟨c, outcome, c', arrivals, ps, hsettled, rfl, hP, hbrings⟩
  | case2 arrivals c hsettled e c' hfault =>
    obtain ⟨_, _, hpump, -⟩ := hcourse.pump hbrings hP
    rw [hdrive, hpump] at hfault
    cases hfault
  | case3 arrivals c hsettled c' hdriven outcome c'' hanswer =>
    obtain ⟨_, left, hpump, hbrings', hP', -⟩ := hcourse.pump hbrings hP
    obtain ⟨-, rfl⟩ := Prod.mk.inj (hpump.symm.trans ((hdrive c).symm.trans hdriven))
    rw [dite_eq_ite] at hanswer
    rw [Watch.run_round hsettled hdriven, Watch.history_round hsettled hdriven, hanswer,
      List.append_nil]
    split at hanswer
    · contradiction
    · exact ⟨_, outcome, c'', arrivals, left, hanswer, rfl, hP', hbrings'⟩
  | case4 arrivals c hsettled c' hdriven hanswer hmore ih =>
    obtain ⟨_, left, hpump, hbrings', hP', -⟩ := hcourse.pump hbrings hP
    obtain ⟨-, rfl⟩ := Prod.mk.inj (hpump.symm.trans ((hdrive c).symm.trans hdriven))
    rw [dite_eq_ite] at hanswer
    rw [Watch.run_round hsettled hdriven, Watch.history_round hsettled hdriven, hanswer, if_pos hmore,
      if_pos hmore, ← List.append_assoc]
    exact ih hbrings' hP'
  | case5 c hsettled c' hdriven hanswer hmore =>
    obtain ⟨_, left, hpump, hbrings', hP', hnone⟩ := hcourse.pump hbrings hP
    obtain ⟨-, rfl⟩ := Prod.mk.inj (hpump.symm.trans ((hdrive c).symm.trans hdriven))
    rw [hready, Bool.not_eq_true] at hmore
    obtain rfl := hnone rfl hmore
    obtain ⟨hwaits, answer, hsettled'⟩ := hend _ _ hP'
    simp [hwaits, hsettled'] at hanswer
  | case6 c hsettled c' hdriven hanswer hmore a rest ih =>
    obtain ⟨_, left, hpump, hbrings', hP', -⟩ := hcourse.pump hbrings hP
    obtain ⟨-, rfl⟩ := Prod.mk.inj (hpump.symm.trans ((hdrive c).symm.trans hdriven))
    rw [dite_eq_ite] at hanswer
    rw [List.cons_append, Watch.run_round hsettled hdriven, Watch.history_round hsettled hdriven, hanswer,
      if_neg hmore, if_neg hmore, ← List.append_assoc]
    exact ih hbrings'.deliver (hcourse.arrival a hP')

end Course

end Gearman.Client
