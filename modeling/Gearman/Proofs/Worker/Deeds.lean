import Gearman.Proofs.Worker.Changes

/-!
The course of a worker, as far as the fate of jobs depends on it: jobs are assigned and executed, and
servers are lost with the jobs that came from them.
-/

namespace Gearman.Worker

variable {limit : UInt32} {w w' w'' w₁ : Worker} {server : Address}

/-- Between `w` and `w'` no job and no server was added, and only those jobs left whose server did. -/
structure Sheds (w w' : Worker) : Prop where
  servers : ∀ server, w'.hasServer server = true → w.hasServer server = true
  queue : w'.queue = w.queue.filter fun j => w'.hasServer j.server

/-- Every job in the queue comes from a server that the worker has. -/
def Housed (w : Worker) : Prop := ∀ j ∈ w.queue, w.hasServer j.server = true

theorem Sound.housed (hw : Sound limit w) : w.Housed := fun j hj => (hw.job j hj).2

theorem Housed.sheds_of_kept (hw : w.Housed) (hqueue : w'.queue = w.queue)
    (hservers : ∀ server, w'.hasServer server = w.hasServer server) : Sheds w w' where
  servers server h := hservers server ▸ h
  queue := by
    rw [hqueue]
    exact (List.filter_eq_self.2 fun j hj => (hservers j.server).trans (hw j hj)).symm

theorem Housed.sheds_of_lost (hw : w.Housed) (h : Lost server w w') : Sheds w w' where
  servers other hother := by
    obtain ⟨m, hm⟩ := hasServer_iff.1 hother
    rw [h.members] at hm
    split at hm
    · contradiction
    · exact hasServer_iff.2 ⟨m, hm⟩
  queue := by
    rw [h.queue]
    refine List.filter_congr fun j hj => ?_
    obtain ⟨m, hm⟩ := hasServer_iff.1 (hw j hj)
    by_cases hserver : j.server = server
    · simp [hserver, hasServer, Table.contains, h.members]
    · simp [hserver, hasServer, Table.contains, h.members, Ne.symm hserver, hm]

theorem Sheds.trans (h : Sheds w w') (h' : Sheds w' w'') : Sheds w w'' where
  servers server hserver := h.servers server (h'.servers server hserver)
  queue := by
    rw [h'.queue, h.queue, List.filter_filter]
    refine List.filter_congr fun j _ => ?_
    cases hserver : w''.hasServer j.server with
    | false => rfl
    | true => rw [h'.servers j.server hserver, Bool.true_and]

theorem Sheds.housed (h : Sheds w w') : w'.Housed := by
  intro j hj
  rw [h.queue, List.mem_filter] at hj
  exact hj.2

/-- As sessions go on or are given up, no job joins the queue and none but those of lost servers
leaves it. -/
theorem Housed.sheds_of_changes {P : Packet → Prop} (hw : w.Housed) (h : Changes P w w') :
    Sheds w w' := by
  induction h with
  | refl => exact hw.sheds_of_kept rfl fun _ => rfl
  | tail _ hchange ih =>
    refine ih.trans ?_
    cases hchange with
    | session hm hreplaced => exact ih.housed.sheds_of_kept hreplaced.queue (hreplaced.hasServer_eq hm)
    | lost hlost => exact ih.housed.sheds_of_lost hlost

/-- What happens to the jobs of a worker. -/
inductive Happening where
  | assigned (j : AssignedJob)
  | executed (j : AssignedJob)
  /-- The session of a server was given up. -/
  | lost (server : Address)
  | ended

/-- The servers that were given up between `w` and `w'`. -/
def departed (w w' : Worker) : List Address := w.servers.filter fun server => !w'.hasServer server

/-- What a worker does at a time, with what happens to its jobs. An execution goes from the moment at
which the job leaves the queue to the last report on it. -/
inductive Deed : Worker → List Happening → Worker → Prop
  | assigned {w w₁ : Worker} {server : Address} {event : Session.Event}
    {handle function data : Bytes} {unique : Option Bytes} {d : Definition}
    (hreceive : w.receive server = (some event, w₁))
    (hassigns : event.packet.Assigns handle function unique data)
    (hoffered : w.registry.get? (Text.Utf8.lossy function) = some d) :
    Deed w [.assigned (jobOf server handle function unique data d)] (w₁.dispatch server event).2
  | executed {w w' : Worker} {j : AssignedJob} {rest : List AssignedJob} {s : Scene}
    (hqueue : w.queue = j :: rest) (hs : s.worker = { w with queue := rest })
    (hexecute : (s.execute j).worker = w') :
    Deed w (.executed j :: (departed w w').map .lost) w'
  | joined (w : Worker) (server : Address) (accepted : Bool) :
    Deed w [] (w.addServer server accepted).2
  | ended (w : Worker) : Deed w [.ended] w.shutdown
  | aside {w w' : Worker} (hstep : Step w w') (hsheds : Sheds w w') :
    Deed w ((departed w w').map .lost) w'

/-- Deeds one after the other. -/
inductive Course : Worker → List Happening → Worker → Prop
  | refl (w : Worker) : Course w [] w
  | tail {w w' w'' : Worker} {log new : List Happening} (h : Course w log w')
    (hdeed : Deed w' new w'') : Course w (log ++ new) w''

theorem Deed.evolves {log : List Happening} (h : Deed w log w') : Evolves w w' := by
  cases h with
  | assigned hreceive => exact .single (.handled hreceive)
  | executed hqueue hs hexecute =>
    rw [← hexecute]
    exact (Labour.executed hqueue hs).evolves
  | joined server accepted => exact .single (.joined w server accepted)
  | ended => exact .single (.ended w)
  | aside hstep => exact .single hstep

theorem Course.evolves {log : List Happening} (h : Course w log w') : Evolves w w' := by
  induction h with
  | refl => exact .refl
  | tail _ hdeed ih => exact ih.trans hdeed.evolves

end Gearman.Worker
