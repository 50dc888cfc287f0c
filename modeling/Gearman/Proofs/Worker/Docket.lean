import Gearman.Proofs.Worker.Deeds

/-!
Assignments are neither lost nor duplicated: what has become of each job that was ever queued.
-/

namespace Gearman.Worker

namespace Happening

def assigned? : Happening → Option AssignedJob
  | .assigned j => some j
  | _ => none

def executed? : Happening → Option AssignedJob
  | .executed j => some j
  | _ => none

end Happening

/-- The jobs that a worker was assigned. Each goes with its number among them. -/
structure Docket where
  assigned : List AssignedJob := []
  executed : List (AssignedJob × Nat) := []
  /-- The jobs that went away with their server, or with the worker. -/
  lost : List (AssignedJob × Nat) := []
  waiting : List (AssignedJob × Nat) := []

namespace Docket

/-- The job that has waited longest is the one that is executed. -/
def next (d : Docket) : Happening → Docket
  | .assigned j =>
    { d with assigned := d.assigned ++ [j], waiting := d.waiting ++ [(j, d.assigned.length)] }
  | .executed _ =>
    { d with executed := d.executed ++ d.waiting.take 1, waiting := d.waiting.drop 1 }
  | .lost server =>
    { d with
      lost := d.lost ++ d.waiting.filter fun entry => entry.1.server = server
      waiting := d.waiting.filter fun entry => entry.1.server ≠ server }
  | .ended => { d with lost := d.lost ++ d.waiting, waiting := [] }

def extend (d : Docket) (log : List Happening) : Docket := log.foldl next d

/-- Each job is in one place, once, and jobs are executed in the order of their assignment. -/
structure Fair (d : Docket) : Prop where
  once : (d.executed ++ d.lost ++ d.waiting).Perm d.assigned.zipIdx
  order : (d.executed ++ d.waiting).Pairwise (·.2 < ·.2)

variable {d : Docket} {e : Happening} {log : List Happening}

theorem Fair.lt_length (h : d.Fair) {entry : AssignedJob × Nat}
    (hentry : entry ∈ d.executed ++ d.waiting) : entry.2 < d.assigned.length := by
  refine List.snd_lt_of_mem_zipIdx (h.once.mem_iff.1 ?_)
  rcases List.mem_append.1 hentry with hentry | hentry <;> simp [hentry]

theorem Fair.next (h : d.Fair) (e : Happening) : (d.next e).Fair := by
  have honce := h.once
  have horder := h.order
  rw [List.append_assoc] at honce
  cases e with
  | assigned j =>
    refine ⟨?_, ?_⟩
    · simp only [Docket.next, List.zipIdx_append, List.append_assoc]
      simpa using honce.append_right [(j, d.assigned.length)]
    · simp only [Docket.next, ← List.append_assoc]
      refine List.pairwise_append.2 ⟨horder, by simp, fun entry hentry last hlast => ?_⟩
      rw [List.mem_singleton.1 hlast]
      exact h.lt_length hentry
  | executed j =>
    refine ⟨?_, ?_⟩
    · simp only [Docket.next, List.append_assoc]
      refine .trans (.append_left _ (List.perm_append_comm_assoc ..)) ?_
      rwa [List.take_append_drop]
    · simpa only [Docket.next, List.append_assoc, List.take_append_drop] using horder
  | lost server =>
    have hparted : (d.waiting.filter (fun entry => entry.1.server = server) ++
        d.waiting.filter fun entry => entry.1.server ≠ server).Perm d.waiting := by
      simpa using List.filter_append_perm (fun entry => entry.1.server = server) d.waiting
    refine ⟨?_, ?_⟩
    · simp only [Docket.next, List.append_assoc]
      exact .trans (.append_left _ (.append_left _ hparted)) honce
    · exact horder.sublist (List.filter_sublist.append_left _)
  | ended =>
    refine ⟨?_, ?_⟩
    · simpa [Docket.next] using honce
    · simpa [Docket.next] using (List.pairwise_append.1 horder).1

theorem Fair.extend (h : d.Fair) (log : List Happening) : (d.extend log).Fair := by
  induction log generalizing d with
  | nil => exact h
  | cons e rest ih => exact ih (h.next e)

theorem assigned_extend (d : Docket) (log : List Happening) :
    (d.extend log).assigned = d.assigned ++ log.filterMap Happening.assigned? := by
  induction log generalizing d with
  | nil => simp [extend]
  | cons e rest ih =>
    simp only [extend, List.foldl_cons] at ih ⊢
    rw [ih]
    cases e <;> simp [next, Happening.assigned?, List.filterMap_cons]

theorem extend_append (d : Docket) (log new : List Happening) :
    d.extend (log ++ new) = (d.extend log).extend new :=
  List.foldl_append

/-- Lost servers take their jobs along, and no others. -/
theorem extend_lost (d : Docket) (servers : List Address) :
    (d.extend (servers.map .lost)).executed = d.executed ∧
      (d.extend (servers.map .lost)).waiting =
        d.waiting.filter fun entry => entry.1.server ∉ servers := by
  induction servers generalizing d with
  | nil => exact ⟨rfl, (List.filter_eq_self.2 (by simp)).symm⟩
  | cons server rest ih =>
    obtain ⟨hexecuted, hwaiting⟩ := ih (d.next (.lost server))
    refine ⟨hexecuted, hwaiting.trans ?_⟩
    simp only [next, List.filter_filter]
    refine List.filter_congr fun entry _ => ?_
    by_cases hserver : entry.1.server = server <;> simp [hserver]

end Docket

variable {limit : UInt32} {w w' : Worker} {d : Docket}

/-- A docket that lists the jobs of the queue as those that wait. -/
def Docket.Shows (d : Docket) (w : Worker) : Prop := d.waiting.map (·.1) = w.queue

theorem mem_departed {server : Address} (h : w.hasServer server = true) :
    server ∈ departed w w' ↔ w'.hasServer server = false := by
  obtain ⟨m, hm⟩ := hasServer_iff.1 h
  have hmem : server ∈ w.servers := List.mem_map.2 ⟨_, Table.mem_entries_of_get? hm, rfl⟩
  simp [departed, hmem]

/-- A docket follows a worker whose queue is left to the servers that stay; `w₀` may have another
queue. -/
theorem Sheds.shows {w₀ : Worker} (h : Sheds w w') (hmembers : w.members = w₀.members)
    (hw : w.Housed) (hd : d.Shows w) :
    (d.extend ((departed w₀ w').map .lost)).Shows w' := by
  have hstays : ∀ j ∈ w.queue, decide (j.server ∉ departed w₀ w') = w'.hasServer j.server := by
    intro j hj
    have hserver := hw j hj
    rw [hasServer, hmembers] at hserver
    cases hstays : w'.hasServer j.server <;> simp [mem_departed hserver, hstays]
  rw [Docket.Shows, (d.extend_lost _).2, h.queue, ← List.filter_congr hstays, ← hd, List.filter_map]
  rfl

theorem queue_retire (w : Worker) (s : Session) : (w.retire s).queue = w.queue := by
  unfold retire
  split <;> rfl

theorem queue_addServer (w : Worker) (server : Address) (accepted : Bool) :
    (w.addServer server accepted).2.queue = w.queue := by
  unfold addServer
  split
  · rfl
  · dsimp only
    split
    · rfl
    · split
      · exact queue_retire ..
      · split
        · next hask =>
          obtain ⟨issued, rfl⟩ := eq_of_ask hask
          exact queue_retire ..
        · next hask =>
          obtain ⟨issued, rfl⟩ := eq_of_ask hask
          rfl

/-- A docket that shows the queue goes along with every deed. The job that is executed is the one that
the docket has at its head. -/
theorem Sound.deed_shows (hw : Sound limit w) {new : List Happening} (h : Deed w new w')
    (hd : d.Shows w) :
    (d.extend new).Shows w' ∧ (d.extend new).executed.map (·.1) =
      d.executed.map (·.1) ++ new.filterMap Happening.executed? := by
  have hnone : ∀ servers : List Address,
      (servers.map Happening.lost).filterMap Happening.executed? = [] := by
    intro servers
    simp [List.filterMap_map, Happening.executed?]
  cases h with
  | assigned hreceive hassigns hoffered =>
    have hqueued := hw.queued hreceive hassigns hoffered
    refine ⟨?_, by simp [Docket.extend, Docket.next, Happening.executed?]⟩
    rw [Docket.Shows, hqueued.queue, ← hd]
    simp [Docket.extend, Docket.next]
  | @executed _ j rest s hqueue hs hexecute =>
    have htaken := (hw.step (.taken hqueue)).1
    have hsheds := htaken.housed.sheds_of_changes (htaken.works_tells (hs ▸ s.tells_execute j))
    rw [hexecute] at hsheds
    obtain ⟨first, waiting, hwaiting, rfl, hrest⟩ :
        ∃ first waiting, d.waiting = first :: waiting ∧ first.1 = j ∧ waiting.map (·.1) = rest :=
      List.map_eq_cons_iff.1 (hd.trans hqueue)
    have hshows : (d.next (.executed first.1)).Shows { w with queue := rest } := by
      simpa [Docket.Shows, Docket.next, hwaiting] using hrest
    refine ⟨hsheds.shows rfl htaken.housed hshows, ?_⟩
    change ((d.next _).extend _).executed.map (·.1) = _
    rw [((d.next _).extend_lost _).1, List.filterMap_cons, hnone]
    simp [Docket.next, hwaiting, Happening.executed?]
  | joined server accepted =>
    refine ⟨hd.trans (queue_addServer w server accepted).symm, by simp [Docket.extend]⟩
  | ended =>
    exact ⟨rfl, by simp [Docket.extend, Docket.next, Happening.executed?]⟩
  | aside hstep hsheds =>
    refine ⟨hsheds.shows rfl hw.housed hd, ?_⟩
    rw [(d.extend_lost _).1, hnone, List.append_nil]

/-- What a docket has to say of a worker and its log. -/
structure Docket.Accounts (d : Docket) (log : List Happening) (w : Worker) : Prop where
  fair : d.Fair
  assigned : d.assigned = log.filterMap Happening.assigned?
  executed : d.executed.map (·.1) = log.filterMap Happening.executed?
  waiting : d.waiting.map (·.1) = w.queue

theorem Sound.course_shows (hw : Sound limit w) {log : List Happening} (h : Course w log w')
    (hd : d.Shows w) :
    (d.extend log).Shows w' ∧ (d.extend log).executed.map (·.1) =
      d.executed.map (·.1) ++ log.filterMap Happening.executed? := by
  induction h with
  | refl => exact ⟨hd, by simp [Docket.extend]⟩
  | tail hcourse hdeed ih =>
    obtain ⟨hshows, hexecuted⟩ := ih
    obtain ⟨hshows', hexecuted'⟩ := (hw.evolves hcourse.evolves).deed_shows hdeed hshows
    rw [Docket.extend_append]
    exact ⟨hshows', by rw [hexecuted', hexecuted, List.filterMap_append, List.append_assoc]⟩

theorem Course.accounts {settings : WorkerSettings} {log : List Happening}
    (h : Course (withSettings settings) log w) : (Docket.extend {} log).Accounts log w := by
  obtain ⟨hshows, hexecuted⟩ := (sound_withSettings settings).course_shows (d := {}) h rfl
  exact ⟨.extend ⟨.refl _, .nil⟩ log, Docket.assigned_extend {} log, hexecuted, hshows⟩

end Gearman.Worker
