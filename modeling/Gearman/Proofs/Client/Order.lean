import Gearman.Proofs.Client.Effects

/-!
Servers in order: every packet that they send is a report or the answer to the oldest request, and can be
read. What is left to be answered behind some packets is a fold over them.
-/

namespace Gearman

/-- Whether a packet can be read does not depend on what is known of the job. -/
theorem JobResult.outcome_of_apply (r r' : JobResult) (p : Packet) :
    (r.apply p).1 = (r'.apply p).1 := by
  unfold apply
  dsimp only
  split
  case h_3 =>
    unfold applyStatus
    repeat' split
    all_goals simp_all
  all_goals rfl

/-- Whether a packet can be read, if it tells of a job. -/
def Packet.isReadable (p : Packet) : Bool :=
  if p.kind = .statusRes then (JobStatus.ofPacket p).isOk
  else if p.isReport then ((JobResult.pending []).apply p).1.isOk
  else true

theorem JobResult.apply_of_isReadable {p : Packet} (hp : p.isReport = true)
    (hreadable : p.isReadable = true) (r : JobResult) : (r.apply p).1 = .ok p.kind.isFinal := by
  have hkind : p.kind ≠ .statusRes := by
    intro hkind
    simp [Packet.isReport, hkind, Kind.isUpdate, Kind.isFinal] at hp
  rw [Packet.isReadable, if_neg hkind, if_pos hp, outcome_of_apply _ r] at hreadable
  cases hresult : r.apply p with
  | mk outcome r' =>
    cases outcome with
    | error e =>
      rw [hresult] at hreadable
      contradiction
    | ok last => rw [isFinal_of_apply hresult]

/-- An exchange is completed by an answer that can be read. -/
theorem Exchange.respond_of_isReadable {x : Exchange} {k : Kind} {p : Packet} (hfits : x.fits k = true)
    (hanswers : p.kind.answers k = true) (hreadable : p.isReadable = true) :
    (x.respond p).1 = .ok true := by
  cases x with
  | submission background handle => rfl
  | echo data => rfl
  | status answer =>
    obtain rfl : k = .getStatus := by simpa [fits] using hfits
    have hkind : p.kind = .statusRes := by
      simpa [Kind.answers, Kind.isSubmission] using hanswers
    rw [Packet.isReadable, if_pos hkind] at hreadable
    simp only [respond]
    cases hstatus : JobStatus.ofPacket p with
    | ok found => rfl
    | error e =>
      rw [hstatus] at hreadable
      contradiction

namespace Session

variable {awaiting rest : List Awaited} {p : Packet} {ps more : List Packet}

/-- What is left to be answered behind a packet, if it is in order. -/
def after? (awaiting : List Awaited) (p : Packet) : Option (List Awaited) :=
  match classify awaiting p with
  | (.reply _ _, rest) => if p.isReadable then some rest else none
  | (.unsolicited _, rest) => if p.isReport && p.isReadable then some rest else none

/-- What is left to be answered behind some packets, if all are in order. -/
def afterAll? (awaiting : List Awaited) (ps : List Packet) : Option (List Awaited) :=
  ps.foldlM after? awaiting

theorem afterAll?_cons : afterAll? awaiting (p :: ps) = (after? awaiting p).bind (afterAll? · ps) :=
  List.foldlM_cons

theorem afterAll?_append :
    afterAll? awaiting (ps ++ more) = (afterAll? awaiting ps).bind (afterAll? · more) :=
  List.foldlM_append

theorem after?_eq_some (h : after? awaiting p = some rest) : p.isReadable = true ∧
    (classify awaiting p).2 = rest ∧
      ((∃ a, awaiting = a :: rest ∧ isReply p a = true ∧ (classify awaiting p).1 = .reply a.task p) ∨
        p.isReport = true ∧ awaiting = rest ∧ (classify awaiting p).1 = .unsolicited p) := by
  unfold after? at h
  split at h
  · next id q rest' hclassify =>
    obtain ⟨rfl, a, rfl, rfl, hreply⟩ := classify_reply hclassify
    split at h
    · next hreadable =>
      cases h
      exact ⟨hreadable, by rw [hclassify], .inl ⟨a, rfl, hreply, by rw [hclassify]⟩⟩
    · contradiction
  · next q rest' hclassify =>
    obtain ⟨rfl, rfl, -⟩ := classify_unsolicited hclassify
    split at h
    · next hreadable =>
      cases h
      rw [Bool.and_eq_true] at hreadable
      exact ⟨hreadable.2, by rw [hclassify], .inr ⟨hreadable.1, rfl, by rw [hclassify]⟩⟩
    · contradiction

/-- A report answers no request. -/
theorem isReply_of_isReport (hp : p.isReport = true) (a : Awaited) : isReply p a = false := by
  rw [Packet.isReport, Bool.and_eq_true] at hp
  cases hanswers : p.kind.answers a.kind with
  | false => simp [isReply, hanswers]
  | true =>
    rw [Kind.isUpdate_of_answers hanswers] at hp
    simp at hp

theorem after?_of_isReport (hp : p.isReport = true) (hreadable : p.isReadable = true) :
    after? awaiting p = some awaiting := by
  cases awaiting with
  | nil => simp [after?, classify, hp, hreadable]
  | cons a rest => simp [after?, classify, isReply_of_isReport hp, hp, hreadable]

theorem after?_of_isReply {a : Awaited} (hp : isReply p a = true) (hreadable : p.isReadable = true) :
    after? (a :: rest) p = some rest := by
  simp [after?, classify, hp, hreadable]

/-- Reports leave all requests to be answered. -/
theorem afterAll?_of_reports (h : ∀ p ∈ ps, p.isReport = true ∧ p.isReadable = true) :
    afterAll? awaiting ps = some awaiting := by
  induction ps with
  | nil => rfl
  | cons p ps ih =>
    obtain ⟨hp, hreadable⟩ := h p List.mem_cons_self
    rw [afterAll?_cons, after?_of_isReport hp hreadable]
    exact ih fun p hp => h p (List.mem_cons_of_mem _ hp)

theorem suffix_of_after? (h : after? awaiting p = some rest) : rest <:+ awaiting := by
  obtain ⟨-, -, ⟨a, rfl, -⟩ | ⟨-, rfl, -⟩⟩ := after?_eq_some h
  · exact List.suffix_cons a rest
  · exact List.suffix_refl _

/-- Requests are answered from the front of the queue. -/
theorem suffix_of_afterAll? (h : afterAll? awaiting ps = some rest) : rest <:+ awaiting := by
  induction ps generalizing awaiting with
  | nil =>
    cases h
    exact List.suffix_refl _
  | cons p ps ih =>
    rw [afterAll?_cons] at h
    obtain ⟨next, hnext, hrest⟩ := Option.bind_eq_some_iff.1 h
    exact (ih hrest).trans (suffix_of_after? hnext)

end Session

end Gearman
