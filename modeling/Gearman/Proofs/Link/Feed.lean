import Gearman.Proofs.Link.Inbound

/-!
What comes out of a connection is what the server has sent, however it arrived and whenever it was read.
-/

namespace Gearman

/-- Whether the error tells of a bad header. -/
def Error.isFraming : Error → Bool
  | .badMagic _ | .unknownKind _ | .payloadTooLarge _ _ => true
  | _ => false

theorem Header.isFraming_of_decode {bs : Bytes} {e : Error} (hlong : size ≤ bs.length)
    (h : decode bs = .error e) : e.isFraming = true := by
  obtain ⟨_, _, _, _, _, _, _, _, _, _, _, _, _, rfl⟩ := exists_of_size_le hlong
  simp only [decode] at h
  repeat' split at h
  all_goals
    cases h
    try rfl

theorem Header.isFraming_of_fault? {limit : UInt32} {bs : Bytes} {e : Error}
    (h : fault? limit bs = some e) : e.isFraming = true := by
  unfold fault? at h
  split at h
  · contradiction
  · next hlong =>
    split at h
    · next e' hdecode =>
      cases h
      exact isFraming_of_decode (Nat.le_of_not_lt hlong) hdecode
    · next header hdecode =>
      split at h
      · next e' hcheck =>
        cases h
        unfold checkLength at hcheck
        split at hcheck
        · contradiction
        · cases hcheck
          rfl
      · contradiction

/-- A connection that is only read from, what its server has sent, and what each read has said. -/
structure Feed where
  connection : Connection
  sent : Bytes := []
  /-- Whether the server has ended the stream. -/
  ended : Bool := false
  reports : List (Except Error (Option Packet)) := []

namespace Feed

inductive Move where
  /-- The server sends some bytes, which may be its last ones. -/
  | arrival (bytes : Bytes) (last : Bool)
  | read
deriving DecidableEq, Repr

def start (peer : Address) (settings : ConnectionSettings) : Feed :=
  { connection := .fresh peer settings }

def move (f : Feed) : Move → Feed
  | .arrival bytes last =>
    if f.ended then f
    else
      let a : Arrival := ⟨f.connection.peer, bytes, if last then .close else .none⟩
      { f with connection := (f.connection.deliver a).1, sent := f.sent ++ bytes, ended := last }
  | .read =>
    { f with connection := f.connection.read.2, reports := f.reports ++ [f.connection.read.1] }

def run (f : Feed) (moves : List Move) : Feed := moves.foldl move f

/-- The packets that the reads have brought, in order. -/
def packets (f : Feed) : List Packet := f.reports.flatMap Connection.brought

/-- What a read says once it has nothing more to bring. -/
def verdict (limit : UInt32) (peer : Address) (sent : Bytes) (ended : Bool) :
    Except Error (Option Packet) :=
  match Header.fault? limit (Packet.unframe limit sent).2 with
  | some e => .error e
  | none => if ended then .error (.severed peer.text) else .ok none

/-- The packets that were brought and those that are still to come are the packets that were sent. -/
structure Faithful (limit : UInt32) (peer : Address) (f : Feed) : Prop where
  steady : f.connection.Steady
  fate : f.connection.stream.fate = if f.ended then .ended else .flowing
  maxPayload : f.connection.maxPayload = limit
  address : f.connection.peer = peer
  frames : Packet.unframe limit f.sent =
    (f.packets ++ (Packet.unframe limit f.connection.pending).1,
      (Packet.unframe limit f.connection.pending).2)
  length_le : f.connection.pending.length ≤ f.sent.length

variable {limit : UInt32} {peer : Address} {f : Feed}

theorem faithful_start (peer : Address) (settings : ConnectionSettings) :
    Faithful settings.maxPayloadSize peer (start peer settings) where
  steady := ⟨.inl rfl, by simp [start, Connection.fresh]⟩
  fate := rfl
  maxPayload := rfl
  address := rfl
  frames := rfl
  length_le := Nat.le_refl _

theorem packets_read (f : Feed) : (f.move .read).packets =
    f.packets ++ Connection.brought f.connection.read.1 := by
  simp [packets, move]

theorem Faithful.arrival (h : Faithful limit peer f) (bytes : Bytes) (last : Bool) :
    Faithful limit peer (f.move (.arrival bytes last)) := by
  unfold move
  cases hended : f.ended with
  | true => exact h
  | false =>
    have hflowing : f.connection.stream.fate = .flowing := by rw [h.fate, hended]; rfl
    have hopen : f.connection.sawEnd = false :=
      Connection.sawEnd_eq_false h.steady.sawEnd (by simp [hflowing])
    have hframes : Packet.unframe limit (f.sent ++ bytes) =
        (f.packets ++ (Packet.unframe limit (f.connection.pending ++ bytes)).1,
          (Packet.unframe limit (f.connection.pending ++ bytes)).2) := by
      rw [Packet.unframe_append, h.frames, Packet.unframe_append limit f.connection.pending]
      simp
    have hlength : (f.connection.pending ++ bytes).length ≤ (f.sent ++ bytes).length := by
      have := h.length_le
      simp only [List.length_append]
      omega
    have hpending : f.connection.pending ++ bytes =
        f.connection.inbound.bytes ++ (f.connection.stream.arriving ++ bytes) := by
      simp [Connection.pending]
    rw [hpending] at hframes hlength
    simp only [Bool.false_eq_true, if_false, Connection.deliver, Stream.deliver?, hflowing]
    cases last with
    | true => exact ⟨⟨.inr rfl, by simp [hopen]⟩, rfl, h.maxPayload, h.address, hframes, hlength⟩
    | false => exact ⟨⟨.inl rfl, by simp [hopen]⟩, rfl, h.maxPayload, h.address, hframes, hlength⟩

theorem Faithful.read (h : Faithful limit peer f) : Faithful limit peer (f.move .read) := by
  obtain ⟨r, c', hread, hsteady, hkept, -, hreading⟩ := Connection.read_steady h.steady
  obtain ⟨hframes, hlength⟩ := hreading.unframe
  have hpackets := packets_read f
  rw [hread] at hpackets
  rw [h.maxPayload] at hframes
  have hconnection : (f.move .read).connection = c' := by rw [move, hread]
  refine ⟨?_, ?_, ?_, ?_, ?_, ?_⟩
  · rwa [hconnection]
  · rw [hconnection, hkept.fate]
    exact h.fate
  · rw [hconnection, hkept.maxPayload, h.maxPayload]
  · rw [hconnection, hkept.peer, h.address]
  · rw [hconnection, hpackets, List.append_assoc]
    have hall := h.frames
    rwa [hframes] at hall
  · rw [hconnection]
    exact Nat.le_trans hlength h.length_le

theorem Faithful.run (h : Faithful limit peer f) (moves : List Move) :
    Faithful limit peer (f.run moves) := by
  induction moves generalizing f with
  | nil => exact h
  | cons m rest ih =>
    cases m with
    | arrival bytes last => exact ih (h.arrival bytes last)
    | read => exact ih h.read

/-- How much is left to be read. -/
def todo (limit : UInt32) (f : Feed) : Nat :=
  f.connection.unread + (Packet.unframe limit f.connection.pending).1.length

theorem Faithful.todo_le (h : Faithful limit peer f) : f.todo limit ≤ 2 * f.sent.length + 1 := by
  have hframes := Packet.length_unframe_le limit f.connection.pending
  have hlength := h.length_le
  have hunread : f.connection.unread ≤ f.connection.stream.arriving.length + 1 := by
    unfold Connection.unread Stream.unread
    repeat' split
    all_goals omega
  have hpending : f.connection.stream.arriving.length ≤ f.connection.pending.length := by
    simp [Connection.pending]
  unfold todo
  omega

/-- When no byte is left in the stream, a read either brings a packet or there is none left. -/
theorem Faithful.todo_read (h : Faithful limit peer f) :
    (f.move .read).todo limit < f.todo limit ∨ (f.move .read).todo limit = 0 := by
  obtain ⟨r, c', hread, hsteady, hkept, hunread, hreading⟩ := Connection.read_steady h.steady
  obtain ⟨hframes, -⟩ := hreading.unframe
  rw [h.maxPayload] at hframes
  have hconnection : (f.move .read).connection = c' := by rw [move, hread]
  have hcount : (Packet.unframe limit f.connection.pending).1.length =
      (Connection.brought r).length + (Packet.unframe limit c'.pending).1.length := by
    rw [hframes, List.length_append]
  simp only [todo, hconnection]
  by_cases hless : c'.unread < f.connection.unread
  · omega
  · have hnone : c'.unread = 0 := hunread.resolve_left hless
    by_cases hbrought : (Connection.brought r).length = 0
    · have hpending : Packet.frame? limit c'.pending = none := by
        rw [Connection.pending, Connection.arriving_eq_nil hsteady hnone, List.append_nil]
        cases hreading with
        | packet => simp [Connection.brought] at hbrought
        | nothing hfault hframe hbytes => rw [hbytes, ← h.maxPayload, hframe]
        | fault hfault hbytes => rw [hbytes, ← h.maxPayload, Packet.frame?_of_fault? hfault]
        | severed hfault hframe hbytes => rw [hbytes, ← h.maxPayload, hframe]
      exact .inr (by rw [hnone, Packet.unframe_of_none hpending]; rfl)
    · omega

theorem Faithful.todo_reads (h : Faithful limit peer f) (n : Nat) :
    (f.run (List.replicate n .read)).todo limit ≤ f.todo limit - n := by
  induction n generalizing f with
  | zero => exact Nat.le_refl _
  | succ n ih =>
    have hstep := h.todo_read
    have hrest := ih h.read
    rw [List.replicate_succ, Feed.run, List.foldl_cons, ← Feed.run]
    omega

/-- When nothing is left to be read, all packets were brought and a read gives the verdict. -/
theorem Faithful.read_of_todo (h : Faithful limit peer f) (htodo : f.todo limit = 0) :
    f.packets = (Packet.unframe limit f.sent).1 ∧
      f.connection.read.1 = verdict limit peer f.sent f.ended := by
  obtain ⟨hunread, hnone⟩ := Nat.add_eq_zero_iff.1 htodo
  have hframe : Packet.frame? limit f.connection.pending = none := by
    cases hframe : Packet.frame? limit f.connection.pending with
    | none => rfl
    | some p => simp [Packet.unframe_of_some hframe] at hnone
  have hframes := h.frames
  rw [Packet.unframe_of_none hframe, List.append_nil] at hframes
  refine ⟨by rw [hframes], ?_⟩
  obtain ⟨r, c', hread, hsteady, hkept, hunread', hreading⟩ := Connection.read_steady h.steady
  have hended : c'.sawEnd = f.ended := by
    have hfate := hkept.fate.trans h.fate
    cases hsaw : c'.sawEnd with
    | true =>
      rw [(hsteady.sawEnd hsaw).1] at hfate
      cases hended : f.ended with
      | true => rfl
      | false => simp [hended] at hfate
    | false =>
      have hnothing : c'.unread = 0 := by omega
      simp only [Connection.unread, hsaw, Stream.unread, hfate] at hnothing
      cases hended : f.ended with
      | true => simp [hended] at hnothing
      | false => rfl
  have hbuffered := Connection.buffered_of_unread h.steady hunread
  rw [hread, verdict, hframes]
  cases hreading with
  | packet hfault hsome =>
    rw [h.maxPayload, hframe] at hsome
    contradiction
  | nothing hfault hnone hbytes hpending hopen =>
    rw [h.maxPayload, hbuffered] at hfault
    rw [hfault, ← hended, hopen]
    rfl
  | fault hfault =>
    rw [h.maxPayload, hbuffered] at hfault
    rw [hfault]
  | severed hfault hnone hbytes hpending hend =>
    rw [h.maxPayload, hbuffered] at hfault
    rw [hfault, ← hended, hend, h.address]
    rfl

/-- An error is reported when all packets before it were brought, and it is a bad header or the end of
the stream. -/
theorem Faithful.read_error (h : Faithful limit peer f) {e : Error}
    (he : f.connection.read.1 = .error e) : f.packets = (Packet.unframe limit f.sent).1 ∧
      (e.isFraming = true ∨ e = .severed peer.text ∧ f.ended = true) := by
  obtain ⟨r, c', hread, hsteady, hkept, -, hreading⟩ := Connection.read_steady h.steady
  rw [hread] at he
  obtain rfl : r = .error e := he
  have hall : ∀ hframe : Packet.frame? limit f.connection.pending = none,
      f.packets = (Packet.unframe limit f.sent).1 := by
    intro hframe
    rw [h.frames, Packet.unframe_of_none hframe, List.append_nil]
  cases hreading with
  | fault hfault =>
    obtain ⟨more, hmore⟩ := Connection.buffered_prefix h.steady
    rw [h.maxPayload] at hfault
    refine ⟨hall ?_, .inl (Header.isFraming_of_fault? hfault)⟩
    rw [← hmore]
    exact Packet.frame?_of_fault? (Header.fault?_append hfault more)
  | severed hfault hnone hbytes hpending hend =>
    obtain ⟨hfate, harriving⟩ := hsteady.sawEnd hend
    rw [h.maxPayload] at hnone
    refine ⟨hall ?_, .inr ⟨by rw [h.address], ?_⟩⟩
    · rw [← hpending, Connection.pending, harriving, List.append_nil, hbytes, hnone]
    · rw [hkept.fate, h.fate] at hfate
      cases hended : f.ended with
      | true => rfl
      | false => simp [hended] at hfate

/-- A framing error is what a read says exactly if a bad header stands at the front of the buffer. -/
theorem Faithful.read_framing (h : Faithful limit peer f) {e : Error} (he : e.isFraming = true) :
    f.connection.read.1 = .error e ↔ Header.fault? limit f.connection.buffered = some e := by
  obtain ⟨r, c', hread, -, -, -, hreading⟩ := Connection.read_steady h.steady
  rw [hread, ← h.maxPayload]
  cases hreading with
  | packet hfault => simp [hfault]
  | nothing hfault => simp [hfault]
  | fault hfault => simp [hfault]
  | severed hfault =>
    rw [hfault]
    refine ⟨fun hsame => ?_, by simp⟩
    cases hsame
    contradiction

theorem sent_reads (f : Feed) (n : Nat) : (f.run (List.replicate n .read)).sent = f.sent ∧
    (f.run (List.replicate n .read)).ended = f.ended := by
  induction n generalizing f with
  | zero => exact ⟨rfl, rfl⟩
  | succ n ih => exact ih (f.move .read)

theorem length_reports (f : Feed) (moves : List Move) :
    (f.run moves).reports.length = f.reports.length + moves.count .read := by
  induction moves generalizing f with
  | nil => rfl
  | cons m rest ih =>
    rw [Feed.run, List.foldl_cons, ← Feed.run, ih, List.count_cons]
    cases m with
    | arrival bytes last => cases hended : f.ended <;> simp [move, hended]
    | read =>
      simp only [move, List.length_append, List.length_singleton, beq_self_eq_true, if_true]
      omega

/-- Inbound decoding: the reads bring the packets that the server has sent, frame by frame, and an error
when they come to a bad header or to the end of the stream. After enough reads nothing is left out, and
neither the packets nor the last report depend on how the bytes were cut or when they were read. -/
theorem run_eq_unframe (peer : Address) (settings : ConnectionSettings) (moves : List Move) :
    let limit := settings.maxPayloadSize
    let f := (start peer settings).run moves
    f.packets <+: (Packet.unframe limit f.sent).1 ∧
      f.reports.length = moves.count .read ∧
      (∀ e : Error, e.isFraming = true → (f.connection.read.1 = .error e ↔
        Header.fault? limit f.connection.buffered = some e)) ∧
      (∀ e : Error, f.connection.read.1 = .error e →
        f.packets = (Packet.unframe limit f.sent).1 ∧
          (e.isFraming = true ∨ e = .severed peer.text ∧ f.ended = true)) ∧
      ∀ n, 2 * f.sent.length + 1 < n →
        (f.run (.replicate n .read)).packets = (Packet.unframe limit f.sent).1 ∧
          (f.run (.replicate n .read)).reports.getLast? =
            some (verdict limit peer f.sent f.ended) := by
  intro limit f
  have h : Faithful limit peer f := (faithful_start peer settings).run moves
  refine ⟨?_, ?_, ?_, fun e => h.read_error, ?_⟩
  · rw [h.frames]
    exact List.prefix_append _ _
  · rw [length_reports]
    simp [start]
  · exact fun e => h.read_framing
  · intro n hn
    obtain ⟨m, rfl⟩ : ∃ m, n = m + 1 := ⟨n - 1, by omega⟩
    have hdone := h.run (.replicate m .read)
    have htodo : (f.run (.replicate m .read)).todo limit = 0 := by
      have hle := h.todo_reads m
      have hmost := h.todo_le
      omega
    obtain ⟨hsent, hended⟩ := sent_reads f m
    obtain ⟨-, hverdict⟩ := hdone.read_of_todo htodo
    have hagain : ((f.run (.replicate m .read)).move .read).todo limit = 0 := by
      have := hdone.todo_read
      omega
    obtain ⟨hpackets, -⟩ := hdone.read.read_of_todo hagain
    rw [List.replicate_succ', Feed.run, List.foldl_append, ← Feed.run]
    refine ⟨?_, ?_⟩
    · rw [← hsent]
      exact hpackets
    · rw [← hsent, ← hended, ← hverdict]
      exact List.getLast?_concat

end Feed

end Gearman
