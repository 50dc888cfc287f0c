import Gearman.Proofs.Link.Feed

/-!
A buffer whose packets are taken whenever a chunk has come in.

What is taken and what is left are the packets of the bytes and the bytes behind them, as `Packet.unframe`
tells them from the whole. So they do not depend on where the chunks were cut, be the bytes packets or not.
-/

namespace Gearman

namespace Packet

variable {limit : UInt32}

/-- No packet stands at the front of what is left when all packets are taken. -/
theorem frame?_unframe (limit : UInt32) (bs : Bytes) : frame? limit (unframe limit bs).2 = none := by
  fun_induction unframe limit bs with
  | case1 bs hnone => exact hnone
  | case2 bs p hsome ih => exact ih

/-- Bytes that are neither a packet nor a bad header are fewer than a header and the longest payload. -/
theorem length_lt_of_frame? {bs : Bytes} (hframe : frame? limit bs = none)
    (hfault : Header.fault? limit bs = none) : bs.length < Header.size + limit.toNat := by
  unfold Header.fault? at hfault
  split at hfault
  · omega
  · split at hfault
    · contradiction
    · next h hheader =>
      have hle : h.length.toNat ≤ limit.toNat := by
        refine Decidable.byContradiction fun hlong => ?_
        rw [← UInt32.le_iff_toNat_le] at hlong
        simp [Header.checkLength, hlong] at hfault
      have hshort : ¬ h.packetLength ≤ bs.length := by
        intro hlong
        have hdecode := decode_eq_ok.2 ⟨h, hheader, hlong, rfl⟩
        have hfits : ((bs.drop Header.size).take h.length.toNat).length ≤ limit.toNat := by
          rw [List.length_take]
          omega
        have hsome := frame?_eq_some.2 ⟨hdecode, hfits⟩
        rw [hframe] at hsome
        contradiction
      rw [Header.packetLength] at hshort
      omega

end Packet

/-- A buffer with what was taken from it. -/
structure Intake where
  buffer : Reassembly
  packets : List Packet := []
  /-- What was wrong when a packet was last asked for. -/
  fault : Option Error := none

namespace Intake

/-- A buffer for payloads of up to `limit` bytes, before anything has come in. -/
def start (limit : UInt32) : Intake := { buffer := .empty limit }

/-- Takes packets until there is none to take. -/
def exhaust (i : Intake) : Intake :=
  match _h : i.buffer.next? with
  | .error e => { i with fault := some e }
  | .ok (none, buffer) => { i with buffer, fault := none }
  | .ok (some p, buffer) => exhaust { i with buffer, packets := i.packets ++ [p] }
termination_by i.buffer.size
decreasing_by
  have := Reassembly.next?_size _h
  simp only [Header.size] at this
  omega

/-- Appends a chunk and takes the packets that are complete then. -/
def chunk (i : Intake) (bs : Bytes) : Intake := exhaust { i with buffer := i.buffer.feed bs }

def run (i : Intake) (chunks : List Bytes) : Intake := chunks.foldl chunk i

/-- The packets of `bs` were taken, and the bytes behind them are left. -/
structure Accounts (limit : UInt32) (bs : Bytes) (i : Intake) : Prop where
  maxPayload : i.buffer.maxPayload = limit
  unframe : Packet.unframe limit bs = (i.packets, i.buffer.bytes)
  fault : i.fault = Header.fault? limit i.buffer.bytes

variable {limit : UInt32} {bs : Bytes} {i : Intake}

theorem accounts_start (limit : UInt32) : Accounts limit [] (start limit) where
  maxPayload := rfl
  unframe := Packet.unframe_of_none rfl
  fault := rfl

/-- The packets at the front of the buffer are taken one by one. -/
theorem accounts_exhaust (hlimit : i.buffer.maxPayload = limit)
    (hframes : Packet.unframe limit bs = (i.packets ++ (Packet.unframe limit i.buffer.bytes).1,
      (Packet.unframe limit i.buffer.bytes).2)) : Accounts limit bs i.exhaust := by
  fun_induction exhaust i with
  | case1 i e hnext =>
    have hfault := Reassembly.fault?_of_next? hnext
    rw [hlimit] at hfault
    rw [Packet.unframe_of_none (Packet.frame?_of_fault? hfault), List.append_nil] at hframes
    exact ⟨hlimit, hframes, hfault.symm⟩
  | case2 i buffer hnext =>
    obtain ⟨hfault, hframe, hbytes, hkept⟩ := Reassembly.eq_of_next?_none hnext
    rw [hlimit] at hfault hframe
    rw [Packet.unframe_of_none hframe, List.append_nil, ← hbytes] at hframes
    rw [← hbytes] at hfault
    exact ⟨hkept.trans hlimit, hframes, hfault.symm⟩
  | case3 i p buffer hnext ih =>
    obtain ⟨hframe, hbytes, hkept⟩ := Reassembly.frame?_of_next? hnext
    rw [hlimit] at hframe
    rw [Packet.unframe_of_some hframe, ← hbytes] at hframes
    exact ih (hkept.trans hlimit) (by simpa using hframes)

theorem Accounts.chunk (h : Accounts limit bs i) (more : Bytes) :
    Accounts limit (bs ++ more) (i.chunk more) := by
  refine accounts_exhaust h.maxPayload ?_
  rw [Packet.unframe_append, h.unframe, Reassembly.bytes_feed]

theorem Accounts.run (h : Accounts limit bs i) (chunks : List Bytes) :
    Accounts limit (bs ++ chunks.flatten) (i.run chunks) := by
  induction chunks generalizing bs i with
  | nil => simpa [Intake.run] using h
  | cons more rest ih =>
    rw [List.flatten_cons, ← List.append_assoc]
    exact ih (h.chunk more)

/-- A bad header stays where it is, whatever comes in behind it. -/
theorem Accounts.next?_feed (h : Accounts limit bs i) {e : Error} (he : i.fault = some e)
    (more : List Bytes) : (more.foldl Reassembly.feed i.buffer).next? = .error e := by
  have hfed : ∀ r : Reassembly, (more.foldl Reassembly.feed r).maxPayload = r.maxPayload ∧
      (more.foldl Reassembly.feed r).bytes = r.bytes ++ more.flatten := by
    induction more with
    | nil => simp
    | cons first rest ih =>
      intro r
      obtain ⟨hlimit, hbytes⟩ := ih (r.feed first)
      exact ⟨hlimit, by simp [hbytes]⟩
  obtain ⟨hlimit, hbytes⟩ := hfed i.buffer
  have hfault := Header.fault?_append (h.fault.symm.trans he) more.flatten
  rw [← hbytes, ← h.maxPayload, ← hlimit] at hfault
  rcases (more.foldl Reassembly.feed i.buffer).next?_cases with ⟨e', hfault', hnext⟩ |
    ⟨p, r, hnone, -⟩ | ⟨r, hnone, -⟩
  · rw [hfault, Option.some.injEq] at hfault'
    rw [hnext, hfault']
  · simp [hfault] at hnone
  · simp [hfault] at hnone

/-- However a byte string is cut, the same packets are taken from it. In the end the same bytes are left,
too few for one more packet, or the same bad header is in front, and stays there. -/
theorem run_eq_of_flatten_eq (limit : UInt32) {chunks chunks' : List Bytes}
    (h : chunks.flatten = chunks'.flatten) :
    let i := (start limit).run chunks
    let i' := (start limit).run chunks'
    i.packets = i'.packets ∧ i.fault = i'.fault ∧ i.buffer.bytes = i'.buffer.bytes ∧
      Packet.unframe limit chunks.flatten = (i.packets, i.buffer.bytes) ∧
      (∀ e, i.fault = some e → e.isFraming = true ∧
        ∀ more : List Bytes, (more.foldl Reassembly.feed i.buffer).next? = .error e) ∧
      (i.fault = none → i.buffer.bytes.length < Header.size + limit.toNat) := by
  intro i i'
  have hi : Accounts limit chunks.flatten i := (accounts_start limit).run chunks
  have hi' : Accounts limit chunks'.flatten i' := (accounts_start limit).run chunks'
  obtain ⟨hpackets, hbytes⟩ : i.packets = i'.packets ∧ i.buffer.bytes = i'.buffer.bytes := by
    rw [← Prod.mk.injEq, ← hi.unframe, ← hi'.unframe, h]
  refine ⟨hpackets, ?_, hbytes, hi.unframe, fun e he => ⟨?_, hi.next?_feed he⟩, fun hnone => ?_⟩
  · rw [hi.fault, hi'.fault, hbytes]
  · exact Header.isFraming_of_fault? (hi.fault.symm.trans he)
  · have hframe := Packet.frame?_unframe limit chunks.flatten
    rw [hi.unframe] at hframe
    exact Packet.length_lt_of_frame? hframe (hi.fault.symm.trans hnone)

/-- A packet with a bad header behind it, cut in the header and not cut at all. -/
theorem run_eq_of_flatten_eq_noop :
    let noop := (Packet.response .noop []).encode
    let bad : Bytes := [0, 0x52, 0x45, 0x51, 0, 0, 0, 0, 0, 0, 0, 0]
    let chunks := [noop ++ bad.take 5, bad.drop 5]
    chunks.flatten = [noop ++ bad].flatten ∧
      ((start 0).run chunks).packets = ((start 0).run [noop ++ bad]).packets ∧
      ((start 0).run chunks).packets = [.response .noop []] ∧
      ((start 0).run chunks).fault = some (.unknownKind 0) ∧
      (((start 0).run chunks).buffer.feed noop).next? = .error (.unknownKind 0) := by
  intro noop bad chunks
  have hflatten : chunks.flatten = [noop ++ bad].flatten := by decide
  obtain ⟨hpackets, -, -, -, hstays, -⟩ := run_eq_of_flatten_eq 0 hflatten
  have htaken : ((start 0).run chunks).packets = [.response .noop []] := by cbv
  have hfault : ((start 0).run chunks).fault = some (.unknownKind 0) := by cbv
  exact ⟨hflatten, hpackets, htaken, hfault, (hstays _ hfault).2 [noop]⟩

end Intake

end Gearman
