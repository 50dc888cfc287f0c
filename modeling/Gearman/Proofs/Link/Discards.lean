import Gearman.Proofs.Link.Extraction
import Gearman.Proofs.Link.Passage

/-!
Pushes that meet a bad header.

A push hands out its packets together, so a push that fails hands out none. What its chunk completes in
front of the bad header is lost, and how much that is depends on where the bytes are cut. Packets that
are taken one at a time are not lost, as `Intake` takes them.
-/

namespace Gearman

namespace Packet

variable {limit : UInt32} {bs : Bytes} {e : Error}

/-- The packets of some bytes, and what is behind them, make up the bytes. -/
theorem encodeAll_unframe (limit : UInt32) (bs : Bytes) :
    encodeAll (unframe limit bs).1 ++ (unframe limit bs).2 = bs := by
  fun_induction unframe limit bs with
  | case1 bs hnone => rfl
  | case2 bs p hsome ih =>
    obtain ⟨rest, rfl⟩ := encode_prefix_of_decode (frame?_eq_some.1 hsome).1
    rw [← length_encode, List.drop_left] at ih ⊢
    rw [encodeAll_cons, List.append_assoc, ih]

/-- No packet is found behind a bad header. -/
theorem unframe_append_of_fault? (h : Header.fault? limit (unframe limit bs).2 = some e)
    (more : Bytes) :
    unframe limit (bs ++ more) = ((unframe limit bs).1, (unframe limit bs).2 ++ more) := by
  have hnone := frame?_of_fault? (Header.fault?_append h more)
  rw [unframe_append, unframe_of_none hnone, List.append_nil]

/-- If a bad header comes in, then one of the chunks completes it. -/
theorem exists_chunk_of_fault? {chunks : List Bytes}
    (hsound : Header.fault? limit (unframe limit bs).2 = none)
    (hfault : Header.fault? limit (unframe limit (bs ++ chunks.flatten)).2 = some e) :
    ∃ before chunk after, chunks = before ++ chunk :: after ∧
      Header.fault? limit (unframe limit (bs ++ before.flatten)).2 = none ∧
      Header.fault? limit (unframe limit (bs ++ before.flatten ++ chunk)).2 = some e := by
  induction chunks generalizing bs with
  | nil =>
    rw [List.flatten_nil, List.append_nil, hsound] at hfault
    contradiction
  | cons first rest ih =>
    rw [List.flatten_cons, ← List.append_assoc] at hfault
    cases hnow : Header.fault? limit (unframe limit (bs ++ first)).2 with
    | some e' =>
      rw [unframe_append_of_fault? hnow, Header.fault?_append hnow] at hfault
      refine ⟨[], first, rest, rfl, ?_, ?_⟩
      · rw [List.flatten_nil, List.append_nil, hsound]
      · rw [List.flatten_nil, List.append_nil, hnow, hfault]
    | none =>
      obtain ⟨before, chunk, after, rfl, hbefore, hchunk⟩ := ih hnow hfault
      refine ⟨first :: before, chunk, after, rfl, ?_, ?_⟩
      · rw [List.flatten_cons, ← List.append_assoc, hbefore]
      · rw [List.flatten_cons, ← List.append_assoc bs, hchunk]

end Packet

namespace Reassembly

variable {limit : UInt32} {r : Reassembly} {e : Error}

/-- The packets that a buffer yields when it is asked until it has no more. -/
def obtainable (r : Reassembly) : List Packet := (Intake.exhaust { buffer := r }).packets

theorem obtainable_eq (r : Reassembly) :
    r.obtainable = (Packet.unframe r.maxPayload r.bytes).1 := by
  have haccounts : Intake.Accounts r.maxPayload r.bytes (Intake.exhaust { buffer := r }) :=
    Intake.accounts_exhaust rfl (by simp)
  rw [haccounts.unframe]
  rfl

/-- What pushes hand out, up to the first that fails. -/
def delivered : List (Except Error (List Packet)) → List Packet
  | [] => []
  | .ok ps :: rest => ps ++ delivered rest
  | .error _ :: _ => []

theorem delivered_map_ok (batches : List (List Packet)) (rest : List (Except Error (List Packet))) :
    delivered (batches.map .ok ++ rest) = batches.flatten ++ delivered rest := by
  induction batches with
  | nil => rfl
  | cons ps more ih => simp [delivered, ih]

theorem pushAll_append (r : Reassembly) (chunks more : List Bytes) : r.pushAll (chunks ++ more) =
    ((r.pushAll chunks).1 ++ ((r.pushAll chunks).2.pushAll more).1,
      ((r.pushAll chunks).2.pushAll more).2) := by
  induction chunks generalizing r with
  | nil => rfl
  | cons bs rest ih => rw [List.cons_append, pushAll_cons, ih, pushAll_cons, List.cons_append]

theorem Emptied.pushAll_emptied (h : Emptied limit r) (chunks : List Bytes) :
    Emptied limit (r.pushAll chunks).2 := by
  induction chunks generalizing r with
  | nil => exact h
  | cons bs rest ih => exact ih (h.push bs).1

/-- A push that fails takes all packets off the buffer and stops at the bad header. -/
theorem push_of_error {bs : Bytes} (h : (r.push bs).1 = .error e) :
    (r.push bs).2.obtainable = [] ∧ (r.push bs).2.next? = .error e ∧
      r.bytes ++ bs = Packet.encodeAll (r.feed bs).obtainable ++ (r.push bs).2.bytes := by
  obtain ⟨hlimit, hbytes, hanswer⟩ := (r.feed bs).takeAll_eq
  have hlimit' : (r.push bs).2.maxPayload = r.maxPayload := hlimit
  have hbytes' : (r.push bs).2.bytes = (Packet.unframe r.maxPayload (r.bytes ++ bs)).2 := by
    rw [push, hbytes, bytes_feed]
    rfl
  have hobtainable : (r.feed bs).obtainable = (Packet.unframe r.maxPayload (r.bytes ++ bs)).1 := by
    rw [obtainable_eq, bytes_feed]
    rfl
  have hfault : Header.fault? (r.push bs).2.maxPayload (r.push bs).2.bytes = some e := by
    rw [hlimit', hbytes']
    rw [push, hanswer, bytes_feed] at h
    split at h
    · contradiction
    · next hbad =>
      cases h
      exact hbad
  refine ⟨?_, next?_of_fault? hfault, ?_⟩
  · rw [obtainable_eq, Packet.unframe_of_none (Packet.frame?_of_fault? hfault)]
  · rw [hobtainable, hbytes', Packet.encodeAll_unframe]

theorem length_pushAll (r : Reassembly) (chunks : List Bytes) :
    (r.pushAll chunks).1.length = chunks.length := by
  induction chunks generalizing r with
  | nil => rfl
  | cons bs rest ih => rw [pushAll_cons, List.length_cons, List.length_cons, ih]

/-- The pushes before the bad header are accepted and all others refused. What the first refused one
would have handed out is missing. -/
theorem Emptied.pushAll_of_chunk (h : Emptied limit r) {before : List Bytes} {chunk : Bytes}
    (hbefore : Header.fault? limit (Packet.unframe limit (r.bytes ++ before.flatten)).2 = none)
    (hchunk : Header.fault? limit (Packet.unframe limit (r.bytes ++ before.flatten ++ chunk)).2 =
      some e) (after : List Bytes) :
    ∃ batches : List (List Packet), batches.length = before.length ∧
      (r.pushAll (before ++ chunk :: after)).1 =
        batches.map .ok ++ List.replicate (after.length + 1) (.error e) ∧
      (Packet.unframe limit (r.bytes ++ before.flatten ++ chunk)).1 =
        batches.flatten ++ ((r.pushAll before).2.feed chunk).obtainable := by
  obtain ⟨batches, hanswers, hpackets, hrest⟩ := h.pushAll before hbefore
  have hemptied := h.pushAll_emptied before
  obtain ⟨hpushed, hbytes, hanswer⟩ := hemptied.push chunk
  have hframes := Packet.unframe_append limit (r.bytes ++ before.flatten) chunk
  rw [← hpackets, ← hrest] at hframes
  have hbad : Header.fault? limit ((r.pushAll before).2.push chunk).2.bytes = some e := by
    rw [hbytes, ← hchunk, hframes]
  refine ⟨batches, ?_, ?_, ?_⟩
  · have hlength := congrArg List.length hanswers
    rw [length_pushAll, List.length_map] at hlength
    exact hlength.symm
  · rw [← hbytes, hbad] at hanswer
    rw [pushAll_append, pushAll_cons, hanswers, hanswer, hpushed.pushAll_of_fault hbad]
    rfl
  · have hlimit : ((r.pushAll before).2.feed chunk).maxPayload = limit := hemptied.maxPayload
    rw [hframes, obtainable_eq, hlimit, bytes_feed]

/-- A push that meets a bad header loses the packets that it has completed in front of it, and no others.

The buffer then yields nothing but the fault, and the bytes that are gone are those packets. Over chunks
of any size, what the pushes have handed out when one fails for the first time falls short of the packets
in front of the bad header by exactly those of the chunk that has failed. When they are taken one at a
time, none is missing. -/
theorem refused_push_loses_packets (limit : UInt32) :
    (∀ (r : Reassembly) (bs : Bytes) (e : Error), (r.push bs).1 = .error e →
      (r.push bs).2.obtainable = [] ∧ (r.push bs).2.next? = .error e ∧
        r.bytes ++ bs = Packet.encodeAll (r.feed bs).obtainable ++ (r.push bs).2.bytes) ∧
    ∀ (chunks : List Bytes) (e : Error),
      Header.fault? limit (Packet.unframe limit chunks.flatten).2 = some e →
      ∃ before chunk after, chunks = before ++ chunk :: after ∧
        let answers := ((empty limit).pushAll chunks).1
        let lost := (((empty limit).pushAll before).2.feed chunk).obtainable
        (∃ batches : List (List Packet), answers.take before.length = batches.map .ok) ∧
        answers.drop before.length = List.replicate (after.length + 1) (.error e) ∧
        (Packet.unframe limit chunks.flatten).1 = delivered answers ++ lost ∧
        ((Intake.start limit).run chunks).packets = delivered answers ++ lost := by
  refine ⟨fun r bs e => push_of_error, fun chunks e hfault => ?_⟩
  have hempty : (empty limit).bytes = [] := rfl
  have hnil : Packet.unframe limit [] = ([], []) := Packet.unframe_of_none rfl
  have hsound : Header.fault? limit (Packet.unframe limit []).2 = none := by rw [hnil]; rfl
  obtain ⟨before, chunk, after, rfl, hbefore, hchunk⟩ := Packet.exists_chunk_of_fault? hsound hfault
  obtain ⟨batches, hlength, hanswers, hpackets⟩ :=
    (emptied_empty limit).pushAll_of_chunk hbefore hchunk after
  rw [hempty, List.nil_append] at hpackets
  rw [List.nil_append] at hchunk
  have hall : (Packet.unframe limit (before ++ chunk :: after).flatten).1 =
      (Packet.unframe limit (before.flatten ++ chunk)).1 := by
    rw [List.flatten_append, List.flatten_cons, ← List.append_assoc,
      Packet.unframe_append_of_fault? hchunk]
  have hdelivered : delivered ((empty limit).pushAll (before ++ chunk :: after)).1 =
      batches.flatten := by
    rw [hanswers, delivered_map_ok, List.replicate_succ, delivered, List.append_nil]
  refine ⟨before, chunk, after, rfl, ⟨batches, ?_⟩, ?_, ?_, ?_⟩
  · rw [hanswers, List.take_left' (by rw [List.length_map, hlength])]
  · rw [hanswers, List.drop_left' (by rw [List.length_map, hlength])]
  · rw [hall, hpackets, hdelivered]
  · have htaken := ((Intake.accounts_start limit).run (before ++ chunk :: after)).unframe
    rw [List.nil_append] at htaken
    rw [hdelivered, ← hpackets, ← hall, htaken]

/-- A second packet that is cut in two: its push completes a bad header too and loses it, but not the
first one. -/
theorem refused_push_loses_packets_noop :
    let noop := (Packet.response .noop []).encode
    let bad := [0, 0x52, 0x45, 0x58, 0, 0, 0, 6, 0, 0, 0, 0]
    let first := noop ++ noop.take 5
    let second := noop.drop 5 ++ bad
    Header.fault? 0 (Packet.unframe 0 [first, second].flatten).2 =
        some (.badMagic [0, 0x52, 0x45, 0x58]) ∧
      ((empty 0).pushAll [first, second]).1 =
        [.ok [.response .noop []], .error (.badMagic [0, 0x52, 0x45, 0x58])] ∧
      (∃ before chunk after, [first, second] = before ++ chunk :: after ∧
        (Packet.unframe 0 [first, second].flatten).1 = [.response .noop []] ++
          (((empty 0).pushAll before).2.feed chunk).obtainable) ∧
      (((empty 0).pushAll [first]).2.push second).2.obtainable = [] := by
  intro noop bad first second
  obtain ⟨hpush, hchunks⟩ := refused_push_loses_packets 0
  have hbytes : [first, second].flatten =
      Packet.encodeAll [.response .noop [], .response .noop []] ++ bad := by decide
  have hfault : Header.fault? 0 (Packet.unframe 0 [first, second].flatten).2 =
      some (.badMagic [0, 0x52, 0x45, 0x58]) := by
    rw [hbytes, Packet.unframe_encodeAll_of_none (by decide) rfl]
    rfl
  have hanswers : ((empty 0).pushAll [first, second]).1 =
      [.ok [.response .noop []], .error (.badMagic [0, 0x52, 0x45, 0x58])] := by cbv
  have hrefused : (((empty 0).pushAll [first]).2.push second).1 =
      .error (.badMagic [0, 0x52, 0x45, 0x58]) := (List.cons.inj (List.cons.inj hanswers).2).1
  obtain ⟨before, chunk, after, hcut, -, -, hpackets, -⟩ := hchunks [first, second] _ hfault
  rw [hanswers] at hpackets
  exact ⟨hfault, hanswers, ⟨before, chunk, after, hcut, hpackets⟩, (hpush _ second _ hrefused).1⟩

/-- A packet and a bad header in one chunk: the push fails, and the packet was neither handed out nor
can it be taken from the buffer. If the same bytes are cut between the two, it is handed out. -/
theorem packet_before_bad_header_is_lost :
    let noop := (Packet.response .noop []).encode
    let bad := [0, 0x52, 0x45, 0x58, 0, 0, 0, 6, 0, 0, 0, 0]
    (Packet.unframe 0 (noop ++ bad)).1 = [.response .noop []] ∧
      ((empty 0).pushAll [noop ++ bad]).1 = [.error (.badMagic [0, 0x52, 0x45, 0x58])] ∧
      delivered ((empty 0).pushAll [noop ++ bad]).1 = [] ∧
      ((empty 0).pushAll [noop ++ bad]).2.obtainable = [] ∧
      delivered ((empty 0).pushAll [noop, bad]).1 = [.response .noop []] := by
  intro noop bad
  have hbytes : noop ++ bad = Packet.encodeAll [.response .noop []] ++ bad := by decide
  have hanswers : ((empty 0).pushAll [noop ++ bad]).1 =
      [.error (.badMagic [0, 0x52, 0x45, 0x58])] := by cbv
  have hrefused : ((empty 0).push (noop ++ bad)).1 = .error (.badMagic [0, 0x52, 0x45, 0x58]) :=
    (List.cons.inj hanswers).1
  refine ⟨?_, hanswers, ?_, (push_of_error hrefused).1, by cbv⟩
  · rw [hbytes, Packet.unframe_encodeAll_of_none (by decide) rfl]
  · rw [hanswers]
    rfl

end Reassembly

end Gearman
