import Gearman.Error

/-!
Packet headers: twelve bytes that hold the magic word, the code of the kind and the length of the
payload.
-/

namespace Gearman

/-- What the first twelve bytes of a packet say. -/
structure Header where
  magic : Magic
  kind : Kind
  /-- The length of the payload. -/
  length : UInt32
deriving DecidableEq, Repr

namespace Header

/-- The length of every header. -/
def size : Nat := 12

/-- The largest payload that is sent or accepted unless settings say otherwise. -/
def defaultMaxPayload : UInt32 := 64 * 1024 * 1024

def encode (h : Header) : Bytes :=
  h.magic.bytes ++ Bytes.ofWord h.kind.code ++ Bytes.ofWord h.length

/-- Reads the header at the front of `bs`. Of several faults the first in the order of the bytes is
reported. -/
def decode (bs : Bytes) : Except Error Header :=
  match bs with
  | m₀ :: m₁ :: m₂ :: m₃ :: c₀ :: c₁ :: c₂ :: c₃ :: l₀ :: l₁ :: l₂ :: l₃ :: _ =>
    match Magic.ofBytes? [m₀, m₁, m₂, m₃] with
    | none => .error (.badMagic [m₀, m₁, m₂, m₃])
    | some magic =>
      match Kind.ofCode? (Bytes.word c₀ c₁ c₂ c₃) with
      | none => .error (.unknownKind (Bytes.word c₀ c₁ c₂ c₃))
      | some kind => .ok ⟨magic, kind, Bytes.word l₀ l₁ l₂ l₃⟩
  | short => .error (.truncated size short.length)

/-- The length field of the header at the front of `bs`, whatever the rest of it says. -/
def peekLength? (bs : Bytes) : Option UInt32 :=
  match bs with
  | _ :: _ :: _ :: _ :: _ :: _ :: _ :: _ :: l₀ :: l₁ :: l₂ :: l₃ :: _ =>
    some (Bytes.word l₀ l₁ l₂ l₃)
  | _ => none

/-- The length of the packet, header included. -/
def packetLength (h : Header) : Nat := size + h.length.toNat

/-- Refuses a payload that is longer than `limit`. -/
def checkLength (h : Header) (limit : UInt32) : Except Error Unit :=
  if h.length ≤ limit then .ok () else .error (.payloadTooLarge h.length.toNat limit)

/-- Bytes that are enough for a header start with the twelve bytes of one. -/
theorem exists_of_size_le {bs : Bytes} (h : size ≤ bs.length) :
    ∃ m₀ m₁ m₂ m₃ c₀ c₁ c₂ c₃ l₀ l₁ l₂ l₃ rest,
      bs = m₀ :: m₁ :: m₂ :: m₃ :: c₀ :: c₁ :: c₂ :: c₃ :: l₀ :: l₁ :: l₂ :: l₃ :: rest := by
  match bs with
  | _ :: _ :: _ :: _ :: _ :: _ :: _ :: _ :: _ :: _ :: _ :: _ :: _ =>
    exact ⟨_, _, _, _, _, _, _, _, _, _, _, _, _, rfl⟩
  | [] | [_] | [_, _] | [_, _, _] | [_, _, _, _] | [_, _, _, _, _] | [_, _, _, _, _, _]
  | [_, _, _, _, _, _, _] | [_, _, _, _, _, _, _, _] | [_, _, _, _, _, _, _, _, _]
  | [_, _, _, _, _, _, _, _, _, _] | [_, _, _, _, _, _, _, _, _, _, _] =>
    simp [size] at h

/-- A header is read from its own bytes alone. -/
theorem decode_append {bs : Bytes} (h : size ≤ bs.length) (rest : Bytes) :
    decode (bs ++ rest) = decode bs := by
  obtain ⟨_, _, _, _, _, _, _, _, _, _, _, _, _, rfl⟩ := exists_of_size_le h
  rfl

theorem peekLength?_append {bs : Bytes} (h : size ≤ bs.length) (rest : Bytes) :
    peekLength? (bs ++ rest) = peekLength? bs := by
  obtain ⟨_, _, _, _, _, _, _, _, _, _, _, _, _, rfl⟩ := exists_of_size_le h
  rfl

/-- A header that can be read has the length that a peek shows. -/
theorem peekLength?_of_decode {bs : Bytes} {h : Header} (hdecode : decode bs = .ok h) :
    peekLength? bs = some h.length := by
  unfold decode at hdecode
  split at hdecode
  · repeat' split at hdecode
    all_goals
      cases hdecode
      try rfl
  · contradiction

/-- A peek needs all of a header. -/
theorem peekLength?_eq_none {bs : Bytes} (h : bs.length < size) : peekLength? bs = none := by
  unfold peekLength?
  split
  · simp only [size, List.length_cons] at h
    omega
  · rfl

end Header

end Gearman
