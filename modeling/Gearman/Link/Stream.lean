import Gearman.Address
import Gearman.Packet.Codec

/-!
Byte streams to a job server, as this end sees them.

What the server does arrives in pieces. A server that closes its end still takes what is written; a
server that resets the stream makes the next read or write fail, and nothing passes after that. How much
the server's end takes of what is written is up to that end, attempt by attempt.
-/

namespace Gearman

/-- What a server does to its end of a stream once the bytes that it sends are through. -/
inductive Ending where
  | none | close | reset
deriving DecidableEq, Repr, Inhabited

/-- One piece of what a server sends. -/
structure Arrival where
  server : Address
  bytes : Bytes := []
  ending : Ending := .none
deriving DecidableEq, Repr

/-- How far the server's end of a stream has got. -/
inductive Fate where
  | flowing
  | ended
  /-- Reset by the server; `noticed` once this end has been told. -/
  | reset (noticed : Bool)
deriving DecidableEq, Repr

/-- What comes of one attempt to write. -/
inductive Uptake where
  /-- So many bytes were taken. -/
  | bytes (n : Nat)
  /-- Nothing can be taken for now. -/
  | blocked
  | failed (fault : LinkFault)
deriving DecidableEq, Repr

/-- What the next attempt to write `n` bytes meets with, and what is to come after it. An attempt takes as
much as it can; once no more are told of, each takes everything. -/
def Uptake.next (uptakes : List Uptake) (n : Nat) : Uptake × List Uptake :=
  match uptakes with
  | [] => (.bytes n, [])
  | .bytes k :: rest => (.bytes (min k n), rest)
  | uptake :: rest => (uptake, rest)

/-- A stream to a job server. -/
structure Stream where
  /-- What has arrived and was not read. -/
  arriving : Bytes := []
  fate : Fate := .flowing
  /-- Whether this end has finished writing. -/
  writeShut : Bool := false
  /-- What the next attempts to write meet with. -/
  uptakes : List Uptake := []
deriving DecidableEq, Repr

namespace Stream

/-- What one attempt to read brings. -/
inductive Reading where
  | bytes (bs : Bytes)
  | nothing
  | ended
  | failed (fault : LinkFault)
deriving DecidableEq, Repr

/-- Takes at most `limit` bytes of those that are there. -/
def read (s : Stream) (limit : Nat) : Reading × Stream :=
  match s.fate with
  | .reset false => (.failed .reset, { s with fate := .reset true })
  | .reset true => (.ended, s)
  | fate =>
    if s.arriving.isEmpty then (if fate = .ended then .ended else .nothing, s)
    else (.bytes (s.arriving.take limit), { s with arriving := s.arriving.drop limit })

/-- Attempts to write `n` bytes. -/
def write (s : Stream) (n : Nat) : Uptake × Stream :=
  match s.fate with
  | .reset false => (.failed .reset, { s with fate := .reset true })
  | .reset true => (.failed .shut, s)
  | _ =>
    if s.writeShut then (.failed .shut, s)
    else
      let next := Uptake.next s.uptakes n
      (next.1, { s with uptakes := next.2 })

/-- Adds what a server sends. Nothing follows the end of a stream. -/
def deliver? (s : Stream) (a : Arrival) : Option Stream :=
  match s.fate with
  | .flowing =>
    let s := { s with arriving := s.arriving ++ a.bytes }
    some <| match a.ending with
      | .none => s
      | .close => { s with fate := .ended }
      | .reset => { s with fate := .reset false, arriving := [] }
  | _ => none

/-- Whether a packet can still pass from one end to the other. -/
def isOpen (s : Stream) : Bool :=
  match s.fate with
  | .reset _ => false
  | _ => true

/-- How much there is to be read, the end of the stream counted as one more byte. -/
def unread (s : Stream) : Nat :=
  s.arriving.length + if s.fate = .flowing then 0 else 1

/-- A read moves bytes and loses none. -/
theorem length_of_read {s s' : Stream} {limit : Nat} {bs : Bytes}
    (h : s.read limit = (.bytes bs, s')) : bs.length + s'.arriving.length = s.arriving.length := by
  unfold read at h
  split at h
  · simp at h
  · simp at h
  · split at h
    · split at h <;> simp at h
    · simp only [Prod.mk.injEq, Reading.bytes.injEq] at h
      obtain ⟨rfl, rfl⟩ := h
      simp only [List.length_take, List.length_drop]
      omega

/-- Writing leaves what is there to be read. -/
theorem unread_of_write {s s' : Stream} {n : Nat} {u : Uptake} (h : s.write n = (u, s')) :
    s'.unread = s.unread ∧ s'.arriving = s.arriving := by
  unfold write at h
  repeat' split at h
  all_goals
    cases h
    simp_all [unread]

/-- An attempt that does not fail leaves the stream as open as it was. -/
theorem fate_of_write {s s' : Stream} {n : Nat} {u : Uptake} (h : s.write n = (u, s'))
    (hu : ∀ fault, u ≠ .failed fault) : s'.fate = s.fate := by
  unfold write at h
  repeat' split at h
  all_goals
    cases h
    first | rfl | exact absurd rfl (hu _)

/-- An attempt that does not take everything is one of those that were to come. -/
theorem uptakes_of_write {s s' : Stream} {n : Nat} {u : Uptake} (h : s.write n = (u, s'))
    (hu : ∀ fault, u ≠ .failed fault) :
    s'.uptakes.length ≤ s.uptakes.length ∧
      (u ≠ .bytes n → s'.uptakes.length < s.uptakes.length) := by
  have hnext : ∀ uptakes, (Uptake.next uptakes n).2.length ≤ uptakes.length ∧
      ((Uptake.next uptakes n).1 ≠ .bytes n →
        (Uptake.next uptakes n).2.length < uptakes.length) := by
    intro uptakes
    unfold Uptake.next
    split <;> simp
  unfold write at h
  repeat' split at h
  all_goals cases h
  · exact absurd rfl (hu _)
  · exact absurd rfl (hu _)
  · exact absurd rfl (hu _)
  · exact hnext s.uptakes

theorem uptakes_of_deliver? {s s' : Stream} {a : Arrival} (h : s.deliver? a = some s') :
    s'.uptakes = s.uptakes := by
  unfold deliver? at h
  split at h
  · cases h
    split <;> rfl
  · cases h

theorem uptakes_of_read {s s' : Stream} {limit : Nat} {r : Reading} (h : s.read limit = (r, s')) :
    s'.uptakes = s.uptakes := by
  unfold read at h
  repeat' split at h
  all_goals
    cases h
    rfl

/-- A read that may take bytes takes some if they are there. -/
theorem unread_of_read {s s' : Stream} {limit : Nat} {bs : Bytes} (hlimit : 0 < limit)
    (h : s.read limit = (.bytes bs, s')) : 0 < bs.length ∧ bs.length + s'.unread = s.unread := by
  unfold read at h
  split at h
  · simp at h
  · simp at h
  · split at h
    · split at h <;> simp at h
    · next hsome =>
      simp only [Prod.mk.injEq, Reading.bytes.injEq] at h
      obtain ⟨rfl, rfl⟩ := h
      have : 0 < s.arriving.length := by
        rw [List.length_pos_iff]
        simpa using hsome
      simp only [List.length_take, unread, List.length_drop]
      omega

/-- A read brings nothing only if nothing is there. -/
theorem unread_of_read_nothing {s s' : Stream} {limit : Nat}
    (h : s.read limit = (.nothing, s')) : s' = s ∧ s.unread = 0 := by
  unfold read at h
  split at h
  · simp at h
  · simp at h
  · next hunnoticed hnoticed =>
    split at h
    · next hnone =>
      split at h
      · simp at h
      · next hended =>
        cases h
        refine ⟨rfl, ?_⟩
        have hflowing : s.fate = .flowing := by
          match hfate : s.fate with
          | .flowing => rfl
          | .ended => exact absurd hfate hended
          | .reset false => exact absurd hfate hunnoticed
          | .reset true => exact absurd hfate hnoticed
        simpa [unread, hflowing] using hnone
    · simp at h

/-- A read that brings no bytes leaves those that are there. -/
theorem arriving_of_read {s s' : Stream} {limit : Nat} {r : Reading}
    (h : s.read limit = (r, s')) (hr : ∀ bs, r ≠ .bytes bs) : s'.arriving = s.arriving := by
  unfold read at h
  split at h
  · cases h
    rfl
  · cases h
    rfl
  · split at h
    · cases h
      rfl
    · cases h
      exact absurd rfl (hr _)

end Stream

end Gearman
