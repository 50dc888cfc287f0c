import Gearman.Packet.Codec

/-!
What was accepted for writing and is not written: packets, of which the server's end may have taken the
first in part.
-/

namespace Gearman

theorem Packet.encodedLength_pos (p : Packet) : 0 < p.encodedLength := by
  simp only [encodedLength, Header.size]
  omega

/-- Packets that wait to be written, oldest first. -/
structure Outbound where
  packets : List Packet
  /-- How many bytes of the first packet were taken. It is none if no packet waits. -/
  cut : Nat
  cut_lt : cut < packets.head?.elim 1 Packet.encodedLength
deriving DecidableEq, Repr

namespace Outbound

def empty : Outbound := ⟨[], 0, by decide⟩

def isEmpty (o : Outbound) : Bool := o.packets.isEmpty

/-- The bytes that wait to be written. -/
def bytes (o : Outbound) : Bytes := (o.packets.flatMap Packet.encode).drop o.cut

/-- The number of bytes that the packets take, those included that were taken. -/
def total (ps : List Packet) : Nat := ps.foldr (·.encodedLength + ·) 0

/-- The number of bytes that wait to be written. -/
def size (o : Outbound) : Nat := total o.packets - o.cut

/-- Puts a packet behind those that wait. -/
def push (o : Outbound) (p : Packet) : Outbound where
  packets := o.packets ++ [p]
  cut := o.cut
  cut_lt := by
    have hcut := o.cut_lt
    have hp := p.encodedLength_pos
    cases hpackets : o.packets with
    | nil =>
      rw [hpackets] at hcut
      simp only [List.head?_nil, Option.elim_none] at hcut
      simp only [List.nil_append, List.head?_cons, Option.elim_some]
      omega
    | cons q rest => simpa [hpackets] using hcut

/-- What is left of packets of which the first `n` bytes were taken, behind the packets that were taken
whole. -/
def strike : List Packet → Nat → List Packet × Outbound
  | [], _ => ([], empty)
  | p :: ps, n =>
    if h : n < p.encodedLength then ([], ⟨p :: ps, n, h⟩)
    else
      let (whole, left) := strike ps (n - p.encodedLength)
      (p :: whole, left)

/-- What is left once `n` more bytes were taken, behind the packets that were taken whole by that. -/
def advance (o : Outbound) (n : Nat) : List Packet × Outbound := strike o.packets (o.cut + n)

@[simp]
theorem isEmpty_empty : empty.isEmpty = true := rfl

theorem eq_empty_of_isEmpty {o : Outbound} (h : o.isEmpty = true) : o = empty := by
  obtain ⟨packets, cut, hcut⟩ := o
  obtain rfl : packets = [] := by simpa [isEmpty] using h
  simpa [empty] using hcut

@[simp]
theorem packets_push (o : Outbound) (p : Packet) : (o.push p).packets = o.packets ++ [p] := rfl

@[simp]
theorem isEmpty_push (o : Outbound) (p : Packet) : (o.push p).isEmpty = false := by
  simp [isEmpty]

theorem total_cons (p : Packet) (ps : List Packet) : total (p :: ps) = p.encodedLength + total ps := rfl

theorem strike_append (ps : List Packet) (n : Nat) :
    (strike ps n).1 ++ (strike ps n).2.packets = ps := by
  fun_induction strike ps n with
  | case1 => rfl
  | case2 => rfl
  | case3 p ps n _ whole left hrest ih =>
    rw [hrest] at ih
    simpa using ih

theorem strike_total (ps : List Packet) : ∀ {n}, total ps ≤ n → strike ps n = (ps, empty) := by
  induction ps with
  | nil => exact fun _ => rfl
  | cons p ps ih =>
    intro n hn
    rw [total_cons] at hn
    have hwhole : ¬ n < p.encodedLength := by omega
    simp only [strike, hwhole, dite_false, ih (n := n - p.encodedLength) (by omega)]

/-- No packet is lost by that: each was taken whole or is left. -/
theorem advance_append (o : Outbound) (n : Nat) :
    (o.advance n).1 ++ (o.advance n).2.packets = o.packets :=
  strike_append o.packets (o.cut + n)

/-- Once all bytes were taken nothing is left. -/
theorem advance_size (o : Outbound) : o.advance o.size = (o.packets, empty) :=
  strike_total o.packets (by simp only [size]; omega)

theorem size_pos {o : Outbound} (h : o.isEmpty = false) : 0 < o.size := by
  obtain ⟨_ | ⟨p, ps⟩, cut, hcut⟩ := o
  · contradiction
  · simp only [List.head?_cons, Option.elim_some] at hcut
    simp only [size, total_cons]
    omega

end Outbound

end Gearman
