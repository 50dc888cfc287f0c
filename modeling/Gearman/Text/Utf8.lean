import Gearman.Bytes

/-!
Text as bytes. Every text has one encoding; a byte string is read as text one well-formed sequence at
a time, and a longest run of bytes that starts such a sequence without finishing it is one error.
-/

namespace Gearman.Text.Utf8

/-- The encoding of a text. -/
def encode (s : String) : Bytes := s.toList.flatMap String.utf8EncodeChar

/-- The bytes that may follow the lead byte `lead` directly, and how many follow it in all; `none` for
a byte that leads nothing. The bounds rule out overlong forms, surrogates and values past the last
code point. -/
def lead? (lead : UInt8) : Option (Nat × UInt8 × UInt8) :=
  if lead < 0xC2 then none
  else if lead < 0xE0 then some (1, 0x80, 0xBF)
  else if lead = 0xE0 then some (2, 0xA0, 0xBF)
  else if lead = 0xED then some (2, 0x80, 0x9F)
  else if lead < 0xF0 then some (2, 0x80, 0xBF)
  else if lead = 0xF0 then some (3, 0x90, 0xBF)
  else if lead < 0xF4 then some (3, 0x80, 0xBF)
  else if lead = 0xF4 then some (3, 0x80, 0x8F)
  else none

/-- The bits that a lead byte with `n` followers contributes. -/
def leadBits (lead : UInt8) (n : Nat) : Nat :=
  lead.toNat % 1 <<< (6 - n)

/-- Reads text sequence by sequence; each ill-formed run of bytes is one `none`. In `sequence n lo hi
v`, `n` more bytes are due, the next of them lies between `lo` and `hi`, and `v` holds the bits so
far. -/
def decode : Bytes → List (Option Char)
  | [] => []
  | b :: rest =>
    if b < 0x80 then some (Char.ofNat b.toNat) :: decode rest
    else match lead? b with
      | none => none :: decode rest
      | some (n, lo, hi) => sequence n lo hi (leadBits b n) rest
where
  sequence (n : Nat) (lo hi : UInt8) (v : Nat) : Bytes → List (Option Char)
    | [] => [none]
    | b :: rest =>
      if lo ≤ b && b ≤ hi then
        let v := v * 64 + b.toNat % 64
        if n ≤ 1 then some (Char.ofNat v) :: decode rest
        else sequence (n - 1) 0x80 0xBF v rest
      else if b < 0x80 then none :: some (Char.ofNat b.toNat) :: decode rest
      else match lead? b with
        | none => none :: none :: decode rest
        | some (n', lo', hi') => none :: sequence n' lo' hi' (leadBits b n') rest

/-- The text that the bytes encode, or `none` if they are not the encoding of a text. -/
def decode? (bs : Bytes) : Option (List Char) := (decode bs).mapM id

/-- The bytes as text, with the replacement character for each ill-formed run. -/
def lossy (bs : Bytes) : String :=
  String.ofList ((decode bs).map (·.getD '\uFFFD'))

end Gearman.Text.Utf8
