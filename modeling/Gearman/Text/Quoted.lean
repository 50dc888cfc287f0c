import Gearman.Text.Hidden

/-!
Quoted text, as error messages show the text that they complain about: double quotes around it,
short escapes for the usual control characters, and `\u` with the code point in braces for every
character that would not be seen. An apostrophe stands for itself.
-/

namespace Gearman.Text

/-- The digits of `n` in base 16, in lower case and without leading zeros. -/
def hex (n : Nat) : List Char := Nat.toDigits 16 n

/-- A byte as two hexadecimal digits. -/
def hexByte (b : UInt8) : List Char :=
  [Nat.digitChar (b.toNat / 16), Nat.digitChar (b.toNat % 16)]

/-- How a quoted text writes one character. -/
def escape (c : Char) : List Char :=
  match c with
  | '\x00' => ['\\', '0']
  | '\t' => ['\\', 't']
  | '\r' => ['\\', 'r']
  | '\n' => ['\\', 'n']
  | '"' => ['\\', '"']
  | '\\' => ['\\', '\\']
  | c => if isHidden c then "\\u\x7b".toList ++ hex c.toNat ++ ['\x7d'] else [c]

/-- The text between double quotes, each character escaped where it has to be. -/
def quote (s : String) : String :=
  String.ofList ('"' :: s.toList.flatMap escape ++ ['"'])

end Gearman.Text
