import Gearman.Text.Quoted

/-!
Documents as text, without white space.
-/

namespace Gearman.Json

/-- How a string writes one character. -/
def escape (c : Char) : List Char :=
  match c with
  | '"' => ['\\', '"']
  | '\\' => ['\\', '\\']
  | '\x08' => ['\\', 'b']
  | '\x0c' => ['\\', 'f']
  | '\n' => ['\\', 'n']
  | '\r' => ['\\', 'r']
  | '\t' => ['\\', 't']
  | c =>
    if c.toNat < 0x20 then ['\\', 'u', '0', '0'] ++ Text.hexByte c.toNat.toUInt8 else [c]

def writeString (s : String) : List Char :=
  '"' :: s.toList.flatMap escape ++ ['"']

def writeNat (n : Nat) : List Char := (toString n).toList

/-- An object, given the texts of its members' values. -/
def writeObject (members : List (String × List Char)) : List Char :=
  '\x7b' :: List.intercalate [','] (members.map fun (key, value) => writeString key ++ ':' :: value)
    ++ ['\x7d']

end Gearman.Json
