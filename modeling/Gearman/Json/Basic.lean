/-!
JSON documents, as far as settings need them: a number matters only if it is a natural number below
2^64 written in plain digits, and a string only if its escapes spell a text.
-/

namespace Gearman

/-- A JSON value. -/
inductive Json where
  | null
  | bool (b : Bool)
  /-- A number, with its value if it is below 2^64 and written as digits alone. -/
  | number (natural : Option Nat)
  /-- A string, with its text unless an escape names half of a surrogate pair. -/
  | string (text : Option String)
  | array (items : List Json)
  /-- The members in the order of the document. -/
  | object (members : List (Option String × Json))

end Gearman
