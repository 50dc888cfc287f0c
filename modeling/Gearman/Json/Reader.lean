import Gearman.Json.Basic
import Gearman.Json.Token

/-!
Documents read from their tokens, and records read from documents. A record is written as an object
that names its fields or as an array that lists them.
-/

namespace Gearman.Json

/-- A container that is open around the token to come, the latest part of its contents first. -/
inductive Frame where
  | array (items : List Json)
  /-- An object in which the value of `key` is being read. -/
  | object (members : List (Option String × Json)) (key : Option String)

/-- What the next token has to be. -/
inductive Due where
  | value
  /-- The first item of an array, or its end. -/
  | itemOrEnd
  /-- The first key of an object, or its end. -/
  | keyOrEnd
  | key (members : List (Option String × Json))
  | colon (members : List (Option String × Json)) (key : Option String)
  /-- A separator or the end of the innermost container, of which `last` is a part. -/
  | separator (last : Json)

/-- Starts a value. -/
def startValue (frames : List Frame) : Token → Option (Due × List Frame)
  | .null => some (.separator .null, frames)
  | .bool b => some (.separator (.bool b), frames)
  | .number natural => some (.separator (.number natural), frames)
  | .string text => some (.separator (.string text), frames)
  | .openArray => some (.itemOrEnd, .array [] :: frames)
  | .openObject => some (.keyOrEnd, frames)
  | _ => none

/-- Goes on behind a value that is part of the innermost container. -/
def afterValue (last : Json) : List Frame → Token → Option (Due × List Frame)
  | .array items :: frames, .comma => some (.value, .array (last :: items) :: frames)
  | .array items :: frames, .closeArray =>
    some (.separator (.array (last :: items).reverse), frames)
  | .object members key :: frames, .comma => some (.key ((key, last) :: members), frames)
  | .object members key :: frames, .closeObject =>
    some (.separator (.object ((key, last) :: members).reverse), frames)
  | _, _ => none

/-- Reads one token. -/
def read (due : Due) (frames : List Frame) (t : Token) : Option (Due × List Frame) :=
  match due, t with
  | .value, t => startValue frames t
  | .itemOrEnd, .closeArray => some (.separator (.array []), frames.tail)
  | .itemOrEnd, t => startValue frames t
  | .keyOrEnd, .closeObject => some (.separator (.object []), frames)
  | .keyOrEnd, .string text => some (.colon [] text, frames)
  | .key members, .string text => some (.colon members text, frames)
  | .colon members key, .colon => some (.value, .object members key :: frames)
  | .separator last, t => afterValue last frames t
  | _, _ => none

/-- The document that the tokens spell, given what is due and which containers are open. -/
def build : Due → List Frame → List Token → Option Json
  | .separator document, [], [] => some document
  | _, _, [] => none
  | due, frames, t :: rest =>
    match read due frames t with
    | some (due, frames) => build due frames rest
    | none => none

/-- The document that the tokens spell. -/
def ofTokens (ts : List Token) : Option Json := build .value [] ts

/-- Reads a document. -/
def parse (s : String) : Option Json := (tokens s.toList).bind ofTokens

/-- The values of a record with these fields, `none` for a field that is left out. Each key of an
object has to be a text and each field may be named once; keys that are no field are passed over. -/
def fields? (names : List String) : Json → Option (List (Option Json))
  | .object members =>
    let keys := members.map (·.1)
    if keys.all (·.isSome) && names.all fun name => keys.count (some name) ≤ 1 then
      some (names.map fun name => (members.find? (·.1 = some name)).map (·.2))
    else none
  | .array items =>
    if items.length ≤ names.length then
      some (items.map some ++ List.replicate (names.length - items.length) none)
    else none
  | _ => none

/-- The natural number that a document is, if it is one below `bound`. -/
def natural? (bound : Nat) : Json → Option Nat
  | .number (some n) => if n < bound then some n else none
  | _ => none

/-- The text that a document is, if it is one. -/
def text? : Json → Option String
  | .string text => text
  | _ => none

/-- Reads a field that may be left out. -/
def orElse {α : Type} (usual : α) (read : Json → Option α) : Option Json → Option α
  | none => some usual
  | some document => read document

end Gearman.Json
