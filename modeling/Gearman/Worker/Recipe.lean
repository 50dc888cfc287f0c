import Gearman.Worker.Registry

/-!
Recipes: worker functions that are written down as data.
-/

namespace Gearman

/-- How a recipe ends. -/
inductive Recipe.Outcome where
  | result (edits : List JobResult.Edit)
  /-- Success with the bytes of the job in reverse order. -/
  | reverse
  /-- Success with a text that says what the function was told. -/
  | info
  /-- Success with the number of executions of this instance. -/
  | calls
  | error (message : String)
  | panic (message : Option String)
deriving DecidableEq, Repr

/-- A function that does some things in order and then ends in a certain way. -/
structure Recipe where
  acts : List Act := []
  outcome : Recipe.Outcome
deriving DecidableEq, Repr

namespace Recipe

def hex (bs : Bytes) : String := String.ofList (bs.flatMap Text.hexByte)

/-- What a function was told: handle, name, unique id and data, with bars between them. -/
def describe (c : Context) : String :=
  "|".intercalate [hex c.handle, c.function, c.uniqueId.getD "<none>", hex c.data]

/-- How the recipe ends for a job when it is executed for the `calls`-th time. -/
def finish (r : Recipe) (calls : Nat) (c : Context) : Finish :=
  match r.outcome with
  | .result edits => .returned (.ofEdits edits)
  | .reverse => .returned (.success c.data.reverse)
  | .info => .returned (.success (Text.Utf8.encode (describe c)))
  | .calls => .returned (.success (Text.Utf8.encode (toString calls)))
  | .error message => .failed message
  | .panic message => .panicked message

def perform (r : Recipe) (calls : Nat) (c : Context) : Performance := ⟨r.acts, r.finish calls c⟩

/-- The recipe as a function each of whose instances counts its executions. -/
def counted (r : Recipe) (name : String) (timeout : Option Duration) : Definition :=
  ⟨name, timeout, fun calls => r.perform (calls + 1)⟩

/-- The recipe as a function that treats all its jobs alike and counts nothing. -/
def shared (r : Recipe) (name : String) (timeout : Option Duration) : Definition :=
  .ofFunction name timeout (r.perform 0)

end Recipe

end Gearman
