import Gearman.Duration
import Gearman.Table
import Gearman.Worker.Performance

/-!
The functions that a worker offers, by name.
-/

namespace Gearman

/-- A function that workers offer. -/
structure Definition where
  name : String
  /-- How long one execution may take. -/
  timeout : Option Duration := none
  /-- What an instance of the function does when it was executed `calls` times before. Each assigned
  job has an instance of its own. -/
  body : (calls : Nat) → Context → Performance

namespace Definition

/-- A function that treats all its jobs alike. -/
def ofFunction (name : String) (timeout : Option Duration) (f : Context → Performance) :
    Definition :=
  ⟨name, timeout, fun _ => f⟩

/-- The timeout in the whole seconds that servers are told, a fraction counted as a second. -/
def timeoutSeconds (d : Definition) : Except Error (Option UInt64) :=
  match d.timeout with
  | none => .ok none
  | some timeout =>
    match timeout.ceilSeconds? with
    | none => .error (.panicked "attempt to add with overflow")
    | some seconds => .ok (some seconds)

/-- The request that tells a server that the worker offers the function. -/
def announcement (d : Definition) : Except Error Packet :=
  match d.timeoutSeconds with
  | .error e => .error e
  | .ok none => .ok (.request .canDo (Text.Utf8.encode d.name))
  | .ok (some seconds) =>
    Packet.ofFields .request .canDoTimeout [Text.Utf8.encode d.name, writeCounter seconds]

end Definition

/-- The functions that a worker offers. -/
structure Registry where
  table : Table String Definition := ∅

namespace Registry

instance : EmptyCollection Registry where
  emptyCollection := ⟨∅⟩

instance : Inhabited Registry where
  default := ∅

def get? (r : Registry) (name : String) : Option Definition := r.table.get? name

def contains (r : Registry) (name : String) : Bool := r.table.contains name

def size (r : Registry) : Nat := r.table.size

def isEmpty (r : Registry) : Bool := r.table.isEmpty

/-- Adds a function in the place of the one with its name, which is the first part of the answer. -/
def register (r : Registry) (d : Definition) : Option Definition × Registry :=
  (r.get? d.name, ⟨r.table.insert d.name d⟩)

/-- Takes out the function with a name. -/
def unregister (r : Registry) (name : String) : Option Definition × Registry :=
  (r.get? name, ⟨r.table.erase name⟩)

/-- The names in order. -/
def names (r : Registry) : List String := r.table.keys.mergeSort (· ≤ ·)

/-- The functions in the order of their names. -/
def definitions (r : Registry) : List Definition := r.names.filterMap r.get?

end Registry

end Gearman
