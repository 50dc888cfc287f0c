import Gearman.Error
import Gearman.Text.Decimal

/-!
Addresses of job servers and their text form: `host`, `host:port` or `[host]:port`. The brackets keep
the colons of a host apart from the one before the port.
-/

namespace Gearman

/-- Where a job server listens. -/
structure Address where
  host : String
  port : UInt16
deriving DecidableEq, Repr

namespace Address

/-- The port of an address that names none. -/
def defaultPort : UInt16 := 4730

/-- The server on this machine. -/
def default : Address := ⟨"127.0.0.1", defaultPort⟩

instance : Inhabited Address where
  default := default

/-- The text form. -/
def text (a : Address) : String :=
  if ':' ∈ a.host.toList then "[" ++ a.host ++ "]:" ++ toString a.port
  else a.host ++ ":" ++ toString a.port

instance : ToString Address where
  toString := text

/-- The characters before the first `mark` and those behind it, or `none` without a `mark`. -/
def splitAt? (mark : Char) (s : List Char) : Option (List Char × List Char) :=
  match s.dropWhile (· ≠ mark) with
  | [] => none
  | _ :: rest => some (s.takeWhile (· ≠ mark), rest)

def parsePort? (s : List Char) : Option UInt16 :=
  (Text.Decimal.parse? 65535 s).map (·.toUInt16)

/-- Reads a text form that no white space surrounds. -/
def parseTrimmed? (s : List Char) : Option Address :=
  match s with
  | [] => none
  | '[' :: rest =>
    match splitAt? ']' rest with
    | none => none
    | some (host, []) => some ⟨String.ofList host, defaultPort⟩
    | some (host, ':' :: port) => (parsePort? port).map (⟨String.ofList host, ·⟩)
    | some _ => none
  | s =>
    match splitAt? ':' s with
    | none => some ⟨String.ofList s, defaultPort⟩
    | some ([], _) => none
    | some (host, port) => (parsePort? port).map (⟨String.ofList host, ·⟩)

/-- Reads the text form of an address; white space around it is ignored. -/
def parse (s : String) : Except Error Address :=
  let trimmed := Text.trim s.toList
  match parseTrimmed? trimmed with
  | some a => .ok a
  | none => .error (.invalidAddress (String.ofList trimmed))

/-- An address by its fields, the host quoted. -/
def describe (a : Address) : String :=
  "ServerAddress \x7b host: " ++ Text.quote a.host ++ ", port: " ++ toString a.port ++ " \x7d"

end Address

end Gearman
