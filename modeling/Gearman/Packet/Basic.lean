import Gearman.Bytes
import Gearman.Packet.Kind

/-!
Packets: a magic word that tells requests from responses, a kind, and a payload.
-/

namespace Gearman

/-- Who sends a packet: clients and workers send requests, job servers send responses. -/
inductive Magic where
  | request | response
deriving DecidableEq, Repr, Inhabited

namespace Magic

/-- The four bytes that open a packet. -/
def bytes : Magic → Bytes
  | .request => [0x00, 0x52, 0x45, 0x51]
  | .response => [0x00, 0x52, 0x45, 0x53]

/-- The magic word that these bytes are, if they are one. -/
def ofBytes? (bs : Bytes) : Option Magic :=
  if bs = request.bytes then some .request
  else if bs = response.bytes then some .response
  else none

/-- The bytes of the magic word that are letters. -/
def name : Magic → String
  | .request => "REQ"
  | .response => "RES"

/-- The name in full. -/
def title : Magic → String
  | .request => "Request"
  | .response => "Response"

instance : ToString Magic where
  toString := name

@[simp]
theorem ofBytes?_bytes (m : Magic) : ofBytes? m.bytes = some m := by
  cases m <;> decide

end Magic

/-- A packet. -/
structure Packet where
  magic : Magic
  kind : Kind
  payload : Bytes
deriving DecidableEq, Repr, Inhabited

namespace Packet

def request (kind : Kind) (payload : Bytes) : Packet := ⟨.request, kind, payload⟩

def response (kind : Kind) (payload : Bytes) : Packet := ⟨.response, kind, payload⟩

def isRequest (p : Packet) : Bool := p.magic = .request

def isResponse (p : Packet) : Bool := p.magic = .response

/-- A packet in one line, as messages mention it. -/
def summary (p : Packet) : String :=
  p.magic.name ++ " " ++ p.kind.name ++ " (" ++ toString p.payload.length ++ " bytes)"

instance : ToString Packet where
  toString := summary

/-- The fields of a packet by name, with the length of the payload in its place. -/
def describe (p : Packet) : String :=
  "Packet \x7b magic: " ++ p.magic.title ++ ", type: " ++ p.kind.title ++ ", payload_len: " ++
    toString p.payload.length ++ " \x7d"

end Packet

end Gearman
