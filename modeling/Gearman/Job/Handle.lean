import Gearman.Address
import Gearman.Bytes
import Gearman.Text.Utf8

/-!
Job handles.
-/

namespace Gearman

/-- What a job is called by the server that accepted it. Servers choose handles independently of each
other. -/
structure JobHandle where
  handle : Bytes
  server : Address
deriving DecidableEq, Repr

namespace JobHandle

def text (h : JobHandle) : String := Text.Utf8.lossy h.handle ++ "@" ++ h.server.text

instance : ToString JobHandle where
  toString := text

end JobHandle

end Gearman
