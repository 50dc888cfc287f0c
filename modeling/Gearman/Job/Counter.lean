import Gearman.Error
import Gearman.Text.Decimal
import Gearman.Text.Utf8

/-!
Counters in payloads: decimal numerals below 2^64.
-/

namespace Gearman

/-- The numeral that writes a counter. -/
def writeCounter (n : UInt64) : Bytes := Text.Utf8.encode (toString n)

/-- The counter in a field: a numeral that white space may surround, or nothing at all, which is zero.
The name of the field is for the report. -/
def readCounter (field : String) (bs : Bytes) : Except Error UInt64 :=
  if bs.isEmpty then .ok 0
  else
    match (Text.Utf8.decode? bs).bind fun s => Text.Decimal.parse? (UInt64.size - 1) (Text.trim s) with
    | some n => .ok n.toUInt64
    | none => .error (.notDecimal field (Text.Utf8.lossy bs))

end Gearman
