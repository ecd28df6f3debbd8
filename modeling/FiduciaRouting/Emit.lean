import FiduciaRouting.Library.JsonText
import FiduciaRouting.Replay

/-! The output of the adapter: `json.dumps` of a record with sorted members and no
spaces, one record a line. `json.dumps` raises on integers of more than 4300 digits,
which no replay has for a result. -/

namespace FiduciaRouting.Emit
open Library JsonText Python Replay

def dumpsResult : Result → List Char
  | .number value => encodeInt value
  | .text value => encodeString value

def dumps (record : Record) : List Char :=
  "\x7b\"line\":".toList ++ encodeInt record.line ++ ",\"op\":".toList ++ encodeString record.op ++ ",\"result\":".toList ++
    dumpsResult record.result ++ ",\"schema_version\":".toList ++ encodeInt record.schemaVersion ++ "\x7d".toList

def emit (records : List Record) : List Char := records.flatMap (fun record => dumps record ++ ['\n'])

/-- What a run over standard input prints, when it completes. -/
def replayText (repr : Json → String) (lines : List Line) : Py (List Char) := do
  let outputs ← replay repr lines
  return emit outputs

end FiduciaRouting.Emit
