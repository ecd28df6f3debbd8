import FiduciaRouting.Model

/-! The JSON-lines adapter of `formal/model.py`: the manifest check, the answer
to one request with its coercions, and the loop over standard input. -/

namespace FiduciaRouting.Replay
open Library Python

/-- The entries of `formal/fm.toml` that the adapter checks. -/
structure Manifest where
  schemaVersion : Int
  adapterProtocol : String
  model : String
  invariants : List String
  deriving DecidableEq, Repr

def fmToml : Manifest where
  schemaVersion := 1
  adapterProtocol := "json-stdin/v1"
  model := "formal/model.py"
  invariants := ["route-in-range", "global-region-independence", "regional-band-containment",
    "safe-global-fallback", "org-scope-injective", "coordinator-placement-frozen"]

def expectedInvariants : List String :=
  ["route-in-range", "global-region-independence", "regional-band-containment",
    "safe-global-fallback", "org-scope-injective", "coordinator-placement-frozen"]

def loadManifest (manifest : Manifest) : Py Manifest :=
  if manifest.schemaVersion = 1 ∧ manifest.adapterProtocol = "json-stdin/v1" ∧ manifest.model = "formal/model.py" ∧
      manifest.invariants ⊆ expectedInvariants ∧ expectedInvariants ⊆ manifest.invariants then
    .ok manifest
  else .error .assertionError

/-- A line of standard input after `strip`: nothing, text on which `json.loads`
raises, or the value it returns. Text that nests too deeply or has an integer of
more than 4300 digits is refused, so a value holds neither. -/
inductive Line where
  | blank
  | refused
  | value (request : Json)

inductive Result where
  | number (value : Int)
  | text (value : String)
  deriving DecidableEq, Repr

structure Record where
  schemaVersion : Int := 1
  line : Nat
  op : String
  result : Result
  deriving DecidableEq, Repr

def Result.toJson : Result → Json
  | .number value => .int value
  | .text value => .str value

def Record.toJson (record : Record) : Json :=
  .obj [("line", .int record.line), ("op", .str record.op), ("result", record.result.toJson),
    ("schema_version", .int record.schemaVersion)]

/-- `request[key]` -/
def item (members : List (String × Json)) (key : String) : Py Json :=
  match Json.get? members key with
  | some value => .ok value
  | none => .error (.keyError key)

variable (repr : Json → String)

def answerHash (members : List (String × Json)) : Py Result := do
  let key ← item members "key"
  return .number (Model.fnv1a (str repr key))

def answerShard (members : List (String × Json)) : Py Result := do
  let key ← item members "key"
  let shardCount ← int repr (← item members "shard_count")
  return .number (← Model.shardFor (str repr key) shardCount)

def answerScope (members : List (String × Json)) : Py Result := do
  let orgId ← item members "org_id"
  let key ← item members "key"
  return .text (Model.orgScopedKey (str repr orgId) (str repr key))

def answerRoute (members : List (String × Json)) : Py Result := do
  let scope ← item members "scope"
  let key ← item members "key"
  let region := (Json.get? members "region").getD (.str "")
  let regions ← iterate ((Json.get? members "regions").getD (.arr []))
  let shardCount ← int repr (← item members "shard_count")
  return .number (← Model.routeShard (str repr scope) (str repr key) (str repr region) (regions.map (str repr)) shardCount)

def dispatch (lineNumber : Nat) (op : Json) (members : List (String × Json)) : Py (String × Result) :=
  match op with
  | .str "hash" => do return ("hash", ← answerHash repr members)
  | .str "shard" => do return ("shard", ← answerShard repr members)
  | .str "scope" => do return ("scope", ← answerScope repr members)
  | .str "route" => do return ("route", ← answerRoute repr members)
  | op => .error (.valueError s!"line {lineNumber}: unsupported op {repr op}")

def answer (lineNumber : Nat) (request : Json) : Py Record :=
  match request with
  | .obj members => do
    let (op, result) ← dispatch repr lineNumber ((Json.get? members "op").getD .null) members
    return { line := lineNumber, op, result }
  | request => .error (.attributeError s!"'{typeName request}' object has no attribute 'get'")

/-- The loop: line numbers count blank lines, and the outputs are kept until the
input ends. -/
def replayFrom (lineNumber : Nat) (outputs : List Record) : List Line → Py (List Record)
  | [] => .ok outputs
  | .blank :: rest => replayFrom (lineNumber + 1) outputs rest
  | .refused :: _ => .error .jsonDecodeError
  | .value request :: rest => do
    let record ← answer repr lineNumber request
    replayFrom (lineNumber + 1) (outputs ++ [record]) rest

def replay (lines : List Line) : Py (List Record) := do
  let _ ← loadManifest fmToml
  replayFrom repr 1 [] lines

end FiduciaRouting.Replay
