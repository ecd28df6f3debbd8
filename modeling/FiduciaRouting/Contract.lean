import FiduciaRouting.Library.Json

/-! The published replay contract: the request and result schemas of
`contracts/json-schema/contract.schema.json`. -/

namespace FiduciaRouting.Contract
open Library Json

def int32 : Schema := .integer (-2147483648) 2147483647

def routingScope : Schema := .enum ["global", "regional"]

def hashRequest : Schema := .object [("op", .const "hash"), ("key", .string)] ["op", "key"]

def shardRequest : Schema :=
  .object [("op", .const "shard"), ("key", .string), ("shard_count", int32)] ["op", "key", "shard_count"]

def scopeRequest : Schema :=
  .object [("op", .const "scope"), ("org_id", .string), ("key", .string)] ["op", "org_id", "key"]

def routeRequest : Schema :=
  .object [("op", .const "route"), ("scope", routingScope), ("key", .string), ("region", .string),
    ("regions", .array .string), ("shard_count", int32)] ["op", "scope", "key", "shard_count"]

/-- A result envelope; the four differ in the operation and the result's type. -/
def envelope (op : String) (result : Schema) : Schema :=
  .object [("schema_version", int32), ("line", int32), ("op", .const op), ("result", result)]
    ["schema_version", "line", "op", "result"]

def hashResult : Schema := envelope "hash" int32

def shardResult : Schema := envelope "shard" int32

def scopeResult : Schema := envelope "scope" .string

def routeResult : Schema := envelope "route" int32

inductive Operation where
  | hash
  | shard
  | scope
  | route
  deriving DecidableEq, Repr

namespace Operation

def name : Operation → String
  | hash => "hash"
  | shard => "shard"
  | scope => "scope"
  | route => "route"

def request : Operation → Schema
  | hash => hashRequest
  | shard => shardRequest
  | scope => scopeRequest
  | route => routeRequest

def result : Operation → Schema
  | hash => hashResult
  | shard => shardResult
  | scope => scopeResult
  | route => routeResult

end Operation

def ValidRequest (json : Json) : Prop := ∃ operation : Operation, operation.request.validates json = true

end FiduciaRouting.Contract
