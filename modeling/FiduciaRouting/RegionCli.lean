import FiduciaRouting.Library.CommandLine
import FiduciaRouting.Library.Fallible
import FiduciaRouting.Routing

/-! The `fiducia-region` command. Floats are any type with a parser; the nearest
region is any function of two of them. A run yields the texts of its `println!`
calls, an error message, or the panic of the routing library. -/

namespace FiduciaRouting.RegionCli
open Library CheckedArithmetic CommandLine Fallible

variable {φ : Type}

inductive Exit where
  | message (text : String)
  | panic (cause : Panic)
  deriving DecidableEq, Repr

structure Options (φ : Type) where
  latitude : Option φ
  longitude : Option φ
  key : Option String
  region : Option Region
  shardCount : UInt32
  list : Bool

def u32FromStr (text : String) : Option UInt32 := (Text.decimalBelow (2 ^ 32) text).map UInt32.ofNat

def parseF64 (parse : String → Option φ) (name : String) (value : Option String) : Except String φ := do
  let text ← okOr value s!"{name} needs a value"
  okOr (parse text) s!"{name} must be a number"

def envF64 (parse : String → Option φ) (env : String → Option String) (name : String) : Except String (Option φ) :=
  (env name).mapM (fun value => parseF64 parse name (some value))

def parseU32 (name : String) (value : Option String) : Except String UInt32 := do
  let text ← okOr value s!"{name} needs a value"
  let parsed ← okOr (u32FromStr text) s!"{name} must be a positive integer"
  if parsed = 0 then .error s!"{name} must be greater than zero" else .ok parsed

def parseRegion (value : String) : Except String Region :=
  okOr (Region.parse value) s!"unknown region '{value}'; run --list"

def usage : String :=
  "Usage:\n  fiducia-region --list\n  fiducia-region --lat <latitude> --lon <longitude>\n  fiducia-region --region <region> --key <key> [--shards <count>]\n  fiducia-region --lat <latitude> --lon <longitude> --key <key> [--shards <count>]"

def fromEnv (parse : String → Option φ) (env : String → Option String) : Except String (Options φ) := do
  let latitude ← envF64 parse env "FIDUCIA_LATITUDE"
  let longitude ← envF64 parse env "FIDUCIA_LONGITUDE"
  let key := env "FIDUCIA_ROUTING_KEY"
  let region ← (env "FIDUCIA_REGION").mapM parseRegion
  let shardCount ← (env "FIDUCIA_SHARD_COUNT").mapM (fun value => parseU32 "FIDUCIA_SHARD_COUNT" (some value))
  let list := (env "FIDUCIA_REGION_LIST").any (fun value => ["1", "true", "yes", "on"].contains value)
  return { latitude, longitude, key, region, shardCount := shardCount.getD 256, list }

/-- One turn of the argument loop. The value of `--key` is the only one that may
be missing: the option is then cleared. -/
def arm (parse : String → Option φ) (options : Options φ) (argument : String) (next : Option String) :
    Except String (Arm (Options φ)) :=
  match argument with
  | "--help" | "-h" => return .halt
  | "--list" => return .alone { options with list := true }
  | "--lat" => do
    let value ← parseF64 parse "--lat" next
    return .valued { options with latitude := some value }
  | "--lon" => do
    let value ← parseF64 parse "--lon" next
    return .valued { options with longitude := some value }
  | "--key" => return .valued { options with key := next }
  | "--region" => do
    let value ← okOr next "--region needs a value"
    let region ← parseRegion value
    return .valued { options with region := some region }
  | "--shards" => do
    let value ← parseU32 "--shards" next
    return .valued { options with shardCount := value }
  | other => .error s!"unknown argument '{other}'; run --help"

def configure (parse : String → Option φ) (env : String → Option String) (args : List String) :
    Except String (Ending (Options φ)) := do
  let options ← fromEnv parse env
  loop (arm parse) options args

def nearest (nearestTo : φ → φ → Region) (latitude longitude : Option φ) : Except Exit (Option Region) :=
  match latitude, longitude with
  | some lat, some lon => .ok (some (nearestTo lat lon))
  | none, none => .ok none
  | _, _ => .error (.message "--lat and --lon must be provided together")

def answer (region : Option Region) (key : Option String) (shardCount : UInt32) : Except Exit (List String) :=
  match region, key with
  | some region, some key => do
    let shard ← (shardForCustomerRegion region key shardCount).mapError .panic
    return [s!"region={region.code}\tcluster={region.clusterName}\tkey={key}\tshard={shard}"]
  | some region, none => return [s!"region={region.code}\tcluster={region.clusterName}"]
  | none, some _ => .error (.message "--key needs --region or --lat/--lon")
  | none, none => return [usage]

def report (nearestTo : φ → φ → Region) (options : Options φ) : Except Exit (List String) :=
  if options.list then
    return Region.all.map (fun region => s!"{region.code}\tcluster={region.clusterName}")
  else do
    let nearest ← nearest nearestTo options.latitude options.longitude
    answer (options.region.or nearest) options.key options.shardCount

def main (parse : String → Option φ) (nearestTo : φ → φ → Region) (env : String → Option String) (args : List String) :
    Except Exit (List String) :=
  match configure parse env args with
  | .error text => .error (.message text)
  | .ok .halted => .ok [usage]
  | .ok (.finished options) => report nearestTo options

end FiduciaRouting.RegionCli
