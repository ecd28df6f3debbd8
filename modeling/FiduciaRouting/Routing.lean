import FiduciaRouting.Library.CheckedArithmetic
import FiduciaRouting.Library.Text

/-! The routing functions of the crate root. A call returns a shard or the panic
that stops it; a slice length or position becomes a 32-bit word by truncation,
as the `as u32` casts of the source do. -/

namespace FiduciaRouting
open Library CheckedArithmetic Text

abbrev ShardId := UInt32

def fnvOffset : UInt32 := 0x811c9dc5

def fnvPrime : UInt32 := 0x01000193

def fnv1a (s : String) : UInt32 := (bytes s).foldl (fun hash b => (hash ^^^ b.toUInt32) * fnvPrime) fnvOffset

def shardFor (key : String) (shardCount : UInt32) : Checked ShardId := do
  assert (shardCount > 0) "shard_count must be > 0"
  rem (fnv1a key) shardCount

def lockCoordinationKey : String := "\u0000fiducia-lock-coordinator"

def lockCoordinationShard (shardCount : UInt32) : Checked ShardId := shardFor lockCoordinationKey shardCount

def orgScopeDelim : Char := '\u0001'

def orgScopedKey (orgId key : String) : String :=
  String.singleton orgScopeDelim ++ orgId ++ String.singleton orgScopeDelim ++ key

def orgScopePrefix (orgId : String) : String := orgScopedKey orgId ""

def serviceDiscoveryKey : String := "\u0000fiducia-service-discovery"

def serviceDiscoveryShard (shardCount : UInt32) : Checked ShardId := shardFor serviceDiscoveryKey shardCount

inductive Region where
  | usCentral1
  | usEast1
  | euCentral
  deriving DecidableEq, Repr

namespace Region

def all : List Region := [usCentral1, usEast1, euCentral]

def code : Region → String
  | usCentral1 => "us-central1"
  | usEast1 => "us-east-1"
  | euCentral => "eu-central"

def clusterName : Region → String
  | usCentral1 => "gcp"
  | usEast1 => "aws"
  | euCentral => "hetzner"

def index : Region → UInt32
  | usCentral1 => 0
  | usEast1 => 1
  | euCentral => 2

def parse (value : String) : Option Region :=
  match toAsciiLowercase (trim value) with
  | "us-central1" | "us-central" | "gcp" => some usCentral1
  | "us-east-1" | "us-east" | "aws" => some usEast1
  | "eu-central" | "eu-central-1" | "hetzner" => some euCentral
  | _ => none

end Region

def shardForRegion (regionIndex regionCount : UInt32) (key : String) (shardCount : UInt32) : Checked ShardId := do
  assert (regionCount > 0) "region_count must be > 0"
  assert (shardCount ≥ regionCount) "need at least one shard per region"
  -- An out-of-range index is clamped to the last band.
  let ri := min regionIndex (← sub regionCount 1)
  let band ← div shardCount regionCount
  let base ← mul ri band
  -- The last region owns the remainder shards too.
  let size ← if ri = (← sub regionCount 1) then sub shardCount base else pure band
  add base (← rem (fnv1a key) size)

def shardForCustomerRegion (region : Region) (key : String) (shardCount : UInt32) : Checked ShardId :=
  shardForRegion region.index (UInt32.ofNat Region.all.length) key shardCount

def defaultRegionIndex : UInt32 := 0

/-- Resolve a region name to its index in an ordered region list. Only the
requested name is trimmed. -/
def regionIndex (region : String) (regions : List String) : Option UInt32 :=
  let region := trim region
  (regions.findIdx? (fun candidate => eqIgnoreAsciiCase candidate region)).map UInt32.ofNat

def regionIndexOr (region : String) (regions : List String) (defaultIndex : UInt32) : UInt32 :=
  (regionIndex region regions).getD defaultIndex

inductive KeyScope where
  | global
  | regional
  deriving DecidableEq, Repr

/-- The single routing entry point. Regional keys degrade to the global shard
when the list is empty or the (truncated) region count exceeds the shards. -/
def routeShard (scope : KeyScope) (key region : String) (regions : List String) (shardCount : UInt32) :
    Checked ShardId :=
  match scope with
  | .global => shardFor key shardCount
  | .regional =>
    if regions.isEmpty || shardCount < UInt32.ofNat regions.length then
      shardFor key shardCount
    else
      let ri := regionIndexOr region regions defaultRegionIndex
      shardForRegion ri (UInt32.ofNat regions.length) key shardCount

end FiduciaRouting
