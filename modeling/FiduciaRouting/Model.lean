import FiduciaRouting.Library.Python

/-! The routing functions of `formal/model.py`: the same contract over unbounded
integers, written independently of the crate. -/

namespace FiduciaRouting.Model
open Library Python

def mask32 : Nat := 0xFFFFFFFF

def fnvOffset : Nat := 0x811C9DC5

def fnvPrime : Nat := 0x01000193

def orgScopeDelim : String := "\u0001"

def defaultRegionIndex : Nat := 0

def fnv1a (value : String) : Nat :=
  (Text.bytes value).foldl (fun digest byte => ((digest ^^^ byte.toNat) * fnvPrime) &&& mask32) fnvOffset

def shardFor (key : String) (shardCount : Int) : Py Int :=
  if shardCount ≤ 0 then .error (.valueError "shard_count must be > 0")
  else mod (fnv1a key) shardCount

def orgScopedKey (orgId key : String) : String := orgScopeDelim ++ orgId ++ orgScopeDelim ++ key

def regionIndex (region : String) (regions : List String) : Option Nat :=
  let normalized := casefold (strip region)
  regions.findIdx? (fun candidate => casefold candidate == normalized)

def shardForRegion (regionIndexValue regionCount : Int) (key : String) (shardCount : Int) : Py Int :=
  if regionCount ≤ 0 then .error (.valueError "region_count must be > 0")
  else if shardCount < regionCount then .error (.valueError "need at least one shard per region")
  else do
    let resolved := min regionIndexValue (regionCount - 1)
    let band ← floorDiv shardCount regionCount
    let base := resolved * band
    let size := if resolved = regionCount - 1 then shardCount - base else band
    let offset ← mod (fnv1a key) size
    return base + offset

def routeShard (scope key region : String) (regions : List String) (shardCount : Int) : Py Int :=
  if scope = "global" then shardFor key shardCount
  else if scope ≠ "regional" then .error (.valueError "scope must be global or regional")
  else if regions.isEmpty || shardCount < regions.length then shardFor key shardCount
  else
    let resolved := (regionIndex region regions).getD defaultRegionIndex
    shardForRegion resolved regions.length key shardCount

def bandBounds (index regionCount shardCount : Int) : Py (Int × Int) := do
  let band ← floorDiv shardCount regionCount
  let start := index * band
  return (start, if index = regionCount - 1 then shardCount else start + band)

end FiduciaRouting.Model
