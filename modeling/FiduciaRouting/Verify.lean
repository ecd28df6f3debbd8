import FiduciaRouting.Replay

/-! The bounded check of `formal/model.py`. The source fixes the lists it runs over
inside the function; here they are its bounds, and `verify` runs over those of the
source. A failed `assert` raises, and `checks` counts the ones that passed. -/

namespace FiduciaRouting.Verify
open Library Python Replay

def lockCoordinationKey : String := "\u0000fiducia-lock-coordinator"

def serviceDiscoveryKey : String := "\u0000fiducia-service-discovery"

/-- The manifest with the two entries that the report repeats. -/
structure NamedManifest extends Manifest where
  id : String
  claim : String
  deriving DecidableEq, Repr

def fmToml : NamedManifest where
  toManifest := Replay.fmToml
  id := "fiducia-routing-contract"
  claim := "finite-exhaustive-abstraction"

structure Bounds where
  keys : List String
  orgs : List String
  regions : List String
  regionInputs : List String
  shardCounts : List Int
  /-- A shard count with the placements of the lock and the discovery coordinator. -/
  golden : List (Int × Int × Int)
  deriving DecidableEq, Repr

structure Report where
  status : String
  model : String
  claim : String
  checks : Nat
  boundedPairs : Nat
  deriving DecidableEq, Repr

def check (condition : Prop) [Decidable condition] : Py Unit :=
  if condition then .ok () else .error .assertionError

def checkGlobal (bounds : Bounds) (key : String) (count direct : Int) (checks : Nat) (region : String) : Py Nat := do
  let routed ← Model.routeShard "global" key region bounds.regions count
  check (routed = direct)
  check (0 ≤ routed ∧ routed < count)
  return checks + 2

def checkBand (bounds : Bounds) (key : String) (count : Int) (checks : Nat) (region : String) : Py Nat := do
  let resolved := (Model.regionIndex region bounds.regions).getD Model.defaultRegionIndex
  let routed ← Model.routeShard "regional" key region bounds.regions count
  let (start, stop) ← Model.bandBounds resolved bounds.regions.length count
  check (start ≤ routed ∧ routed < stop)
  return checks + 1

/-- One region more than there are shards. -/
def tooManyRegions (count : Int) : List String := (List.range (count + 1).toNat).map (fun i => s!"r{i}")

def checkPlacement (bounds : Bounds) (key : String) (checks : Nat) (count : Int) : Py Nat := do
  let direct ← Model.shardFor key count
  check (0 ≤ direct ∧ direct < count)
  let again ← Model.shardFor key count
  check (direct = again)
  let checks ← bounds.regionInputs.foldlM (checkGlobal bounds key count direct) (checks + 2)
  let unlisted ← Model.routeShard "regional" key "aws" [] count
  check (unlisted = direct)
  let crowded ← Model.routeShard "regional" key "r0" (tooManyRegions count) count
  check (crowded = direct)
  let checks := checks + 2
  if count ≥ bounds.regions.length then bounds.regionInputs.foldlM (checkBand bounds key count) checks
  else return checks

def checkPlacements (bounds : Bounds) (checks : Nat) : Py Nat :=
  bounds.keys.foldlM (fun checks key => bounds.shardCounts.foldlM (checkPlacement bounds key) checks) checks

/-- The scoped keys seen so far, each with its organization and key. -/
abbrev Scoped := List (String × String × String)

def checkScope (state : Scoped × Nat) (pair : String × String) : Py (Scoped × Nat) := do
  let (framed, checks) := state
  let (org, key) := pair
  let value := Model.orgScopedKey org key
  check (Text.startsWith value (Model.orgScopeDelim ++ org ++ Model.orgScopeDelim) = true)
  check (value ∉ framed.map Prod.fst)
  return ((value, org, key) :: framed, checks + 2)

def checkScopes (bounds : Bounds) (checks : Nat) : Py Nat := do
  let (_, checks) ← bounds.orgs.foldlM
    (fun state org => bounds.keys.foldlM (fun state key => checkScope state (org, key)) state) ([], checks)
  return checks

def checkGolden (checks : Nat) (row : Int × Int × Int) : Py Nat := do
  let (count, lockShard, discoveryShard) := row
  let lock ← Model.shardFor lockCoordinationKey count
  check (lock = lockShard)
  let discovery ← Model.shardFor serviceDiscoveryKey count
  check (discovery = discoveryShard)
  return checks + 2

def verifyOver (manifest : NamedManifest) (bounds : Bounds) : Py Report := do
  let _ ← loadManifest manifest.toManifest
  let checks ← checkPlacements bounds 0
  let checks ← checkScopes bounds checks
  check (Text.startsWith lockCoordinationKey "\u0000" = true)
  check (Text.startsWith serviceDiscoveryKey "\u0000" = true)
  check (lockCoordinationKey ≠ serviceDiscoveryKey)
  let checks ← bounds.golden.foldlM checkGolden checks
  return { status := "ok", model := manifest.id, claim := manifest.claim, checks,
           boundedPairs := bounds.keys.length * bounds.orgs.length }

def bounds : Bounds where
  keys := ["", "a", "orders/42", "orders/checkout", "inventory/sku-9", "café", lockCoordinationKey, serviceDiscoveryKey]
  orgs := ["a", "b", "tenant-1", "tenant-2"]
  regions := ["gcp", "aws", "hetzner"]
  regionInputs := ["gcp", " AWS ", "HeTzNeR", "azure", "", "garbage"]
  shardCounts := [1, 2, 3, 4, 5, 7, 12, 16, 64, 256, 1024]
  golden := [(16, 15, 9), (256, 223, 233), (1024, 223, 233)]

def verify : Py Report := verifyOver fmToml bounds

end FiduciaRouting.Verify
