import FiduciaRouting.Library.CheckingLoop
import FiduciaRouting.Proofs.ModelRouting
import FiduciaRouting.Proofs.OrgIsolation
import FiduciaRouting.Verify

/-! The bounded check at any bounds. Its placement assertions hold for every key,
region and positive shard count, so that what can fail is the input: a scoped key
met twice, or a golden row the hash does not give. -/

namespace FiduciaRouting.Proofs.ModelVerify
open Library Banding CheckingLoop Fallible FirstMatch Python Placement ModelRouting OrgIsolation Verify

variable {bounds : Bounds} {key region : String} {count direct : Int} {checks : ℕ}

theorem check_eq_ok_iff {condition : Prop} [Decidable condition] {done : Unit} : check condition = .ok done ↔ condition := by
  by_cases holds : condition
  · simp [check, holds]
  · simp [check, holds]

theorem check_bind_eq_ok_iff {α : Type} {condition : Prop} [Decidable condition] {next : Unit → Py α} {result : α} :
    (check condition >>= next) = .ok result ↔ condition ∧ next () = .ok result := by
  rw [bind_eq_ok_iff]
  simp only [check_eq_ok_iff]
  exact ⟨fun passed => passed.elim fun _ both => both, fun both => ⟨(), both⟩⟩

theorem check_of {condition : Prop} [Decidable condition] (holds : condition) : check condition = .ok () := if_pos holds

theorem checkGlobal_passes (placed : Model.shardFor key count = .ok direct) :
    checkGlobal bounds key count direct checks region = .ok (checks + 2) := by
  have routed : Model.routeShard "global" key region bounds.regions count = .ok direct := placed
  unfold checkGlobal
  rw [routed]
  refine check_bind_eq_ok_iff.mpr ⟨rfl, check_bind_eq_ok_iff.mpr ⟨model_shardFor_range placed, rfl⟩⟩

theorem globals_eq_ok (placed : Model.shardFor key count = .ok direct) :
    bounds.regionInputs.foldlM (checkGlobal bounds key count direct) checks = .ok (checks + bounds.regionInputs.length * 2) :=
  count_eq_ok (fun _ _ => checkGlobal_passes placed) _ _

theorem model_regionIndex (region : String) (regions : List String) :
    Model.regionIndex region regions = regions.findIdx? (modelNames region) := rfl

/-- The slot lies in the band of the entry that is named, or of the default one. -/
theorem checkBand_passes {total : ℕ} (listed : bounds.regions ≠ []) (covers : bounds.regions.length ≤ total) :
    checkBand bounds key total checks region = .ok (checks + 1) := by
  have regions := List.length_pos_iff.mpr listed
  unfold checkBand
  have default : Model.defaultRegionIndex = 0 := rfl
  rw [model_banded listed covers, model_regionIndex, default]
  generalize found : (bounds.regions.findIdx? (modelNames region)).getD 0 = position
  have inside : position < bounds.regions.length := found ▸ findIdx?_getD_lt listed
  have member := place_mem_band regions covers position (fnv1a key).toNat
  rw [clamp_of_lt inside] at member
  refine bind_eq_ok_iff.mpr ⟨_, rfl, bind_eq_ok_iff.mpr ⟨_, model_bandBounds regions, ?_⟩⟩
  refine check_bind_eq_ok_iff.mpr ⟨?_, rfl⟩
  exact ⟨Int.ofNat_le.mpr member.1, Int.ofNat_lt.mpr member.2⟩

theorem checkBand_raises {result : ℕ} (unlisted : bounds.regions = []) : checkBand bounds key count checks region ≠ .ok result := by
  intro passed
  unfold checkBand at passed
  rw [unlisted] at passed
  obtain ⟨_, _, passed⟩ := bind_eq_ok_iff.mp passed
  obtain ⟨_, bounded, _⟩ := bind_eq_ok_iff.mp passed
  cases bounded

theorem length_tooManyRegions (total : ℕ) : (tooManyRegions total).length = total + 1 := by
  simp [tooManyRegions]

/-- The checks made of a key on a number of shards. -/
def checksAt (bounds : Bounds) (count : Int) : ℕ :=
  4 + 2 * bounds.regionInputs.length + if bounds.regions.length ≤ count then bounds.regionInputs.length else 0

def Placeable (bounds : Bounds) (count : Int) : Prop := 0 < count ∧ (bounds.regions = [] → bounds.regionInputs = [])

theorem checkPlacement_raises {result : ℕ} (nonpositive : ¬ 0 < count) : checkPlacement bounds key checks count ≠ .ok result := by
  intro passed
  obtain ⟨_, direct, _⟩ := bind_eq_ok_iff.mp passed
  exact nonpositive (model_shardFor_ok_iff.mp direct).1

theorem bands_eq_ok_iff {total result : ℕ} (covers : bounds.regions.length ≤ total) :
    bounds.regionInputs.foldlM (checkBand bounds key total) checks = .ok result ↔
      (bounds.regions = [] → bounds.regionInputs = []) ∧ checks + bounds.regionInputs.length = result := by
  by_cases listed : bounds.regions = []
  · cases inputs : bounds.regionInputs with
    | nil => simp [pure_eq_ok_iff]
    | cons region rest =>
      rw [foldlM_cons_eq_ok_iff]
      refine iff_of_false ?_ (fun condition => List.cons_ne_nil _ _ (condition.1 listed))
      intro passed
      obtain ⟨_, first, _⟩ := passed
      exact checkBand_raises listed first
  · rw [count_eq_ok (fun _ _ => checkBand_passes listed covers), Except.ok.injEq, Nat.mul_one]
    simp [listed]

theorem checkPlacement_eq_ok_iff {result : ℕ} :
    checkPlacement bounds key checks count = .ok result ↔ Placeable bounds count ∧ checks + checksAt bounds count = result := by
  by_cases positive : 0 < count
  · obtain ⟨total, rfl⟩ := Int.eq_ofNat_of_zero_le (Int.le_of_lt positive)
    have sharded : 0 < total := Int.natCast_pos.mp positive
    have placed := model_shardFor sharded key
    have unlisted := model_fallback sharded (Or.inl rfl) key "aws"
    have crowded := model_fallback sharded (Or.inr (Nat.lt_of_lt_of_eq total.lt_succ_self (length_tooManyRegions total).symm)) key "r0"
    have early : checkPlacement bounds key checks total =
        if (total : Int) ≥ bounds.regions.length then
          bounds.regionInputs.foldlM (checkBand bounds key total) (checks + 2 + bounds.regionInputs.length * 2 + 2)
        else pure (checks + 2 + bounds.regionInputs.length * 2 + 2) := by
      unfold checkPlacement
      simp only [placed, unlisted, crowded, globals_eq_ok placed, check_of (model_shardFor_range placed), check_of, bind, Except.bind]
    rw [early, checksAt, Placeable]
    split
    next covers =>
      rw [bands_eq_ok_iff (Int.ofNat_le.mp covers)]
      simp only [positive, true_and]
      exact and_congr_right fun _ => by omega
    next few =>
      have listed : bounds.regions ≠ [] := by
        intro empty
        rw [empty] at few
        exact few (Int.natCast_nonneg total)
      rw [pure_eq_ok_iff]
      simp only [positive, listed, true_and, false_implies]
      omega
  · exact iff_of_false (checkPlacement_raises positive) (fun condition => positive condition.1.1)

theorem checkPlacements_eq_ok_iff {result : ℕ} :
    checkPlacements bounds checks = .ok result ↔
      (∀ key ∈ bounds.keys, ∀ count ∈ bounds.shardCounts, Placeable bounds count) ∧
        checks + bounds.keys.length * (bounds.shardCounts.map (checksAt bounds)).sum = result := by
  have counted : (bounds.keys.map (fun _ => (bounds.shardCounts.map (checksAt bounds)).sum)).sum =
      bounds.keys.length * (bounds.shardCounts.map (checksAt bounds)).sum := by
    simp
  rw [checkPlacements, ← counted]
  apply tally_eq_ok_iff
  intro checks key result
  apply tally_eq_ok_iff
  intro checks count result
  exact checkPlacement_eq_ok_iff

def pairs (bounds : Bounds) : List (String × String) := bounds.orgs.flatMap (fun org => bounds.keys.map (fun key => (org, key)))

def framed (pair : String × String) : String := orgScopedKey pair.1 pair.2

def names (state : Scoped × ℕ) : List String := state.1.map Prod.fst

def recorded (state : Scoped × ℕ) (pair : String × String) : Scoped × ℕ :=
  ((framed pair, pair.1, pair.2) :: state.1, state.2 + 2)

theorem checkScope_eq_ok_iff {state result : Scoped × ℕ} {pair : String × String} :
    checkScope state pair = .ok result ↔ framed pair ∉ names state ∧ recorded state pair = result := by
  have opened : Text.startsWith (Model.orgScopedKey pair.1 pair.2) (Model.orgScopeDelim ++ pair.1 ++ Model.orgScopeDelim) = true :=
    Text.startsWith_iff.mpr ⟨pair.2, rfl⟩
  unfold checkScope
  rw [check_bind_eq_ok_iff, and_iff_right opened, check_bind_eq_ok_iff, pure_eq_ok_iff]
  rfl

theorem foldl_recorded (items : List (String × String)) (state : Scoped × ℕ) :
    (items.foldl recorded state).2 = state.2 + items.length * 2 := by
  induction items generalizing state with
  | nil => rfl
  | cons pair rest ih =>
    rw [List.foldl_cons, ih, List.length_cons, recorded]
    omega

theorem length_pairs (bounds : Bounds) : (pairs bounds).length = bounds.orgs.length * bounds.keys.length := by
  simp [pairs, List.length_flatMap]

theorem checkScopes_eq_ok_iff {result : ℕ} :
    checkScopes bounds checks = .ok result ↔
      ((pairs bounds).map framed).Nodup ∧ checks + bounds.orgs.length * bounds.keys.length * 2 = result := by
  have loop : bounds.orgs.foldlM (fun state org => bounds.keys.foldlM (fun state key => checkScope state (org, key)) state)
      ([], checks) = (pairs bounds).foldlM checkScope ([], checks) := by
    rw [pairs, foldlM_flatMap]
    simp only [List.foldlM_map]
  simp only [checkScopes, loop, bind_eq_ok_iff, pure_eq_ok_iff]
  have register (final : Scoped × ℕ) : (pairs bounds).foldlM checkScope ([], checks) = .ok final ↔
      ((pairs bounds).map framed).Nodup ∧ (∀ pair ∈ pairs bounds, framed pair ∉ names ([], checks)) ∧
        (pairs bounds).foldl recorded ([], checks) = final := by
    apply fresh_eq_ok_iff
    · exact fun _ _ _ => checkScope_eq_ok_iff
    · exact fun _ _ => rfl
  have empty : ∀ pair ∈ pairs bounds, framed pair ∉ names ([], checks) := fun _ _ absent => nomatch absent
  simp only [register, and_assoc, exists_and_left, exists_eq_left', foldl_recorded, length_pairs]
  exact and_congr_right fun _ => and_iff_right empty

/-- The row gives the slots of the coordinator keys on its shards. -/
def Golden (row : Int × Int × Int) : Prop :=
  0 < row.1 ∧ row.2.1 = (fnv1a FiduciaRouting.lockCoordinationKey).toNat % row.1 ∧
    row.2.2 = (fnv1a FiduciaRouting.serviceDiscoveryKey).toNat % row.1

theorem checkGolden_eq_ok_iff {row : Int × Int × Int} {result : ℕ} :
    checkGolden checks row = .ok result ↔ Golden row ∧ checks + 2 = result := by
  unfold checkGolden
  simp only [bind_eq_ok_iff, check_eq_ok_iff, model_shardFor_ok_iff, pure_eq_ok_iff, exists_const]
  constructor
  · intro passed
    obtain ⟨_, ⟨positive, rfl⟩, lock, _, ⟨_, rfl⟩, discovery, same⟩ := passed
    exact ⟨⟨positive, lock.symm, discovery.symm⟩, same⟩
  · intro condition
    obtain ⟨⟨positive, lock, discovery⟩, same⟩ := condition
    exact ⟨_, ⟨positive, rfl⟩, lock.symm, _, ⟨positive, rfl⟩, discovery.symm, same⟩

/-- What the check asks of its bounds. -/
structure Passes (bounds : Bounds) : Prop where
  placeable : ∀ key ∈ bounds.keys, ∀ count ∈ bounds.shardCounts, Placeable bounds count
  distinct : ((pairs bounds).map framed).Nodup
  golden : ∀ row ∈ bounds.golden, Golden row

def tally (bounds : Bounds) : ℕ :=
  bounds.keys.length * (bounds.shardCounts.map (checksAt bounds)).sum + bounds.orgs.length * bounds.keys.length * 2 +
    bounds.golden.length * 2

def reportOn (manifest : NamedManifest) (bounds : Bounds) : Report where
  status := "ok"
  model := manifest.id
  claim := manifest.claim
  checks := tally bounds
  boundedPairs := bounds.keys.length * bounds.orgs.length

theorem goldens_eq_ok_iff {result : ℕ} :
    bounds.golden.foldlM checkGolden checks = .ok result ↔
      (∀ row ∈ bounds.golden, Golden row) ∧ checks + bounds.golden.length * 2 = result := by
  have counted : (bounds.golden.map (fun _ => 2)).sum = bounds.golden.length * 2 := by simp
  rw [← counted]
  apply tally_eq_ok_iff
  intro checks row result
  exact checkGolden_eq_ok_iff

/-- The manifest names the adapter and this model, and lists the invariants, in any
order and any number of times. -/
structure Expected (manifest : NamedManifest) : Prop where
  version : manifest.schemaVersion = 1
  protocol : manifest.adapterProtocol = "json-stdin/v1"
  model : manifest.model = "formal/model.py"
  invariants : ∀ id, id ∈ manifest.invariants ↔ id ∈ Replay.expectedInvariants

theorem loadManifest_eq_ok_iff {manifest : NamedManifest} {loaded : Replay.Manifest} :
    Replay.loadManifest manifest.toManifest = .ok loaded ↔ Expected manifest ∧ manifest.toManifest = loaded := by
  unfold Replay.loadManifest
  split
  next holds =>
    obtain ⟨version, protocol, model, known, complete⟩ := holds
    rw [Except.ok.injEq]
    exact (and_iff_right ⟨version, protocol, model, fun id => ⟨fun listed => known listed, fun wanted => complete wanted⟩⟩).symm
  next fails =>
    refine iff_of_false (fun raised => nomatch raised) ?_
    intro condition
    obtain ⟨⟨version, protocol, model, invariants⟩, _⟩ := condition
    exact fails ⟨version, protocol, model, fun id listed => (invariants id).mp listed, fun id wanted => (invariants id).mpr wanted⟩

theorem passes_of_verifyOver {manifest : NamedManifest} {report : Report} (completed : verifyOver manifest bounds = .ok report) :
    Expected manifest ∧ Passes bounds ∧ reportOn manifest bounds = report := by
  unfold verifyOver at completed
  simp only [bind_eq_ok_iff, loadManifest_eq_ok_iff, checkPlacements_eq_ok_iff, checkScopes_eq_ok_iff, goldens_eq_ok_iff,
    pure_eq_ok_iff] at completed
  obtain ⟨_, ⟨expected, _⟩, _, ⟨placeable, rfl⟩, _, ⟨distinct, rfl⟩, _, _, _, _, _, _, _, ⟨golden, rfl⟩, same⟩ := completed
  refine ⟨expected, ⟨placeable, distinct, golden⟩, ?_⟩
  rw [← same, reportOn, tally, Nat.zero_add]

theorem verifyOver_of_passes {manifest : NamedManifest} (expected : Expected manifest) (passes : Passes bounds) :
    verifyOver manifest bounds = .ok (reportOn manifest bounds) := by
  have marked : Text.startsWith Verify.lockCoordinationKey "\u0000" = true := by decide
  have marks : Text.startsWith Verify.serviceDiscoveryKey "\u0000" = true := by decide
  have apart : Verify.lockCoordinationKey ≠ Verify.serviceDiscoveryKey := by decide
  unfold verifyOver
  simp only [bind_eq_ok_iff, loadManifest_eq_ok_iff, checkPlacements_eq_ok_iff, checkScopes_eq_ok_iff, goldens_eq_ok_iff,
    pure_eq_ok_iff]
  refine ⟨_, ⟨expected, rfl⟩, _, ⟨passes.placeable, rfl⟩, _, ⟨passes.distinct, rfl⟩, (), check_of marked, (), check_of marks, (),
    check_of apart, _, ⟨passes.golden, rfl⟩, ?_⟩
  rw [reportOn, tally, Nat.zero_add]

/-- The check completes exactly when the manifest is the expected one, every count a
key is placed on is positive, no two pairs are framed alike and the golden rows are
those of the hash; and then it reports the number of its checks. -/
theorem verify_completes_iff (manifest : NamedManifest) (bounds : Bounds) (report : Report) :
    verifyOver manifest bounds = .ok report ↔ Expected manifest ∧ Passes bounds ∧ reportOn manifest bounds = report := by
  constructor
  · exact passes_of_verifyOver
  · intro condition
    obtain ⟨expected, passes, rfl⟩ := condition
    exact verifyOver_of_passes expected passes

/-- Ids without the delimiter frame different pairs differently, whatever the keys. -/
theorem framed_injective {first second : String × String} (clearFirst : orgScopeDelim ∉ first.1.toList)
    (clearSecond : orgScopeDelim ∉ second.1.toList) (same : framed first = framed second) : first = second := by
  have chars : (orgScopedKey (OrgId.mk first.1 clearFirst).text first.2).toList =
      (orgScopedKey (OrgId.mk second.1 clearSecond).text second.2).toList := congrArg String.toList same
  rw [toList_scopedKey, toList_scopedKey] at chars
  obtain ⟨orgs, keys⟩ := headers_delimited chars
  exact Prod.ext (congrArg OrgId.text orgs) (String.toList_inj.mp keys)

theorem mem_pairs {pair : String × String} : pair ∈ pairs bounds ↔ pair.1 ∈ bounds.orgs ∧ pair.2 ∈ bounds.keys := by
  obtain ⟨org, key⟩ := pair
  simp [pairs]

theorem pairs_nodup (orgs : bounds.orgs.Nodup) (keys : bounds.keys.Nodup) : (pairs bounds).Nodup := by
  refine List.nodup_flatMap.mpr ⟨fun org _ => keys.map (Prod.mk_right_injective org), ?_⟩
  refine orgs.imp ?_
  intro first second different pair left right
  obtain ⟨_, _, rfl⟩ := List.mem_map.mp left
  obtain ⟨_, _, same⟩ := List.mem_map.mp right
  exact different (congrArg Prod.fst same).symm

theorem framed_distinct (orgs : bounds.orgs.Nodup) (clear : ∀ org ∈ bounds.orgs, orgScopeDelim ∉ org.toList)
    (keys : bounds.keys.Nodup) : ((pairs bounds).map framed).Nodup := by
  refine List.Nodup.map_on ?_ (pairs_nodup orgs keys)
  intro first insideFirst second insideSecond same
  exact framed_injective (clear _ (mem_pairs.mp insideFirst).1) (clear _ (mem_pairs.mp insideSecond).1) same

theorem placed_of_shardFor {key : String} {shardCount shard : ShardId} (placed : shardFor key shardCount = .ok shard) :
    0 < shardCount.toNat ∧ shard.toNat = (fnv1a key).toNat % shardCount.toNat := by
  have positive : 0 < shardCount.toNat := by
    by_contra zero
    have none : shardCount = 0 := UInt32.toNat_inj.mp (Nat.eq_zero_of_not_pos zero)
    subst none
    cases placed
  obtain ⟨other, returned, value⟩ := shardFor_returns positive key
  cases returned.symm.trans placed
  exact ⟨positive, value⟩

/-- The row repeats the coordinator placements of the crate. -/
def Frozen (row : Int × Int × Int) : Prop :=
  ∃ count lock discovery : ShardId, row = ((count.toNat : Int), (lock.toNat : Int), (discovery.toNat : Int)) ∧
    lockCoordinationShard count = .ok lock ∧ serviceDiscoveryShard count = .ok discovery

theorem Frozen.golden {row : Int × Int × Int} (frozen : Frozen row) : Golden row := by
  obtain ⟨count, lock, discovery, rfl, locks, discovers⟩ := frozen
  obtain ⟨positive, lockValue⟩ := placed_of_shardFor locks
  obtain ⟨_, discoveryValue⟩ := placed_of_shardFor discovers
  refine ⟨Int.natCast_pos.mpr positive, ?_, ?_⟩
  · rw [lockValue, Int.natCast_emod]
  · rw [discoveryValue, Int.natCast_emod]

/-- At any bounds an operator could choose, the check completes: distinct keys, distinct
ids the node accepts, some regions, positive counts and the placements of the crate's
coordinator keys. -/
theorem verify_at_all_bounds {manifest : NamedManifest} (expected : Expected manifest) {bounds : Bounds}
    (keys : bounds.keys.Nodup) (orgs : bounds.orgs.Nodup) (clear : ∀ org ∈ bounds.orgs, orgScopeDelim ∉ org.toList)
    (regional : bounds.regions ≠ []) (positive : ∀ count ∈ bounds.shardCounts, 0 < count)
    (golden : ∀ row ∈ bounds.golden, Frozen row) :
    verifyOver manifest bounds = .ok (reportOn manifest bounds) := by
  refine verifyOver_of_passes expected ⟨?_, framed_distinct orgs clear keys, ?_⟩
  · intro key _ count member
    exact ⟨positive count member, fun empty => False.elim (regional empty)⟩
  · exact fun row member => (golden row member).golden

/-- The run of the source makes 1910 checks. -/
theorem verify_at_all_bounds_source :
    verify = .ok { status := "ok", model := "fiducia-routing-contract", claim := "finite-exhaustive-abstraction", checks := 1910,
                   boundedPairs := 32 } := by
  have expected : Expected Verify.fmToml := ⟨rfl, rfl, rfl, fun _ => Iff.rfl⟩
  have clear : ∀ org ∈ Verify.bounds.orgs, orgScopeDelim ∉ org.toList := by decide
  have positive : ∀ count ∈ Verify.bounds.shardCounts, 0 < count := by decide
  have golden : ∀ row ∈ Verify.bounds.golden, Frozen row := by
    intro row member
    simp only [Verify.bounds, List.mem_cons, List.not_mem_nil, or_false] at member
    rcases member with rfl | rfl | rfl
    · exact ⟨16, 15, 9, rfl, by decide, by decide⟩
    · exact ⟨256, 223, 233, rfl, by decide, by decide⟩
    · exact ⟨1024, 223, 233, rfl, by decide, by decide⟩
  exact verify_at_all_bounds expected (by decide) (by decide) clear (List.cons_ne_nil _ _) positive golden

end FiduciaRouting.Proofs.ModelVerify
