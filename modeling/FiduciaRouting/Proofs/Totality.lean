import FiduciaRouting.Proofs.Reachability

/-! Totality of the routing entry point. The guard compares the shard count with
the truncated region count, so it protects the banding for every list that has
fewer than two to the thirty-second entries, and for longer ones only in part. -/

namespace FiduciaRouting.Proofs.Totality
open Library CheckedArithmetic Banding Placement Reachability

theorem toNat_length (regions : List String) : (UInt32.ofNat regions.length).toNat = regions.length % 2 ^ 32 :=
  UInt32.toNat_ofNat'

theorem guard_iff {regions : List String} {shardCount : UInt32} :
    (regions.isEmpty || decide (shardCount < UInt32.ofNat regions.length)) = true ↔
      regions = [] ∨ shardCount.toNat < regions.length % 2 ^ 32 := by
  rw [Bool.or_eq_true, List.isEmpty_iff, decide_eq_true_iff, UInt32.lt_iff_toNat_lt, toNat_length]

theorem routeShard_fallback {regions : List String} {shardCount : UInt32}
    (guarded : regions = [] ∨ shardCount.toNat < regions.length % 2 ^ 32) (key region : String) :
    routeShard .regional key region regions shardCount = shardFor key shardCount := by
  simp only [routeShard, guard_iff.mpr guarded, if_true]

theorem routeShard_banded {regions : List String} {shardCount : UInt32} (nonempty : regions ≠ [])
    (covers : regions.length % 2 ^ 32 ≤ shardCount.toNat) (key region : String) :
    routeShard .regional key region regions shardCount =
      shardForRegion (regionIndexOr region regions defaultRegionIndex) (UInt32.ofNat regions.length) key shardCount := by
  have unguarded : ¬ (regions.isEmpty || decide (shardCount < UInt32.ofNat regions.length)) = true := by
    rw [guard_iff]
    intro guarded
    rcases guarded with empty | below
    · exact nonempty empty
    · omega
  simp only [routeShard, unguarded]
  rfl

/-- Position of the first entry that names the region, zero when there is none,
as the word the lookup returns. -/
def selected (region : String) (regions : List String) : ℕ :=
  (regions.findIdx? (fun candidate => Text.eqIgnoreAsciiCase candidate (Text.trim region))).getD 0 % 2 ^ 32

theorem regionIndexOr_toNat (region : String) (regions : List String) :
    (regionIndexOr region regions defaultRegionIndex).toNat = selected region regions := by
  simp only [regionIndexOr, regionIndex, selected]
  cases regions.findIdx? (fun candidate => Text.eqIgnoreAsciiCase candidate (Text.trim region)) with
  | none => rfl
  | some position => exact UInt32.toNat_ofNat'

theorem routeShard_returns {regions : List String} {shardCount : UInt32} (counted : 0 < regions.length % 2 ^ 32)
    (covers : regions.length % 2 ^ 32 ≤ shardCount.toNat) (key region : String) :
    Returns (routeShard .regional key region regions shardCount)
      (place shardCount.toNat (regions.length % 2 ^ 32) (selected region regions) (fnv1a key).toNat) := by
  have nonempty : regions ≠ [] := by
    intro empty
    simp [empty] at counted
  rw [routeShard_banded nonempty covers, ← regionIndexOr_toNat, ← toNat_length]
  exact shardForRegion_returns (by rwa [toNat_length]) (by rwa [toNat_length]) _ _

/-- A list whose length is a positive multiple of two to the thirty-second has a
truncated count of zero: the guard lets it pass and the assertion stops it. -/
theorem routeShard_panics {regions : List String} (nonempty : regions ≠ []) (wrapped : regions.length % 2 ^ 32 = 0)
    (shardCount : UInt32) (key region : String) :
    routeShard .regional key region regions shardCount = .error (.assertion "region_count must be > 0") := by
  have zero : UInt32.ofNat regions.length = 0 := by
    rw [← UInt32.toNat_inj, toNat_length, wrapped]
    rfl
  rw [routeShard_banded nonempty (by omega), zero, shardForRegion]
  exact assert_bind_error rfl _ _

/-- The call returns a shard in range, and the global one whenever the list is
empty or has more entries than there are shards. -/
def RoutesTotally (scope : KeyScope) (key region : String) (regions : List String) (shardCount : UInt32) : Prop :=
  ∃ shard, routeShard scope key region regions shardCount = .ok shard ∧ shard < shardCount ∧
    (scope = .regional → regions = [] ∨ shardCount.toNat < regions.length → shardFor key shardCount = .ok shard)

/-- A condition on the list and the shard count: the region count is a 32-bit number,
or what is left of it after truncation still exceeds the shards or is one band. -/
def CountFits (scope : KeyScope) (regions : List String) (shardCount : UInt32) : Prop :=
  scope = .global ∨ regions.length < 2 ^ 32 ∨ shardCount.toNat < regions.length % 2 ^ 32 ∨ regions.length % 2 ^ 32 = 1

theorem totally_of_global {scope : KeyScope} {key region : String} {regions : List String} {shardCount : UInt32}
    (positive : 0 < shardCount.toNat) (same : routeShard scope key region regions shardCount = shardFor key shardCount) :
    RoutesTotally scope key region regions shardCount := by
  obtain ⟨shard, returned, value⟩ := shardFor_returns positive key
  refine ⟨shard, same.trans returned, ?_, fun _ _ => returned⟩
  rw [UInt32.lt_iff_toNat_lt, value]
  exact Nat.mod_lt _ positive

theorem totally_iff_of_banded {regions : List String} {shardCount : UInt32} (counted : 0 < regions.length % 2 ^ 32)
    (covers : regions.length % 2 ^ 32 ≤ shardCount.toNat) (key region : String) :
    RoutesTotally .regional key region regions shardCount ↔
      (shardCount.toNat < regions.length →
        place shardCount.toNat (regions.length % 2 ^ 32) (selected region regions) (fnv1a key).toNat =
          (fnv1a key).toNat % shardCount.toNat) := by
  have positive : 0 < shardCount.toNat := counted.trans_le covers
  have global := shardFor_returns positive key
  obtain ⟨shard, returned, value⟩ := routeShard_returns counted covers key region
  constructor
  · intro routes oversized
    obtain ⟨other, same, _, agrees⟩ := routes
    cases returned.symm.trans same
    have own := agrees rfl (Or.inr oversized)
    rw [own] at global
    rw [← value]
    exact returns_ok_iff.mp global
  · intro agrees
    refine ⟨shard, returned, ?_, ?_⟩
    · rw [UInt32.lt_iff_toNat_lt, value]
      exact place_lt counted covers _ _
    · intro _ fallback
      rcases fallback with empty | oversized
      · simp [empty] at counted
      · rw [global.eq_ok, ← agrees oversized, ← value, UInt32.ofNat_toNat]

/-- Among the keys some is banded away from its global shard, unless there is one band. -/
theorem all_totally_iff_of_banded {regions : List String} {shardCount : UInt32} (counted : 0 < regions.length % 2 ^ 32)
    (covers : regions.length % 2 ^ 32 ≤ shardCount.toNat) (region : String) :
    (∀ key, RoutesTotally .regional key region regions shardCount) ↔
      (shardCount.toNat < regions.length → regions.length % 2 ^ 32 = 1) := by
  simp only [totally_iff_of_banded counted covers]
  rw [forall_comm]
  exact forall_congr' fun _ => placed_globally_iff counted covers (selected region regions)

/-- Routing is total for all keys exactly when the region count fits. -/
theorem route_shard_total_iff {shardCount : UInt32} (positive : 1 ≤ shardCount) (scope : KeyScope) (region : String)
    (regions : List String) :
    (∀ key, RoutesTotally scope key region regions shardCount) ↔ CountFits scope regions shardCount := by
  have sharded : 0 < shardCount.toNat := UInt32.le_iff_toNat_le.mp positive
  have word := shardCount.toNat_lt
  cases scope with
  | global => exact iff_of_true (fun _ => totally_of_global sharded rfl) (Or.inl rfl)
  | regional =>
    simp only [CountFits, reduceCtorEq, false_or]
    by_cases guarded : regions = [] ∨ shardCount.toNat < regions.length % 2 ^ 32
    · refine iff_of_true (fun key => totally_of_global sharded (routeShard_fallback guarded key region)) ?_
      rcases guarded with empty | below
      · exact Or.inl (by simp [empty])
      · exact Or.inr (Or.inl below)
    · obtain ⟨nonempty, covers⟩ := not_or.mp guarded
      have long : 0 < regions.length := List.length_pos_iff.mpr nonempty
      by_cases counted : 0 < regions.length % 2 ^ 32
      · rw [all_totally_iff_of_banded counted (by omega)]
        constructor
        · intro single
          by_cases fits : regions.length < 2 ^ 32
          · exact Or.inl fits
          · exact Or.inr (Or.inr (single (by omega)))
        · intro fits oversized
          obtain short | below | single := fits
          · omega
          · exact False.elim (covers below)
          · exact single
      · refine iff_of_false ?_ (by omega)
        intro routes
        obtain ⟨shard, returned, _⟩ := routes ""
        cases (routeShard_panics nonempty (by omega) shardCount "" region).symm.trans returned

theorem route_shard_total_iff_three :
    1 ≤ (16 : UInt32) ∧ ∀ key, RoutesTotally .regional key " AWS " ["gcp", "aws", "hetzner"] 16 :=
  ⟨by decide, (route_shard_total_iff (by decide) .regional " AWS " ["gcp", "aws", "hetzner"]).mpr (Or.inr (Or.inl (by decide)))⟩

theorem route_shard_panics_at_wrapped_count :
    (List.replicate (2 ^ 32) "gcp").length < 2 ^ 64 ∧
      ¬ RoutesTotally .regional "orders/42" "gcp" (List.replicate (2 ^ 32) "gcp") 16 := by
  have length : (List.replicate (2 ^ 32) "gcp").length = 2 ^ 32 := List.length_replicate
  have nonempty : List.replicate (2 ^ 32) "gcp" ≠ [] := by
    intro empty
    rw [empty] at length
    simp at length
  refine ⟨by rw [length]; norm_num, ?_⟩
  intro routes
  obtain ⟨shard, returned, _⟩ := routes
  cases (routeShard_panics nonempty (by rw [length, Nat.mod_self]) 16 "orders/42" "gcp").symm.trans returned

end FiduciaRouting.Proofs.Totality
