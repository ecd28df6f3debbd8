import FiduciaRouting.Proofs.Reachability

/-! Changing the shard count. Placements under the new count determine those under
the old one when the residues do, which is divisibility of the counts for plain
reduction and of the band sizes inside the regions. -/

namespace FiduciaRouting.Proofs.Resharding
open Library CheckedArithmetic Banding Placement Reachability

variable {old new regionCount regionIndex : UInt32}

/-- What holds of the hashes of all pairs of keys holds of all pairs of words. -/
theorem forall_hash_iff (property : ℕ → ℕ → Prop) :
    (∀ first second : String, property (fnv1a first).toNat (fnv1a second).toNat) ↔
      ∀ left < 2 ^ 32, ∀ right < 2 ^ 32, property left right := by
  rw [forall_key_iff (fun left => ∀ second, property left (fnv1a second).toNat)]
  exact forall₂_congr fun left _ => forall_key_iff (property left)

theorem shardForRegion_same_iff {shardCount : UInt32} (positive : 0 < regionCount.toNat)
    (enough : regionCount.toNat ≤ shardCount.toNat) (regionIndex : UInt32) (first second : String) :
    shardForRegion regionIndex regionCount first shardCount = shardForRegion regionIndex regionCount second shardCount ↔
      (fnv1a first).toNat ≡ (fnv1a second).toNat
        [MOD size shardCount.toNat regionCount.toNat (clamp regionCount.toNat regionIndex.toNat)] := by
  rw [← place_eq_place_iff]
  exact returns_eq_iff (shardForRegion_returns positive enough _ first) (shardForRegion_returns positive enough _ second)

/-- Keys that share a new shard shared their old one exactly when the old count
divides the new one, and a key's old shard is then the residue of its new one. -/
theorem reshard_refines_iff (oldPositive : 1 ≤ old) (newPositive : 1 ≤ new) :
    ((∀ first second, shardFor first new = shardFor second new → shardFor first old = shardFor second old) ↔
      old.toNat ∣ new.toNat) ∧
    (old.toNat ∣ new.toNat → ∀ key shard, shardFor key new = .ok shard → shardFor key old = .ok (shard % old)) := by
  have before : 0 < old.toNat := UInt32.le_iff_toNat_le.mp oldPositive
  have after : 0 < new.toNat := UInt32.le_iff_toNat_le.mp newPositive
  refine ⟨?_, ?_⟩
  · simp only [shardFor_same_iff before, shardFor_same_iff after]
    rw [forall_hash_iff (fun left right => left ≡ right [MOD new.toNat] → left ≡ right [MOD old.toNat])]
    exact modEq_refines_iff new.toNat_lt
  · intro divides key shard returned
    have reduced := shardFor_returns after key
    rw [returned, returns_ok_iff] at reduced
    rw [(shardFor_returns before key).eq_ok, ← Nat.mod_mod_of_dvd _ divides, ← reduced, ← UInt32.toNat_mod,
      UInt32.ofNat_toNat]

theorem reshard_refines_iff_double : 1 ≤ (16 : UInt32) ∧ 1 ≤ (32 : UInt32) ∧
    ∀ first second, shardFor first 32 = shardFor second 32 → shardFor first 16 = shardFor second 16 :=
  ⟨by decide, by decide, (reshard_refines_iff (by decide) (by decide)).1.mpr (by decide)⟩

/-- Every index of a region, in range or not, selects one of the bands. -/
theorem forall_region_iff (positive : 0 < regionCount.toNat) (property : ℕ → Prop) :
    (∀ regionIndex : UInt32, property (clamp regionCount.toNat regionIndex.toNat)) ↔ ∀ index < regionCount.toNat, property index := by
  constructor
  · intro regions index inside
    have word := regionCount.toNat_lt
    have selected := regions (UInt32.ofNat index)
    rwa [UInt32.toNat_ofNat_of_lt' (inside.trans word), clamp_of_lt inside] at selected
  · intro bands regionIndex
    exact bands _ (clamp_lt positive _)

/-- Inside the regions the same holds when the band width and the size of the last
band divide the new ones; the counts themselves need not divide. -/
theorem regional_reshard_refines_iff (positive : 1 ≤ regionCount) (oldEnough : regionCount ≤ old)
    (newEnough : regionCount ≤ new) :
    (∀ (regionIndex : UInt32) (first second : String),
      shardForRegion regionIndex regionCount first new = shardForRegion regionIndex regionCount second new →
        shardForRegion regionIndex regionCount first old = shardForRegion regionIndex regionCount second old) ↔
    (regionCount.toNat = 1 ∨ old.toNat / regionCount.toNat ∣ new.toNat / regionCount.toNat) ∧
      old.toNat - (regionCount.toNat - 1) * (old.toNat / regionCount.toNat) ∣
        new.toNat - (regionCount.toNat - 1) * (new.toNat / regionCount.toNat) := by
  have counted : 0 < regionCount.toNat := UInt32.le_iff_toNat_le.mp positive
  have before : regionCount.toNat ≤ old.toNat := UInt32.le_iff_toNat_le.mp oldEnough
  have after : regionCount.toNat ≤ new.toNat := UInt32.le_iff_toNat_le.mp newEnough
  have last (total : ℕ) : size total regionCount.toNat (regionCount.toNat - 1) =
      total - (regionCount.toNat - 1) * (total / regionCount.toNat) := size_of_last (by omega)
  rw [← last, ← last, ← forall_size_dvd_iff counted]
  simp only [shardForRegion_same_iff counted before, shardForRegion_same_iff counted after]
  rw [forall_region_iff counted (fun index => ∀ first second : String,
    (fnv1a first).toNat ≡ (fnv1a second).toNat [MOD size new.toNat regionCount.toNat index] →
      (fnv1a first).toNat ≡ (fnv1a second).toNat [MOD size old.toNat regionCount.toNat index])]
  refine forall_congr' fun index => forall_congr' fun _ => ?_
  rw [forall_hash_iff (fun left right => left ≡ right [MOD size new.toNat regionCount.toNat index] →
    left ≡ right [MOD size old.toNat regionCount.toNat index])]
  exact modEq_refines_iff ((size_le_total _ _ _).trans_lt new.toNat_lt)

/-- Doubling five shards over three regions remaps keys within a region: the
last band of three grows to four. -/
theorem regional_reshard_refines_iff_three : 1 ≤ (3 : UInt32) ∧ (3 : UInt32) ≤ 5 ∧ (3 : UInt32) ≤ 10 ∧
    ¬ ∀ (regionIndex : UInt32) (first second : String),
      shardForRegion regionIndex 3 first 10 = shardForRegion regionIndex 3 second 10 →
        shardForRegion regionIndex 3 first 5 = shardForRegion regionIndex 3 second 5 :=
  ⟨by decide, by decide, by decide, fun refines => absurd
    ((regional_reshard_refines_iff (show 1 ≤ (3 : UInt32) by decide) (show (3 : UInt32) ≤ 5 by decide)
      (show (3 : UInt32) ≤ 10 by decide)).mp refines) (by decide)⟩

/-- When the shards at least double, every key of a region past the first leaves
its shard, and some key of the first region keeps it. -/
theorem growth_moves_iff (positive : 1 ≤ regionCount) (enough : regionCount ≤ old) (double : 2 * old.toNat ≤ new.toNat)
    (regionIndex : UInt32) :
    (∀ key, shardForRegion regionIndex regionCount key old ≠ shardForRegion regionIndex regionCount key new) ↔
      0 < min regionIndex.toNat (regionCount.toNat - 1) := by
  have counted : 0 < regionCount.toNat := UInt32.le_iff_toNat_le.mp positive
  have before : regionCount.toNat ≤ old.toNat := UInt32.le_iff_toNat_le.mp enough
  have after : regionCount.toNat ≤ new.toNat := by omega
  have placed (key : String) := returns_eq_iff (shardForRegion_returns counted before regionIndex key)
    (shardForRegion_returns counted after regionIndex key)
  constructor
  · intro moves
    obtain ⟨key, zero⟩ := exists_key 0
    by_contra first
    have origin : clamp regionCount.toNat regionIndex.toNat = 0 := Nat.eq_zero_of_not_pos first
    apply moves key
    rw [placed, zero, place, place, origin]
    simp [start]
  · intro later key same
    have equal := (placed key).mp same
    have low := (place_mem_band counted before regionIndex.toNat (fnv1a key).toNat).2
    have high := (place_mem_band counted after regionIndex.toNat (fnv1a key).toNat).1
    have selected : 0 < clamp regionCount.toNat regionIndex.toNat := later
    have apart := stop_le_start_of_double before double selected (clamp_lt counted regionIndex.toNat)
    omega

theorem growth_moves_iff_three : 1 ≤ (3 : UInt32) ∧ (3 : UInt32) ≤ 16 ∧ 2 * (16 : UInt32).toNat ≤ (32 : UInt32).toNat ∧
    ∀ key, shardForRegion 1 3 key 16 ≠ shardForRegion 1 3 key 32 :=
  ⟨by decide, by decide, by decide, (growth_moves_iff (show 1 ≤ (3 : UInt32) by decide) (show (3 : UInt32) ≤ 16 by decide)
    (show 2 * (16 : UInt32).toNat ≤ (32 : UInt32).toNat by decide) 1).mpr (by decide)⟩

end FiduciaRouting.Proofs.Resharding
