import FiduciaRouting.Library.FirstMatch
import FiduciaRouting.Proofs.Placement

/-! The route of the executable model. It is defined on the two scopes and the
positive shard counts, and there it is a slot below the shard count. -/

namespace FiduciaRouting.Proofs.ModelRouting
open Library Banding FirstMatch Placement

/-- The model compares the case foldings, after a wider trimming. -/
def modelNames (region candidate : String) : Bool := Python.casefold candidate == Python.casefold (Python.strip region)

theorem model_fallback {total : ℕ} {regions : List String} (positive : 0 < total)
    (guarded : regions = [] ∨ total < regions.length) (key region : String) :
    Model.routeShard "regional" key region regions total = .ok (((fnv1a key).toNat % total : ℕ) : Int) := by
  have condition : (regions.isEmpty || decide ((total : Int) < regions.length)) = true := by
    simp only [Bool.or_eq_true, List.isEmpty_iff, decide_eq_true_iff, Int.ofNat_lt]
    exact guarded
  simp only [Model.routeShard, condition, if_true]
  exact model_shardFor positive key

theorem model_banded {total : ℕ} {regions : List String} (nonempty : regions ≠ []) (covers : regions.length ≤ total)
    (key region : String) :
    Model.routeShard "regional" key region regions total =
      .ok ((place total regions.length ((regions.findIdx? (modelNames region)).getD 0) (fnv1a key).toNat : ℕ) : Int) := by
  have condition : ¬ (regions.isEmpty || decide ((total : Int) < regions.length)) = true := by
    simp only [Bool.or_eq_true, List.isEmpty_iff, decide_eq_true_iff, Int.ofNat_lt]
    intro guarded
    rcases guarded with empty | below
    · exact nonempty empty
    · omega
  simp only [Model.routeShard, condition]
  exact model_shardForRegion (List.length_pos_iff.mpr nonempty) covers _ key

theorem model_shardFor_ok_iff {key : String} {shardCount shard : Int} :
    Model.shardFor key shardCount = .ok shard ↔ 0 < shardCount ∧ shard = (fnv1a key).toNat % shardCount := by
  by_cases positive : 0 < shardCount
  · obtain ⟨total, rfl⟩ := Int.eq_ofNat_of_zero_le (Int.le_of_lt positive)
    rw [model_shardFor (Int.natCast_pos.mp positive), Except.ok.injEq, Int.natCast_emod]
    exact ⟨fun same => ⟨positive, same.symm⟩, fun both => both.2.symm⟩
  · refine iff_of_false (fun returned => ?_) (fun both => positive both.1)
    rw [Model.shardFor, if_pos (by omega)] at returned
    cases returned

theorem model_shardFor_range {key : String} {shardCount shard : Int} (returned : Model.shardFor key shardCount = .ok shard) :
    0 ≤ shard ∧ shard < shardCount := by
  obtain ⟨positive, value⟩ := model_shardFor_ok_iff.mp returned
  rw [value]
  exact ⟨Int.emod_nonneg _ (by omega), Int.emod_lt_of_pos _ positive⟩

theorem model_routes {scope : String} (known : scope = "global" ∨ scope = "regional") {total : ℕ} (positive : 0 < total)
    (key region : String) (regions : List String) :
    ∃ shard < total, Model.routeShard scope key region regions total = .ok (shard : Int) := by
  have plain : (fnv1a key).toNat % total < total := Nat.mod_lt _ positive
  rcases known with global | regional
  · subst global
    exact ⟨_, plain, model_shardFor positive key⟩
  · subst regional
    by_cases guarded : regions = [] ∨ total < regions.length
    · exact ⟨_, plain, model_fallback positive guarded key region⟩
    · obtain ⟨nonempty, covers⟩ := not_or.mp guarded
      have covered : regions.length ≤ total := Nat.le_of_not_lt covers
      exact ⟨_, place_lt (List.length_pos_iff.mpr nonempty) covered _ _, model_banded nonempty covered key region⟩

/-- Every other call raises: an unknown scope is refused, and without a shard
both scopes come down to plain reduction. -/
theorem model_raises {scope key region : String} {regions : List String} {shardCount : Int}
    (outside : ¬ ((scope = "global" ∨ scope = "regional") ∧ 0 < shardCount)) (shard : Int) :
    Model.routeShard scope key region regions shardCount ≠ .ok shard := by
  have plain (shards : ¬ 0 < shardCount) : Model.shardFor key shardCount ≠ .ok shard :=
    fun returned => shards (model_shardFor_ok_iff.mp returned).1
  intro returned
  unfold Model.routeShard at returned
  split at returned
  next global =>
    exact plain (fun positive => outside ⟨Or.inl global, positive⟩) returned
  next global =>
    split at returned
    next unknown => cases returned
    next regional =>
      have shards : ¬ 0 < shardCount := fun positive => outside ⟨Or.inr (not_not.mp regional), positive⟩
      split at returned
      next guarded => exact plain shards returned
      next unguarded =>
        simp only [Bool.or_eq_true, List.isEmpty_iff, decide_eq_true_iff, not_or] at unguarded
        have long := List.length_pos_iff.mpr unguarded.1
        omega

theorem model_routeShard_ok {scope key region : String} {regions : List String} {shardCount shard : Int}
    (returned : Model.routeShard scope key region regions shardCount = .ok shard) :
    (scope = "global" ∨ scope = "regional") ∧ 0 ≤ shard ∧ shard < shardCount := by
  by_cases inside : (scope = "global" ∨ scope = "regional") ∧ 0 < shardCount
  · obtain ⟨known, positive⟩ := inside
    obtain ⟨total, rfl⟩ := Int.eq_ofNat_of_zero_le (Int.le_of_lt positive)
    obtain ⟨slot, below, routed⟩ := model_routes known (Int.natCast_pos.mp positive) key region regions
    cases routed.symm.trans returned
    exact ⟨known, by omega, by omega⟩
  · exact False.elim (model_raises inside shard returned)

end FiduciaRouting.Proofs.ModelRouting
