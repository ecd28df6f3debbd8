import FiduciaRouting.Proofs.ModelRouting
import FiduciaRouting.Proofs.Totality

/-! The executable model against the crate. Hashing, guards and bands agree on
every 32-bit input; the two name lookups compare differently, and the routes
agree exactly where the entries they select do. -/

namespace FiduciaRouting.Proofs.ModelAgreement
open Library CheckedArithmetic Banding FirstMatch Placement ModelRouting Totality

def scopeText : KeyScope → String
  | .global => "global"
  | .regional => "regional"

def Agrees (scope : KeyScope) (key region : String) (regions : List String) (shardCount : UInt32) : Prop :=
  ∃ shard, routeShard scope key region regions shardCount = .ok shard ∧
    Model.routeShard (scopeText scope) key region regions shardCount.toNat = .ok (shard.toNat : Int)

/-- The crate compares a candidate with the trimmed name up to ASCII case. -/
def crateNames (region candidate : String) : Bool := Text.eqIgnoreAsciiCase candidate (Text.trim region)

/-- Past the default region, each position that is the first to be named under
one rule is the first to be named under the other. -/
def NamesSameEntry (region : String) (regions : List String) : Prop :=
  ∀ position ≠ 0, (Selects (crateNames region) regions position ↔ Selects (modelNames region) regions position)

theorem selected_of_fits (region : String) {regions : List String} (fits : regions.length < 2 ^ 32) :
    selected region regions = (regions.findIdx? (crateNames region)).getD 0 := by
  by_cases nonempty : regions = []
  · rw [nonempty]
    rfl
  · have inside : (regions.findIdx? (crateNames region)).getD 0 < regions.length := findIdx?_getD_lt nonempty
    exact Nat.mod_eq_of_lt (inside.trans fits)

/-- Behind the guard the routes agree when the lookups select one position:
distinct positions have disjoint bands. -/
theorem banded_agrees_iff {regions : List String} {shardCount : UInt32} (nonempty : regions ≠ [])
    (fits : regions.length < 2 ^ 32) (covers : regions.length ≤ shardCount.toNat) (key region : String) :
    Agrees .regional key region regions shardCount ↔
      (regions.findIdx? (crateNames region)).getD 0 = (regions.findIdx? (modelNames region)).getD 0 := by
  have listed : 0 < regions.length := List.length_pos_iff.mpr nonempty
  have counted : regions.length % 2 ^ 32 = regions.length := Nat.mod_eq_of_lt fits
  have crate := routeShard_returns (by rwa [counted]) (by rwa [counted]) key region
  simp only [counted, selected_of_fits region fits] at crate
  have model := model_banded nonempty covers key region
  obtain ⟨shard, returned, value⟩ := crate
  constructor
  · intro agrees
    obtain ⟨other, same, modelled⟩ := agrees
    cases returned.symm.trans same
    have equal := Except.ok.inj (modelled.symm.trans model)
    rw [value, Int.natCast_inj] at equal
    by_contra different
    refine place_ne listed covers ?_ _ _ equal
    rw [clamp_of_lt (findIdx?_getD_lt nonempty), clamp_of_lt (findIdx?_getD_lt nonempty)]
    exact different
  · intro same
    refine ⟨shard, returned, ?_⟩
    rw [value, same]
    exact model

/-- The model agrees with the crate exactly on the global scope, on the global
fallback, and where both rules first name the same entry. -/
theorem model_agrees_iff {shardCount : UInt32} (positive : 1 ≤ shardCount) (scope : KeyScope) (key region : String)
    {regions : List String} (fits : regions.length < 2 ^ 32) :
    Agrees scope key region regions shardCount ↔
      scope = .global ∨ regions = [] ∨ shardCount.toNat < regions.length ∨ NamesSameEntry region regions := by
  have sharded : 0 < shardCount.toNat := UInt32.le_iff_toNat_le.mp positive
  have counted : regions.length % 2 ^ 32 = regions.length := Nat.mod_eq_of_lt fits
  obtain ⟨shard, returned, value⟩ := shardFor_returns sharded key
  cases scope with
  | global =>
    refine iff_of_true ⟨shard, returned, ?_⟩ (Or.inl rfl)
    rw [value]
    exact model_shardFor sharded key
  | regional =>
    by_cases guarded : regions = [] ∨ shardCount.toNat < regions.length
    · refine iff_of_true ⟨shard, ?_, ?_⟩ (Or.inr (or_assoc.mp (Or.inl guarded)))
      · rw [routeShard_fallback (by rwa [counted])]
        exact returned
      · rw [value]
        exact model_fallback sharded guarded key region
    · obtain ⟨nonempty, covers⟩ := not_or.mp guarded
      rw [banded_agrees_iff nonempty fits (Nat.le_of_not_lt covers), findIdx?_getD_eq_findIdx?_getD_iff]
      constructor
      · intro same
        exact Or.inr (Or.inr (Or.inr same))
      · intro condition
        obtain global | empty | below | same := condition
        · cases global
        · exact False.elim (nonempty empty)
        · exact False.elim (covers below)
        · exact same

theorem model_agrees_iff_three :
    1 ≤ (16 : UInt32) ∧ ["gcp", "aws", "hetzner"].length < 2 ^ 32 ∧
      Agrees .regional "orders/42" " AWS " ["gcp", "aws", "hetzner"] 16 := by
  have same : (["gcp", "aws", "hetzner"].findIdx? (crateNames " AWS ")).getD 0 =
      (["gcp", "aws", "hetzner"].findIdx? (modelNames " AWS ")).getD 0 := by decide +kernel
  have named : NamesSameEntry " AWS " ["gcp", "aws", "hetzner"] := findIdx?_getD_eq_findIdx?_getD_iff.mp same
  exact ⟨by decide, by decide,
    (model_agrees_iff (by decide) .regional "orders/42" " AWS " (by decide)).mpr (Or.inr (Or.inr (Or.inr named)))⟩

/-- Capital and small letters outside ASCII are one name to the model only. -/
theorem model_differs_on_umlaut :
    1 ≤ (2 : UInt32) ∧ ["gcp", "zürich"].length < 2 ^ 32 ∧ ¬ Agrees .regional "" "ZÜRICH" ["gcp", "zürich"] 2 := by
  refine ⟨by decide, by decide, ?_⟩
  intro agrees
  obtain ⟨shard, returned, modelled⟩ := agrees
  have crate : routeShard .regional "" "ZÜRICH" ["gcp", "zürich"] 2 = .ok 0 := by decide +kernel
  have model : Model.routeShard "regional" "" "ZÜRICH" ["gcp", "zürich"] 2 = .ok 1 := by decide +kernel
  cases crate.symm.trans returned
  cases model.symm.trans modelled

end FiduciaRouting.Proofs.ModelAgreement
