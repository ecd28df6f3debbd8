import FiduciaRouting.Library.FirstMatch
import FiduciaRouting.Proofs.EntryPoints

/-! Selecting a configured region by its own name. The lookup trims the name it is
given and compares the entries as they are configured, so an entry is selectable
exactly when it carries no surrounding white space itself. -/

namespace FiduciaRouting.Proofs.RegionSelection
open Library CheckedArithmetic Banding FirstMatch Text Placement Totality EntryPoints

variable {regions : List String} {position : ℕ} {name client : String}

def Distinct (regions : List String) : Prop := (regions.map normalized).Nodup

def Names (client name : String) : Prop := eqIgnoreAsciiCase (trim client) (trim name) = true

theorem names_iff : Names client name ↔ normalized client = normalized name := by
  rw [Names, eqIgnoreAsciiCase, beq_iff_eq, normalized, normalized]

theorem trim_normalized (value : String) : trim (normalized value) = normalized value := by
  rw [normalized, ← toAsciiLowercase_trim, trim, trim, trimWhere_trimWhere]

/-- An entry equal to a trimmed name up to case has that name itself. -/
theorem normalized_of_match {candidate : String} (found : eqIgnoreAsciiCase candidate (trim client) = true) :
    normalized candidate = normalized client := by
  rw [eqIgnoreAsciiCase, beq_iff_eq] at found
  calc normalized candidate = trim (toAsciiLowercase candidate) := by rw [normalized, toAsciiLowercase_trim]
    _ = trim (normalized client) := by rw [found, normalized]
    _ = normalized client := trim_normalized client

/-- A padded entry is longer than every trimmed name it could be compared with. -/
theorem match_iff_unpadded (named : Names client name) :
    eqIgnoreAsciiCase name (trim client) = true ↔ trim name = name := by
  have same : toAsciiLowercase (trim client) = toAsciiLowercase (trim name) := names_iff.mp named
  rw [eqIgnoreAsciiCase, beq_iff_eq, same]
  constructor
  · intro equal
    have level := congrArg (fun text => text.toList.length) equal
    simp only [toAsciiLowercase_length] at level
    exact trimWhere_eq_self level.symm
  · intro unpadded
    rw [unpadded]

theorem position_unique (distinct : Distinct regions) {first second : ℕ} {left right : String}
    (leftEntry : regions[first]? = some left) (rightEntry : regions[second]? = some right)
    (same : normalized left = normalized right) : first = second := by
  have inside : first < (regions.map normalized).length := by
    rw [List.length_map]
    exact (List.getElem?_eq_some_iff.mp leftEntry).1
  apply (List.getElem?_inj inside distinct).mp
  rw [List.getElem?_map, List.getElem?_map, leftEntry, rightEntry, Option.map_some, Option.map_some, same]

theorem findIdx?_of_named (distinct : Distinct regions) (entry : regions[position]? = some name)
    (named : Names client name) :
    regions.findIdx? (fun candidate => eqIgnoreAsciiCase candidate (trim client)) =
      if trim name = name then some position else none := by
  rw [findIdx?_of_unique entry ?_]
  · simp only [match_iff_unpadded named]
  · intro index candidate read found
    exact position_unique distinct read entry ((normalized_of_match found).trans (names_iff.mp named))

/-- A name selects the entry it normalizes to when that entry is unpadded, and is
unknown to the lookup, which then takes the default band, when it is not. -/
theorem region_selected_by_name (fits : regions.length < 2 ^ 32) (distinct : Distinct regions)
    (entry : regions[position]? = some name) (named : Names client name) :
    regionIndex client regions = (if trim name = name then some (UInt32.ofNat position) else none) ∧
    ∀ (key : String) (shardCount : UInt32), regions.length ≤ shardCount.toNat →
      ∃ shard, routeShard .regional key client regions shardCount = .ok shard ∧
        shard.toNat ∈ band shardCount.toNat regions.length (if trim name = name then position else 0) := by
  have found := findIdx?_of_named distinct entry named
  have inside : position < regions.length := (List.getElem?_eq_some_iff.mp entry).1
  refine ⟨?_, ?_⟩
  · rw [regionIndex, found]
    split <;> rfl
  · intro key shardCount covers
    have counted : regions.length % 2 ^ 32 = regions.length := Nat.mod_eq_of_lt fits
    have positive : 0 < regions.length := by omega
    obtain ⟨shard, returned, value⟩ := routeShard_returns (by rwa [counted]) (by rwa [counted]) key client
    refine ⟨shard, returned, ?_⟩
    have chosen : selected client regions = if trim name = name then position else 0 := by
      rw [selected, found]
      split
      · exact Nat.mod_eq_of_lt (inside.trans fits)
      · rfl
    have clamped : clamp regions.length (selected client regions) = selected client regions :=
      clamp_of_lt (by rw [chosen]; split <;> omega)
    rw [value, ← chosen, counted]
    have placed := place_mem_band positive covers (selected client regions) (fnv1a key).toNat
    rwa [clamped] at placed

theorem region_selected_by_name_aws :
    ["gcp", "AWS", "hetzner"].length < 2 ^ 32 ∧ Distinct ["gcp", "AWS", "hetzner"] ∧ Names " aws " "AWS" ∧
      regionIndex " aws " ["gcp", "AWS", "hetzner"] = some 1 := by
  have distinct : Distinct ["gcp", "AWS", "hetzner"] := by
    unfold Distinct
    decide
  have named : Names " aws " "AWS" := by
    unfold Names
    decide
  have selected := (region_selected_by_name (show ["gcp", "AWS", "hetzner"].length < 2 ^ 32 by decide) distinct
    (show ["gcp", "AWS", "hetzner"][1]? = some "AWS" from rfl) named).1
  refine ⟨by decide, distinct, named, selected.trans ?_⟩
  decide

/-- The entry `" aws "` is distinct from the others and is not found by its own name. -/
theorem padded_region_not_selected :
    ["gcp", " aws "].length < 2 ^ 32 ∧ Distinct ["gcp", " aws "] ∧ Names " aws " " aws " ∧
      regionIndex " aws " ["gcp", " aws "] ≠ some 1 ∧ routeShard .regional "" " aws " ["gcp", " aws "] 2 = .ok 0 ∧
      0 ∉ band 2 2 1 := by
  refine ⟨by decide, ?_, ?_, by decide, by decide, ?_⟩
  · unfold Distinct
    decide
  · unfold Names
    decide
  · simp [band, start]

end FiduciaRouting.Proofs.RegionSelection
