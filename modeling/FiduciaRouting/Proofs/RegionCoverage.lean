import FiduciaRouting.Proofs.ModelAgreement
import FiduciaRouting.Proofs.Reachability
import FiduciaRouting.Proofs.RegionSelection

/-! What the region argument can do. It selects a band and nothing else, so two
names route all keys alike or none, and the shards of an entry that no name
selects are never used. -/

namespace FiduciaRouting.Proofs.RegionCoverage
open Library CheckedArithmetic Banding FirstMatch Text Placement Totality ModelAgreement Reachability RegionSelection

variable {regions : List String} {shardCount : UInt32} {position : ℕ}

/-- An entry without padding that repeats no earlier one up to ASCII case. -/
def Selectable (regions : List String) (position : ℕ) : Prop :=
  ∃ name, regions[position]? = some name ∧ trim name = name ∧
    ∀ earlier < position, ∀ other, regions[earlier]? = some other → eqIgnoreAsciiCase other name = false

theorem eqIgnoreAsciiCase_congr {name other : String} (same : eqIgnoreAsciiCase name other = true) (candidate : String) :
    eqIgnoreAsciiCase candidate name = eqIgnoreAsciiCase candidate other := by
  rw [eqIgnoreAsciiCase, beq_iff_eq] at same
  rw [eqIgnoreAsciiCase, eqIgnoreAsciiCase, same]

theorem exists_selects_iff : (∃ region, Selects (crateNames region) regions position) ↔ Selectable regions position := by
  constructor
  · intro selected
    obtain ⟨region, ⟨name, entry, found⟩, before⟩ := selected
    have named : Names region name := names_iff.mpr (normalized_of_match found).symm
    refine ⟨name, entry, (match_iff_unpadded named).mp found, ?_⟩
    intro earlier precedes other read
    rw [eqIgnoreAsciiCase_congr found]
    exact before earlier precedes other read
  · intro selectable
    obtain ⟨name, entry, unpadded, before⟩ := selectable
    refine ⟨name, ⟨name, entry, ?_⟩, ?_⟩
    · rw [crateNames, unpadded, eqIgnoreAsciiCase, beq_self_eq_true]
    · intro earlier precedes other read
      rw [crateNames, unpadded]
      exact before earlier precedes other read

theorem trim_replicate (count : ℕ) : trim (String.ofList (List.replicate count 'a')) = String.ofList (List.replicate count 'a') := by
  apply trimWhere_eq_self
  rw [trimWhere, String.toList_ofList, String.toList_ofList]
  simp [List.rdropWhile, show isWhiteSpace 'a' = false from rfl]

/-- A name longer than every entry is unknown. -/
theorem exists_unknown (regions : List String) : ∃ region, ∀ candidate ∈ regions, crateNames region candidate = false := by
  have longer : ∃ count, ∀ candidate ∈ regions, candidate.toList.length < count := by
    induction regions with
    | nil => exact ⟨0, fun _ absent => nomatch absent⟩
    | cons head rest ih =>
      obtain ⟨count, bound⟩ := ih
      refine ⟨count + head.toList.length + 1, ?_⟩
      intro candidate member
      rcases List.mem_cons.mp member with rfl | later
      · omega
      · have shorter := bound candidate later
        omega
  obtain ⟨count, bound⟩ := longer
  refine ⟨String.ofList (List.replicate count 'a'), ?_⟩
  intro candidate member
  rw [crateNames, trim_replicate, eqIgnoreAsciiCase, beq_eq_false_iff_ne]
  intro same
  have level := congrArg (fun text => text.toList.length) same
  simp only [toAsciiLowercase_length, String.toList_ofList, List.length_replicate] at level
  exact Nat.ne_of_lt (bound candidate member) level

/-- The positions the lookup can return: the default one and the selectable ones. -/
theorem exists_position_iff :
    (∃ region, (regions.findIdx? (crateNames region)).getD 0 = position) ↔ position = 0 ∨ Selectable regions position := by
  by_cases zero : position = 0
  · refine iff_of_true ?_ (Or.inl zero)
    obtain ⟨region, unknown⟩ := exists_unknown regions
    exact ⟨region, by rw [List.findIdx?_eq_none_iff.mpr unknown, zero]; rfl⟩
  · simp only [findIdx?_getD_eq_iff zero, exists_selects_iff, zero, false_or]

theorem exists_key_placed {total count index slot : ℕ} (member : slot ∈ band total count (clamp count index))
    (word : slot < 2 ^ 32) : ∃ key, place total count index (fnv1a key).toNat = slot := by
  obtain ⟨key, hashed⟩ := exists_key (UInt32.ofNat (slot - start total count (clamp count index)))
  refine ⟨key, ?_⟩
  rw [hashed, UInt32.toNat_ofNat_of_lt' ((Nat.sub_le _ _).trans_lt word), place_offset member]

theorem routeShard_placed (nonempty : regions ≠ []) (fits : regions.length < 2 ^ 32)
    (covers : regions.length ≤ shardCount.toNat) (key region : String) :
    Returns (routeShard .regional key region regions shardCount)
      (place shardCount.toNat regions.length ((regions.findIdx? (crateNames region)).getD 0) (fnv1a key).toNat) := by
  have listed : 0 < regions.length := List.length_pos_iff.mpr nonempty
  have counted : regions.length % 2 ^ 32 = regions.length := Nat.mod_eq_of_lt fits
  have returns := routeShard_returns (by rwa [counted]) (by rwa [counted]) key region
  rwa [counted, selected_of_fits region fits] at returns

theorem shard_used_iff (nonempty : regions ≠ []) (fits : regions.length < 2 ^ 32)
    (covers : regions.length ≤ shardCount.toNat) (shard : UInt32) :
    (∃ key region, routeShard .regional key region regions shardCount = .ok shard) ↔
      ∃ position, (position = 0 ∨ Selectable regions position) ∧ shard.toNat ∈ band shardCount.toNat regions.length position := by
  have listed : 0 < regions.length := List.length_pos_iff.mpr nonempty
  constructor
  · intro used
    obtain ⟨key, region, returned⟩ := used
    have placed := routeShard_placed nonempty fits covers key region
    rw [returned, returns_ok_iff] at placed
    have member := place_mem_band listed covers ((regions.findIdx? (crateNames region)).getD 0) (fnv1a key).toNat
    rw [clamp_of_lt (findIdx?_getD_lt nonempty), ← placed] at member
    exact ⟨_, exists_position_iff.mp ⟨region, rfl⟩, member⟩
  · intro covered
    obtain ⟨position, selectable, member⟩ := covered
    obtain ⟨region, found⟩ := exists_position_iff.mpr selectable
    have inside : position < regions.length := found ▸ findIdx?_getD_lt nonempty
    rw [← clamp_of_lt inside] at member
    obtain ⟨key, placed⟩ := exists_key_placed member shard.toNat_lt
    have returns := routeShard_placed nonempty fits covers key region
    rw [found, placed] at returns
    exact ⟨key, region, by rw [returns.eq_ok, UInt32.ofNat_toNat]⟩

/-- The shards that regional keys use are the default band and the bands of the
selectable entries, so none is stranded exactly when all later entries are such. -/
theorem shards_in_use (nonempty : regions ≠ []) (fits : regions.length < 2 ^ 32) (covers : regions.length ≤ shardCount.toNat) :
    (∀ shard, (∃ key region, routeShard .regional key region regions shardCount = .ok shard) ↔
      ∃ position, (position = 0 ∨ Selectable regions position) ∧
        shard.toNat ∈ band shardCount.toNat regions.length position) ∧
    ((∀ shard < shardCount, ∃ key region, routeShard .regional key region regions shardCount = .ok shard) ↔
      ∀ position, 0 < position → position < regions.length → Selectable regions position) := by
  have listed : 0 < regions.length := List.length_pos_iff.mpr nonempty
  refine ⟨shard_used_iff nonempty fits covers, ?_⟩
  constructor
  · intro used position later inside
    obtain ⟨slot, member⟩ := band_nonempty listed covers inside
    have below : slot < shardCount.toNat := member.2.trans_le (stop_le_total inside)
    have word : (UInt32.ofNat slot).toNat = slot := UInt32.toNat_ofNat_of_lt' (below.trans shardCount.toNat_lt)
    have reached := used (UInt32.ofNat slot) (UInt32.lt_iff_toNat_lt.mpr (by rwa [word]))
    obtain ⟨other, selectable, own⟩ := (shard_used_iff nonempty fits covers _).mp reached
    rw [word] at own
    have otherInside : other < regions.length := by
      obtain ⟨region, found⟩ := exists_position_iff.mpr selectable
      exact found ▸ findIdx?_getD_lt nonempty
    have same := band_unique inside otherInside member own
    subst same
    rcases selectable with zero | named
    · omega
    · exact named
  · intro selectable shard below
    have member := mem_band_quotient listed covers (UInt32.lt_iff_toNat_lt.mp below)
    have inside := clamp_lt listed (shard.toNat / (shardCount.toNat / regions.length))
    refine (shard_used_iff nonempty fits covers shard).mpr ⟨_, ?_, member⟩
    rcases Nat.eq_zero_or_pos (clamp regions.length (shard.toNat / (shardCount.toNat / regions.length))) with zero | later
    · exact Or.inl zero
    · exact Or.inr (selectable _ later inside)

/-- The padded entry is dead: its shards hold no key. -/
theorem shards_in_use_padded :
    ["gcp", " aws "] ≠ [] ∧ ["gcp", " aws "].length < 2 ^ 32 ∧ ["gcp", " aws "].length ≤ (16 : UInt32).toNat ∧
      ¬ ∃ key region, routeShard .regional key region ["gcp", " aws "] 16 = .ok 12 := by
  refine ⟨by decide, by decide, by decide, ?_⟩
  intro used
  obtain ⟨position, selectable, member⟩ := ((shards_in_use (show ["gcp", " aws "] ≠ [] by decide)
    (show ["gcp", " aws "].length < 2 ^ 32 by decide) (show ["gcp", " aws "].length ≤ (16 : UInt32).toNat by decide)).1 12).mp used
  rcases selectable with rfl | ⟨name, entry, unpadded, _⟩
  · revert member
    simp [band, start, stop]
  · rcases position with _ | _ | position
    · revert member
      simp [band, start, stop]
    · cases entry
      revert unpadded
      decide
    · cases entry

/-- Two names route every key to one shard, or never route any two keys to one. -/
theorem region_names_alike_iff (first second : String) (regions : List String) (shardCount : UInt32) :
    ((∀ key, routeShard .regional key first regions shardCount = routeShard .regional key second regions shardCount) ↔
      regions = [] ∨ shardCount.toNat < regions.length % 2 ^ 32 ∨
        clamp (regions.length % 2 ^ 32) (selected first regions) = clamp (regions.length % 2 ^ 32) (selected second regions)) ∧
    ((∃ left right, routeShard .regional left first regions shardCount = routeShard .regional right second regions shardCount) →
      ∀ key, routeShard .regional key first regions shardCount = routeShard .regional key second regions shardCount) := by
  have alike : (∃ left right,
      routeShard .regional left first regions shardCount = routeShard .regional right second regions shardCount) →
      regions = [] ∨ shardCount.toNat < regions.length % 2 ^ 32 ∨
        clamp (regions.length % 2 ^ 32) (selected first regions) = clamp (regions.length % 2 ^ 32) (selected second regions) := by
    intro shared
    obtain ⟨left, right, same⟩ := shared
    by_contra separate
    obtain ⟨nonempty, covers, different⟩ := not_or.mp separate |>.imp_right not_or.mp
    have counted : 0 < regions.length % 2 ^ 32 := by
      by_contra zero
      apply different
      unfold clamp
      omega
    have placed := routeShard_returns counted (Nat.le_of_not_lt covers) left first
    rw [same] at placed
    exact place_ne counted (Nat.le_of_not_lt covers) different _ _
      (placed.unique (routeShard_returns counted (Nat.le_of_not_lt covers) right second))
  have always (condition : regions = [] ∨ shardCount.toNat < regions.length % 2 ^ 32 ∨
      clamp (regions.length % 2 ^ 32) (selected first regions) = clamp (regions.length % 2 ^ 32) (selected second regions))
      (key : String) :
      routeShard .regional key first regions shardCount = routeShard .regional key second regions shardCount := by
    by_cases guarded : regions = [] ∨ shardCount.toNat < regions.length % 2 ^ 32
    · rw [routeShard_fallback guarded, routeShard_fallback guarded]
    · obtain ⟨nonempty, covers⟩ := not_or.mp guarded
      by_cases wrapped : regions.length % 2 ^ 32 = 0
      · rw [routeShard_panics nonempty wrapped, routeShard_panics nonempty wrapped]
      · have counted : 0 < regions.length % 2 ^ 32 := Nat.pos_of_ne_zero wrapped
        have left := routeShard_returns counted (Nat.le_of_not_lt covers) key first
        have right := routeShard_returns counted (Nat.le_of_not_lt covers) key second
        obtain empty | below | same := condition
        · exact False.elim (nonempty empty)
        · exact False.elim (covers below)
        · rw [left.eq_ok, right.eq_ok, place, place, same]
  exact ⟨⟨fun same => alike ⟨"", "", same ""⟩, always⟩, fun shared => always (alike shared)⟩

/-- Marking keys as regional changes nothing exactly when there is no list, too few
shards for it, or one band. -/
theorem scopes_alike_iff (region : String) (regions : List String) (shardCount : UInt32) :
    (∀ key, routeShard .regional key region regions shardCount = routeShard .global key region regions shardCount) ↔
      regions = [] ∨ shardCount.toNat < regions.length % 2 ^ 32 ∨ regions.length % 2 ^ 32 = 1 := by
  by_cases guarded : regions = [] ∨ shardCount.toNat < regions.length % 2 ^ 32
  · exact iff_of_true (fun key => routeShard_fallback guarded key region) (or_assoc.mp (Or.inl guarded))
  · obtain ⟨nonempty, covers⟩ := not_or.mp guarded
    have enough := Nat.le_of_not_lt covers
    simp only [nonempty, covers, false_or]
    by_cases wrapped : regions.length % 2 ^ 32 = 0
    · refine iff_of_false (fun same => ?_) (by omega)
      have stopped := same ""
      rw [routeShard_panics nonempty wrapped] at stopped
      by_cases positive : 0 < shardCount.toNat
      · cases stopped.trans (shardFor_returns positive "").eq_ok
      · have zero : shardCount = 0 := UInt32.toNat_inj.mp (Nat.eq_zero_of_not_pos positive)
        rw [zero] at stopped
        change _ = shardFor "" 0 at stopped
        revert stopped
        decide
    · have counted : 0 < regions.length % 2 ^ 32 := Nat.pos_of_ne_zero wrapped
      rw [← placed_globally_iff counted enough (selected region regions)]
      refine forall_congr' fun key => ?_
      exact returns_eq_iff (routeShard_returns counted enough key region) (shardFor_returns (counted.trans_le enough) key)

end FiduciaRouting.Proofs.RegionCoverage
