import FiduciaRouting.Proofs.Totality

/-! The two regional entry points. The typed one resolves API codes, aliases and
cluster names; the generic one knows the cluster names only and sends every
other spelling to the default region. -/

namespace FiduciaRouting.Proofs.EntryPoints
open Library CheckedArithmetic Banding Placement Totality Text

def clusters : List String := Region.all.map Region.clusterName

def normalized (value : String) : String := toAsciiLowercase (trim value)

theorem regionIndexOr_normalized (value : String) :
    regionIndexOr value clusters defaultRegionIndex =
      ((clusters.findIdx? (fun cluster => toAsciiLowercase cluster == normalized value)).map UInt32.ofNat).getD
        defaultRegionIndex := rfl

/-- An accepted spelling is the cluster name of its region, or an alias the
cluster list does not contain. -/
theorem parse_cases {value : String} {region : Region} (parsed : Region.parse value = some region) :
    normalized value = region.clusterName ∧ regionIndexOr value clusters defaultRegionIndex = region.index ∨
      normalized value ≠ region.clusterName ∧
        regionIndexOr value clusters defaultRegionIndex = Region.usCentral1.index := by
  rw [regionIndexOr_normalized]
  unfold Region.parse at parsed
  unfold normalized
  generalize toAsciiLowercase (trim value) = name at parsed ⊢
  split at parsed <;> cases parsed <;> decide

theorem routeShard_clusters {shardCount : UInt32} (enough : 3 ≤ shardCount) (key value : String) :
    routeShard .regional key value clusters shardCount =
      shardForRegion (regionIndexOr value clusters defaultRegionIndex) 3 key shardCount :=
  routeShard_banded (show clusters ≠ [] by decide) (UInt32.le_iff_toNat_le.mp enough) key value

theorem customer_region_ne {shardCount : UInt32} (enough : 3 ≤ shardCount) {first second : Region}
    (different : first ≠ second) (left right : String) :
    shardForCustomerRegion first left shardCount ≠ shardForCustomerRegion second right shardCount := by
  intro same
  have covers : Region.all.length ≤ shardCount.toNat := UInt32.le_iff_toNat_le.mp enough
  have returns := shardForCustomerRegion_returns enough first left
  have other := shardForCustomerRegion_returns enough second right
  rw [same] at returns
  refine place_ne (by decide) covers ?_ _ _ (returns.unique other)
  cases first <;> cases second <;> first | exact False.elim (different rfl) | decide

/-- On accepted spellings the entry points agree exactly on the cluster names
and on the default region; the other aliases go to the default region. -/
theorem entry_points_agree_iff {value : String} {region : Region} (parsed : Region.parse value = some region)
    {shardCount : UInt32} (enough : 3 ≤ shardCount) (key : String) :
    (routeShard .regional key value clusters shardCount = shardForCustomerRegion region key shardCount ↔
      toAsciiLowercase (trim value) = region.clusterName ∨ region = .usCentral1) ∧
    (toAsciiLowercase (trim value) ≠ region.clusterName →
      routeShard .regional key value clusters shardCount = shardForCustomerRegion .usCentral1 key shardCount) := by
  rw [routeShard_clusters enough]
  rcases parse_cases parsed with ⟨named, found⟩ | ⟨unnamed, missed⟩
  · rw [found]
    exact ⟨iff_of_true rfl (Or.inl named), fun other => False.elim (other named)⟩
  · rw [missed]
    refine ⟨?_, fun _ => rfl⟩
    constructor
    · intro same
      by_contra apart
      exact customer_region_ne enough (fun equal => apart (Or.inr equal.symm)) key key same
    · intro accepted
      rcases accepted with named | default
      · exact False.elim (unnamed named)
      · rw [default]
        rfl

theorem entry_points_agree_iff_aws :
    Region.parse " AWS " = some .usEast1 ∧ (3 : UInt32) ≤ 256 ∧
      routeShard .regional "orders/42" " AWS " clusters 256 = shardForCustomerRegion .usEast1 "orders/42" 256 :=
  ⟨by decide, by decide,
    (entry_points_agree_iff (show Region.parse " AWS " = some .usEast1 by decide) (show (3 : UInt32) ≤ 256 by decide)
      "orders/42").1.mpr (Or.inl (by decide))⟩

theorem entry_points_differ_on_code :
    Region.parse "us-east-1" = some .usEast1 ∧ (3 : UInt32) ≤ 256 ∧
      routeShard .regional "orders/42" "us-east-1" clusters 256 ≠ shardForCustomerRegion .usEast1 "orders/42" 256 := by
  decide

end FiduciaRouting.Proofs.EntryPoints
