import FiduciaRouting.Proofs.Reachability

/-! Power-of-two shard counts keep the low bits of the hash, which the loop
permutes. Keys that share a suffix stay together or apart, so two orgs share all
their placements or none, and a single changed byte always shows. -/

namespace FiduciaRouting.Proofs.SuffixColocation
open Library Placement Reachability Text

def shards (k : ℕ) : UInt32 := UInt32.ofNat (2 ^ k)

theorem toNat_shards {k : ℕ} (narrow : k < 32) : (shards k).toNat = 2 ^ k :=
  UInt32.toNat_ofNat_of_lt' (Nat.pow_lt_pow_right (by omega) narrow)

theorem shards_pos {k : ℕ} (narrow : k < 32) : 0 < (shards k).toNat := by
  rw [toNat_shards narrow]
  exact Nat.two_pow_pos k

theorem shardFor_eq_iff {k : ℕ} (narrow : k < 32) {first second : String} :
    shardFor first (shards k) = shardFor second (shards k) ↔
      (fnv1a first).toNat ≡ (fnv1a second).toNat [MOD 2 ^ k] := by
  rw [shardFor_same_iff (shards_pos narrow), toNat_shards narrow]

theorem fnv1a_eq_iff {first second : String} :
    fnv1a first = fnv1a second ↔ (fnv1a first).toNat ≡ (fnv1a second).toNat [MOD 2 ^ 32] := by
  unfold Nat.ModEq
  rw [Nat.mod_eq_of_lt (fnv1a first).toNat_lt, Nat.mod_eq_of_lt (fnv1a second).toNat_lt, UInt32.toNat_inj]

theorem absorb_modEq_iff {k : ℕ} (narrow : k ≤ 32) (first second : UInt32) (word : List UInt8) :
    (absorb first word).toNat ≡ (absorb second word).toNat [MOD 2 ^ k] ↔ first.toNat ≡ second.toNat [MOD 2 ^ k] := by
  rw [← UInt32.toNat_toBitVec, ← UInt32.toNat_toBitVec, toBitVec_absorb, toBitVec_absorb]
  exact MultiplicativeHash.run_modEq_iff fnvPrime.toBitVec (by decide) narrow _

/-- A suffix neither creates nor removes a congruence of the hashes. -/
theorem suffix_modEq_iff {k : ℕ} (narrow : k ≤ 32) (first second suffix : String) :
    (fnv1a (first ++ suffix)).toNat ≡ (fnv1a (second ++ suffix)).toNat [MOD 2 ^ k] ↔
      (fnv1a first).toNat ≡ (fnv1a second).toNat [MOD 2 ^ k] := by
  rw [fnv1a_append, fnv1a_append]
  exact absorb_modEq_iff narrow _ _ _

theorem suffix_shardFor_iff {k : ℕ} (narrow : k < 32) (first second suffix : String) :
    shardFor (first ++ suffix) (shards k) = shardFor (second ++ suffix) (shards k) ↔
      shardFor first (shards k) = shardFor second (shards k) := by
  rw [shardFor_eq_iff narrow, shardFor_eq_iff narrow]
  exact suffix_modEq_iff narrow.le first second suffix

/-- The encodings have one length and differ at exactly one position. -/
def DifferInOneByte (first second : String) : Prop :=
  (bytes first).length = (bytes second).length ∧
    ∃ position : ℕ, ∀ index : ℕ, (bytes first)[index]? ≠ (bytes second)[index]? ↔ index = position

private theorem split_at_difference {first second : List UInt8} (level : first.length = second.length) {position : ℕ}
    (differ : ∀ index : ℕ, first[index]? ≠ second[index]? ↔ index = position) :
    ∃ front left right back, first = front ++ left :: back ∧ second = front ++ right :: back ∧ left ≠ right := by
  induction first generalizing second position with
  | nil =>
    rw [List.length_nil, eq_comm, List.length_eq_zero_iff] at level
    subst level
    exact False.elim ((differ position).mpr rfl rfl)
  | cons head tail ih =>
    cases second with
    | nil => cases level
    | cons other rest =>
      have inner : ∀ index : ℕ, tail[index]? ≠ rest[index]? ↔ index + 1 = position := fun index => differ (index + 1)
      cases position with
      | zero =>
        have same : tail = rest := by
          apply List.ext_getElem?
          intro index
          by_contra apart
          exact Nat.succ_ne_zero index ((inner index).mp apart)
        subst same
        have heads : head ≠ other := by simpa using (differ 0).mpr rfl
        exact ⟨[], head, other, tail, rfl, rfl, heads⟩
      | succ position =>
        have same : head = other := by
          by_contra apart
          exact Nat.succ_ne_zero position ((differ 0).mp (by simpa using apart)).symm
        subst same
        obtain ⟨front, left, right, back, rfl, rfl, apart⟩ :=
          ih (Nat.succ.inj level) (fun index => (inner index).trans Nat.succ_inj)
        exact ⟨head :: front, left, right, back, rfl, rfl, apart⟩

/-- The changed byte fits the low eight bits, which no later byte can level. -/
theorem one_byte_not_modEq {k : ℕ} (wide : 8 ≤ k) (narrow : k ≤ 32) {first second : String}
    (differ : DifferInOneByte first second) : ¬ (fnv1a first).toNat ≡ (fnv1a second).toNat [MOD 2 ^ k] := by
  obtain ⟨level, position, only⟩ := differ
  obtain ⟨front, left, right, back, before, after, apart⟩ := split_at_difference level only
  intro congruent
  rw [toNat_fnv1a, toNat_fnv1a, before, after, List.map_append, List.map_append, List.map_cons, List.map_cons,
    MultiplicativeHash.run_replace_modEq_iff fnvPrime.toBitVec (by decide) narrow] at congruent
  apply apart
  have room : 2 ^ 8 ≤ 2 ^ k := Nat.pow_le_pow_right (by omega) wide
  have small (byte : UInt8) : byte.toNat < 2 ^ k := byte.toNat_lt.trans_le room
  simp only [UInt32.toNat_toBitVec, UInt8.toNat_toUInt32] at congruent
  exact UInt8.toNat_inj.mp (congruent.eq_of_lt_of_lt (small left) (small right))

/-- Common suffixes preserve co-location at power-of-two shard counts; orgs share
all their placements or none; one changed byte always moves a key. -/
theorem suffix_preserves_colocation :
    (∀ k < 32, ∀ first second suffix : String,
      shardFor (first ++ suffix) (shards k) = shardFor (second ++ suffix) (shards k) ↔
        shardFor first (shards k) = shardFor second (shards k)) ∧
    (∀ first second suffix : String, fnv1a (first ++ suffix) = fnv1a (second ++ suffix) ↔ fnv1a first = fnv1a second) ∧
    (∀ k < 32, ∀ first second : String,
      (∀ key, shardFor (orgScopedKey first key) (shards k) = shardFor (orgScopedKey second key) (shards k)) ∨
      (∀ key, shardFor (orgScopedKey first key) (shards k) ≠ shardFor (orgScopedKey second key) (shards k))) ∧
    (∀ first second : String, DifferInOneByte first second →
      fnv1a first ≠ fnv1a second ∧ ∀ k, 8 ≤ k → k < 32 → shardFor first (shards k) ≠ shardFor second (shards k)) := by
  refine ⟨fun k narrow => suffix_shardFor_iff narrow, ?_, ?_, ?_⟩
  · intro first second suffix
    rw [fnv1a_eq_iff, fnv1a_eq_iff]
    exact suffix_modEq_iff le_rfl first second suffix
  · intro k narrow first second
    have framed (key : String) := suffix_shardFor_iff narrow (orgScopePrefix first) (orgScopePrefix second) key
    simp only [orgScopedKey_eq_append]
    by_cases together : shardFor (orgScopePrefix first) (shards k) = shardFor (orgScopePrefix second) (shards k)
    · exact Or.inl fun key => (framed key).mpr together
    · exact Or.inr fun key same => together ((framed key).mp same)
  · intro first second differ
    refine ⟨?_, ?_⟩
    · rw [ne_eq, fnv1a_eq_iff]
      exact one_byte_not_modEq (by omega) le_rfl differ
    · intro k wide narrow same
      exact one_byte_not_modEq wide narrow.le differ ((shardFor_eq_iff narrow).mp same)

/-- The last byte differs, and nothing the two keys are continued with brings them together. -/
theorem suffix_preserves_colocation_example :
    DifferInOneByte "orders/1" "orders/2" ∧ shardFor "orders/1" (shards 8) ≠ shardFor "orders/2" (shards 8) ∧
      shardFor ("orders/1" ++ "/items") (shards 8) ≠ shardFor ("orders/2" ++ "/items") (shards 8) := by
  have differ : DifferInOneByte "orders/1" "orders/2" := by
    refine ⟨by decide, 7, ?_⟩
    intro index
    by_cases inside : index < 8
    · interval_cases index <;> decide
    · have left : (bytes "orders/1")[index]? = none := List.getElem?_eq_none (not_lt.mp inside)
      have right : (bytes "orders/2")[index]? = none := List.getElem?_eq_none (not_lt.mp inside)
      rw [left, right]
      exact iff_of_false (fun apart => apart rfl) (by omega)
  have apart := (suffix_preserves_colocation.2.2.2 "orders/1" "orders/2" differ).2 8 le_rfl (by decide)
  exact ⟨differ, apart, fun same => apart ((suffix_preserves_colocation.1 8 (by decide) _ _ "/items").mp same)⟩

end FiduciaRouting.Proofs.SuffixColocation
