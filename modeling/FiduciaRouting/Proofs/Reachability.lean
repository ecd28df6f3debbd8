import FiduciaRouting.Library.MultiplicativeHash
import FiduciaRouting.LockCoordination
import FiduciaRouting.Proofs.Placement

/-! Every hash value is reached from every intermediate state of the hash, by
ASCII text of one fixed length. No shard, band slot or domain placement is out
of reach of the keys. -/

namespace FiduciaRouting.Proofs.Reachability
open Library CheckedArithmetic Banding Placement Text

def absorb (hash : UInt32) (word : List UInt8) : UInt32 :=
  word.foldl (fun hash b => (hash ^^^ b.toUInt32) * fnvPrime) hash

theorem fnv1a_append (first second : String) : fnv1a (first ++ second) = absorb (fnv1a first) (bytes second) := by
  rw [fnv1a, bytes_append, List.foldl_append]
  rfl

theorem orgScopedKey_eq_append (orgId key : String) : orgScopedKey orgId key = orgScopePrefix orgId ++ key := by
  simp [orgScopePrefix, orgScopedKey]

/-- The loop is the multiplicative hash of the FNV prime over 32-bit states. -/
theorem toBitVec_absorb (hash : UInt32) (word : List UInt8) :
    (absorb hash word).toBitVec =
      MultiplicativeHash.run fnvPrime.toBitVec hash.toBitVec (word.map (fun b => b.toUInt32.toBitVec)) := by
  induction word generalizing hash with
  | nil => rfl
  | cons byte rest ih => exact ih _

theorem toNat_fnv1a (text : String) : (fnv1a text).toNat =
    (MultiplicativeHash.run fnvPrime.toBitVec fnvOffset.toBitVec ((bytes text).map (fun b => b.toUInt32.toBitVec))).toNat := by
  rw [← toBitVec_absorb]
  rfl

/-- One less than a period of the prime, framed by two repairing bytes. -/
def wordLength : ℕ := 2 ^ 30 + 2

theorem exists_suffix (hash value : UInt32) :
    ∃ text : String, isAscii text = true ∧ text.utf8ByteSize = wordLength ∧ absorb hash (bytes text) = value := by
  obtain ⟨digits, length, small, reached⟩ :=
    MultiplicativeHash.exists_word (n := 29) fnvPrime.toBitVec (by decide) hash.toBitVec value.toBitVec
  have low : ∀ byte ∈ digits.map (fun digit => UInt8.ofNat digit.toNat), byte.toNat < 128 := by
    intro byte member
    obtain ⟨digit, inside, rfl⟩ := List.mem_map.mp member
    have bound := small digit inside
    rw [UInt8.toNat_ofNat']
    omega
  have widened : (digits.map (fun digit => UInt8.ofNat digit.toNat)).map (fun b => b.toUInt32.toBitVec) = digits := by
    rw [List.map_map]
    conv_rhs => rw [← List.map_id digits]
    apply List.map_congr_left
    intro digit inside
    have bound := small digit inside
    apply BitVec.eq_of_toNat_eq
    simp only [Function.comp_apply, id_eq, UInt32.toNat_toBitVec, UInt8.toNat_toUInt32, UInt8.toNat_ofNat']
    omega
  refine ⟨asciiText (digits.map (fun digit => UInt8.ofNat digit.toNat)), isAscii_asciiText low, ?_, ?_⟩
  · rw [utf8ByteSize_eq_length, bytes_asciiText low, List.length_map, length]
    rfl
  · rw [bytes_asciiText low]
    apply UInt32.eq_of_toBitVec_eq
    rw [toBitVec_absorb, widened]
    exact reached

theorem exists_continuation (start : String) (value : UInt32) :
    ∃ text : String, isAscii text = true ∧ fnv1a (start ++ text) = value := by
  obtain ⟨text, ascii, _, reached⟩ := exists_suffix (fnv1a start) value
  exact ⟨text, ascii, by rw [fnv1a_append, reached]⟩

theorem exists_key (value : UInt32) : ∃ key, fnv1a key = value := by
  obtain ⟨key, _, reached⟩ := exists_continuation "" value
  exact ⟨key, by rwa [String.empty_append] at reached⟩

/-- What holds of the hashes of all keys holds of all words. -/
theorem forall_key_iff (property : ℕ → Prop) : (∀ key, property (fnv1a key).toNat) ↔ ∀ word < 2 ^ 32, property word := by
  constructor
  · intro keys word bound
    obtain ⟨key, hashed⟩ := exists_key (UInt32.ofNat word)
    have own := keys key
    rwa [hashed, UInt32.toNat_ofNat_of_lt' bound] at own
  · intro words key
    exact words _ (fnv1a key).toNat_lt

/-- A band gives every key its global shard exactly when it is the only band. -/
theorem placed_globally_iff {shardCount : UInt32} {count : ℕ} (positive : 0 < count) (covers : count ≤ shardCount.toNat)
    (index : ℕ) :
    (∀ key, place shardCount.toNat count index (fnv1a key).toNat = (fnv1a key).toNat % shardCount.toNat) ↔ count = 1 := by
  rw [forall_key_iff (fun hash => place shardCount.toNat count index hash = hash % shardCount.toNat)]
  constructor
  · intro same
    refine (forall_place_eq_iff positive covers index).mp ?_
    intro slot below
    rw [same slot (below.trans shardCount.toNat_lt), Nat.mod_eq_of_lt below]
  · intro single hash _
    rw [single, place_single]

theorem shardFor_of_fnv1a {key : String} {shardCount shard : UInt32} (hashed : fnv1a key = shard)
    (below : shard < shardCount) : shardFor key shardCount = .ok shard := by
  have inside := UInt32.lt_iff_toNat_lt.mp below
  have positive : 0 < shardCount.toNat := by omega
  have returns := shardFor_returns positive key
  rw [hashed, Nat.mod_eq_of_lt inside] at returns
  rw [returns.eq_ok, UInt32.ofNat_toNat]

/-- No shard is starved: not globally, not within one org, not within a band. -/
theorem no_shard_starved :
    (∀ (start : String) (value : UInt32), ∃ text, isAscii text = true ∧ fnv1a (start ++ text) = value) ∧
    (∀ shardCount shard : UInt32, 1 ≤ shardCount → shard < shardCount →
      ∃ key, shardFor key shardCount = .ok shard) ∧
    (∀ (orgId : String) (shardCount shard : UInt32), 1 ≤ shardCount → shard < shardCount →
      ∃ key, shardFor (orgScopedKey orgId key) shardCount = .ok shard) ∧
    (∀ regionCount shardCount regionIndex shard : UInt32, 1 ≤ regionCount → regionCount ≤ shardCount →
      shard.toNat ∈ band shardCount.toNat regionCount.toNat (min regionIndex.toNat (regionCount.toNat - 1)) →
      ∃ key, shardForRegion regionIndex regionCount key shardCount = .ok shard) := by
  refine ⟨exists_continuation, ?_, ?_, ?_⟩
  · intro shardCount shard _ below
    obtain ⟨key, hashed⟩ := exists_key shard
    exact ⟨key, shardFor_of_fnv1a hashed below⟩
  · intro orgId shardCount shard _ below
    obtain ⟨key, _, hashed⟩ := exists_continuation (orgScopePrefix orgId) shard
    rw [← orgScopedKey_eq_append] at hashed
    exact ⟨key, shardFor_of_fnv1a hashed below⟩
  · intro regionCount shardCount regionIndex shard positive enough member
    have word := shard.toNat_lt
    obtain ⟨key, hashed⟩ := exists_key (UInt32.ofNat
      (shard.toNat - start shardCount.toNat regionCount.toNat (clamp regionCount.toNat regionIndex.toNat)))
    have returns := shardForRegion_returns (UInt32.le_iff_toNat_le.mp positive) (UInt32.le_iff_toNat_le.mp enough)
      regionIndex key
    rw [hashed, UInt32.toNat_ofNat_of_lt' ((Nat.sub_le _ _).trans_lt word), place_offset member] at returns
    exact ⟨key, by rw [returns.eq_ok, UInt32.ofNat_toNat]⟩

theorem no_shard_starved_examples :
    (∃ key, shardFor key 16 = .ok 15) ∧ (∃ key, shardFor (orgScopedKey "org-a" key) 16 = .ok 15) ∧
      ∃ key, shardForRegion 7 3 key 16 = .ok 10 :=
  ⟨no_shard_starved.2.1 16 15 (by decide) (by decide), no_shard_starved.2.2.1 "org-a" 16 15 (by decide) (by decide),
    no_shard_starved.2.2.2 3 16 7 10 (by decide) (by decide) ⟨by decide, by decide⟩⟩

/-- Identifiers of the one announced length already reach every hash value. -/
theorem exists_domain_id {domain : String → LockCoordinationDomain} {kind : String}
    (shape : ∀ id, (domain id).kindAndId = (kind, id)) (value : UInt32) :
    ∃ id, id.utf8ByteSize = wordLength ∧ fnv1a (lockCoordinationDomainKey (domain id)) = value := by
  obtain ⟨id, _, length, reached⟩ := exists_suffix (fnv1a (lockCoordinationDomainV1Prefix ++ "\u0000" ++ kind ++
    "\u0000" ++ Nat.repr wordLength ++ "\u0000")) value
  refine ⟨id, length, ?_⟩
  simp only [lockCoordinationDomainKey, shape, length]
  rw [fnv1a_append, reached]

theorem exists_domain_on_shard {domain : String → LockCoordinationDomain} {kind : String}
    (shape : ∀ id, (domain id).kindAndId = (kind, id)) {shardCount shard : UInt32} (below : shard < shardCount) :
    ∃ id, id.utf8ByteSize < 2 ^ 63 ∧ lockCoordinationShardFor .domainV1 (domain id) shardCount = .ok shard := by
  obtain ⟨id, length, hashed⟩ := exists_domain_id shape shard
  refine ⟨id, ?_, shardFor_of_fnv1a hashed below⟩
  rw [length, wordLength]
  norm_num

/-- DomainV1 can place a domain of every kind on every shard. -/
theorem domain_v1_reaches_every_shard {shardCount shard : UInt32} (below : shard < shardCount) :
    (∃ id, id.utf8ByteSize < 2 ^ 63 ∧ lockCoordinationShardFor .domainV1 (.tenant id) shardCount = .ok shard) ∧
    (∃ id, id.utf8ByteSize < 2 ^ 63 ∧ lockCoordinationShardFor .domainV1 (.shared id) shardCount = .ok shard) ∧
    (∃ id, id.utf8ByteSize < 2 ^ 63 ∧ lockCoordinationShardFor .domainV1 (.system id) shardCount = .ok shard) :=
  ⟨exists_domain_on_shard (fun _ => rfl) below, exists_domain_on_shard (fun _ => rfl) below,
    exists_domain_on_shard (fun _ => rfl) below⟩

theorem domain_v1_reaches_every_shard_fifteen : (15 : UInt32) < 16 ∧
    ∃ id, id.utf8ByteSize < 2 ^ 63 ∧ lockCoordinationShardFor .domainV1 (.tenant id) 16 = .ok 15 :=
  ⟨by decide, (domain_v1_reaches_every_shard (show (15 : UInt32) < 16 by decide)).1⟩

end FiduciaRouting.Proofs.Reachability
