import FiduciaRouting.Proofs.Reachability

/-! The two lock-routing modes side by side. Identifiers can be continued to any
hash, so no naming scheme keeps DomainV1 on the legacy coordinator's shard, and
none keeps its domains apart from a given one. -/

namespace FiduciaRouting.Proofs.LockModes
open Library CheckedArithmetic Text Placement Reachability

variable {domain : String → LockCoordinationDomain} {shardCount : UInt32}

/-- The domains of one kind. -/
def OneKind (domain : String → LockCoordinationDomain) : Prop :=
  domain = .tenant ∨ domain = .shared ∨ domain = .system

theorem OneKind.shape (one : OneKind domain) : ∃ kind, ∀ id, (domain id).kindAndId = (kind, id) := by
  rcases one with rfl | rfl | rfl
  · exact ⟨"tenant", fun _ => rfl⟩
  · exact ⟨"shared", fun _ => rfl⟩
  · exact ⟨"system", fun _ => rfl⟩

/-- The announced length is known before the rest of the identifier is chosen, and
its last bytes alone lead to the hash. -/
theorem exists_id_continuation (one : OneKind domain) (start : String) (value : UInt32) {length : ℕ}
    (long : wordLength ≤ length) :
    ∃ rest, rest.utf8ByteSize = length ∧ fnv1a (lockCoordinationDomainKey (domain (start ++ rest))) = value := by
  obtain ⟨kind, shape⟩ := one.shape
  obtain ⟨filler, filled⟩ := exists_utf8ByteSize_eq (length - wordLength)
  obtain ⟨rest, _, size, reached⟩ := exists_suffix (fnv1a (lockCoordinationDomainV1Prefix ++ "\u0000" ++ kind ++
    "\u0000" ++ Nat.repr (start.utf8ByteSize + length) ++ "\u0000" ++ (start ++ filler))) value
  have whole : (filler ++ rest).utf8ByteSize = length := by
    rw [String.utf8ByteSize_append, filled, size, Nat.sub_add_cancel long]
  have announced : (start ++ (filler ++ rest)).utf8ByteSize = start.utf8ByteSize + length := by
    rw [String.utf8ByteSize_append, whole]
  have joined : start ++ (filler ++ rest) = start ++ filler ++ rest := String.append_assoc.symm
  refine ⟨filler ++ rest, whole, ?_⟩
  simp only [lockCoordinationDomainKey, shape, announced]
  rw [joined, ← String.append_assoc, fnv1a_append, reached]

theorem exists_id_on_shard (one : OneKind domain) (start : String) {shard : UInt32} (below : shard < shardCount) :
    ∃ rest, lockCoordinationShardFor .domainV1 (domain (start ++ rest)) shardCount = .ok shard := by
  obtain ⟨rest, _, hashed⟩ := exists_id_continuation one start shard le_rfl
  exact ⟨rest, shardFor_of_fnv1a hashed below⟩

/-- A family of domains named after one start keeps its legacy shard under
DomainV1 only in a cluster of one shard. -/
theorem lock_modes_agree_iff (positive : 1 ≤ shardCount) (one : OneKind domain) (start : String) :
    (∀ rest, lockCoordinationShardFor .domainV1 (domain (start ++ rest)) shardCount =
      lockCoordinationShardFor .legacyGlobal (domain (start ++ rest)) shardCount) ↔ shardCount = 1 := by
  have sharded : 0 < shardCount.toNat := UInt32.le_iff_toNat_le.mp positive
  have legacy := shardFor_returns sharded lockCoordinationKey
  constructor
  · intro agree
    by_contra several
    have two : 1 < shardCount.toNat := by
      have different : shardCount.toNat ≠ (1 : UInt32).toNat := fun same => several (UInt32.toNat_inj.mp same)
      change shardCount.toNat ≠ 1 at different
      omega
    have zeroBelow : (0 : UInt32) < shardCount := UInt32.lt_iff_toNat_lt.mpr sharded
    have oneBelow : (1 : UInt32) < shardCount := UInt32.lt_iff_toNat_lt.mpr two
    obtain ⟨rest, zero⟩ := exists_id_on_shard one start zeroBelow
    obtain ⟨other, first⟩ := exists_id_on_shard one start oneBelow
    have left := zero.symm.trans (agree rest)
    have right := first.symm.trans (agree other)
    cases left.trans right.symm
  · intro single rest
    subst single
    have own := shardFor_returns sharded (lockCoordinationDomainKey (domain (start ++ rest)))
    change shardFor _ 1 = shardFor lockCoordinationKey 1
    rw [own.eq_ok, legacy.eq_ok]
    have one : (1 : UInt32).toNat = 1 := rfl
    rw [one, Nat.mod_one, Nat.mod_one]

theorem lock_modes_agree_iff_sixteen : 1 ≤ (16 : UInt32) ∧ OneKind LockCoordinationDomain.tenant ∧
    ¬ ∀ rest, lockCoordinationShardFor .domainV1 (.tenant ("acme-" ++ rest)) 16 =
      lockCoordinationShardFor .legacyGlobal (.tenant ("acme-" ++ rest)) 16 :=
  ⟨by decide, Or.inl rfl, fun agree =>
    absurd ((lock_modes_agree_iff (show 1 ≤ (16 : UInt32) by decide) (Or.inl rfl) "acme-").mp agree) (by decide)⟩

def Together (first second : LockCoordinationDomain) (shardCount : UInt32) : Prop :=
  lockCoordinationShardFor .domainV1 first shardCount = lockCoordinationShardFor .domainV1 second shardCount

theorem together_of_fnv1a {first second : LockCoordinationDomain}
    (hashes : fnv1a (lockCoordinationDomainKey first) = fnv1a (lockCoordinationDomainKey second)) (shardCount : UInt32) :
    Together first second shardCount := by
  unfold Together lockCoordinationShardFor shardFor
  rw [hashes]

theorem together_iff (positive : 0 < shardCount.toNat) (first second : LockCoordinationDomain) :
    Together first second shardCount ↔
      (fnv1a (lockCoordinationDomainKey first)).toNat ≡ (fnv1a (lockCoordinationDomainKey second)).toNat
        [MOD shardCount.toNat] :=
  shardFor_same_iff positive _ _

/-- The greatest number tells all others apart but itself and zero, which are of
different parity when it is odd. -/
theorem eq_of_residues {last left right : ℕ} (odd : last % 2 = 1) (leftBound : left ≤ last) (rightBound : right ≤ last)
    (parity : left % 2 = right % 2) (residue : left % last = right % last) : left = right := by
  have small {number : ℕ} (bound : number ≤ last) : number % last = number ∨ number = last :=
    (Nat.lt_or_eq_of_le bound).imp Nat.mod_eq_of_lt id
  rcases small leftBound with one | one <;> rcases small rightBound with two | two
  · rwa [one, two] at residue
  · rw [two, one, Nat.mod_self] at residue
    rw [residue, two, odd] at parity
    cases parity
  · rw [one, two, Nat.mod_self] at residue
    rw [← residue, one, odd] at parity
    cases parity
  · rw [one, two]

theorem fnv1a_of_together {first second : LockCoordinationDomain} (pair : Together first second 2)
    (most : Together first second 4294967295) :
    fnv1a (lockCoordinationDomainKey first) = fnv1a (lockCoordinationDomainKey second) := by
  have parity := (together_iff (by decide) first second).mp pair
  have residue := (together_iff (by decide) first second).mp most
  have bounded (word : UInt32) : word.toNat ≤ (4294967295 : UInt32).toNat := Nat.le_of_lt_succ word.toNat_lt
  exact UInt32.toNat_inj.mp (eq_of_residues (by decide) (bounded _) (bounded _) parity residue)

/-- Two counts decide whether any count parts two domains. Every domain has domains of
every kind and naming scheme that none parts from it, of any length that leaves room. -/
theorem domains_inseparable (fixed : LockCoordinationDomain) :
    (∀ other, (∀ shardCount, Together other fixed shardCount) ↔
      Together other fixed 2 ∧ Together other fixed 4294967295) ∧
    ∀ domain, OneKind domain → ∀ start length, wordLength ≤ length →
      ∃ rest, rest.utf8ByteSize = length ∧ ∀ shardCount, Together (domain (start ++ rest)) fixed shardCount := by
  refine ⟨?_, ?_⟩
  · intro other
    constructor
    · exact fun always => ⟨always 2, always 4294967295⟩
    · intro both shardCount
      exact together_of_fnv1a (fnv1a_of_together both.1 both.2) shardCount
  · intro domain one start length long
    obtain ⟨rest, size, hashed⟩ := exists_id_continuation one start (fnv1a (lockCoordinationDomainKey fixed)) long
    exact ⟨rest, size, together_of_fnv1a hashed⟩

theorem domains_inseparable_tenants : OneKind LockCoordinationDomain.tenant ∧ ∃ rest, rest.utf8ByteSize = wordLength ∧
    ∀ shardCount, Together (.tenant ("acme-" ++ rest)) (.system "scheduler") shardCount :=
  ⟨Or.inl rfl, (domains_inseparable (.system "scheduler")).2 .tenant (Or.inl rfl) "acme-" wordLength le_rfl⟩

end FiduciaRouting.Proofs.LockModes
