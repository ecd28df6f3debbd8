import FiduciaRouting.Proofs.ReplayAnswers

/-! Requests that satisfy the contract. Their members convert to the values they
denote, so the adapter answers them whenever the shard count is positive. -/

namespace FiduciaRouting.Proofs.ContractRequests
open Library Json Python Contract ReplayAnswers

variable {repr : Json → String} {members : List (String × Json)}

/-- A shard count, where the request has one, is at least one. -/
def CountsShards (request : Json) : Prop :=
  ∀ members value number, request = .obj members → get? members "shard_count" = some value →
    value.number? = some number → 1 ≤ number

theorem name_injective {first second : Operation} (same : first.name = second.name) : first = second := by
  cases first <;> cases second <;> first | rfl | exact absurd same (by decide)

/-- Every request schema is a closed object that fixes the operation. -/
theorem valid_request {operation : Operation} {request : Json} (valid : operation.request.validates request = true) :
    ∃ members, request = .obj members ∧ get? members "op" = some (.str operation.name) := by
  cases operation with
  | hash | shard | scope | route =>
    obtain ⟨members, rfl, _⟩ := validates_object_iff.mp valid
    obtain ⟨op, found⟩ := member_present valid (show "op" ∈ _ by simp)
    have named := validates_const_iff.mp (member_of_declared valid rfl found)
    exact ⟨members, rfl, by rw [found, named]; rfl⟩

theorem operation_unique {operation : Operation} (valid : operation.request.validates (.obj members) = true)
    {other : Operation} (named : get? members "op" = some (.str other.name)) : other = operation := by
  obtain ⟨_, same, op⟩ := valid_request valid
  cases same
  rw [named, Option.some.injEq, Json.str.injEq] at op
  exact name_injective op

theorem countsShards_iff {value : Json} (found : get? members "shard_count" = some value) :
    CountsShards (.obj members) ↔ ∀ number, value.number? = some number → 1 ≤ number := by
  constructor
  · intro counts number written
    exact counts members value number rfl found written
  · intro counts _ other number same read written
    cases same
    cases found.symm.trans read
    exact counts number written

theorem countsShards_of_undeclared {properties : List (String × Schema)} {required : List String}
    (valid : (Schema.object properties required).validates (.obj members) = true)
    (undeclared : properties.lookup "shard_count" = none) : CountsShards (.obj members) := by
  intro _ value number same found
  cases same
  obtain ⟨schema, property, _⟩ := member_valid valid found
  cases undeclared.symm.trans property

/-- The declared range of a shard count is below the integers a float keeps. -/
theorem counted_iff {value : Json} (found : get? members "shard_count" = some value)
    (ranged : int32.validates value = true) : Counted repr members ↔ CountsShards (.obj members) := by
  obtain ⟨count, denotes, _, upper⟩ := validates_integer_iff.mp ranged
  rw [countsShards_iff found]
  constructor
  · intro counted number written
    obtain ⟨_, converted, same, runs, positive⟩ := counted
    cases found.symm.trans same
    cases denotes.symm.trans written
    by_contra below
    have nonpositive : (count : ℚ) ≤ 0 := by
      have small : count < 1 := by exact_mod_cast not_le.mp below
      exact_mod_cast Int.lt_add_one_iff.mp small
    exact absurd (int_nonpos written nonpositive runs) (not_le.mpr positive)
  · intro counts
    have positive : 1 ≤ count := by exact_mod_cast counts count denotes
    obtain ⟨total, rfl⟩ := Int.eq_ofNat_of_zero_le (show 0 ≤ count by omega)
    have number : value.number? = some (total : ℚ) := by simpa using denotes
    exact ⟨value, total, found, int_of_number repr number (by omega) (by omega), by omega⟩

theorem counted_iff_of_valid {properties : List (String × Schema)} {required : List String}
    (valid : (Schema.object properties required).validates (.obj members) = true)
    (declared : properties.lookup "shard_count" = some int32) (needed : "shard_count" ∈ required) :
    Counted repr members ↔ CountsShards (.obj members) := by
  obtain ⟨value, found⟩ := member_present valid needed
  exact counted_iff found (member_of_declared valid declared found)

theorem scoped_of_valid (valid : routeRequest.validates (.obj members) = true) : Scoped repr members := by
  obtain ⟨scope, found⟩ := member_present valid (show "scope" ∈ _ by simp)
  obtain ⟨text, member, rfl⟩ := validates_enum_iff.mp (member_of_declared valid rfl found)
  exact ⟨_, found, by simpa [Python.str] using member⟩

theorem listed_of_valid (valid : routeRequest.validates (.obj members) = true) : Listed members := by
  intro regions found
  obtain ⟨items, rfl, _⟩ := validates_array_iff.mp (member_of_declared valid rfl found)
  exact trivial

/-- Of the members an operation reads, only the shard count can be refused. -/
theorem accepts_of_valid {operation : Operation} (valid : operation.request.validates (.obj members) = true) :
    Accepts repr members operation ↔ CountsShards (.obj members) := by
  cases operation with
  | hash =>
    have key : Has members "key" := member_present valid (by simp)
    exact iff_of_true key (countsShards_of_undeclared valid rfl)
  | scope =>
    have orgId : Has members "org_id" := member_present valid (by simp)
    have key : Has members "key" := member_present valid (by simp)
    exact iff_of_true ⟨orgId, key⟩ (countsShards_of_undeclared valid rfl)
  | shard =>
    have key : Has members "key" := member_present valid (by simp)
    simp only [Accepts, key, true_and]
    exact counted_iff_of_valid valid rfl (by simp)
  | route =>
    have key : Has members "key" := member_present valid (by simp)
    simp only [Accepts, key, scoped_of_valid valid, listed_of_valid valid, true_and]
    exact counted_iff_of_valid valid rfl (by simp)

theorem accepted_iff_of_valid {request : Json} (valid : ValidRequest request) :
    Accepted repr request ↔ CountsShards request := by
  obtain ⟨operation, valid⟩ := valid
  obtain ⟨members, same, named⟩ := valid_request valid
  subst same
  rw [← accepts_of_valid valid]
  constructor
  · intro accepted
    obtain ⟨other, _, same, op, accepts⟩ := accepted
    cases same
    rw [← operation_unique valid op]
    exact accepts
  · intro accepts
    exact ⟨operation, members, rfl, named, accepts⟩

end FiduciaRouting.Proofs.ContractRequests
