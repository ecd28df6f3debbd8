import FiduciaRouting.Contract
import FiduciaRouting.Proofs.ModelRouting
import FiduciaRouting.Replay

/-! What the adapter answers to one request. No schema is consulted: a request is
answered when the members its operation reads are present and convert. -/

namespace FiduciaRouting.Proofs.ReplayAnswers
open Library Fallible Json Python Contract Replay ModelRouting

variable {repr : Json → String} {members : List (String × Json)}

def Has (members : List (String × Json)) (name : String) : Prop := ∃ value, get? members name = some value

def Counted (repr : Json → String) (members : List (String × Json)) : Prop :=
  ∃ value count, get? members "shard_count" = some value ∧ int repr value = .ok count ∧ 0 < count

def Scoped (repr : Json → String) (members : List (String × Json)) : Prop :=
  ∃ value, get? members "scope" = some value ∧ (str repr value = "global" ∨ str repr value = "regional")

def Iterable : Json → Prop
  | .arr _ | .str _ | .obj _ => True
  | _ => False

def Listed (members : List (String × Json)) : Prop := ∀ value, get? members "regions" = some value → Iterable value

/-- What an operation asks of the members of its request. -/
def Accepts (repr : Json → String) (members : List (String × Json)) : Operation → Prop
  | .hash => Has members "key"
  | .shard => Has members "key" ∧ Counted repr members
  | .scope => Has members "org_id" ∧ Has members "key"
  | .route => Scoped repr members ∧ Has members "key" ∧ Listed members ∧ Counted repr members

def Accepted (repr : Json → String) (request : Json) : Prop :=
  ∃ operation members, request = .obj members ∧ get? members "op" = some (.str (Operation.name operation)) ∧
    Accepts repr members operation

def answerFor (repr : Json → String) (members : List (String × Json)) : Operation → Py Result
  | .hash => answerHash repr members
  | .shard => answerShard repr members
  | .scope => answerScope repr members
  | .route => answerRoute repr members

theorem item_ok_iff {name : String} {value : Json} : item members name = .ok value ↔ get? members name = some value := by
  unfold item
  cases get? members name with
  | none => simp
  | some found => simp

theorem iterate_ok_iff {value : Json} : (∃ items, iterate value = .ok items) ↔ Iterable value := by
  cases value <;> simp [iterate, Iterable]

theorem answerHash_ok_iff {result : Result} :
    answerHash repr members = .ok result ↔
      ∃ key, get? members "key" = some key ∧ .number (Model.fnv1a (str repr key)) = result := by
  simp only [answerHash, bind_eq_ok_iff, item_ok_iff, pure_eq_ok_iff]

theorem answerShard_ok_iff {result : Result} :
    answerShard repr members = .ok result ↔
      ∃ key, get? members "key" = some key ∧ ∃ value, get? members "shard_count" = some value ∧
        ∃ count, int repr value = .ok count ∧
          ∃ shard, Model.shardFor (str repr key) count = .ok shard ∧ .number shard = result := by
  simp only [answerShard, bind_eq_ok_iff, item_ok_iff, pure_eq_ok_iff]

theorem answerScope_ok_iff {result : Result} :
    answerScope repr members = .ok result ↔
      ∃ orgId, get? members "org_id" = some orgId ∧ ∃ key, get? members "key" = some key ∧
        .text (Model.orgScopedKey (str repr orgId) (str repr key)) = result := by
  simp only [answerScope, bind_eq_ok_iff, item_ok_iff, pure_eq_ok_iff]

theorem answerRoute_ok_iff {result : Result} :
    answerRoute repr members = .ok result ↔
      ∃ scope, get? members "scope" = some scope ∧ ∃ key, get? members "key" = some key ∧
        ∃ regions, iterate ((get? members "regions").getD (.arr [])) = .ok regions ∧
          ∃ value, get? members "shard_count" = some value ∧ ∃ count, int repr value = .ok count ∧
            ∃ shard, Model.routeShard (str repr scope) (str repr key)
              (str repr ((get? members "region").getD (.str ""))) (regions.map (str repr)) count = .ok shard ∧
                .number shard = result := by
  simp only [answerRoute, bind_eq_ok_iff, item_ok_iff, pure_eq_ok_iff]

theorem listed_iff : (∃ items, iterate ((get? members "regions").getD (.arr [])) = .ok items) ↔ Listed members := by
  rw [iterate_ok_iff]
  unfold Listed
  cases get? members "regions" with
  | none => simp [Iterable]
  | some value => simp

theorem answerFor_completes_iff {operation : Operation} :
    (∃ result, answerFor repr members operation = .ok result) ↔ Accepts repr members operation := by
  cases operation with
  | hash =>
    simp only [answerFor, answerHash_ok_iff, Accepts, Has]
    constructor
    · intro answered
      obtain ⟨_, key, found, _⟩ := answered
      exact ⟨key, found⟩
    · intro present
      obtain ⟨key, found⟩ := present
      exact ⟨_, key, found, rfl⟩
  | scope =>
    simp only [answerFor, answerScope_ok_iff, Accepts, Has]
    constructor
    · intro answered
      obtain ⟨_, orgId, organization, key, found, _⟩ := answered
      exact ⟨⟨orgId, organization⟩, key, found⟩
    · intro present
      obtain ⟨⟨orgId, organization⟩, key, found⟩ := present
      exact ⟨_, orgId, organization, key, found, rfl⟩
  | shard =>
    simp only [answerFor, answerShard_ok_iff, Accepts, Has, Counted]
    constructor
    · intro answered
      obtain ⟨_, key, found, value, counted, count, converted, shard, reduced, _⟩ := answered
      exact ⟨⟨key, found⟩, value, count, counted, converted, (model_shardFor_ok_iff.mp reduced).1⟩
    · intro present
      obtain ⟨⟨key, found⟩, value, count, counted, converted, positive⟩ := present
      exact ⟨_, key, found, value, counted, count, converted, _, model_shardFor_ok_iff.mpr ⟨positive, rfl⟩, rfl⟩
  | route =>
    simp only [answerFor, answerRoute_ok_iff, Accepts, Has, Counted, Scoped, ← listed_iff]
    constructor
    · intro answered
      obtain ⟨_, scope, placed, key, found, regions, visited, value, counted, count, converted, shard, routed, _⟩ := answered
      obtain ⟨known, above, below⟩ := model_routeShard_ok routed
      exact ⟨⟨scope, placed, known⟩, ⟨key, found⟩, ⟨regions, visited⟩, value, count, counted, converted, by omega⟩
    · intro present
      obtain ⟨⟨scope, placed, known⟩, ⟨key, found⟩, ⟨regions, visited⟩, value, count, counted, converted, positive⟩ := present
      obtain ⟨total, rfl⟩ := Int.eq_ofNat_of_zero_le (Int.le_of_lt positive)
      obtain ⟨shard, _, routed⟩ := model_routes known (Int.natCast_pos.mp positive) (str repr key)
        (str repr ((get? members "region").getD (.str ""))) (regions.map (str repr))
      exact ⟨_, scope, placed, key, found, regions, visited, value, counted, total, converted, shard, routed, rfl⟩

theorem dispatch_ok_iff {lineNumber : ℕ} {op : Json} {answered : String × Result} :
    dispatch repr lineNumber op members = .ok answered ↔
      ∃ operation result, op = .str (Operation.name operation) ∧ answerFor repr members operation = .ok result ∧
        answered = (operation.name, result) := by
  constructor
  · intro returned
    unfold dispatch at returned
    split at returned
    · obtain ⟨result, run, same⟩ := bind_eq_ok_iff.mp returned
      exact ⟨.hash, result, rfl, run, (pure_eq_ok_iff.mp same).symm⟩
    · obtain ⟨result, run, same⟩ := bind_eq_ok_iff.mp returned
      exact ⟨.shard, result, rfl, run, (pure_eq_ok_iff.mp same).symm⟩
    · obtain ⟨result, run, same⟩ := bind_eq_ok_iff.mp returned
      exact ⟨.scope, result, rfl, run, (pure_eq_ok_iff.mp same).symm⟩
    · obtain ⟨result, run, same⟩ := bind_eq_ok_iff.mp returned
      exact ⟨.route, result, rfl, run, (pure_eq_ok_iff.mp same).symm⟩
    · cases returned
  · intro dispatched
    obtain ⟨operation, result, rfl, run, rfl⟩ := dispatched
    cases operation with
    | hash | shard | scope | route => exact bind_eq_ok_iff.mpr ⟨result, run, rfl⟩

theorem answer_ok_iff {lineNumber : ℕ} {request : Json} {record : Record} :
    answer repr lineNumber request = .ok record ↔
      ∃ operation members result, request = .obj members ∧ get? members "op" = some (.str (Operation.name operation)) ∧
        answerFor repr members operation = .ok result ∧
          record = { line := lineNumber, op := operation.name, result } := by
  cases request with
  | obj members =>
    simp only [answer, bind_eq_ok_iff, dispatch_ok_iff, pure_eq_ok_iff]
    constructor
    · intro answered
      obtain ⟨_, ⟨operation, result, named, run, rfl⟩, same⟩ := answered
      refine ⟨operation, members, result, rfl, ?_, run, same.symm⟩
      cases found : get? members "op" with
      | none => simp [found] at named
      | some op => simpa [found] using named
    · intro answered
      obtain ⟨operation, _, result, same, named, run, rfl⟩ := answered
      cases same
      exact ⟨_, ⟨operation, result, by rw [named, Option.getD_some], run, rfl⟩, rfl⟩
  | _ => simp [answer]

theorem answer_completes_iff {lineNumber : ℕ} {request : Json} :
    (∃ record, answer repr lineNumber request = .ok record) ↔ Accepted repr request := by
  simp only [answer_ok_iff, Accepted, ← answerFor_completes_iff]
  constructor
  · intro answered
    obtain ⟨_, operation, members, result, same, named, run, _⟩ := answered
    exact ⟨operation, members, same, named, result, run⟩
  · intro accepted
    obtain ⟨operation, members, same, named, result, run⟩ := accepted
    exact ⟨_, operation, members, result, same, named, run, rfl⟩

end FiduciaRouting.Proofs.ReplayAnswers
