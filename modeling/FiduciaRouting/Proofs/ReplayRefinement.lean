import FiduciaRouting.Proofs.ModelAgreement
import FiduciaRouting.Proofs.ReplayAcceptance

/-! The adapter against the crate. A stream is answered part by part, and each answer
to a request of the contract is what the crate returns to the call the request
spells, except on the routes whose region the two name differently. -/

namespace FiduciaRouting.Proofs.ReplayRefinement
open Library CheckedArithmetic Fallible Json Python Contract Replay Placement ModelAgreement ModelRouting ReplayAnswers ContractRequests
  ReplayAcceptance

variable {repr : Json → String} {members : List (String × Json)}

def renumber (offset : ℕ) (record : Record) : Record := { record with line := record.line + offset }

theorem process_shift (offset : ℕ) (lineNumber : ℕ) (line : Line) (output? : Option Record) :
    process repr (lineNumber + offset) line = .ok output? ↔
      ∃ own?, process repr lineNumber line = .ok own? ∧ own?.map (renumber offset) = output? := by
  cases line with
  | blank => simp [process]
  | refused => simp [process]
  | value request =>
    simp only [process_value_ok_iff, answer_ok_iff]
    constructor
    · intro processed
      obtain ⟨_, ⟨operation, members, result, object, named, run, rfl⟩, rfl⟩ := processed
      exact ⟨_, ⟨_, ⟨operation, members, result, object, named, run, rfl⟩, rfl⟩, rfl⟩
    · intro processed
      obtain ⟨_, ⟨_, ⟨operation, members, result, object, named, run, rfl⟩, rfl⟩, rfl⟩ := processed
      exact ⟨_, ⟨operation, members, result, object, named, run, rfl⟩, rfl⟩

/-- Two streams in a row are answered as each is alone, the lines of the second counted
on from those of the first; and what stops the first stops both, whatever follows. -/
theorem replay_append_iff (repr : Json → String) (first second : List Line) :
    (∀ records, replay repr (first ++ second) = .ok records ↔
      ∃ left right, replay repr first = .ok left ∧ replay repr second = .ok right ∧
        left ++ right.map (renumber first.length) = records) ∧
    ∀ raised, replay repr first = .error raised → replay repr (first ++ second) = .error raised := by
  constructor
  · intro records
    rw [replay_eq_run, Batch.run_append, bind_eq_ok_iff]
    refine exists_congr fun left => ?_
    rw [← replay_eq_run, exists_and_left]
    refine and_congr_right fun _ => ?_
    rw [Batch.run_eq_ok_iff]
    simp only [Batch.completes_shift_iff (process_shift first.length), ← replay_ok_iff]
    constructor
    · intro completed
      obtain ⟨_, rfl, right, returned, rfl⟩ := completed
      exact ⟨right, returned, rfl⟩
    · intro completed
      obtain ⟨right, returned, rfl⟩ := completed
      exact ⟨_, rfl, right, returned, rfl⟩
  · intro raised stopped
    rw [replay_eq_run] at stopped
    rw [replay_eq_run, Batch.run_append, stopped]
    rfl

/-- A call to the crate as a request spells it. -/
inductive Call where
  | hash (key : String)
  | shard (key : String) (shardCount : UInt32)
  | scope (orgId key : String)
  | route (scope : KeyScope) (key region : String) (regions : List String) (shardCount : UInt32)
  deriving DecidableEq

def text? : Json → Option String
  | .str text => some text
  | _ => none

def texts? : Json → Option (List String)
  | .arr items => items.mapM text?
  | _ => none

def count? (json : Json) : Option UInt32 := do
  let number ← json.number?
  if number.den = 1 ∧ 0 < number.num ∧ number.num < 2 ^ 32 then some (UInt32.ofNat number.num.toNat) else none

def scope? (text : String) : Option KeyScope :=
  if text = "global" then some .global else if text = "regional" then some .regional else none

def textAt (members : List (String × Json)) (name : String) : Option String := (get? members name).bind text?

def countAt (members : List (String × Json)) : Option UInt32 := (get? members "shard_count").bind count?

/-- The call of an operation; a region that is not given is empty, as is the list. -/
def call? (members : List (String × Json)) : Operation → Option Call
  | .hash => do
    let key ← textAt members "key"
    return .hash key
  | .shard => do
    let key ← textAt members "key"
    let shardCount ← countAt members
    return .shard key shardCount
  | .scope => do
    let orgId ← textAt members "org_id"
    let key ← textAt members "key"
    return .scope orgId key
  | .route => do
    let text ← textAt members "scope"
    let keyScope ← scope? text
    let key ← textAt members "key"
    let region ← text? ((get? members "region").getD (.str ""))
    let regions ← texts? ((get? members "regions").getD (.arr []))
    let shardCount ← countAt members
    return .route keyScope key region regions shardCount

def Call.operation : Call → Operation
  | .hash _ => .hash
  | .shard _ _ => .shard
  | .scope _ _ => .scope
  | .route _ _ _ _ _ => .route

def Call.run : Call → Checked Result
  | .hash key => .ok (.number (fnv1a key).toNat)
  | .shard key shardCount => do
    let shard ← shardFor key shardCount
    return .number shard.toNat
  | .scope orgId key => .ok (.text (orgScopedKey orgId key))
  | .route keyScope key region regions shardCount => do
    let shard ← routeShard keyScope key region regions shardCount
    return .number shard.toNat

def Call.model : Call → Py Result
  | .hash key => .ok (.number (Model.fnv1a key))
  | .shard key shardCount => do
    let shard ← Model.shardFor key shardCount.toNat
    return .number shard
  | .scope orgId key => .ok (.text (Model.orgScopedKey orgId key))
  | .route keyScope key region regions shardCount => do
    let shard ← Model.routeShard (scopeText keyScope) key region regions shardCount.toNat
    return .number shard

def Call.Counted : Call → Prop
  | .shard _ shardCount => 0 < shardCount.toNat
  | .route _ _ _ _ shardCount => 0 < shardCount.toNat
  | _ => True

def Call.Agrees : Call → Prop
  | .route keyScope key region regions shardCount => ModelAgreement.Agrees keyScope key region regions shardCount
  | _ => True

theorem text_eq_some_iff {value : Json} {text : String} : text? value = some text ↔ value = .str text := by
  cases value <;> simp [text?]

theorem textAt_eq_some_iff {name text : String} : textAt members name = some text ↔ get? members name = some (.str text) := by
  simp only [textAt, Option.bind_eq_some_iff, text_eq_some_iff, exists_eq_right]

theorem count_eq_some_iff {value : Json} {count : UInt32} :
    count? value = some count ↔ value.number? = some (count.toNat : ℚ) ∧ 0 < count.toNat := by
  simp only [count?, Option.bind_eq_bind, Option.bind_eq_some_iff]
  constructor
  · intro read
    obtain ⟨number, written, counted⟩ := read
    split at counted
    next ranged =>
      obtain ⟨whole, positive, bounded⟩ := ranged
      cases counted
      have size : (UInt32.ofNat number.num.toNat).toNat = number.num.toNat :=
        UInt32.toNat_ofNat_of_lt' (show number.num.toNat < 2 ^ 32 by omega)
      have value : (number.num.toNat : ℚ) = number := by
        calc (number.num.toNat : ℚ) = ((number.num.toNat : ℤ) : ℚ) := (Int.cast_natCast _).symm
          _ = (number.num : ℚ) := by rw [Int.toNat_of_nonneg positive.le]
          _ = number := (Rat.den_eq_one_iff number).mp whole
      rw [written, size, value]
      exact ⟨rfl, by omega⟩
    next => cases counted
  · intro condition
    obtain ⟨written, positive⟩ := condition
    refine ⟨_, written, ?_⟩
    have bounded := count.toNat_lt
    rw [if_pos ⟨Rat.den_natCast _, by simpa using positive, by simpa using by exact_mod_cast bounded⟩]
    simp

theorem countAt_eq_some_iff {count : UInt32} :
    countAt members = some count ↔
      ∃ value, get? members "shard_count" = some value ∧ value.number? = some (count.toNat : ℚ) ∧ 0 < count.toNat := by
  simp only [countAt, Option.bind_eq_some_iff, count_eq_some_iff]

theorem mapM_text_eq_some_iff {items : List Json} {texts : List String} : items.mapM text? = some texts ↔ items = texts.map .str := by
  induction items generalizing texts with
  | nil => cases texts <;> simp
  | cons item rest ih =>
    simp only [List.mapM_cons, Option.bind_eq_bind, Option.bind_eq_some_iff, Option.pure_def, Option.some.injEq, ih]
    constructor
    · intro read
      obtain ⟨text, first, others, rfl, rfl⟩ := read
      cases item <;> simp_all [text?]
    · intro same
      cases texts with
      | nil => cases same
      | cons text others =>
        obtain ⟨rfl, rfl⟩ := List.cons.inj same
        exact ⟨text, rfl, others, rfl, rfl⟩

theorem texts_eq_some_iff {value : Json} {texts : List String} : texts? value = some texts ↔ value = .arr (texts.map .str) := by
  cases value <;> simp [texts?, mapM_text_eq_some_iff]

theorem scope_eq_some_iff {text : String} {scope : KeyScope} : scope? text = some scope ↔ text = scopeText scope := by
  unfold scope?
  cases scope with
  | global => by_cases global : text = "global" <;> simp [scopeText, global]
  | regional =>
    by_cases global : text = "global"
    · simp [scopeText, global]
    · by_cases regional : text = "regional" <;> simp [scopeText, global, regional]

theorem int_of_countAt (repr : Json → String) {count : UInt32} (counted : countAt members = some count) :
    ∃ value, get? members "shard_count" = some value ∧ int repr value = .ok (count.toNat : Int) := by
  obtain ⟨value, found, number, positive⟩ := countAt_eq_some_iff.mp counted
  have bounded := count.toNat_lt
  exact ⟨value, found, int_of_number repr number positive (by omega)⟩

/-- On the members that spell a call, the coercions of the adapter change nothing. -/
theorem answerFor_of_call {operation : Operation} {call : Call} (spelled : call? members operation = some call) :
    answerFor repr members operation = call.model := by
  cases operation with
  | hash =>
    simp only [call?, Option.bind_eq_bind, Option.bind_eq_some_iff, Option.pure_def, Option.some.injEq] at spelled
    obtain ⟨key, keyed, rfl⟩ := spelled
    simp only [answerFor, answerHash, item_ok_iff.mpr (textAt_eq_some_iff.mp keyed)]
    rfl
  | shard =>
    simp only [call?, Option.bind_eq_bind, Option.bind_eq_some_iff, Option.pure_def, Option.some.injEq] at spelled
    obtain ⟨key, keyed, count, counted, rfl⟩ := spelled
    obtain ⟨value, found, converted⟩ := int_of_countAt repr counted
    simp only [answerFor, answerShard, item_ok_iff.mpr (textAt_eq_some_iff.mp keyed), item_ok_iff.mpr found, bind, Except.bind,
      converted]
    rfl
  | scope =>
    simp only [call?, Option.bind_eq_bind, Option.bind_eq_some_iff, Option.pure_def, Option.some.injEq] at spelled
    obtain ⟨orgId, organization, key, keyed, rfl⟩ := spelled
    simp only [answerFor, answerScope, item_ok_iff.mpr (textAt_eq_some_iff.mp keyed), item_ok_iff.mpr (textAt_eq_some_iff.mp organization)]
    rfl
  | route =>
    simp only [call?, Option.bind_eq_bind, Option.bind_eq_some_iff, Option.pure_def, Option.some.injEq] at spelled
    obtain ⟨text, named, keyScope, known, key, keyed, region, placed, regions, listed, count, counted, rfl⟩ := spelled
    obtain ⟨value, found, converted⟩ := int_of_countAt repr counted
    have visited : (regions.map Json.str).map (str repr) = regions := by
      rw [List.map_map]
      exact List.map_id regions
    simp only [answerFor, answerRoute, item_ok_iff.mpr (textAt_eq_some_iff.mp named), item_ok_iff.mpr (textAt_eq_some_iff.mp keyed),
      item_ok_iff.mpr found, texts_eq_some_iff.mp listed, text_eq_some_iff.mp placed, iterate, bind, Except.bind, converted, visited]
    rw [scope_eq_some_iff.mp known]
    rfl

theorem operation_of_call {operation : Operation} {call : Call} (spelled : call? members operation = some call) :
    call.operation = operation := by
  cases operation <;>
    (simp only [call?, Option.bind_eq_bind, Option.bind_eq_some_iff, Option.pure_def, Option.some.injEq] at spelled
     grind [Call.operation])

theorem count_positive {operation : Operation} {call : Call} (spelled : call? members operation = some call) : call.Counted := by
  have positive {count : UInt32} (counted : countAt members = some count) : 0 < count.toNat := by
    obtain ⟨_, _, _, positive⟩ := countAt_eq_some_iff.mp counted
    exact positive
  cases operation with
  | hash | scope =>
    simp only [call?, Option.bind_eq_bind, Option.bind_eq_some_iff, Option.pure_def, Option.some.injEq] at spelled
    grind [Call.Counted]
  | shard =>
    simp only [call?, Option.bind_eq_bind, Option.bind_eq_some_iff, Option.pure_def, Option.some.injEq] at spelled
    obtain ⟨_, _, _, counted, rfl⟩ := spelled
    exact positive counted
  | route =>
    simp only [call?, Option.bind_eq_bind, Option.bind_eq_some_iff, Option.pure_def, Option.some.injEq] at spelled
    obtain ⟨_, _, _, _, _, _, _, _, _, _, _, counted, rfl⟩ := spelled
    exact positive counted

theorem model_run_iff {call : Call} (counted : call.Counted) : (∃ result, call.run = .ok result ∧ call.model = .ok result) ↔ call.Agrees := by
  cases call with
  | hash key =>
    refine iff_of_true ⟨_, rfl, ?_⟩ trivial
    rw [Call.model, model_fnv1a]
  | shard key shardCount =>
    obtain ⟨shard, returned, value⟩ := shardFor_returns counted key
    refine iff_of_true ⟨.number shard.toNat, ?_, ?_⟩ trivial
    · rw [Call.run, returned]
      rfl
    · rw [Call.model, model_shardFor counted, ← value]
      rfl
  | scope orgId key => exact iff_of_true ⟨_, rfl, rfl⟩ trivial
  | route keyScope key region regions shardCount =>
    simp only [Call.run, Call.model, bind_eq_ok_iff, pure_eq_ok_iff, Call.Agrees, ModelAgreement.Agrees]
    constructor
    · intro both
      obtain ⟨_, ⟨shard, returned, rfl⟩, other, modelled, same⟩ := both
      cases same
      exact ⟨shard, returned, modelled⟩
    · intro agrees
      obtain ⟨shard, returned, modelled⟩ := agrees
      exact ⟨_, ⟨shard, returned, rfl⟩, _, modelled, rfl⟩

theorem exists_text {properties : List (String × Schema)} {required : List String}
    (valid : (Schema.object properties required).validates (.obj members) = true) {name : String} (needed : name ∈ required)
    (declared : properties.lookup name = some .string) : ∃ text, textAt members name = some text := by
  obtain ⟨value, found⟩ := member_present valid needed
  obtain ⟨text, rfl⟩ := validates_string_iff.mp (member_of_declared valid declared found)
  exact ⟨text, textAt_eq_some_iff.mpr found⟩

theorem exists_count {properties : List (String × Schema)} {required : List String}
    (valid : (Schema.object properties required).validates (.obj members) = true) (needed : "shard_count" ∈ required)
    (declared : properties.lookup "shard_count" = some int32) (counts : CountsShards (.obj members)) :
    ∃ count, countAt members = some count := by
  obtain ⟨value, found⟩ := member_present valid needed
  obtain ⟨number, denotes, _, upper⟩ := validates_integer_iff.mp (member_of_declared valid declared found)
  have positive : 1 ≤ number := by exact_mod_cast (countsShards_iff found).mp counts number denotes
  obtain ⟨total, rfl⟩ := Int.eq_ofNat_of_zero_le (show 0 ≤ number by omega)
  have size : (UInt32.ofNat total).toNat = total := UInt32.toNat_ofNat_of_lt' (show total < 2 ^ 32 by omega)
  refine ⟨UInt32.ofNat total, countAt_eq_some_iff.mpr ⟨value, found, ?_, ?_⟩⟩
  · rw [size, denotes, Int.cast_natCast]
  · omega

/-- Every counted request of the contract spells a call. -/
theorem exists_call {operation : Operation} (valid : operation.request.validates (.obj members) = true)
    (counts : CountsShards (.obj members)) : ∃ call, call? members operation = some call := by
  cases operation with
  | hash =>
    obtain ⟨key, keyed⟩ := exists_text valid (show "key" ∈ _ by simp) rfl
    exact ⟨_, by simp only [call?, keyed]; rfl⟩
  | shard =>
    obtain ⟨key, keyed⟩ := exists_text valid (show "key" ∈ _ by simp) rfl
    obtain ⟨count, counted⟩ := exists_count valid (by simp) rfl counts
    exact ⟨_, by simp only [call?, keyed, counted]; rfl⟩
  | scope =>
    obtain ⟨orgId, organization⟩ := exists_text valid (show "org_id" ∈ _ by simp) rfl
    obtain ⟨key, keyed⟩ := exists_text valid (show "key" ∈ _ by simp) rfl
    exact ⟨_, by simp only [call?, organization, keyed]; rfl⟩
  | route =>
    obtain ⟨value, found⟩ := member_present valid (show "scope" ∈ _ by simp)
    obtain ⟨text, member, rfl⟩ := validates_enum_iff.mp (member_of_declared valid rfl found)
    have named := textAt_eq_some_iff.mpr found
    obtain ⟨keyScope, known⟩ : ∃ keyScope, scope? text = some keyScope := by
      simp only [List.mem_cons, List.not_mem_nil, or_false] at member
      rcases member with rfl | rfl
      · exact ⟨.global, rfl⟩
      · exact ⟨.regional, rfl⟩
    obtain ⟨key, keyed⟩ := exists_text valid (show "key" ∈ _ by simp) rfl
    obtain ⟨region, placed⟩ : ∃ region, text? ((get? members "region").getD (.str "")) = some region := by
      cases given : get? members "region" with
      | none => exact ⟨"", rfl⟩
      | some value =>
        obtain ⟨region, rfl⟩ := validates_string_iff.mp (member_of_declared valid rfl given)
        exact ⟨region, rfl⟩
    obtain ⟨regions, listed⟩ : ∃ regions, texts? ((get? members "regions").getD (.arr [])) = some regions := by
      cases given : get? members "regions" with
      | none => exact ⟨[], rfl⟩
      | some value =>
        obtain ⟨items, rfl, strings⟩ := validates_array_iff.mp (member_of_declared valid rfl given)
        have written : items ∈ Set.range (List.map Json.str) := by
          rw [Set.range_list_map]
          intro item member
          obtain ⟨text, rfl⟩ := validates_string_iff.mp (strings item member)
          exact ⟨text, rfl⟩
        obtain ⟨regions, rfl⟩ := written
        exact ⟨regions, texts_eq_some_iff.mpr rfl⟩
    obtain ⟨count, counted⟩ := exists_count valid (by simp) rfl counts
    exact ⟨_, by simp only [call?, named, keyed, placed, listed, counted, Option.bind_eq_bind, Option.bind_some, known]; rfl⟩

def Spells (line : Line) (call : Call) : Prop :=
  ∃ operation members, line = .value (.obj members) ∧ get? members "op" = some (.str (Operation.name operation)) ∧
    call? members operation = some call

theorem Spells.unique {line : Line} {first second : Call} (left : Spells line first) (right : Spells line second) : first = second := by
  obtain ⟨operation, members, rfl, named, spelled⟩ := left
  obtain ⟨other, _, same, op, read⟩ := right
  cases same
  rw [named, Option.some.injEq, Json.str.injEq] at op
  cases name_injective op
  exact Option.some.inj (spelled.symm.trans read)

theorem Spells.speaks {line : Line} {call : Call} (spells : Spells line call) : speaks line = true := by
  obtain ⟨_, _, rfl, _⟩ := spells
  rfl

theorem Spells.counted {line : Line} {call : Call} (spells : Spells line call) : call.Counted := by
  obtain ⟨_, _, _, _, spelled⟩ := spells
  exact count_positive spelled

/-- The record gives what the crate returns to the call on its line. -/
def Served (entry : Line × ℕ) (record : Record) : Prop :=
  ∃ call result, Spells entry.1 call ∧ call.run = .ok result ∧ record = { line := entry.2, op := call.operation.name, result }

theorem process_served_iff {entry : Line × ℕ} {record : Record} (valid : ContractLine entry.1)
    (processed : process repr entry.2 entry.1 = .ok (some record)) :
    Served entry record ↔ ∀ call, Spells entry.1 call → call.Agrees := by
  obtain ⟨line, number⟩ := entry
  obtain ⟨operation, members, result, rfl, object, counts, named, run, rfl⟩ := process_valid valid processed
  obtain ⟨call, spelled⟩ := exists_call object counts
  have spells : Spells (.value (.obj members)) call := ⟨operation, members, rfl, named, spelled⟩
  rw [answerFor_of_call spelled] at run
  have decided := model_run_iff (count_positive spelled)
  constructor
  · intro served other spelledOther
    obtain ⟨own, output, spellsOwn, returned, same⟩ := served
    cases spells.unique spelledOther
    cases spells.unique spellsOwn
    cases congrArg Record.result same
    exact decided.mp ⟨_, returned, run⟩
  · intro agree
    obtain ⟨output, returned, modelled⟩ := decided.mpr (agree call spells)
    cases run.symm.trans modelled
    exact ⟨call, result, spells, returned, by rw [operation_of_call spelled]⟩

/-- Both comparisons of an ASCII candidate lower the capitals, and both trimmings stop
at the same ASCII characters but for the four separators. -/
theorem crateNames_ascii {region candidate : String} (plain : Text.isAscii region = true) (listed : Text.isAscii candidate = true)
    (clear : ∀ c ∈ region.toList, ¬ (0x1C ≤ c.toNat ∧ c.toNat ≤ 0x1F)) :
    crateNames region candidate = modelNames region candidate := by
  have classes : ∀ c ∈ region.toList, isspace c = Text.isWhiteSpace c := by
    intro c member
    have other : ((0x1C ≤ c.toNat : Bool) && (c.toNat ≤ 0x1F : Bool)) = false := by simpa using clear c member
    rw [isspace, other, Bool.or_false]
  have trimmed : Text.isAscii (Text.trim region) = true :=
    Text.isAscii_iff.mpr (fun c member => Text.isAscii_iff.mp plain c (Text.mem_of_mem_trimWhere member))
  have stripped : strip region = Text.trim region := Text.trimWhere_congr classes
  rw [crateNames, modelNames, stripped]
  simp only [casefold, CaseFolding.casefold_ascii trimmed, CaseFolding.casefold_ascii listed]
  rfl

/-- Names of regions that both read alike. -/
structure Plain (region : String) (regions : List String) : Prop where
  ascii : Text.isAscii region = true
  clear : ∀ c ∈ region.toList, ¬ (0x1C ≤ c.toNat ∧ c.toNat ≤ 0x1F)
  listed : ∀ candidate ∈ regions, Text.isAscii candidate = true
  few : regions.length < 2 ^ 32

theorem Plain.agrees {region : String} {regions : List String} (plain : Plain region regions) {shardCount : UInt32}
    (positive : 0 < shardCount.toNat) (keyScope : KeyScope) (key : String) :
    ModelAgreement.Agrees keyScope key region regions shardCount := by
  obtain ⟨shard, returned, value⟩ := shardFor_returns positive key
  have global : ModelAgreement.Agrees .global key region regions shardCount :=
    ⟨shard, returned, by rw [value]; exact model_shardFor positive key⟩
  cases keyScope with
  | global => exact global
  | regional =>
    have counted : regions.length % 2 ^ 32 = regions.length := Nat.mod_eq_of_lt plain.few
    by_cases guarded : regions = [] ∨ shardCount.toNat < regions.length
    · refine ⟨shard, ?_, ?_⟩
      · rw [Totality.routeShard_fallback (by rwa [counted])]
        exact returned
      · rw [value]
        exact model_fallback positive guarded key region
    · obtain ⟨listed, covers⟩ := not_or.mp guarded
      have named : regions.findIdx? (crateNames region) = regions.findIdx? (modelNames region) :=
        FirstMatch.findIdx?_congr (fun candidate member => crateNames_ascii plain.ascii (plain.listed candidate member) plain.clear)
      exact (banded_agrees_iff listed plain.few (Nat.le_of_not_lt covers) key region).mpr (by rw [named])

theorem Call.agrees_of_plain {call : Call} (counted : call.Counted)
    (plain : ∀ keyScope key region regions shardCount, call = .route keyScope key region regions shardCount → Plain region regions) :
    call.Agrees := by
  cases call with
  | hash | shard | scope => trivial
  | route keyScope key region regions shardCount => exact (plain _ _ _ _ _ rfl).agrees counted keyScope key

/-- On a stream of counted requests of the contract the adapter completes. Its records
are the crate's answers exactly when the two agree on every route of the stream, and so
whenever the routes name their regions in plain ASCII. -/
theorem replay_serves_crate_iff (repr : Json → String) {lines : List Line}
    (valid : ∀ line ∈ lines,
      line = .blank ∨ ∃ request, line = .value request ∧ ValidRequest request ∧ CountsShards request) :
    ∃ records, replay repr lines = .ok records ∧
      (List.Forall₂ Served ((lines.zipIdx 1).filter (fun entry => speaks entry.1)) records ↔
        ∀ line ∈ lines, ∀ call, Spells line call → call.Agrees) ∧
      ((∀ line ∈ lines, ∀ keyScope key region regions shardCount,
          Spells line (.route keyScope key region regions shardCount) → Plain region regions) →
        List.Forall₂ Served ((lines.zipIdx 1).filter (fun entry => speaks entry.1)) records) := by
  obtain ⟨records, returned⟩ := replay_completes_of_valid repr valid
  have pairs := (replay_ok_iff.mp returned).forall₂ (fun _ _ _ => process_speaks)
  have decided : List.Forall₂ Served ((lines.zipIdx 1).filter (fun entry => speaks entry.1)) records ↔
      ∀ entry ∈ (lines.zipIdx 1).filter (fun entry => speaks entry.1), ∀ call, Spells entry.1 call → call.Agrees := by
    apply Batch.forall₂_iff_forall pairs
    intro entry member record processed
    exact process_served_iff (valid entry.1 (List.fst_mem_of_mem_zipIdx (List.mem_filter.mp member).1)) processed
  refine ⟨records, returned, ?_, ?_⟩
  · rw [decided]
    constructor
    · intro agree line member call spells
      obtain ⟨number, entry⟩ := Batch.exists_number_of_mem 1 member
      exact agree (line, number) (List.mem_filter.mpr ⟨entry, spells.speaks⟩) call spells
    · intro agree entry member
      exact agree entry.1 (List.fst_mem_of_mem_zipIdx (List.mem_filter.mp member).1)
  · intro plain
    refine decided.mpr ?_
    intro entry member call spells
    refine Call.agrees_of_plain spells.counted ?_
    intro keyScope key region regions shardCount same
    subst same
    exact plain entry.1 (List.fst_mem_of_mem_zipIdx (List.mem_filter.mp member).1) _ _ _ _ _ spells

def routeLine : Line :=
  .value (.obj [("op", .str "route"), ("scope", .str "regional"), ("key", .str "orders/42"), ("region", .str " AWS "),
    ("regions", .arr [.str "gcp", .str "aws"]), ("shard_count", .int 16)])

theorem replay_serves_crate_iff_aws :
    ∃ records, replay (fun _ => "") [.blank, routeLine] = .ok records ∧ List.Forall₂ Served [(routeLine, 2)] records := by
  have valid : ∀ line ∈ [.blank, routeLine],
      line = .blank ∨ ∃ request, line = .value request ∧ ValidRequest request ∧ CountsShards request := by
    intro line member
    simp only [List.mem_cons, List.not_mem_nil, or_false] at member
    rcases member with blank | route
    · exact Or.inl blank
    · refine Or.inr ⟨_, route, ⟨.route, by decide⟩, ?_⟩
      intro _ value number same found written
      cases same
      cases found
      cases written
      norm_num
  obtain ⟨records, returned, _, served⟩ := replay_serves_crate_iff (fun _ => "") valid
  refine ⟨records, returned, served ?_⟩
  intro line member keyScope key region regions shardCount spells
  simp only [List.mem_cons, List.not_mem_nil, or_false] at member
  rcases member with rfl | rfl
  · cases spells.speaks
  · have own : Spells routeLine (.route .regional "orders/42" " AWS " ["gcp", "aws"] 16) := ⟨.route, _, rfl, rfl, by decide⟩
    have clear : ∀ c ∈ " AWS ".toList, ¬ (0x1C ≤ c.toNat ∧ c.toNat ≤ 0x1F) := by
      intro c member
      rw [show " AWS ".toList = [' ', 'A', 'W', 'S', ' '] from String.toList_ofList] at member
      simp only [List.mem_cons, List.not_mem_nil, or_false] at member
      rcases member with rfl | rfl | rfl | rfl | rfl <;> decide
    cases spells.unique own
    exact ⟨by decide, clear, by decide, by decide⟩

end FiduciaRouting.Proofs.ReplayRefinement
