import FiduciaRouting.Proofs.Reachability
import FiduciaRouting.Proofs.ReplayAcceptance

/-! Conformance of the emitted records. Placements stay below the declared shard
count, and so inside the declared integers; a hash ranges over all 32-bit words,
so every hash request has keys that lead out of them. -/

namespace FiduciaRouting.Proofs.ReplayConformance
open Library Json Python Contract Replay ModelRouting ReplayAnswers ContractRequests ReplayAcceptance

variable {repr : Json → String} {members : List (String × Json)}

def Conforms (record : Record) : Prop :=
  ∃ operation : Operation, record.op = operation.name ∧ operation.result.validates record.toJson = true

def asksHash : Line → Bool
  | .value request => hashRequest.validates request
  | _ => false

/-- A hash request may be any other one, for whatever key; every other line stays as
it is. -/
def Rekeyed (line other : Line) : Prop := other = line ∨ asksHash line = true ∧ asksHash other = true

def hashLine (key : String) : Line := .value (.obj [("op", .str "hash"), ("key", .str key)])

def rekey (key : String) (line : Line) : Line := if asksHash line then hashLine key else line

def payload : Operation → Schema
  | .scope => .string
  | _ => int32

theorem result_eq_envelope (operation : Operation) : operation.result = envelope operation.name (payload operation) := by
  cases operation <;> rfl

theorem validates_int32_iff {value : Int} :
    int32.validates (.int value) = true ↔ -2147483648 ≤ value ∧ value ≤ 2147483647 := by
  simp only [int32, validates_integer_iff, Json.number?, Option.some.injEq, Int.cast_inj, exists_eq_left']

theorem validates_envelope_iff {op : String} {schema : Schema} {record : Record} :
    (envelope op schema).validates record.toJson = true ↔
      int32.validates (.int record.line) = true ∧ record.op = op ∧ schema.validates record.result.toJson = true ∧
        int32.validates (.int record.schemaVersion) = true := by
  simp [envelope, Record.toJson, Schema.validates, Schema.admits, get?, List.lookup_cons]

theorem conforms_iff {operation : Operation} {lineNumber : ℕ} {result : Result} (early : lineNumber < 2 ^ 31) :
    Conforms { line := lineNumber, op := operation.name, result } ↔
      (payload operation).validates result.toJson = true := by
  have line : int32.validates (.int lineNumber) = true := validates_int32_iff.mpr (by omega)
  have version : int32.validates (.int 1) = true := validates_int32_iff.mpr (by omega)
  constructor
  · intro conforms
    obtain ⟨other, named, valid⟩ := conforms
    cases name_injective named
    rw [result_eq_envelope, validates_envelope_iff] at valid
    exact valid.2.2.1
  · intro valid
    refine ⟨operation, rfl, ?_⟩
    rw [result_eq_envelope, validates_envelope_iff]
    exact ⟨line, rfl, valid, version⟩

/-- Conversion does not lead out of the declared range upwards. -/
theorem count_le {value : Json} {count : Int} (ranged : int32.validates value = true)
    (converted : int repr value = .ok count) : count ≤ 2147483647 := by
  obtain ⟨number, denotes, _, upper⟩ := validates_integer_iff.mp ranged
  by_cases positive : 0 < number
  · obtain ⟨total, rfl⟩ := Int.eq_ofNat_of_zero_le (Int.le_of_lt positive)
    have written : value.number? = some (total : ℚ) := by simpa using denotes
    have same := int_of_number repr written (by omega) (by omega)
    cases same.symm.trans converted
    exact upper
  · have nonpositive : (number : ℚ) ≤ 0 := by exact_mod_cast not_lt.mp positive
    have bound := int_nonpos denotes nonpositive converted
    omega

theorem payload_valid {operation : Operation} (valid : operation.request.validates (.obj members) = true)
    (other : operation ≠ .hash) {result : Result} (run : answerFor repr members operation = .ok result) :
    (payload operation).validates result.toJson = true := by
  cases operation with
  | hash => exact False.elim (other rfl)
  | scope =>
    obtain ⟨orgId, _, key, _, rfl⟩ := answerScope_ok_iff.mp run
    exact validates_string_iff.mpr ⟨_, rfl⟩
  | shard =>
    obtain ⟨key, _, value, found, count, converted, shard, reduced, rfl⟩ := answerShard_ok_iff.mp run
    have bound := count_le (member_of_declared valid rfl found) converted
    have range := model_shardFor_range reduced
    exact validates_int32_iff.mpr (by omega)
  | route =>
    obtain ⟨_, _, key, _, _, _, value, found, count, converted, shard, routed, rfl⟩ := answerRoute_ok_iff.mp run
    have bound := count_le (member_of_declared valid rfl found) converted
    have range := (model_routeShard_ok routed).2
    exact validates_int32_iff.mpr (by omega)

theorem process_op_iff {lineNumber : ℕ} {line : Line} {record : Record} (valid : ContractLine line)
    (processed : process repr lineNumber line = .ok (some record)) : record.op = "hash" ↔ asksHash line = true := by
  obtain ⟨operation, members, result, rfl, object, _, named, _, rfl⟩ := process_valid valid processed
  constructor
  · intro hash
    have same : operation.name = Operation.hash.name := hash
    cases name_injective same
    exact object
  · intro asks
    have own : Operation.hash.request.validates (.obj members) = true := asks
    rw [operation_unique own named]
    rfl

/-- A placement or a scoped key is in the declared range. -/
theorem process_conforms {lineNumber : ℕ} {line : Line} {record : Record} (early : lineNumber < 2 ^ 31)
    (valid : ContractLine line) (processed : process repr lineNumber line = .ok (some record)) (other : record.op ≠ "hash") : Conforms record := by
  obtain ⟨operation, members, result, rfl, object, _, _, run, rfl⟩ := process_valid valid processed
  refine (conforms_iff early).mpr (payload_valid object ?_ run)
  rintro rfl
  exact other rfl

theorem asksHash_hashLine (key : String) : asksHash (hashLine key) = true := by
  simp [asksHash, hashLine, hashRequest, Schema.validates, Schema.admits, get?, List.lookup_cons]

theorem contractLine_of_asksHash {line : Line} (asks : asksHash line = true) : ContractLine line := by
  cases line with
  | blank | refused => cases asks
  | value request =>
    have own : Operation.hash.request.validates request = true := asks
    obtain ⟨members, rfl, _⟩ := valid_request own
    exact Or.inr ⟨_, rfl, ⟨.hash, own⟩, countsShards_of_undeclared own rfl⟩

theorem process_hashLine (lineNumber : ℕ) (key : String) :
    process repr lineNumber (hashLine key) =
      .ok (some { line := lineNumber, op := "hash", result := .number (fnv1a key).toNat }) := by
  rw [← Placement.model_fnv1a]
  rfl

/-- A hash with its upper bit set is not an integer of the contract. -/
theorem exists_breaking_key :
    ∃ key, ∀ lineNumber < 2 ^ 31, ¬ Conforms { line := lineNumber, op := "hash", result := .number (fnv1a key).toNat } := by
  obtain ⟨key, hashed⟩ := Reachability.exists_key 0x80000000
  refine ⟨key, ?_⟩
  intro lineNumber early conforms
  have decided : Conforms { line := lineNumber, op := Operation.hash.name, result := .number (fnv1a key).toNat } ↔
      (payload .hash).validates (.int (fnv1a key).toNat) = true := conforms_iff early
  have range := validates_int32_iff.mp (decided.mp conforms)
  rw [hashed] at range
  exact absurd range.2 (by decide)

section Streams

variable {lines : List Line}

theorem early_of_short (short : lines.length < 2 ^ 31) : ∀ entry ∈ lines.zipIdx 1, entry.2 < 2 ^ 31 := by
  intro entry member
  have bound := (List.mem_zipIdx member).2.1
  omega

theorem others_conform (short : lines.length < 2 ^ 31) (valid : ∀ line ∈ lines, ContractLine line) {records : List Record}
    (returned : replay repr lines = .ok records) : ∀ record ∈ records, record.op ≠ "hash" → Conforms record := by
  intro record emitted other
  obtain ⟨entry, member, processed⟩ := (replay_ok_iff.mp returned).of_mem emitted
  exact process_conforms (early_of_short short entry member) (valid _ (List.fst_mem_of_mem_zipIdx member)) processed other

theorem no_hash_of_quiet (quiet : ∀ line ∈ lines, asksHash line = false) (valid : ∀ line ∈ lines, ContractLine line)
    {records : List Record} (returned : replay repr lines = .ok records) : ∀ record ∈ records, record.op ≠ "hash" := by
  intro record emitted hash
  obtain ⟨entry, member, processed⟩ := (replay_ok_iff.mp returned).of_mem emitted
  have line := List.fst_mem_of_mem_zipIdx member
  have asks := (process_op_iff (valid _ line) processed).mp hash
  rw [quiet _ line] at asks
  cases asks

theorem rekeyed_rekey (key : String) (line : Line) : Rekeyed line (rekey key line) := by
  unfold rekey
  split
  next asks => exact Or.inr ⟨asks, asksHash_hashLine key⟩
  next => exact Or.inl rfl

theorem Rekeyed.contractLine {line other : Line} (rekeyed : Rekeyed line other) (valid : ContractLine line) :
    ContractLine other := by
  rcases rekeyed with same | ⟨_, asks⟩
  · rwa [same]
  · exact contractLine_of_asksHash asks

/-- A stream without hash requests leaves no key to choose. -/
theorem eq_of_rekeyed {others : List Line} (rekeyed : List.Forall₂ Rekeyed lines others)
    (quiet : ∀ line ∈ lines, asksHash line = false) : others = lines := by
  induction rekeyed with
  | nil => rfl
  | cons first _ ih =>
    obtain ⟨head, rest⟩ := List.forall_mem_cons.mp quiet
    rw [ih rest]
    rcases first with same | ⟨asks, _⟩
    · rw [same]
    · rw [head] at asks
      cases asks

/-- One hash request is enough: under the breaking key its record does not conform. -/
theorem exists_breaking_stream (repr : Json → String) (short : lines.length < 2 ^ 31)
    (valid : ∀ line ∈ lines, ContractLine line) {line : Line} (member : line ∈ lines) (asks : asksHash line = true) :
    ∃ others records, List.Forall₂ Rekeyed lines others ∧ replay repr others = .ok records ∧
      ∃ record ∈ records, ¬ Conforms record := by
  obtain ⟨key, breaks⟩ := exists_breaking_key
  have changed : rekey key line = hashLine key := if_pos asks
  have rekeyed : List.Forall₂ Rekeyed lines (lines.map (rekey key)) := by
    rw [List.forall₂_map_right_iff, List.forall₂_same]
    exact fun own _ => rekeyed_rekey key own
  have requests : ∀ other ∈ lines.map (rekey key), ContractLine other := by
    intro other inside
    obtain ⟨own, ownMember, rfl⟩ := List.mem_map.mp inside
    exact (rekeyed_rekey key own).contractLine (valid own ownMember)
  obtain ⟨records, returned⟩ := replay_completes_of_valid repr requests
  have asked : hashLine key ∈ lines.map (rekey key) := List.mem_map.mpr ⟨line, member, changed⟩
  obtain ⟨number, entry⟩ := Batch.exists_number_of_mem 1 asked
  have early : number < 2 ^ 31 := early_of_short (by rwa [List.length_map]) _ entry
  exact ⟨_, records, rekeyed, returned, _, (replay_ok_iff.mp returned).mem_of_produced entry (process_hashLine number key),
    breaks number early⟩

/-- On a stream of counted requests of the contract the adapter completes, and what
it answers to the other operations conforms. Its answers conform whatever keys are to
be hashed exactly when none is. -/
theorem replay_conforms_iff (repr : Json → String) (short : lines.length < 2 ^ 31)
    (valid : ∀ line ∈ lines,
      line = .blank ∨ ∃ request, line = .value request ∧ ValidRequest request ∧ CountsShards request) :
    (∃ records, replay repr lines = .ok records) ∧
    (∀ records, replay repr lines = .ok records → ∀ record ∈ records, record.op ≠ "hash" → Conforms record) ∧
    ((∀ others, List.Forall₂ Rekeyed lines others → ∀ records, replay repr others = .ok records →
        ∀ record ∈ records, Conforms record) ↔
      ∀ line ∈ lines, asksHash line = false) := by
  refine ⟨replay_completes_of_valid repr valid, fun _ returned => others_conform short valid returned, ?_⟩
  constructor
  · intro conform line member
    by_contra asks
    obtain ⟨others, records, rekeyed, returned, record, emitted, breaks⟩ :=
      exists_breaking_stream repr short valid member (by simpa using asks)
    exact breaks (conform others rekeyed records returned record emitted)
  · intro quiet others rekeyed records returned record emitted
    rw [eq_of_rekeyed rekeyed quiet] at returned
    exact others_conform short valid returned record emitted (no_hash_of_quiet quiet valid returned record emitted)

theorem replay_conforms_iff_shard :
    [Line.blank, .value (.obj [("op", .str "shard"), ("key", .str "a"), ("shard_count", .int 16)])].length < 2 ^ 31 ∧
      ∀ records, replay (fun _ => "") [.blank, .value (.obj [("op", .str "shard"), ("key", .str "a"), ("shard_count", .int 16)])] =
        .ok records → ∀ record ∈ records, Conforms record := by
  have valid : ∀ line ∈ [Line.blank, .value (.obj [("op", .str "shard"), ("key", .str "a"), ("shard_count", .int 16)])],
      line = .blank ∨ ∃ request, line = .value request ∧ ValidRequest request ∧ CountsShards request := by
    intro line member
    simp only [List.mem_cons, List.not_mem_nil, or_false] at member
    rcases member with blank | shard
    · exact Or.inl blank
    · refine Or.inr ⟨_, shard, ⟨.shard, by decide⟩, ?_⟩
      intro _ value number same found written
      cases same
      cases found
      cases written
      norm_num
  have conform := (replay_conforms_iff (fun _ => "") (by decide) valid).2.2.mpr (by decide)
  exact ⟨by decide, conform _ (List.forall₂_same.mpr fun _ _ => Or.inl rfl)⟩

end Streams

/-- The empty key is a valid request, and its hash is the offset basis. -/
theorem replay_breaks_contract_on_empty_key :
    ValidRequest (.obj [("op", .str "hash"), ("key", .str "")]) ∧
      replay (fun _ => "") [.value (.obj [("op", .str "hash"), ("key", .str "")])] =
        .ok [{ line := 1, op := "hash", result := .number 2166136261 }] ∧
      ¬ Conforms { line := 1, op := "hash", result := .number 2166136261 } := by
  refine ⟨⟨.hash, by decide⟩, by decide, ?_⟩
  intro conforms
  obtain ⟨operation, named, valid⟩ := conforms
  cases operation with
  | hash => revert valid; decide
  | shard | scope | route => revert named; decide

end FiduciaRouting.Proofs.ReplayConformance
