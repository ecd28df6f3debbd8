import FiduciaRouting.Library.Batch
import FiduciaRouting.Proofs.ContractRequests

/-! Acceptance of whole streams. The loop is a batch over numbered lines, so the
adapter completes when every line does on its own, and it answers each line that
is not blank under its own number. -/

namespace FiduciaRouting.Proofs.ReplayAcceptance
open Library Fallible Json Python Contract Replay ReplayAnswers ContractRequests

variable {repr : Json → String}

def process (repr : Json → String) (lineNumber : ℕ) : Line → Py (Option Record)
  | .blank => .ok none
  | .refused => .error .jsonDecodeError
  | .value request => do return some (← answer repr lineNumber request)

/-- A blank line, or a request of the contract with a positive shard count. -/
def ContractLine (line : Line) : Prop :=
  line = .blank ∨ ∃ request, line = .value request ∧ ValidRequest request ∧ CountsShards request

def speaks : Line → Bool
  | .blank => false
  | _ => true

theorem process_value_ok_iff {lineNumber : ℕ} {request : Json} {output? : Option Record} :
    process repr lineNumber (.value request) = .ok output? ↔
      ∃ record, answer repr lineNumber request = .ok record ∧ some record = output? := by
  simp only [process, bind_eq_ok_iff, pure_eq_ok_iff]

theorem process_speaks {lineNumber : ℕ} {line : Line} {output? : Option Record}
    (processed : process repr lineNumber line = .ok output?) : output?.isSome = speaks line := by
  cases line with
  | blank =>
    cases processed
    rfl
  | refused => cases processed
  | value request =>
    obtain ⟨record, _, same⟩ := process_value_ok_iff.mp processed
    rw [← same]
    rfl

/-- Whether a line stops the loop does not depend on its number. -/
theorem process_completes_iff {lineNumber : ℕ} {line : Line} :
    (∃ output?, process repr lineNumber line = .ok output?) ↔
      line = .blank ∨ ∃ request, line = .value request ∧ Accepted repr request := by
  cases line with
  | blank => exact iff_of_true ⟨none, rfl⟩ (Or.inl rfl)
  | refused => simp [process]
  | value request =>
    simp only [process_value_ok_iff, reduceCtorEq, false_or, Line.value.injEq, exists_eq_left']
    rw [← answer_completes_iff]
    constructor
    · intro processed
      obtain ⟨_, record, answered, _⟩ := processed
      exact ⟨record, answered⟩
    · intro answered
      obtain ⟨record, answered⟩ := answered
      exact ⟨some record, record, answered, rfl⟩

theorem process_record {lineNumber : ℕ} {line : Line} {record : Record}
    (processed : process repr lineNumber line = .ok (some record)) :
    ∃ request, line = .value request ∧ answer repr lineNumber request = .ok record := by
  cases line with
  | blank => cases processed
  | refused => cases processed
  | value request =>
    obtain ⟨_, answered, same⟩ := process_value_ok_iff.mp processed
    cases same
    exact ⟨request, rfl, answered⟩

/-- The record comes from the operation whose schema the request satisfies. -/
theorem process_valid {lineNumber : ℕ} {line : Line} {record : Record} (valid : ContractLine line)
    (processed : process repr lineNumber line = .ok (some record)) :
    ∃ operation members result, line = .value (.obj members) ∧ (Operation.request operation).validates (.obj members) = true ∧
      CountsShards (.obj members) ∧ get? members "op" = some (.str operation.name) ∧
      answerFor repr members operation = .ok result ∧ record = { line := lineNumber, op := operation.name, result } := by
  obtain ⟨request, rfl, answered⟩ := process_record processed
  obtain ⟨operation, members, result, rfl, named, run, rfl⟩ := answer_ok_iff.mp answered
  rcases valid with blank | request
  · cases blank
  · obtain ⟨_, same, ⟨declared, object⟩, counts⟩ := request
    cases same
    cases operation_unique object named
    exact ⟨operation, members, result, rfl, object, counts, named, run, rfl⟩

theorem replayFrom_eq_run (lineNumber : ℕ) (outputs : List Record) (lines : List Line) :
    replayFrom repr lineNumber outputs lines = Batch.run (process repr) lineNumber outputs lines := by
  induction lines generalizing lineNumber outputs with
  | nil => rfl
  | cons line rest ih =>
    cases line with
    | blank => exact ih (lineNumber + 1) outputs
    | refused => rfl
    | value request =>
      simp only [replayFrom, Batch.run, process]
      cases answer repr lineNumber request with
      | error raised => rfl
      | ok record => exact ih (lineNumber + 1) (outputs ++ [record])

/-- The manifest of the repository is the expected one. -/
theorem replay_eq_run (lines : List Line) : replay repr lines = Batch.run (process repr) 1 [] lines := by
  have manifest : replay repr lines = replayFrom repr 1 [] lines := by
    rw [replay, show loadManifest fmToml = .ok fmToml by decide]
    rfl
  rw [manifest, replayFrom_eq_run]

theorem replay_ok_iff {lines : List Line} {records : List Record} :
    replay repr lines = .ok records ↔ Batch.Completes (process repr) 1 lines records := by
  rw [replay_eq_run, Batch.run_eq_ok_iff]
  simp only [List.nil_append, exists_eq_left']

theorem replay_completes_iff {lines : List Line} :
    (∃ records, replay repr lines = .ok records) ↔
      ∀ line ∈ lines, line = .blank ∨ ∃ request, line = .value request ∧ Accepted repr request := by
  simp only [replay_ok_iff, Batch.exists_completes_iff, process_completes_iff]
  constructor
  · intro accepted line member
    obtain ⟨number, entry⟩ := Batch.exists_number_of_mem 1 member
    exact accepted _ entry
  · intro accepted entry member
    exact accepted _ (List.fst_mem_of_mem_zipIdx member)

theorem replay_completes_of_valid (repr : Json → String) {lines : List Line} (valid : ∀ line ∈ lines, ContractLine line) :
    ∃ records, replay repr lines = .ok records := by
  apply replay_completes_iff.mpr
  intro line member
  rcases valid line member with blank | request
  · exact Or.inl blank
  · obtain ⟨request, same, valid, counts⟩ := request
    exact Or.inr ⟨request, same, (accepted_iff_of_valid valid).mpr counts⟩

/-- A record tells the position of its line and the operation of its request. -/
def Reports (entry : Line × ℕ) (record : Record) : Prop :=
  record.line = entry.2 ∧ ∃ members, entry.1 = .value (.obj members) ∧ get? members "op" = some (.str record.op)

theorem reports_of_process {entry : Line × ℕ} {record : Record}
    (processed : process repr entry.2 entry.1 = .ok (some record)) : Reports entry record := by
  obtain ⟨request, same, answered⟩ := process_record processed
  obtain ⟨operation, members, result, object, named, _, rfl⟩ := answer_ok_iff.mp answered
  exact ⟨rfl, members, by rw [same, object], named⟩

/-- The adapter completes exactly on the streams of blank lines and accepted
requests; of the requests valid under the contract it accepts those with a
positive shard count; and it reports every line that is not blank, in order. -/
theorem replay_accepts_iff (repr : Json → String) (lines : List Line) :
    ((∃ records, replay repr lines = .ok records) ↔
      ∀ line ∈ lines, line = .blank ∨ ∃ request, line = .value request ∧ Accepted repr request) ∧
    (∀ request, ValidRequest request → (Accepted repr request ↔ CountsShards request)) ∧
    (∀ records, replay repr lines = .ok records →
      List.Forall₂ Reports ((lines.zipIdx 1).filter (fun entry => speaks entry.1)) records) := by
  refine ⟨replay_completes_iff, fun request valid => accepted_iff_of_valid valid, ?_⟩
  intro records returned
  have completes := replay_ok_iff.mp returned
  exact (completes.forall₂ (fun _ _ _ => process_speaks)).imp (fun _ _ => reports_of_process)

/-- An undeclared member is ignored, and a declared shard count can be refused. -/
theorem replay_differs_from_contract :
    ((∃ records, replay (fun _ => "") [.value (.obj [("op", .str "hash"), ("key", .str "a"), ("extra", .null)])] = .ok records) ∧
      ¬ ValidRequest (.obj [("op", .str "hash"), ("key", .str "a"), ("extra", .null)])) ∧
    (ValidRequest (.obj [("op", .str "shard"), ("key", .str "a"), ("shard_count", .int 0)]) ∧
      ¬ ∃ records, replay (fun _ => "") [.value (.obj [("op", .str "shard"), ("key", .str "a"), ("shard_count", .int 0)])] =
        .ok records) := by
  refine ⟨⟨⟨[{ line := 1, op := "hash", result := .number 3826002220 }], by decide⟩, ?_⟩, ?_, ?_⟩
  · intro valid
    obtain ⟨operation, valid⟩ := valid
    cases operation <;> revert valid <;> decide
  · exact ⟨.shard, by decide⟩
  · intro completed
    obtain ⟨records, returned⟩ := completed
    have raised : replay (fun _ => "") [.value (.obj [("op", .str "shard"), ("key", .str "a"), ("shard_count", .int 0)])] =
        .error (.valueError "shard_count must be > 0") := rfl
    cases raised.symm.trans returned

end FiduciaRouting.Proofs.ReplayAcceptance
