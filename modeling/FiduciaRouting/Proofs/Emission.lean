import FiduciaRouting.Emit
import FiduciaRouting.Library.Framing
import FiduciaRouting.Proofs.ReplayAcceptance

/-! The printed answers. A record is one line of printable ASCII whatever its texts
contain, and the lines give every record back. -/

namespace FiduciaRouting.Proofs.Emission
open Library Framing JsonText Python Replay Emit ModelRouting ReplayAnswers ReplayAcceptance

/-- A result with the comma after it: a number, or a text in quotes. -/
def resultCode (result : Result) : List Char := dumpsResult result ++ [',']

theorem quoted_ne_number (text : String) (value : Int) (left right : List Char) :
    encodeString text ++ [','] ++ left ≠ encodeInt value ++ [','] ++ right := by
  intro same
  have unquoted : '"' ∉ encodeInt value ++ [','] := by
    intro member
    rcases List.mem_append.mp member with inside | comma
    · exact not_mem_encodeInt rfl (by decide) value inside
    · cases List.mem_singleton.mp comma
  cases digits : encodeInt value ++ [','] with
  | nil => exact List.append_ne_nil_of_right_ne_nil _ (List.cons_ne_nil _ _) digits
  | cons first rest =>
    rw [digits] at same unquoted
    exact unquoted ((List.cons.inj same).1 ▸ List.mem_cons_self)

theorem results_delimited : SelfDelimiting resultCode := by
  intro first second left right same
  cases first with
  | number value =>
    cases second with
    | number other =>
      obtain ⟨rfl, rest⟩ := encodeInt_delimited rfl (by decide) same
      exact ⟨rfl, rest⟩
    | text other => exact False.elim (quoted_ne_number _ _ _ _ same.symm)
  | text value =>
    cases second with
    | number other => exact False.elim (quoted_ne_number _ _ _ _ same)
    | text other =>
      obtain ⟨rfl, rest⟩ := encodeString_delimited.followed [','] same
      exact ⟨rfl, rest⟩

/-- A line by its fields, between any texts that do not depend on them. -/
def lineCode (opening op result version : List Char) (fields : Int × String × Result × Int) : List Char :=
  (opening ++ (encodeInt fields.1 ++ [','])) ++ ((op ++ encodeString fields.2.1) ++
    ((result ++ resultCode fields.2.2.1) ++ ((version ++ (encodeInt fields.2.2.2 ++ ['\x7d'])) ++ ['\n'])))

theorem lineCode_delimited (opening op result version : List Char) : SelfDelimiting (lineCode opening op result version) := by
  have numbers : SelfDelimiting (fun value => encodeInt value ++ [',']) := encodeInt_delimited rfl (by decide)
  have versions : SelfDelimiting (fun value => encodeInt value ++ ['\x7d']) := encodeInt_delimited rfl (by decide)
  unfold lineCode
  exact (numbers.framed opening).append ((encodeString_delimited.framed op).append
    ((results_delimited.framed result).append ((versions.framed version).followed ['\n'])))

def line (record : Record) : List Char := dumps record ++ ['\n']

theorem exists_line_eq : ∃ opening op result version, ∀ record : Record,
    line record = lineCode opening op result version (record.line, record.op, record.result, record.schemaVersion) := by
  obtain ⟨op, opText⟩ : ∃ rest, ",\"op\":".toList = ',' :: rest := ⟨_, String.toList_ofList⟩
  obtain ⟨version, versionText⟩ : ∃ rest, ",\"schema_version\":".toList = ',' :: rest := ⟨_, String.toList_ofList⟩
  have closing : "\x7d".toList = ['\x7d'] := String.toList_ofList
  refine ⟨"\x7b\"line\":".toList, op, ",\"result\":".toList, version, ?_⟩
  intro record
  unfold line dumps
  rw [opText, versionText, closing]
  generalize "\x7b\"line\":".toList = opening
  generalize ",\"result\":".toList = result
  simp only [lineCode, resultCode, List.append_assoc, List.cons_append, List.nil_append]

theorem lines_delimited : SelfDelimiting line := by
  obtain ⟨opening, op, result, version, coded⟩ := exists_line_eq
  intro first second left right same
  rw [coded, coded] at same
  obtain ⟨fields, rest⟩ := lineCode_delimited _ _ _ _ same
  simp only [Prod.mk.injEq, Int.natCast_inj] at fields
  obtain ⟨lines, ops, results, versions⟩ := fields
  cases first
  cases second
  cases lines
  cases ops
  cases results
  cases versions
  exact ⟨rfl, rest⟩

theorem dumpsResult_printable (result : Result) : Printable (dumpsResult result) := by
  cases result with
  | number value => exact encodeInt_printable value
  | text value => exact encodeString_printable value

theorem dumps_printable (record : Record) : Printable (dumps record) := by
  have frame (chars : List Char) (printable : chars.all isPrintable = true) : Printable (String.ofList chars).toList := by
    rw [String.toList_ofList]
    exact List.all_eq_true.mp printable
  have opening : Printable "\x7b\"line\":".toList := frame _ rfl
  have op : Printable ",\"op\":".toList := frame _ rfl
  have result : Printable ",\"result\":".toList := frame _ rfl
  have version : Printable ",\"schema_version\":".toList := frame _ rfl
  have closing : Printable "\x7d".toList := frame _ rfl
  exact ((((((opening.append (encodeInt_printable _)).append op).append (encodeString_printable _)).append result).append
    (dumpsResult_printable _)).append version).append (encodeInt_printable _) |>.append closing

theorem split_emit (records : List Record) : (emit records).splitOn '\n' = records.map dumps ++ [[]] := by
  induction records with
  | nil => rfl
  | cons record rest ih =>
    have unbroken : ∀ c ∈ dumps record, (c == '\n') = false := by
      intro c member
      rw [beq_eq_false_iff_ne]
      rintro rfl
      exact (dumps_printable record).newline member
    have first : emit (record :: rest) = dumps record ++ '\n' :: emit rest := by
      rw [emit, List.flatMap_cons, List.append_assoc, List.singleton_append]
      rfl
    rw [List.splitOn_eq_splitOnP] at ih ⊢
    rw [first, List.splitOnP_append_cons_of_forall_mem unbroken '\n' rfl, ih, List.map_cons, List.cons_append]

theorem emit_injective : Function.Injective emit :=
  lines_delimited.flatMap_injective (fun _ => List.append_ne_nil_of_right_ne_nil _ (List.cons_ne_nil _ _))

/-- Every record is printed on a line of its own, in printable ASCII whatever texts it
holds; the printed text determines the records, so a run prints it exactly when those
are its records. -/
theorem printed_answers_read_back (repr : Json → String) (lines : List Line) (records : List Record) :
    (emit records).splitOn '\n' = records.map dumps ++ [[]] ∧ (∀ record ∈ records, Printable (dumps record)) ∧
      (∀ others, emit others = emit records ↔ others = records) ∧
        (replayText repr lines = .ok (emit records) ↔ replay repr lines = .ok records) := by
  refine ⟨split_emit records, fun record _ => dumps_printable record, fun others => emit_injective.eq_iff, ?_⟩
  simp only [replayText, Fallible.bind_eq_ok_iff, Fallible.pure_eq_ok_iff, emit_injective.eq_iff, exists_eq_right]

/-- The shard count of a request, if it is written as an integer, was short enough for
`json.loads`. -/
def Loaded (line : Line) : Prop :=
  ∀ members count, line = .value (.obj members) → Json.get? members "shard_count" = some (.int count) → Convertible count

/-- A placement is below its shard count and a hash is a word, so `json.dumps` writes
every number that a replay answers. -/
theorem replay_numbers_convertible {repr : Json → String} {lines : List Line} (loaded : ∀ line ∈ lines, Loaded line)
    {records : List Record} (returned : replay repr lines = .ok records) :
    ∀ record ∈ records, ∀ value, record.result = .number value → Convertible value := by
  intro record emitted value number
  obtain ⟨entry, member, processed⟩ := (replay_ok_iff.mp returned).of_mem emitted
  obtain ⟨request, own, answered⟩ := process_record processed
  obtain ⟨operation, members, result, rfl, _, run, rfl⟩ := answer_ok_iff.mp answered
  have count_convertible {written : Json} {count : Int} (found : Json.get? members "shard_count" = some written)
      (converted : int repr written = .ok count) : Convertible count := by
    refine int_convertible ?_ converted
    rintro literal rfl
    exact loaded _ (List.fst_mem_of_mem_zipIdx member) members literal own found
  cases number
  cases operation with
  | hash =>
    obtain ⟨key, _, same⟩ := answerHash_ok_iff.mp run
    cases same
    rw [Placement.model_fnv1a]
    exact convertible_of_word (fnv1a _).toNat_lt
  | shard =>
    obtain ⟨key, _, written, found, count, converted, shard, reduced, same⟩ := answerShard_ok_iff.mp run
    cases same
    obtain ⟨lower, upper⟩ := model_shardFor_range reduced
    exact convertible_of_le lower upper.le (count_convertible found converted)
  | scope =>
    obtain ⟨_, _, _, _, same⟩ := answerScope_ok_iff.mp run
    cases same
  | route =>
    obtain ⟨_, _, _, _, _, _, written, found, count, converted, shard, routed, same⟩ := answerRoute_ok_iff.mp run
    cases same
    obtain ⟨_, lower, upper⟩ := model_routeShard_ok routed
    exact convertible_of_le lower upper.le (count_convertible found converted)

end FiduciaRouting.Proofs.Emission
