import FiduciaRouting.Proofs.CliSafety

/-! Flags against the environment. A flag that is given a value hides the value of
its variable from every later step, but the variable is read and checked before
the first flag is seen, so a malformed one still stops the run. -/

namespace FiduciaRouting.Proofs.CliPrecedence
open Library CommandLine RegionCli CliGrammar CliSafety

variable {φ α : Type} {parse : String → Option φ} {nearestTo : φ → φ → Region}
  {env first second : String → Option String} {args : List String} {ending : Ending (Options φ)}

def envName : String → Option String
  | "--lat" => some "FIDUCIA_LATITUDE"
  | "--lon" => some "FIDUCIA_LONGITUDE"
  | "--key" => some "FIDUCIA_ROUTING_KEY"
  | "--region" => some "FIDUCIA_REGION"
  | "--shards" => some "FIDUCIA_SHARD_COUNT"
  | _ => none

/-- The variables whose option is given a value, reading from left to right. -/
def overridden : List String → List String
  | argument :: value :: rest =>
    match envName argument with
    | some name => name :: overridden rest
    | none => overridden (value :: rest)
  | _ => []

def envNames : List String :=
  ["FIDUCIA_LATITUDE", "FIDUCIA_LONGITUDE", "FIDUCIA_ROUTING_KEY", "FIDUCIA_REGION", "FIDUCIA_SHARD_COUNT",
    "FIDUCIA_REGION_LIST"]

def AgreeOff (args : List String) (first second : String → Option String) : Prop :=
  ∀ name ∈ envNames, name ∉ overridden args → first name = second name

theorem AgreeOff.symm (agree : AgreeOff args first second) : AgreeOff args second first :=
  fun name known absent => (agree name known absent).symm

def groupName (group : Group parse) : Option String := group.words.head?.bind envName

theorem overridden_words_append (group : Group parse) (rest : List String) :
    overridden (group.words ++ rest) = (groupName group).toList ++ overridden rest := by
  cases group with
  | list => cases rest <;> rfl
  | lat | lon | key | region | shards => rfl

theorem overridden_groups_append (groups : List (Group parse)) (rest : List String) :
    overridden (groups.flatMap Group.words ++ rest) = groups.filterMap groupName ++ overridden rest := by
  induction groups with
  | nil => rfl
  | cons group groups ih =>
    rw [List.flatMap_cons, List.append_assoc, overridden_words_append, ih]
    cases named : groupName group with
    | none => rw [List.filterMap_cons_none named, Option.toList_none, List.nil_append]
    | some name => rw [List.filterMap_cons_some named, Option.toList_some, List.singleton_append, List.cons_append]

/-- Each option is set by the groups that carry its variable and by no others. -/
structure Sets (group : Group parse) : Prop where
  latitude : group.latitude?.isSome = (groupName group == some "FIDUCIA_LATITUDE")
  longitude : group.longitude?.isSome = (groupName group == some "FIDUCIA_LONGITUDE")
  key : group.key?.isSome = (groupName group == some "FIDUCIA_ROUTING_KEY")
  region : group.region?.isSome = (groupName group == some "FIDUCIA_REGION")
  shardCount : group.shardCount?.isSome = (groupName group == some "FIDUCIA_SHARD_COUNT")
  list : groupName group ≠ some "FIDUCIA_REGION_LIST"

theorem sets (group : Group parse) : Sets group := by
  cases group with
  | list | lat | lon | key | region | shards => constructor <;> first | rfl | exact ne_of_beq_false rfl

section Agreement

variable {groups : List (Group parse)}

theorem agree_of_unnamed {name : String} (agree : AgreeOff args first second)
    (overrides : overridden args = groups.filterMap groupName) (known : name ∈ envNames)
    (unnamed : ∀ group ∈ groups, groupName group ≠ some name) : first name = second name := by
  apply agree name known
  rw [overrides, List.mem_filterMap]
  intro present
  obtain ⟨group, member, named⟩ := present
  exact unnamed group member named

/-- An option that no group sets has a variable on which the environments agree. -/
theorem option_eq {value : Group parse → Option α} {name : String} (agree : AgreeOff args first second)
    (overrides : overridden args = groups.filterMap groupName) (known : name ∈ envNames)
    (sets : ∀ group : Group parse, (value group).isSome = (groupName group == some name)) (read : String → Option α) :
    (lastValue value groups).or ((first name).bind read) = (lastValue value groups).or ((second name).bind read) := by
  cases unset : lastValue value groups with
  | some given => rfl
  | none =>
    have unnamed : ∀ group ∈ groups, groupName group ≠ some name := by
      intro group member named
      have given := sets group
      rw [lastValue_eq_none_iff.mp unset group member, named, beq_self_eq_true] at given
      cases given
    rw [agree_of_unnamed agree overrides known unnamed]

theorem settle_inherited (agree : AgreeOff args first second) (overrides : overridden args = groups.filterMap groupName) :
    settle (inherited parse first) groups = settle (inherited parse second) groups := by
  have latitude := option_eq agree overrides (by decide) (fun group => (sets group).latitude) parse
  have longitude := option_eq agree overrides (by decide) (fun group => (sets group).longitude) parse
  have key := option_eq agree overrides (by decide) (fun group => (sets group).key) some
  have region := option_eq agree overrides (by decide) (fun group => (sets group).region) Region.parse
  have shardCount := option_eq agree overrides (by decide) (fun group => (sets group).shardCount) positiveU32
  have list := agree_of_unnamed agree overrides (by decide) (fun group _ => (sets group).list)
  simp only [Option.bind_fun_some] at key
  simp only [settle, inherited, ← Option.getD_or, latitude, longitude, key, region, shardCount, list]

end Agreement

theorem reading_transfer (agree : AgreeOff args first second) (reading : Reading parse (inherited parse first) args ending) :
    Reading parse (inherited parse second) args ending := by
  cases reading with
  | complete groups =>
    have overrides := overridden_groups_append groups []
    rw [List.append_nil, show overridden [] = [] from rfl, List.append_nil] at overrides
    rw [settle_inherited agree overrides]
    exact .complete groups
  | bareKey groups =>
    have overrides := overridden_groups_append groups ["--key"]
    rw [show overridden ["--key"] = [] from rfl, List.append_nil] at overrides
    rw [settle_inherited agree overrides]
    exact .bareKey groups
  | help groups asked rest => exact .help groups asked rest

/-- The same lines, the same panic, or a message on both sides. -/
def SameOutcome (left right : Except Exit (List String)) : Prop :=
  left = right ∨ (∃ text, left = .error (.message text)) ∧ ∃ text, right = .error (.message text)

theorem sameOutcome_comm {left right : Except Exit (List String)} : SameOutcome left right ↔ SameOutcome right left := by
  rw [SameOutcome, SameOutcome, eq_comm, and_comm]

theorem sameOutcome_message {left right : Except Exit (List String)} (refused : ∃ text, right = .error (.message text)) :
    SameOutcome left right ↔ ∃ text, left = .error (.message text) := by
  constructor
  · intro same
    rcases same with equal | both
    · rwa [equal]
    · exact both.1
  · intro message
    exact Or.inr ⟨message, refused⟩

theorem same_of_wellFormed (agree : AgreeOff args first second) (firstValid : WellFormed parse first)
    (secondValid : WellFormed parse second) : SameOutcome (main parse nearestTo first args) (main parse nearestTo second args) := by
  by_cases read : ∃ ending, Reading parse (inherited parse first) args ending
  · obtain ⟨ending, reading⟩ := read
    have transferred := reading_transfer agree reading
    apply Or.inl
    cases ending with
    | halted => rw [main_halted firstValid reading, main_halted secondValid transferred]
    | finished options => rw [main_finished firstValid reading, main_finished secondValid transferred]
  · refine Or.inr ⟨main_refused ?_, main_refused ?_⟩
    · intro ending _ reading
      exact read ⟨ending, reading⟩
    · intro ending _ reading
      exact read ⟨ending, reading_transfer agree.symm reading⟩

/-- The command line is refused on its own account: it cannot be read, or it
leaves the options incomplete. -/
def Rejects (parse : String → Option φ) (env : String → Option String) (args : List String) : Prop :=
  ∀ ending, Reading parse (inherited parse env) args ending → ∃ options, ending = .finished options ∧ Incomplete options

theorem main_message_iff (valid : WellFormed parse env) :
    (∃ text, main parse nearestTo env args = .error (.message text)) ↔ Rejects parse env args := by
  constructor
  · intro refused ending reading
    obtain ⟨text, failed⟩ := refused
    cases ending with
    | halted => cases (main_halted valid reading).symm.trans failed
    | finished options =>
      have reported := report_cases nearestTo options
      rw [← main_finished valid reading, failed] at reported
      cases reported with
      | message incomplete => exact ⟨options, rfl, incomplete⟩
  · intro rejects
    by_cases read : ∃ ending, Reading parse (inherited parse env) args ending
    · obtain ⟨ending, reading⟩ := read
      obtain ⟨options, rfl, incomplete⟩ := rejects ending reading
      rw [main_finished valid reading]
      have reported := report_cases nearestTo options
      generalize report nearestTo options = result at reported
      cases reported with
      | lines complete => exact False.elim (complete incomplete)
      | message _ text => exact ⟨text, rfl⟩
      | panic few => exact False.elim (few.complete incomplete)
    · exact main_refused (fun ending _ reading => read ⟨ending, reading⟩)

theorem main_malformed (malformed : ¬ WellFormed parse env) :
    ∃ text, main parse nearestTo env args = .error (.message text) :=
  main_refused (fun _ valid => False.elim (malformed valid))

/-- A condition on the environments and the line: neither environment is
malformed, or both are, or the line is refused under the one that is not. -/
def MalformedAlike (parse : String → Option φ) (args : List String) (first second : String → Option String) : Prop :=
  (WellFormed parse first ↔ WellFormed parse second) ∨
    (WellFormed parse first ∧ Rejects parse first args) ∨ (WellFormed parse second ∧ Rejects parse second args)

/-- Environments that differ in overridden variables only lead to the same outcome
exactly when they are malformed alike. -/
theorem flags_precede_environment_iff (agree : AgreeOff args first second) :
    SameOutcome (main parse nearestTo first args) (main parse nearestTo second args) ↔
      MalformedAlike parse args first second := by
  unfold MalformedAlike
  by_cases firstValid : WellFormed parse first
  · by_cases secondValid : WellFormed parse second
    · exact iff_of_true (same_of_wellFormed agree firstValid secondValid) (Or.inl (iff_of_true firstValid secondValid))
    · rw [sameOutcome_message (main_malformed secondValid), main_message_iff firstValid]
      simp [firstValid, secondValid]
  · by_cases secondValid : WellFormed parse second
    · rw [sameOutcome_comm, sameOutcome_message (main_malformed firstValid), main_message_iff secondValid]
      simp [firstValid, secondValid]
    · exact iff_of_true (Or.inr ⟨main_malformed firstValid, main_malformed secondValid⟩)
        (Or.inl (iff_of_false firstValid secondValid))

def shardCountSet (text : String) : String → Option String :=
  fun name => if name = "FIDUCIA_SHARD_COUNT" then some text else none

theorem agreeOff_shardCountSet (text : String) {args : List String} (hidden : "FIDUCIA_SHARD_COUNT" ∈ overridden args) :
    AgreeOff args (shardCountSet text) unset := by
  intro name _ absent
  by_cases named : name = "FIDUCIA_SHARD_COUNT"
  · exact False.elim (absent (named ▸ hidden))
  · exact if_neg named

theorem flags_precede_environment_iff_shards :
    AgreeOff ["--shards", "16"] (shardCountSet "4") unset ∧
      SameOutcome (main String.toNat? (fun _ _ => .usCentral1) (shardCountSet "4") ["--shards", "16"])
        (main String.toNat? (fun _ _ => .usCentral1) unset ["--shards", "16"]) := by
  have agree : AgreeOff ["--shards", "16"] (shardCountSet "4") unset := agreeOff_shardCountSet "4" (by decide)
  have wellFormed : WellFormed String.toNat? (shardCountSet "4") := by
    constructor <;> intro text given <;> simp [shardCountSet] at given
    subst text
    decide
  have plain : WellFormed String.toNat? unset := by
    constructor <;> intro text given <;> cases given
  exact ⟨agree, (flags_precede_environment_iff agree).mpr (Or.inl (iff_of_true wellFormed plain))⟩

/-- A malformed count stops the run although the line gives another one. -/
theorem overridden_variable_refused :
    AgreeOff ["--shards", "5"] (shardCountSet "many") unset ∧
      main String.toNat? (fun _ _ => .usCentral1) (shardCountSet "many") ["--shards", "5"] =
        .error (.message "FIDUCIA_SHARD_COUNT must be a positive integer") ∧
      ¬ SameOutcome (main String.toNat? (fun _ _ => .usCentral1) (shardCountSet "many") ["--shards", "5"])
        (main String.toNat? (fun _ _ => .usCentral1) unset ["--shards", "5"]) := by
  have refused : main String.toNat? (fun _ _ => .usCentral1) (shardCountSet "many") ["--shards", "5"] =
      .error (.message "FIDUCIA_SHARD_COUNT must be a positive integer") := by decide
  have answered : main String.toNat? (fun _ _ => .usCentral1) unset ["--shards", "5"] = .ok [usage] := rfl
  refine ⟨agreeOff_shardCountSet "many" (by decide), refused, ?_⟩
  rw [refused, answered]
  intro same
  rcases same with equal | ⟨_, text, failed⟩
  · cases equal
  · cases failed

end FiduciaRouting.Proofs.CliPrecedence
