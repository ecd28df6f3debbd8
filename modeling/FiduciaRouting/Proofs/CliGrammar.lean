import FiduciaRouting.RegionCli

/-! The argument grammar of the command. A line is read as complete groups, each
with a value its text denotes, and may then stop at a help flag or at a bare
`--key`, which clears the key instead of being refused. -/

namespace FiduciaRouting.Proofs.CliGrammar
open Library CommandLine Fallible RegionCli

variable {φ : Type} {parse : String → Option φ}

def positiveU32 (text : String) : Option UInt32 := (u32FromStr text).filter (fun count => 0 < count)

inductive Group (parse : String → Option φ) where
  | list
  | lat (text : String) (value : φ) (denotes : parse text = some value)
  | lon (text : String) (value : φ) (denotes : parse text = some value)
  | key (text : String)
  | region (text : String) (value : Region) (denotes : Region.parse text = some value)
  | shards (text : String) (value : UInt32) (denotes : positiveU32 text = some value)

namespace Group

def words : Group parse → List String
  | list => ["--list"]
  | lat text _ _ => ["--lat", text]
  | lon text _ _ => ["--lon", text]
  | key text => ["--key", text]
  | region text _ _ => ["--region", text]
  | shards text _ _ => ["--shards", text]

def latitude? : Group parse → Option φ
  | lat _ value _ => some value
  | _ => none

def longitude? : Group parse → Option φ
  | lon _ value _ => some value
  | _ => none

def key? : Group parse → Option String
  | key text => some text
  | _ => none

def region? : Group parse → Option Region
  | region _ value _ => some value
  | _ => none

def shardCount? : Group parse → Option UInt32
  | shards _ value _ => some value
  | _ => none

def list? : Group parse → Option Bool
  | list => some true
  | _ => none

def apply (options : Options φ) (group : Group parse) : Options φ where
  latitude := group.latitude?.or options.latitude
  longitude := group.longitude?.or options.longitude
  key := group.key?.or options.key
  region := group.region?.or options.region
  shardCount := group.shardCount?.getD options.shardCount
  list := group.list?.getD options.list

end Group

/-- Every option holds the value of its last group, or the one it starts with. -/
def settle (base : Options φ) (groups : List (Group parse)) : Options φ where
  latitude := (lastValue Group.latitude? groups).or base.latitude
  longitude := (lastValue Group.longitude? groups).or base.longitude
  key := (lastValue Group.key? groups).or base.key
  region := (lastValue Group.region? groups).or base.region
  shardCount := (lastValue Group.shardCount? groups).getD base.shardCount
  list := (lastValue Group.list? groups).getD base.list

theorem settle_cons (base : Options φ) (group : Group parse) (groups : List (Group parse)) :
    settle base (group :: groups) = settle (group.apply base) groups := by
  simp only [settle, Group.apply, lastValue_cons, Option.or_assoc, Option.getD_or]

theorem foldl_apply (base : Options φ) (groups : List (Group parse)) :
    groups.foldl Group.apply base = settle base groups := by
  induction groups generalizing base with
  | nil => rfl
  | cons group groups ih => rw [List.foldl_cons, ih, settle_cons]

theorem parseRegion_eq_ok_iff {text : String} {region : Region} :
    parseRegion text = .ok region ↔ Region.parse text = some region := okOr_eq_ok_iff

theorem parseF64_eq_ok_iff {name : String} {next : Option String} {value : φ} :
    parseF64 parse name next = .ok value ↔ ∃ text, next = some text ∧ parse text = some value := by
  simp only [parseF64, bind_eq_ok_iff, okOr_eq_ok_iff]

theorem parseU32_eq_ok_iff {name : String} {next : Option String} {count : UInt32} :
    parseU32 name next = .ok count ↔ ∃ text, next = some text ∧ positiveU32 text = some count := by
  simp only [parseU32, bind_eq_ok_iff, okOr_eq_ok_iff, positiveU32, Option.filter_eq_some_iff, decide_eq_true_eq,
    UInt32.pos_iff_ne_zero]
  constructor
  · intro read
    obtain ⟨text, given, parsed, denoted, checked⟩ := read
    split at checked
    next => cases checked
    next nonzero =>
      cases checked
      exact ⟨text, given, denoted, nonzero⟩
  · intro read
    obtain ⟨text, given, denoted, nonzero⟩ := read
    exact ⟨text, given, count, denoted, if_neg nonzero⟩

/-- What one turn of the loop can do when it does not fail. -/
inductive Turn (parse : String → Option φ) (options : Options φ) :
    String → Option String → Arm (Options φ) → Prop where
  | help {argument : String} {next : Option String} (asked : argument ∈ ["--help", "-h"]) :
      Turn parse options argument next .halt
  | list {next : Option String} : Turn parse options "--list" next (.alone (Group.apply options (.list : Group parse)))
  | bareKey : Turn parse options "--key" none (.valued { options with key := none })
  | group {argument text : String} (group : Group parse) (same : group.words = [argument, text]) :
      Turn parse options argument (some text) (.valued (group.apply options))

theorem arm_eq_ok_iff {options : Options φ} {argument : String} {next : Option String} {result : Arm (Options φ)} :
    arm parse options argument next = .ok result ↔ Turn parse options argument next result := by
  constructor
  · intro read
    unfold arm at read
    split at read
    next =>
      cases read
      exact .help (by decide)
    next =>
      cases read
      exact .help (by decide)
    next =>
      cases read
      exact .list
    next =>
      obtain ⟨value, given, same⟩ := bind_eq_ok_iff.mp read
      obtain ⟨text, rfl, denotes⟩ := parseF64_eq_ok_iff.mp given
      cases same
      exact .group (.lat text value denotes) rfl
    next =>
      obtain ⟨value, given, same⟩ := bind_eq_ok_iff.mp read
      obtain ⟨text, rfl, denotes⟩ := parseF64_eq_ok_iff.mp given
      cases same
      exact .group (.lon text value denotes) rfl
    next =>
      cases read
      cases next with
      | none => exact .bareKey
      | some text => exact .group (.key text) rfl
    next =>
      obtain ⟨text, given, rest⟩ := bind_eq_ok_iff.mp read
      obtain ⟨value, denotes, same⟩ := bind_eq_ok_iff.mp rest
      cases okOr_eq_ok_iff.mp given
      cases same
      exact .group (.region text value (parseRegion_eq_ok_iff.mp denotes)) rfl
    next =>
      obtain ⟨value, given, same⟩ := bind_eq_ok_iff.mp read
      obtain ⟨text, rfl, denotes⟩ := parseU32_eq_ok_iff.mp given
      cases same
      exact .group (.shards text value denotes) rfl
    next => cases read
  · intro turn
    cases turn with
    | help asked =>
      simp only [List.mem_cons, List.not_mem_nil, or_false] at asked
      rcases asked with rfl | rfl
      · rfl
      · rfl
    | list => rfl
    | bareKey => rfl
    | group group same =>
      cases group with
      | list => cases same
      | lat _ value denotes =>
        cases same
        exact bind_eq_ok_iff.mpr ⟨value, parseF64_eq_ok_iff.mpr ⟨_, rfl, denotes⟩, rfl⟩
      | lon _ value denotes =>
        cases same
        exact bind_eq_ok_iff.mpr ⟨value, parseF64_eq_ok_iff.mpr ⟨_, rfl, denotes⟩, rfl⟩
      | key =>
        cases same
        rfl
      | region _ value denotes =>
        cases same
        have found := parseRegion_eq_ok_iff.mpr denotes
        exact bind_eq_ok_iff.mpr ⟨_, okOr_eq_ok_iff.mpr rfl, bind_eq_ok_iff.mpr ⟨value, found, rfl⟩⟩
      | shards _ value denotes =>
        cases same
        exact bind_eq_ok_iff.mpr ⟨value, parseU32_eq_ok_iff.mpr ⟨_, rfl, denotes⟩, rfl⟩

theorem grammar : Grammar (arm parse) (Group.words : Group parse → List String) Group.apply where
  alone := by
    intro options argument next after read
    cases arm_eq_ok_iff.mp read with
    | list => exact ⟨.list, rfl, rfl⟩
  valued := by
    intro options argument value after read
    cases arm_eq_ok_iff.mp read with
    | group group same => exact ⟨group, same, rfl⟩
  complete := by
    intro options group
    cases group with
    | list => exact Or.inl ⟨"--list", rfl, fun next => rfl⟩
    | lat text | lon text | key text | region text | shards text =>
      exact Or.inr ⟨_, text, rfl, arm_eq_ok_iff.mpr (.group _ rfl)⟩

/-- The lines the loop reads to an ending. -/
inductive Reading (parse : String → Option φ) (base : Options φ) : List String → Ending (Options φ) → Prop where
  | complete (groups : List (Group parse)) :
      Reading parse base (groups.flatMap Group.words) (.finished (settle base groups))
  | bareKey (groups : List (Group parse)) :
      Reading parse base (groups.flatMap Group.words ++ ["--key"]) (.finished { settle base groups with key := none })
  | help (groups : List (Group parse)) {word : String} (asked : word ∈ ["--help", "-h"]) (rest : List String) :
      Reading parse base (groups.flatMap Group.words ++ word :: rest) .halted

theorem loop_eq_ok_iff {base : Options φ} {args : List String} {ending : Ending (Options φ)} :
    loop (arm parse) base args = .ok ending ↔ Reading parse base args ending := by
  rw [grammar.loop_eq_ok_iff]
  constructor
  · intro reads
    obtain ⟨groups, rest, rfl, closes⟩ := reads
    rw [foldl_apply] at closes
    cases closes with
    | done =>
      rw [List.append_nil]
      exact .complete groups
    | bare read =>
      cases arm_eq_ok_iff.mp read with
      | bareKey => exact .bareKey groups
    | @halt _ after halts =>
      generalize after.head? = next at halts
      cases arm_eq_ok_iff.mp halts with
      | help asked => exact .help groups asked _
  · intro reading
    cases reading with
    | complete groups => exact ⟨groups, [], (List.append_nil _).symm, by rw [foldl_apply]; exact .done⟩
    | bareKey groups => exact ⟨groups, ["--key"], rfl, .bare (by rw [foldl_apply]; rfl)⟩
    | help groups asked rest => exact ⟨groups, _, rfl, .halt (arm_eq_ok_iff.mpr (.help asked))⟩

def unset : String → Option String := fun _ => none

def defaults : Options φ where
  latitude := none
  longitude := none
  key := none
  region := none
  shardCount := 256
  list := false

theorem configure_unset (args : List String) : configure parse unset args = loop (arm parse) defaults args := rfl

def Complete (parse : String → Option φ) (args : List String) : Prop :=
  ∃ groups : List (Group parse), args = groups.flatMap Group.words

def EndsInBareKey (parse : String → Option φ) (args : List String) : Prop :=
  ∃ groups : List (Group parse), args = groups.flatMap Group.words ++ ["--key"]

/-- A bare key clears a key that was set before, which no complete group does. -/
theorem not_complete_of_bareKey {args : List String} (bare : EndsInBareKey parse args) : ¬ Complete parse args := by
  obtain ⟨groups, rfl⟩ := bare
  intro complete
  obtain ⟨others, same⟩ := complete
  let base : Options φ := { defaults with key := some "" }
  have cleared := loop_eq_ok_iff.mpr (.bareKey groups : Reading parse base _ _)
  have kept := loop_eq_ok_iff.mpr (.complete others : Reading parse base _ _)
  rw [same, kept, Except.ok.injEq, Ending.finished.injEq] at cleared
  have key : (lastValue Group.key? others).or (some "") = none := congrArg Options.key cleared
  rw [Option.or_some] at key
  cases key

/-- With nothing set, complete groups run to the end of the loop and leave the last
values behind; any other line is an error inside the loop. -/
structure AcceptsGrammar (parse : String → Option φ) (args : List String) : Prop where
  accepted : ∀ groups : List (Group parse), args = groups.flatMap Group.words →
    configure parse unset args = .ok (.finished (settle defaults groups))
  rejected : ¬ Complete parse args → ∃ text, configure parse unset args = .error text

/-- The loop accepts exactly its grammar, except on lines that end in a bare key. -/
theorem argument_grammar_iff (parse : String → Option φ) {args : List String} (long : "--help" ∉ args) (short : "-h" ∉ args) :
    AcceptsGrammar parse args ↔ ¬ EndsInBareKey parse args := by
  constructor
  · intro accepts bare
    obtain ⟨text, failed⟩ := accepts.rejected (not_complete_of_bareKey bare)
    obtain ⟨groups, rfl⟩ := bare
    have finished := loop_eq_ok_iff.mpr (.bareKey groups : Reading parse defaults _ _)
    rw [configure_unset, finished] at failed
    cases failed
  · intro closed
    constructor
    · intro groups same
      rw [configure_unset, same]
      exact loop_eq_ok_iff.mpr (.complete groups)
    · intro incomplete
      rw [configure_unset]
      cases returned : loop (arm parse) defaults args with
      | error text => exact ⟨text, rfl⟩
      | ok ending =>
        cases loop_eq_ok_iff.mp returned with
        | complete groups => exact False.elim (incomplete ⟨groups, rfl⟩)
        | bareKey groups => exact False.elim (closed ⟨groups, rfl⟩)
        | help groups asked rest =>
          simp only [List.mem_append, List.mem_cons, not_or, List.not_mem_nil, or_false] at long short asked
          rcases asked with rfl | rfl
          · exact False.elim (long.2.1 rfl)
          · exact False.elim (short.2.1 rfl)

theorem argument_grammar_iff_shards :
    "--help" ∉ ["--list", "--shards", "16"] ∧ "-h" ∉ ["--list", "--shards", "16"] ∧
      AcceptsGrammar String.toNat? ["--list", "--shards", "16"] := by
  have valued : ¬ EndsInBareKey String.toNat? ["--list", "--shards", "16"] := by
    intro bare
    obtain ⟨groups, same⟩ := bare
    have last := congrArg List.getLast? same
    simp at last
  exact ⟨by decide, by decide, (argument_grammar_iff String.toNat? (by decide) (by decide)).mpr valued⟩

/-- `--key` without a value is taken for a complete group, and the key is unset. -/
theorem bare_key_accepted :
    "--help" ∉ ["--key"] ∧ "-h" ∉ ["--key"] ∧ configure String.toNat? unset ["--key"] = .ok (.finished defaults) ∧
      ¬ AcceptsGrammar String.toNat? ["--key"] := by
  have finished : configure String.toNat? unset ["--key"] = .ok (.finished defaults) := rfl
  refine ⟨by decide, by decide, finished, ?_⟩
  intro accepts
  obtain ⟨text, failed⟩ := accepts.rejected (not_complete_of_bareKey ⟨[], rfl⟩)
  rw [finished] at failed
  cases failed

end FiduciaRouting.Proofs.CliGrammar
