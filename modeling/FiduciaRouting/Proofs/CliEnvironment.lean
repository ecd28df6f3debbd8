import FiduciaRouting.Proofs.CliOutput

/-! Flags as variables. The schema of the command's flags names one variable for
each of them; setting those variables is another spelling of the same run. -/

namespace FiduciaRouting.Proofs.CliEnvironment
open Library CommandLine RegionCli CliGrammar CliSafety

variable {φ : Type} {parse : String → Option φ} {env : String → Option String} {groups : List (Group parse)} {on : String}

/-- The variable a flag is exported as, with the text it is set to. A flag that
takes no value is exported with the text that switches it on. -/
def binding (on : String) : Group parse → String × String
  | .list => ("FIDUCIA_REGION_LIST", on)
  | .lat text _ _ => ("FIDUCIA_LATITUDE", text)
  | .lon text _ _ => ("FIDUCIA_LONGITUDE", text)
  | .key text => ("FIDUCIA_ROUTING_KEY", text)
  | .region text _ _ => ("FIDUCIA_REGION", text)
  | .shards text _ _ => ("FIDUCIA_SHARD_COUNT", text)

def textOf (on name : String) (group : Group parse) : Option String :=
  if (binding on group).1 = name then some (binding on group).2 else none

/-- The environment after the flags of a line are exported: the last one wins, and
other variables keep their values. -/
def exported (on : String) (env : String → Option String) (groups : List (Group parse)) : String → Option String :=
  fun name => (lastValue (textOf on name) groups).or (env name)

/-- A field that is read from the variable its groups are exported to. -/
theorem exported_bind {α : Type} {value : Group parse → Option α} {read : String → Option α} {name : String}
    (reads : ∀ group, value group = (textOf on name group).bind read)
    (readable : ∀ (group : Group parse) text, textOf on name group = some text → (read text).isSome) :
    (exported on env groups name).bind read = (lastValue value groups).or ((env name).bind read) := by
  rw [exported, lastValue_bind reads readable]
  cases last : lastValue (textOf on name) groups with
  | none => rw [Option.none_or, Option.bind_none, Option.none_or]
  | some text =>
    obtain ⟨group, _, same⟩ := exists_of_lastValue last
    obtain ⟨result, denotes⟩ := Option.isSome_iff_exists.mp (readable group text same)
    rw [Option.some_or, Option.bind_some, denotes, Option.some_or]

theorem exported_isSome {α : Type} {read : String → Option α} {name : String}
    (readable : ∀ (group : Group parse) text, textOf on name group = some text → (read text).isSome)
    (valid : ∀ text, env name = some text → (read text).isSome) (text : String) (given : exported on env groups name = some text) :
    (read text).isSome := by
  rw [exported, Option.or_eq_some_iff] at given
  rcases given with last | ⟨_, kept⟩
  · obtain ⟨group, _, same⟩ := exists_of_lastValue last
    exact readable group text same
  · exact valid text kept

section Fields

variable {α : Type} {value : Group parse → Option α} {read : String → Option α} {name : String} {group : Group parse}

theorem reads_own {text : String} {result : α} (given : value group = some result) (bound : binding on group = (name, text))
    (denotes : read text = some result) : value group = (textOf on name group).bind read := by
  rw [given, textOf, bound, if_pos rfl, Option.bind_some, denotes]

theorem reads_other (unset : value group = none) (unbound : (binding on group).1 ≠ name) :
    value group = (textOf on name group).bind read := by
  rw [unset, textOf, if_neg unbound, Option.bind_none]

end Fields

/-- Every option reads its own variable, from the groups that set it and no others. -/
structure Reads (on : String) (group : Group parse) : Prop where
  latitude : group.latitude? = (textOf on "FIDUCIA_LATITUDE" group).bind parse
  longitude : group.longitude? = (textOf on "FIDUCIA_LONGITUDE" group).bind parse
  key : group.key? = (textOf on "FIDUCIA_ROUTING_KEY" group).bind some
  region : group.region? = (textOf on "FIDUCIA_REGION" group).bind Region.parse
  shardCount : group.shardCount? = (textOf on "FIDUCIA_SHARD_COUNT" group).bind positiveU32

theorem reads (on : String) (group : Group parse) : Reads on group := by
  cases group with
  | list => constructor <;> exact reads_other rfl (ne_of_beq_false rfl)
  | key text => constructor <;> first | exact reads_other rfl (ne_of_beq_false rfl) | exact reads_own rfl rfl rfl
  | lat text value denotes | lon text value denotes | region text value denotes | shards text value denotes =>
    constructor <;> first | exact reads_other rfl (ne_of_beq_false rfl) | exact reads_own rfl rfl denotes

theorem list_reads {accepted : String → Bool} (switched : accepted on = true) (group : Group parse) :
    group.list? = (textOf on "FIDUCIA_REGION_LIST" group).bind (fun text => some (accepted text)) := by
  cases group <;> simp [textOf, binding, Group.list?, switched]

structure Readable (parse : String → Option φ) (on : String) (group : Group parse) : Prop where
  latitude : ∀ text, textOf on "FIDUCIA_LATITUDE" group = some text → (parse text).isSome
  longitude : ∀ text, textOf on "FIDUCIA_LONGITUDE" group = some text → (parse text).isSome
  region : ∀ text, textOf on "FIDUCIA_REGION" group = some text → (Region.parse text).isSome
  shardCount : ∀ text, textOf on "FIDUCIA_SHARD_COUNT" group = some text → (positiveU32 text).isSome

theorem readable (on : String) (group : Group parse) : Readable parse on group := by
  cases group with
  | list | key given => constructor <;> simp [textOf, binding]
  | lat given value denotes | lon given value denotes | region given value denotes | shards given value denotes =>
    constructor <;> simp [textOf, binding, denotes]

theorem exported_wellFormed (on : String) (valid : WellFormed parse env) (groups : List (Group parse)) :
    WellFormed parse (exported on env groups) where
  latitude := exported_isSome (fun group => (readable on group).latitude) valid.latitude
  longitude := exported_isSome (fun group => (readable on group).longitude) valid.longitude
  region := exported_isSome (fun group => (readable on group).region) valid.region
  shardCount := exported_isSome (fun group => (readable on group).shardCount) valid.shardCount

theorem any_eq_getD {α : Type} (accepted : α → Bool) (value : Option α) :
    value.any accepted = (value.bind (fun given => some (accepted given))).getD false := by
  cases value <;> rfl

theorem inherited_exported (switched : on ∈ ["1", "true", "yes", "on"]) (groups : List (Group parse)) :
    inherited parse (exported on env groups) = settle (inherited parse env) groups := by
  have latitude : (exported on env groups "FIDUCIA_LATITUDE").bind parse = _ :=
    exported_bind (fun group => (reads on group).latitude) (fun group => (readable on group).latitude)
  have longitude : (exported on env groups "FIDUCIA_LONGITUDE").bind parse = _ :=
    exported_bind (fun group => (reads on group).longitude) (fun group => (readable on group).longitude)
  have region : (exported on env groups "FIDUCIA_REGION").bind Region.parse = _ :=
    exported_bind (fun group => (reads on group).region) (fun group => (readable on group).region)
  have shardCount : (exported on env groups "FIDUCIA_SHARD_COUNT").bind positiveU32 = _ :=
    exported_bind (fun group => (reads on group).shardCount) (fun group => (readable on group).shardCount)
  have list : (exported on env groups "FIDUCIA_REGION_LIST").bind
      (fun text => some (["1", "true", "yes", "on"].contains text)) = _ :=
    exported_bind (list_reads (List.contains_iff_mem.mpr switched)) (fun _ _ _ => rfl)
  have key : exported on env groups "FIDUCIA_ROUTING_KEY" =
      (lastValue Group.key? groups).or (env "FIDUCIA_ROUTING_KEY") := by
    have same : (Group.key? : Group parse → Option String) = textOf on "FIDUCIA_ROUTING_KEY" :=
      funext (fun group => (reads on group).key.trans (Option.bind_fun_some _))
    rw [exported, same]
  simp only [inherited, settle, any_eq_getD, latitude, longitude, region, shardCount, list, key, Option.getD_or]

theorem configure_eq_loop (valid : WellFormed parse env) (args : List String) :
    configure parse env args = loop (arm parse) (inherited parse env) args := by
  rw [configure, fromEnv_eq_ok_iff.mpr ⟨valid, rfl⟩]
  rfl

/-- Over well-formed variables, the complete flags that a line starts with can be moved
into the environment: whatever follows them, the run is the same. -/
theorem flags_as_variables (valid : WellFormed parse env) (switched : on ∈ ["1", "true", "yes", "on"])
    (nearestTo : φ → φ → Region) (groups : List (Group parse)) (args : List String) :
    main parse nearestTo env (groups.flatMap Group.words ++ args) = main parse nearestTo (exported on env groups) args := by
  have same : configure parse env (groups.flatMap Group.words ++ args) = configure parse (exported on env groups) args := by
    rw [configure_eq_loop valid, configure_eq_loop (exported_wellFormed on valid groups), grammar.loop_groups_append,
      foldl_apply, inherited_exported switched]
  rw [main, main, same]

/-- The flags after the moved ones still win over them. -/
theorem flags_as_variables_key : WellFormed String.toNat? unset ∧ "true" ∈ ["1", "true", "yes", "on"] ∧
    main String.toNat? (fun _ _ => .usCentral1) unset ["--key", "orders/42", "--region", "aws", "--key", "orders/43"] =
      main String.toNat? (fun _ _ => .usCentral1)
        (exported "true" unset ([.key "orders/42", .region "aws" .usEast1 (by decide)] : List (Group String.toNat?)))
        ["--key", "orders/43"] := by
  have plain : WellFormed String.toNat? unset := by
    constructor <;> intro text given <;> cases given
  exact ⟨plain, by decide, flags_as_variables plain (by decide) (fun _ _ => .usCentral1)
    [.key "orders/42", .region "aws" .usEast1 (by decide)] ["--key", "orders/43"]⟩

end FiduciaRouting.Proofs.CliEnvironment
