import FiduciaRouting.Proofs.CliGrammar
import FiduciaRouting.Proofs.Placement

/-! When the command stops in the routing library. The count is checked to be
positive, and the library asserts one shard for each of three regions, so a count
of one or two gets through to the assertion whenever a shard is computed. -/

namespace FiduciaRouting.Proofs.CliSafety
open Library CheckedArithmetic CommandLine Fallible RegionCli CliGrammar Placement

variable {φ : Type} {parse : String → Option φ} {nearestTo : φ → φ → Region} {env : String → Option String}
  {args : List String} {options : Options φ}

/-- Every variable that is set has a text its option accepts. -/
structure WellFormed (parse : String → Option φ) (env : String → Option String) : Prop where
  latitude : ∀ text, env "FIDUCIA_LATITUDE" = some text → (parse text).isSome
  longitude : ∀ text, env "FIDUCIA_LONGITUDE" = some text → (parse text).isSome
  region : ∀ text, env "FIDUCIA_REGION" = some text → (Region.parse text).isSome
  shardCount : ∀ text, env "FIDUCIA_SHARD_COUNT" = some text → (positiveU32 text).isSome

def inherited (parse : String → Option φ) (env : String → Option String) : Options φ where
  latitude := (env "FIDUCIA_LATITUDE").bind parse
  longitude := (env "FIDUCIA_LONGITUDE").bind parse
  key := env "FIDUCIA_ROUTING_KEY"
  region := (env "FIDUCIA_REGION").bind Region.parse
  shardCount := ((env "FIDUCIA_SHARD_COUNT").bind positiveU32).getD 256
  list := (env "FIDUCIA_REGION_LIST").any (fun value => ["1", "true", "yes", "on"].contains value)

theorem envF64_eq_ok_iff {name : String} {result : Option φ} :
    envF64 parse env name = .ok result ↔
      (∀ text, env name = some text → (parse text).isSome) ∧ result = (env name).bind parse := by
  apply mapM_eq_ok_iff
  intro text value
  simp [parseF64_eq_ok_iff]

theorem envRegion_eq_ok_iff {name : String} {result : Option Region} :
    (env name).mapM parseRegion = .ok result ↔
      (∀ text, env name = some text → (Region.parse text).isSome) ∧ result = (env name).bind Region.parse :=
  mapM_eq_ok_iff (fun _ _ => parseRegion_eq_ok_iff)

theorem envU32_eq_ok_iff {name : String} {result : Option UInt32} :
    (env name).mapM (fun value => parseU32 name (some value)) = .ok result ↔
      (∀ text, env name = some text → (positiveU32 text).isSome) ∧ result = (env name).bind positiveU32 := by
  apply mapM_eq_ok_iff
  intro text value
  simp [parseU32_eq_ok_iff]

theorem fromEnv_eq_ok_iff : fromEnv parse env = .ok options ↔ WellFormed parse env ∧ options = inherited parse env := by
  simp only [fromEnv, bind_eq_ok_iff, pure_eq_ok_iff, envF64_eq_ok_iff, envU32_eq_ok_iff, envRegion_eq_ok_iff]
  constructor
  · intro found
    obtain ⟨_, ⟨latitude, rfl⟩, _, ⟨longitude, rfl⟩, _, ⟨region, rfl⟩, _, ⟨shardCount, rfl⟩, rfl⟩ := found
    exact ⟨⟨latitude, longitude, region, shardCount⟩, rfl⟩
  · intro found
    obtain ⟨valid, rfl⟩ := found
    exact ⟨_, ⟨valid.latitude, rfl⟩, _, ⟨valid.longitude, rfl⟩, _, ⟨valid.region, rfl⟩, _, ⟨valid.shardCount, rfl⟩, rfl⟩

theorem configure_eq_ok_iff {ending : Ending (Options φ)} :
    configure parse env args = .ok ending ↔ WellFormed parse env ∧ Reading parse (inherited parse env) args ending := by
  simp only [configure, bind_eq_ok_iff, fromEnv_eq_ok_iff, loop_eq_ok_iff]
  constructor
  · intro found
    obtain ⟨options, ⟨valid, rfl⟩, reading⟩ := found
    exact ⟨valid, reading⟩
  · intro found
    exact ⟨inherited parse env, ⟨found.1, rfl⟩, found.2⟩

theorem shardForCustomerRegion_panics {shardCount : UInt32} (few : shardCount < 3) (region : Region) (key : String) :
    shardForCustomerRegion region key shardCount = .error (.assertion "need at least one shard per region") :=
  shardForRegion_panics (by decide) (UInt32.lt_iff_toNat_lt.mp few) region.index key

/-- What the command makes of a region, a key and a count. -/
inductive Answer : Option Region → Option String → UInt32 → Except Exit (List String) → Prop where
  | placed {region : Region} {key : String} {shardCount : UInt32} (enough : ¬ shardCount < 3) (lines : List String) :
      Answer (some region) (some key) shardCount (.ok lines)
  | panic {region : Region} {key : String} {shardCount : UInt32} (few : shardCount < 3) (cause : Panic) :
      Answer (some region) (some key) shardCount (.error (.panic cause))
  | unplaced {key : String} {shardCount : UInt32} (text : String) :
      Answer none (some key) shardCount (.error (.message text))
  | keyless {region : Option Region} {shardCount : UInt32} (lines : List String) :
      Answer region none shardCount (.ok lines)

theorem answer_cases (region : Option Region) (key : Option String) (shardCount : UInt32) :
    Answer region key shardCount (answer region key shardCount) := by
  cases key with
  | none =>
    cases region with
    | none => exact .keyless _
    | some region => exact .keyless _
  | some key =>
    cases region with
    | none => exact .unplaced _
    | some region =>
      by_cases few : shardCount < 3
      · rw [answer, shardForCustomerRegion_panics few]
        exact .panic few _
      · obtain ⟨shard, returned, _⟩ := shardForCustomerRegion_returns (UInt32.not_lt.mp few) region key
        rw [answer, returned]
        exact .placed few _

def Paired (options : Options φ) : Prop := options.latitude.isSome = options.longitude.isSome

def Located (options : Options φ) : Prop :=
  options.region.isSome ∨ options.latitude.isSome ∧ options.longitude.isSome

/-- Options that are refused with a message. -/
def Incomplete (options : Options φ) : Prop :=
  options.list = false ∧ (¬ Paired options ∨ ¬ Located options ∧ options.key.isSome)

/-- Options that place a key on fewer shards than there are regions. -/
def TooFewShards (options : Options φ) : Prop :=
  options.list = false ∧ Paired options ∧ Located options ∧ options.key.isSome ∧ options.shardCount < 3

inductive Report (options : Options φ) : Except Exit (List String) → Prop where
  | lines (complete : ¬ Incomplete options) (enough : ¬ TooFewShards options) (lines : List String) :
      Report options (.ok lines)
  | message (incomplete : Incomplete options) (text : String) : Report options (.error (.message text))
  | panic (few : TooFewShards options) (cause : Panic) : Report options (.error (.panic cause))

theorem nearest_unpaired (nearestTo : φ → φ → Region) (unpaired : ¬ Paired options) :
    ∃ text, nearest nearestTo options.latitude options.longitude = .error (.message text) := by
  unfold Paired at unpaired
  cases latitude : options.latitude with
  | none =>
    cases longitude : options.longitude with
    | none => simp [latitude, longitude] at unpaired
    | some lon => exact ⟨_, rfl⟩
  | some lat =>
    cases longitude : options.longitude with
    | none => exact ⟨_, rfl⟩
    | some lon => simp [latitude, longitude] at unpaired

theorem nearest_paired (nearestTo : φ → φ → Region) (paired : Paired options) :
    ∃ found, nearest nearestTo options.latitude options.longitude = .ok found ∧
      ((options.region.or found).isSome ↔ Located options) := by
  unfold Paired at paired
  cases latitude : options.latitude with
  | none =>
    cases longitude : options.longitude with
    | none => exact ⟨none, rfl, by simp [Located, latitude]⟩
    | some lon => simp [latitude, longitude] at paired
  | some lat =>
    cases longitude : options.longitude with
    | none => simp [latitude, longitude] at paired
    | some lon => exact ⟨some (nearestTo lat lon), rfl, by simp [Located, latitude, longitude]⟩

theorem report_cases (nearestTo : φ → φ → Region) (options : Options φ) : Report options (report nearestTo options) := by
  unfold report
  split
  next listed =>
    exact .lines (fun incomplete => Bool.eq_false_iff.mp incomplete.1 listed)
      (fun few => Bool.eq_false_iff.mp few.1 listed) _
  next plain =>
    have shown : options.list = false := Bool.eq_false_iff.mpr plain
    by_cases paired : Paired options
    · obtain ⟨found, resolved, located⟩ := nearest_paired nearestTo paired
      rw [resolved]
      change Report options (answer (options.region.or found) options.key options.shardCount)
      have answered := answer_cases (options.region.or found) options.key options.shardCount
      generalize answer (options.region.or found) options.key options.shardCount = result at answered
      generalize options.region.or found = region at answered located
      generalize given : options.key = key at answered
      generalize counted : options.shardCount = shardCount at answered
      cases answered with
      | placed enough lines =>
        refine .lines ?_ ?_ lines
        · intro incomplete
          rcases incomplete.2 with unpaired | missing
          · exact unpaired paired
          · exact missing.1 (located.mp rfl)
        · intro few
          exact enough (counted ▸ few.2.2.2.2)
      | panic few cause => exact .panic ⟨shown, paired, located.mp rfl, by rw [given]; rfl, counted ▸ few⟩ cause
      | unplaced text =>
        refine .message ⟨shown, Or.inr ⟨?_, by rw [given]; rfl⟩⟩ text
        intro chosen
        exact Bool.noConfusion (located.mpr chosen)
      | keyless lines =>
        have absent : ¬ options.key.isSome := by simp [given]
        refine .lines ?_ (fun few => absent few.2.2.2.1) lines
        intro incomplete
        rcases incomplete.2 with unpaired | missing
        · exact unpaired paired
        · exact absent missing.2
    · obtain ⟨text, failed⟩ := nearest_unpaired nearestTo paired
      rw [failed]
      exact .message ⟨shown, Or.inl paired⟩ text

theorem TooFewShards.complete (few : TooFewShards options) : ¬ Incomplete options := by
  intro incomplete
  rcases incomplete.2 with unpaired | missing
  · exact unpaired few.2.1
  · exact missing.1 few.2.2.1

theorem main_halted (valid : WellFormed parse env) (reading : Reading parse (inherited parse env) args .halted) :
    main parse nearestTo env args = .ok [usage] := by
  rw [main, configure_eq_ok_iff.mpr ⟨valid, reading⟩]

theorem main_finished (valid : WellFormed parse env) (reading : Reading parse (inherited parse env) args (.finished options)) :
    main parse nearestTo env args = report nearestTo options := by
  rw [main, configure_eq_ok_iff.mpr ⟨valid, reading⟩]

theorem main_refused (unread : ∀ ending, WellFormed parse env → ¬ Reading parse (inherited parse env) args ending) :
    ∃ text, main parse nearestTo env args = .error (.message text) := by
  cases returned : configure parse env args with
  | error text => exact ⟨text, by rw [main, returned]⟩
  | ok ending =>
    have read := configure_eq_ok_iff.mp returned
    exact False.elim (unread ending read.1 read.2)

/-- An input whose options place a key on fewer shards than there are regions. -/
def PlacesOnTooFew (parse : String → Option φ) (env : String → Option String) (args : List String) : Prop :=
  WellFormed parse env ∧
    ∃ groups : List (Group parse), args = groups.flatMap Group.words ∧ TooFewShards (settle (inherited parse env) groups)

theorem main_panics_iff : (∃ cause, main parse nearestTo env args = .error (.panic cause)) ↔ PlacesOnTooFew parse env args := by
  constructor
  · intro panics
    obtain ⟨cause, panicked⟩ := panics
    cases returned : configure parse env args with
    | error text => simp [main, returned] at panicked
    | ok ending =>
      obtain ⟨valid, reading⟩ := configure_eq_ok_iff.mp returned
      cases ending with
      | halted => cases (main_halted valid reading).symm.trans panicked
      | finished options =>
        have reported := report_cases nearestTo options
        rw [← main_finished valid reading, panicked] at reported
        cases reported with
        | panic few =>
          refine ⟨valid, ?_⟩
          cases reading with
          | complete groups => exact ⟨groups, rfl, few⟩
          | bareKey groups => cases few.2.2.2.1
  · intro places
    obtain ⟨valid, groups, rfl, few⟩ := places
    have reported := report_cases nearestTo (settle (inherited parse env) groups)
    rw [← main_finished valid (.complete groups)] at reported
    generalize main parse nearestTo env (groups.flatMap Group.words) = result at reported
    cases reported with
    | lines _ enough => exact False.elim (enough few)
    | message incomplete => exact False.elim (few.complete incomplete)
    | panic _ cause => exact ⟨cause, rfl⟩

/-- The run returns its lines or a message. -/
def Ends (result : Except Exit (List String)) : Prop :=
  (∃ lines, result = .ok lines) ∨ ∃ text, result = .error (.message text)

theorem ends_iff {result : Except Exit (List String)} : Ends result ↔ ¬ ∃ cause, result = .error (.panic cause) := by
  cases result with
  | ok lines => simp [Ends]
  | error exit => cases exit <;> simp [Ends]

/-- The command reaches a panic exactly when it places a key on one or two shards. -/
theorem cli_never_panics_iff (parse : String → Option φ) (nearestTo : φ → φ → Region) (env : String → Option String)
    (args : List String) : Ends (main parse nearestTo env args) ↔ ¬ PlacesOnTooFew parse env args := by
  rw [ends_iff, main_panics_iff]

theorem two_shards_panic :
    main String.toNat? (fun _ _ => .usCentral1) unset ["--region", "aws", "--key", "k", "--shards", "2"] =
        .error (.panic (.assertion "need at least one shard per region")) ∧
      ¬ Ends (main String.toNat? (fun _ _ => .usCentral1) unset ["--region", "aws", "--key", "k", "--shards", "2"]) := by
  have panicked : main String.toNat? (fun _ _ => .usCentral1) unset ["--region", "aws", "--key", "k", "--shards", "2"] =
      .error (.panic (.assertion "need at least one shard per region")) := by decide
  exact ⟨panicked, ends_iff.not.mpr (not_not_intro ⟨_, panicked⟩)⟩

end FiduciaRouting.Proofs.CliSafety
