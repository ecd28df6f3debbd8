import FiduciaRouting.Library.Framing
import FiduciaRouting.Proofs.CliPrecedence

/-! What the command prints. A successful run prints the listing, the usage, a
region or a placement; a placement line tells its region, key and shard apart,
and flags made from it print it again. -/

namespace FiduciaRouting.Proofs.CliOutput
open Library CheckedArithmetic CommandLine Fallible Framing RegionCli CliGrammar CliSafety

variable {φ : Type} {parse : String → Option φ} {nearestTo : φ → φ → Region} {env : String → Option String}
  {args : List String} {options : Options φ} {lines : List String}

def regionLine (region : Region) : String := s!"region={region.code}\tcluster={region.clusterName}"

def placementLine (region : Region) (key : String) (shard : ShardId) : String :=
  s!"region={region.code}\tcluster={region.clusterName}\tkey={key}\tshard={shard}"

def listing : List String := Region.all.map (fun region => s!"{region.code}\tcluster={region.clusterName}")

/-- The region nearest to the coordinates, when both are given. -/
def inferred (nearestTo : φ → φ → Region) (options : Options φ) : Option Region :=
  match options.latitude, options.longitude with
  | some lat, some lon => some (nearestTo lat lon)
  | _, _ => none

/-- The lines that options lead to. The listing comes before every check; an
explicit region takes precedence over the coordinates, which still have to be paired. -/
inductive Prints (nearestTo : φ → φ → Region) (options : Options φ) : List String → Prop where
  | listing (listed : options.list = true) : Prints nearestTo options listing
  | placement (plain : options.list = false) (paired : Paired options) {region : Region} {key : String} {shard : ShardId}
      (chosen : options.region.or (inferred nearestTo options) = some region) (keyed : options.key = some key)
      (placed : shardForCustomerRegion region key options.shardCount = .ok shard) :
      Prints nearestTo options [placementLine region key shard]
  | region (plain : options.list = false) (paired : Paired options) {region : Region}
      (chosen : options.region.or (inferred nearestTo options) = some region) (keyless : options.key = none) :
      Prints nearestTo options [regionLine region]
  | usage (plain : options.list = false) (paired : Paired options)
      (nowhere : options.region.or (inferred nearestTo options) = none) (keyless : options.key = none) :
      Prints nearestTo options [usage]

theorem nearest_eq_ok_iff {found : Option Region} :
    nearest nearestTo options.latitude options.longitude = .ok found ↔ Paired options ∧ inferred nearestTo options = found := by
  cases latitude : options.latitude <;> cases longitude : options.longitude <;>
    simp [nearest, inferred, Paired, latitude, longitude]

theorem answer_eq_ok_iff {region : Option Region} {key : Option String} {shardCount : UInt32} :
    answer region key shardCount = .ok lines ↔
      (∃ own text shard, region = some own ∧ key = some text ∧ shardForCustomerRegion own text shardCount = .ok shard ∧
        [placementLine own text shard] = lines) ∨
      (∃ own, region = some own ∧ key = none ∧ [regionLine own] = lines) ∨
      (region = none ∧ key = none ∧ [usage] = lines) := by
  cases region with
  | none => cases key <;> simp [answer, pure_eq_ok_iff]
  | some own =>
    cases key with
    | none => simp [answer, pure_eq_ok_iff, regionLine]
    | some text =>
      simp only [answer, bind_eq_ok_iff, pure_eq_ok_iff, mapError_eq_ok_iff]
      simp [placementLine]

theorem report_eq_ok_iff : report nearestTo options = .ok lines ↔ Prints nearestTo options lines := by
  unfold report
  constructor
  · intro reported
    split at reported
    next listed =>
      cases reported
      exact .listing listed
    next shown =>
      have plain : options.list = false := Bool.eq_false_iff.mpr shown
      obtain ⟨found, resolved, answered⟩ := bind_eq_ok_iff.mp reported
      obtain ⟨paired, rfl⟩ := nearest_eq_ok_iff.mp resolved
      obtain placed | located | nowhere := answer_eq_ok_iff.mp answered
      · obtain ⟨region, key, shard, chosen, keyed, placed, rfl⟩ := placed
        exact .placement plain paired chosen keyed placed
      · obtain ⟨region, chosen, keyless, rfl⟩ := located
        exact .region plain paired chosen keyless
      · obtain ⟨nowhere, keyless, rfl⟩ := nowhere
        exact .usage plain paired nowhere keyless
  · intro prints
    cases prints with
    | listing listed =>
      rw [if_pos listed]
      rfl
    | placement plain paired chosen keyed placed =>
      rw [if_neg (Bool.eq_false_iff.mp plain)]
      refine bind_eq_ok_iff.mpr ⟨_, nearest_eq_ok_iff.mpr ⟨paired, rfl⟩, ?_⟩
      exact answer_eq_ok_iff.mpr (Or.inl ⟨_, _, _, chosen, keyed, placed, rfl⟩)
    | region plain paired chosen keyless =>
      rw [if_neg (Bool.eq_false_iff.mp plain)]
      refine bind_eq_ok_iff.mpr ⟨_, nearest_eq_ok_iff.mpr ⟨paired, rfl⟩, ?_⟩
      exact answer_eq_ok_iff.mpr (Or.inr (Or.inl ⟨_, chosen, keyless, rfl⟩))
    | usage plain paired nowhere keyless =>
      rw [if_neg (Bool.eq_false_iff.mp plain)]
      refine bind_eq_ok_iff.mpr ⟨_, nearest_eq_ok_iff.mpr ⟨paired, rfl⟩, ?_⟩
      exact answer_eq_ok_iff.mpr (Or.inr (Or.inr ⟨nowhere, keyless, rfl⟩))

theorem prints_of_main (printed : main parse nearestTo env args = .ok lines) : WellFormed parse env ∧
    (Reading parse (inherited parse env) args .halted ∧ lines = [usage] ∨
      ∃ options, Reading parse (inherited parse env) args (.finished options) ∧ Prints nearestTo options lines) := by
  cases returned : configure parse env args with
  | error text => simp [main, returned] at printed
  | ok ending =>
    obtain ⟨valid, reading⟩ := configure_eq_ok_iff.mp returned
    refine ⟨valid, ?_⟩
    cases ending with
    | halted =>
      rw [main_halted valid reading] at printed
      cases printed
      exact Or.inl ⟨reading, rfl⟩
    | finished options =>
      rw [main_finished valid reading, report_eq_ok_iff] at printed
      exact Or.inr ⟨options, reading, printed⟩

theorem main_of_prints (valid : WellFormed parse env) (reading : Reading parse (inherited parse env) args (.finished options))
    (prints : Prints nearestTo options lines) : main parse nearestTo env args = .ok lines := by
  rw [main_finished valid reading]
  exact report_eq_ok_iff.mpr prints

/-- The successful runs: help asked for before the first fault, or a line read to
its end whose options print something. -/
theorem main_prints_iff (parse : String → Option φ) (nearestTo : φ → φ → Region) (env : String → Option String)
    (args lines : List String) :
    main parse nearestTo env args = .ok lines ↔ WellFormed parse env ∧
      (Reading parse (inherited parse env) args .halted ∧ lines = [usage] ∨
        ∃ options, Reading parse (inherited parse env) args (.finished options) ∧ Prints nearestTo options lines) := by
  constructor
  · exact prints_of_main
  · intro condition
    obtain ⟨valid, ⟨reading, rfl⟩ | ⟨options, reading, prints⟩⟩ := condition
    · exact main_halted valid reading
    · exact main_of_prints valid reading prints

theorem regionLines_delimited : SelfDelimiting (fun region => (regionLine region).toList) := by
  intro first second left right same
  by_cases equal : first = second
  · subst equal
    exact ⟨rfl, List.append_cancel_left same⟩
  · have apart : Apart (regionLine first).toList (regionLine second).toList := by
      cases first <;> cases second <;> first | exact False.elim (equal rfl) |
        exact Apart.of_take (n := 11) (by decide) (by decide) (by decide)
    exact False.elim (apart left right same)

theorem placementLine_eq (region : Region) (key : String) (shard : ShardId) :
    placementLine region key shard = regionLine region ++ "\tkey=" ++ key ++ "\tshard=" ++ Nat.repr shard.toNat := rfl

theorem toList_placementLine (region : Region) (key : String) (shard : ShardId) :
    (placementLine region key shard).toList =
      (regionLine region).toList ++ ("\tkey=".toList ++ ((key.toList ++ "\tshard".toList) ++ '=' :: Nat.toDigits 10 shard.toNat)) := by
  rw [placementLine_eq]
  simp

/-- The key is whatever stands between the region and the last equals sign. -/
theorem placementLine_injective {first second : Region} {left right : String} {low high : ShardId}
    (same : placementLine first left low = placementLine second right high) : first = second ∧ left = right ∧ low = high := by
  have chars := congrArg String.toList same
  rw [toList_placementLine, toList_placementLine] at chars
  obtain ⟨regions, rest⟩ := regionLines_delimited chars
  obtain ⟨keys, digits⟩ := cut_at_last_mark (Text.not_mem_toDigits rfl _) (Text.not_mem_toDigits rfl _) (List.append_cancel_left rest)
  exact ⟨regions, String.toList_inj.mp (List.append_cancel_right keys), UInt32.toNat_inj.mp (Text.toDigits_injective digits)⟩

theorem placementLine_ne_regionLine (region other : Region) (key : String) (shard : ShardId) :
    placementLine region key shard ≠ regionLine other := by
  intro same
  have chars := congrArg String.toList same
  rw [toList_placementLine, ← List.append_nil (regionLine other).toList] at chars
  cases (regionLines_delimited chars).2

theorem regionLine_eq (region : Region) :
    regionLine region = "region=" ++ region.code ++ "\tcluster=" ++ region.clusterName := rfl

set_option maxRecDepth 4000 in
theorem toList_usage : ∃ rest, usage.toList = 'U' :: rest := ⟨_, String.toList_ofList⟩

theorem placementLine_ne_usage (region : Region) (key : String) (shard : ShardId) : placementLine region key shard ≠ usage := by
  intro same
  obtain ⟨rest, first⟩ := toList_usage
  rw [← same, placementLine_eq, regionLine_eq] at first
  simp at first

theorem prints_placement_iff {region : Region} {key : String} {shard : ShardId} :
    Prints nearestTo options [placementLine region key shard] ↔
      options.list = false ∧ Paired options ∧ options.region.or (inferred nearestTo options) = some region ∧
        options.key = some key ∧ shardForCustomerRegion region key options.shardCount = .ok shard := by
  constructor
  · intro prints
    generalize printed : [placementLine region key shard] = lines at prints
    cases prints with
    | listing => cases congrArg List.length printed
    | placement plain paired chosen keyed placed =>
      obtain ⟨rfl, rfl, rfl⟩ := placementLine_injective (List.cons.inj printed).1
      exact ⟨plain, paired, chosen, keyed, placed⟩
    | region => exact False.elim (placementLine_ne_regionLine _ _ _ _ (List.cons.inj printed).1)
    | usage => exact False.elim (placementLine_ne_usage _ _ _ (List.cons.inj printed).1)
  · intro condition
    obtain ⟨plain, paired, chosen, keyed, placed⟩ := condition
    exact .placement plain paired chosen keyed placed

/-- The lines name a region, with or without a placement. -/
def Names (region : Region) (lines : List String) : Prop :=
  lines = [regionLine region] ∨ ∃ key shard, lines = [placementLine region key shard]

theorem regionLine_ne_usage (region : Region) : regionLine region ≠ usage := by
  intro same
  obtain ⟨rest, first⟩ := toList_usage
  rw [← same, regionLine_eq] at first
  simp at first

theorem Prints.chosen {region : Region} (prints : Prints nearestTo options lines) (named : Names region lines) :
    options.region.or (inferred nearestTo options) = some region := by
  rcases named with located | placed
  · generalize printed : lines = shown at prints
    rw [located] at printed
    cases prints with
    | listing => cases congrArg List.length printed
    | placement => exact False.elim (placementLine_ne_regionLine _ _ _ _ (List.cons.inj printed).1.symm)
    | @region _ _ own chosen =>
      have same : region = own := regionLines_delimited.injective (congrArg String.toList (List.cons.inj printed).1)
      rwa [same]
    | usage => exact False.elim (regionLine_ne_usage region (List.cons.inj printed).1)
  · obtain ⟨key, shard, rfl⟩ := placed
    exact (prints_placement_iff.mp prints).2.2.1

theorem positiveU32_repr {count : UInt32} (positive : 0 < count) : positiveU32 (Nat.repr count.toNat) = some count := by
  rw [positiveU32, u32FromStr, Text.decimalBelow_repr count.toNat_lt, Option.map_some, UInt32.ofNat_toNat,
    Option.filter_some, if_pos (decide_eq_true positive)]

theorem positive_of_placed {region : Region} {key : String} {shardCount : UInt32} {shard : ShardId}
    (placed : shardForCustomerRegion region key shardCount = .ok shard) : 0 < shardCount := by
  by_contra zero
  have few : shardCount < 3 := by
    rw [UInt32.lt_iff_toNat_lt] at zero ⊢
    have none : (0 : UInt32).toNat = 0 := rfl
    have three : (3 : UInt32).toNat = 3 := rfl
    omega
  cases (shardForCustomerRegion_panics few region key).symm.trans placed

theorem parse_code (region : Region) : Region.parse region.code = some region := by
  cases region <;> decide

/-- A printed placement names its region, key and shard unambiguously, and the flags
made from it and the count in effect print it again, with nothing set and whatever
region the coordinates would have inferred. -/
theorem placement_reproducible {region : Region} {key : String} {shard : ShardId}
    (printed : main parse nearestTo env args = .ok [placementLine region key shard]) :
    (∀ other text number, placementLine region key shard = placementLine other text number →
      region = other ∧ key = text ∧ shard = number) ∧
    ∃ options, Reading parse (inherited parse env) args (.finished options) ∧
      ∀ nearestElse : φ → φ → Region, main parse nearestElse unset
        ["--region", region.code, "--key", key, "--shards", Nat.repr options.shardCount.toNat] =
          .ok [placementLine region key shard] := by
  refine ⟨fun _ _ _ same => placementLine_injective same, ?_⟩
  obtain ⟨_, ⟨_, help⟩ | ⟨options, reading, prints⟩⟩ := prints_of_main printed
  · exact False.elim (placementLine_ne_usage _ _ _ (List.cons.inj help).1)
  · obtain ⟨_, _, _, _, placed⟩ := prints_placement_iff.mp prints
    have counted := positiveU32_repr (positive_of_placed placed)
    refine ⟨options, reading, ?_⟩
    intro nearestElse
    have plain : WellFormed parse unset := by
      constructor <;> intro text given <;> cases given
    have reread : Reading parse (inherited parse unset) _ _ := .complete [.region region.code region (parse_code region), .key key,
      .shards (Nat.repr options.shardCount.toNat) options.shardCount counted]
    exact main_of_prints plain reread (prints_placement_iff.mpr ⟨rfl, rfl, rfl, rfl, placed⟩)

theorem placement_reproducible_orders :
    main String.toNat? (fun _ _ => .usCentral1) unset ["--region", "aws", "--key", "orders/42", "--shards", "16"] =
        .ok [placementLine .usEast1 "orders/42" 7] ∧
      ∃ options, Reading String.toNat? (inherited String.toNat? unset) ["--region", "aws", "--key", "orders/42", "--shards", "16"]
          (.finished options) ∧
        ∀ nearestElse : ℕ → ℕ → Region, main String.toNat? nearestElse unset
          ["--region", "us-east-1", "--key", "orders/42", "--shards", Nat.repr options.shardCount.toNat] =
            .ok [placementLine .usEast1 "orders/42" 7] := by
  have printed : main String.toNat? (fun _ _ => .usCentral1) unset ["--region", "aws", "--key", "orders/42", "--shards", "16"] =
      .ok [placementLine .usEast1 "orders/42" 7] := by decide
  exact ⟨printed, (placement_reproducible printed).2⟩

end FiduciaRouting.Proofs.CliOutput
