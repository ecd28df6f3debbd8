import FiduciaRouting.Geography
import FiduciaRouting.Library.GreatCircle
import FiduciaRouting.Library.RunningBest
import FiduciaRouting.Proofs.CliOutput

/-! The nearest region. Over any floats, ordered or not, no region compares strictly
nearer than the one that is chosen; over exact numbers the distance is the one
along the great circle, and the choice is the first of the nearest. -/

namespace FiduciaRouting.Proofs.NearestRegion
open Library CommandLine RegionCli CliGrammar CliSafety CliOutput

theorem inferred_eq_some {φ : Type} {options : Options φ} {nearestTo : φ → φ → Region} {region : Region}
    (found : inferred nearestTo options = some region) :
    ∃ latitude longitude, options.latitude = some latitude ∧ options.longitude = some longitude ∧
      nearestTo latitude longitude = region := by
  unfold inferred at found
  split at found
  next latitude longitude first second => exact ⟨latitude, longitude, first, second, Option.some.inj found⟩
  next => cases found

section Floats

variable {φ : Type} [Add φ] [Sub φ] [Mul φ] [Div φ] [Neg φ] [OfScientific φ] [Floating φ] [LT φ] [DecidableLT φ]

theorem nearestTo_eq_run (latitude longitude : φ) :
    Region.nearestTo latitude longitude =
      (RunningBest.run (fun region => region.distanceKmTo latitude longitude) .usCentral1 [.usEast1, .euCentral]).1 := rfl

theorem mem_all (region : Region) : region ∈ [Region.usCentral1, .usEast1, .euCentral] := by
  cases region <;> simp

variable [IsTrans φ (fun first second => first < second)]

/-- Coordinates that compare with nothing, such as a NaN, choose the first region. -/
theorem nearestTo_first_or_lt (latitude longitude : φ) : Region.nearestTo latitude longitude = .usCentral1 ∨
    (Region.nearestTo latitude longitude).distanceKmTo latitude longitude < Region.usCentral1.distanceKmTo latitude longitude := by
  rw [nearestTo_eq_run]
  exact RunningBest.run_eq_or_lt (fun region : Region => region.distanceKmTo latitude longitude) _ _

variable [Std.Irrefl (fun first second : φ => first < second)]

theorem not_lt_nearestTo (latitude longitude : φ) (region : Region) :
    ¬ region.distanceKmTo latitude longitude < (Region.nearestTo latitude longitude).distanceKmTo latitude longitude := by
  rw [nearestTo_eq_run]
  exact RunningBest.not_lt_run (fun region => region.distanceKmTo latitude longitude) _ _ region (mem_all region)

/-- No region compares strictly nearer than the chosen one, which is the first
region or strictly nearer than it; and where a run names a region and none was given,
the coordinates were, and that region is the one chosen for them. -/
theorem nearest_region_chosen :
    (∀ (latitude longitude : φ) (region : Region),
      ¬ region.distanceKmTo latitude longitude < (Region.nearestTo latitude longitude).distanceKmTo latitude longitude) ∧
    (∀ latitude longitude : φ, Region.nearestTo latitude longitude = .usCentral1 ∨
      (Region.nearestTo latitude longitude).distanceKmTo latitude longitude <
        Region.usCentral1.distanceKmTo latitude longitude) ∧
    ∀ (parse : String → Option φ) (env : String → Option String) (args lines : List String) (options : Options φ) (region : Region),
      main parse Region.nearestTo env args = .ok lines → Reading parse (inherited parse env) args (.finished options) →
      options.region = none → Names region lines →
        ∃ latitude longitude, options.latitude = some latitude ∧ options.longitude = some longitude ∧
          ∀ other : Region, ¬ other.distanceKmTo latitude longitude < region.distanceKmTo latitude longitude := by
  refine ⟨not_lt_nearestTo, nearestTo_first_or_lt, ?_⟩
  intro parse env args lines options region printed reading absent named
  have valid := (prints_of_main printed).1
  rw [main_finished valid reading, report_eq_ok_iff] at printed
  have chosen := printed.chosen named
  rw [absent, Option.none_or] at chosen
  obtain ⟨latitude, longitude, first, second, rfl⟩ := inferred_eq_some chosen
  exact ⟨latitude, longitude, first, second, not_lt_nearestTo latitude longitude⟩

end Floats

section Exact

open GreatCircle InnerProductGeometry

noncomputable instance : Floating ℝ where
  toRadians x := x * (Real.pi / 180)
  sin := Real.sin
  cos := Real.cos
  sqrt := Real.sqrt
  atan2 := GreatCircle.atan2
  powi x n := x ^ n
  min x y := min x y
  max x y := max x y

/-- The point of the unit sphere with these coordinates in degrees. -/
noncomputable def position (latitude longitude : ℝ) : EuclideanSpace ℝ (Fin 3) :=
  direction (Floating.toRadians latitude) (Floating.toRadians longitude)

/-- The term `a` of the formula: the square of half the chord between the points. -/
noncomputable def halfChordSq (lat1 lon1 lat2 lon2 : ℝ) : ℝ :=
  Real.sin (Floating.toRadians (lat2 - lat1) / 2.0) ^ 2 +
    Real.cos (Floating.toRadians lat1) * Real.cos (Floating.toRadians lat2) *
      Real.sin (Floating.toRadians (lon2 - lon1) / 2.0) ^ 2

theorem haversineKm_clamped (lat1 lon1 lat2 lon2 : ℝ) :
    haversineKm lat1 lon1 lat2 lon2 =
      6371.0 * (2.0 * GreatCircle.atan2 (√(min (halfChordSq lat1 lon1 lat2 lon2) 1.0))
        (√(max (1.0 - halfChordSq lat1 lon1 lat2 lon2) 0.0))) := rfl

theorem halfChordSq_eq (lat1 lon1 lat2 lon2 : ℝ) :
    halfChordSq lat1 lon1 lat2 lon2 =
      haversine (Floating.toRadians lat1) (Floating.toRadians lon1) (Floating.toRadians lat2) (Floating.toRadians lon2) := by
  have scaled (x y : ℝ) : Floating.toRadians (y - x) = Floating.toRadians y - Floating.toRadians x := sub_mul y x _
  have two : (2.0 : ℝ) = 2 := by norm_num
  rw [halfChordSq, haversine, scaled, scaled, two]

theorem halfChordSq_nonneg (lat1 lon1 lat2 lon2 : ℝ) : 0 ≤ halfChordSq lat1 lon1 lat2 lon2 := by
  rw [halfChordSq_eq]
  exact haversine_nonneg _ _ _ _

theorem halfChordSq_le_one (lat1 lon1 lat2 lon2 : ℝ) : halfChordSq lat1 lon1 lat2 lon2 ≤ 1 := by
  rw [halfChordSq_eq]
  exact haversine_le_one _ _ _ _

/-- The clamps of the formula never act on exact numbers. -/
theorem haversineKm_unclamped (lat1 lon1 lat2 lon2 : ℝ) :
    haversineKm lat1 lon1 lat2 lon2 =
      6371 * (2 * GreatCircle.atan2 (√(halfChordSq lat1 lon1 lat2 lon2)) (√(1 - halfChordSq lat1 lon1 lat2 lon2))) := by
  have bounded := halfChordSq_le_one lat1 lon1 lat2 lon2
  have radius : (6371.0 : ℝ) = 6371 := by norm_num
  have two : (2.0 : ℝ) = 2 := by norm_num
  have one : (1.0 : ℝ) = 1 := by norm_num
  have zero : (0.0 : ℝ) = 0 := by norm_num
  rw [haversineKm_clamped, radius, two, one, zero, min_eq_left bounded, max_eq_left (sub_nonneg.mpr bounded)]

theorem haversineKm_eq (lat1 lon1 lat2 lon2 : ℝ) :
    haversineKm lat1 lon1 lat2 lon2 = 6371 * angle (position lat1 lon1) (position lat2 lon2) := by
  rw [position, position, angle_eq_two_mul_atan2, haversineKm_unclamped, halfChordSq_eq]

theorem position_add_turns (latitude longitude : ℝ) (turns : ℤ) :
    position latitude (longitude + 360 * turns) = position latitude longitude := by
  have turned : (Floating.toRadians (longitude + 360 * turns) : ℝ) = Floating.toRadians longitude + turns * (2 * Real.pi) := by
    change (longitude + 360 * turns) * (Real.pi / 180) = longitude * (Real.pi / 180) + turns * (2 * Real.pi)
    ring
  rw [position, position, turned, direction, direction, Real.cos_add_int_mul_two_pi, Real.sin_add_int_mul_two_pi]

/-- Read over exact numbers, the distance is the length of the great circle arc: a
metric on the points of the sphere, at most half the circumference, which does not
depend on the turns in which the longitudes are written, and is what the formula
gives without its clamps. -/
theorem distance_is_great_circle (lat1 lon1 lat2 lon2 lat3 lon3 : ℝ) :
    haversineKm lat1 lon1 lat2 lon2 = 6371 * angle (position lat1 lon1) (position lat2 lon2) ∧
    (haversineKm lat1 lon1 lat2 lon2 = 0 ↔ position lat1 lon1 = position lat2 lon2) ∧
    haversineKm lat1 lon1 lat2 lon2 = haversineKm lat2 lon2 lat1 lon1 ∧
    haversineKm lat1 lon1 lat3 lon3 ≤ haversineKm lat1 lon1 lat2 lon2 + haversineKm lat2 lon2 lat3 lon3 ∧
    haversineKm lat1 lon1 lat2 lon2 ≤ 6371 * Real.pi ∧
    (∀ turns others : ℤ,
      haversineKm lat1 (lon1 + 360 * turns) lat2 (lon2 + 360 * others) = haversineKm lat1 lon1 lat2 lon2) ∧
    0 ≤ halfChordSq lat1 lon1 lat2 lon2 ∧ halfChordSq lat1 lon1 lat2 lon2 ≤ 1 ∧
    haversineKm lat1 lon1 lat2 lon2 =
      6371 * (2 * GreatCircle.atan2 (√(halfChordSq lat1 lon1 lat2 lon2)) (√(1 - halfChordSq lat1 lon1 lat2 lon2))) := by
  refine ⟨haversineKm_eq _ _ _ _, ?_, ?_, ?_, ?_, ?_, halfChordSq_nonneg _ _ _ _, halfChordSq_le_one _ _ _ _,
    haversineKm_unclamped _ _ _ _⟩
  · rw [haversineKm_eq, mul_eq_zero_iff_left (by norm_num)]
    exact angle_eq_zero_iff_direction_eq _ _ _ _
  · rw [haversineKm_eq, haversineKm_eq, angle_comm]
  · have triangle := angle_le_angle_add_angle (position lat1 lon1) (position lat2 lon2) (position lat3 lon3)
    simp only [haversineKm_eq]
    linarith
  · have half := angle_le_pi (position lat1 lon1) (position lat2 lon2)
    rw [haversineKm_eq]
    linarith
  · intro turns others
    simp only [haversineKm_eq, position_add_turns]

theorem position_injective_on_latitude {lat1 lat2 lon1 lon2 : ℝ} (first : |lat1| ≤ 90) (second : |lat2| ≤ 90)
    (same : position lat1 lon1 = position lat2 lon2) : lat1 = lat2 := by
  have height := congrFun (congrArg WithLp.ofLp same) 2
  have degree : 0 < Real.pi / 180 := by positivity
  have range {latitude : ℝ} (bounded : |latitude| ≤ 90) :
      latitude * (Real.pi / 180) ∈ Set.Icc (-(Real.pi / 2)) (Real.pi / 2) := by
    obtain ⟨lower, upper⟩ := abs_le.mp bounded
    constructor <;> nlinarith
  exact mul_right_cancel₀ degree.ne' (Real.injOn_sin (range first) (range second) height)

noncomputable def home (region : Region) : EuclideanSpace ℝ (Fin 3) :=
  position region.approximateCoordinates.1 region.approximateCoordinates.2

theorem distanceKmTo_eq (region : Region) (latitude longitude : ℝ) :
    region.distanceKmTo latitude longitude = 6371 * angle (position latitude longitude) (home region) :=
  haversineKm_eq _ _ _ _

theorem home_injective : Function.Injective home := by
  intro first second same
  have bounded (region : Region) : |(region.approximateCoordinates : ℝ × ℝ).1| ≤ 90 := by
    cases region <;> norm_num [Region.approximateCoordinates, abs_le]
  have level := position_injective_on_latitude (bounded first) (bounded second) same
  cases first <;> cases second <;> first | rfl | (norm_num [Region.approximateCoordinates] at level)

theorem angle_nearestTo_le (latitude longitude : ℝ) (region : Region) :
    angle (position latitude longitude) (home (Region.nearestTo latitude longitude)) ≤
      angle (position latitude longitude) (home region) := by
  have kept := not_lt_nearestTo latitude longitude region
  rw [distanceKmTo_eq, distanceKmTo_eq] at kept
  linarith

theorem nearestTo_own (region : Region) :
    Region.nearestTo (region.approximateCoordinates : ℝ × ℝ).1 region.approximateCoordinates.2 = region := by
  have least := angle_nearestTo_le (region.approximateCoordinates : ℝ × ℝ).1 region.approximateCoordinates.2 region
  have zero : angle (home region) (home region) = 0 := (angle_eq_zero_iff_direction_eq _ _ _ _).mpr rfl
  apply home_injective
  apply Eq.symm
  apply (angle_eq_zero_iff_direction_eq _ _ _ _).mp
  exact le_antisymm (least.trans_eq zero) (angle_nonneg _ _)

/-- Read over exact numbers, the choice is the first region in order among those at
the least angle, and every region is chosen at its own coordinates. -/
theorem nearest_region_exact :
    (∀ latitude longitude : ℝ,
      (∀ region, angle (position latitude longitude) (home (Region.nearestTo latitude longitude)) ≤
        angle (position latitude longitude) (home region)) ∧
      ∃ before after, Region.all = before ++ Region.nearestTo latitude longitude :: after ∧
        ∀ region ∈ before, angle (position latitude longitude) (home (Region.nearestTo latitude longitude)) <
          angle (position latitude longitude) (home region)) ∧
    ∀ region : Region, Region.nearestTo (region.approximateCoordinates : ℝ × ℝ).1 region.approximateCoordinates.2 = region := by
  refine ⟨fun latitude longitude => ⟨angle_nearestTo_le latitude longitude, ?_⟩, nearestTo_own⟩
  obtain ⟨before, after, split, above⟩ :=
    RunningBest.run_earliest (fun region : Region => region.distanceKmTo latitude longitude) .usCentral1 [.usEast1, .euCentral]
  rw [← nearestTo_eq_run] at split above
  refine ⟨before, after, split, ?_⟩
  intro region member
  have farther := above region member
  simp only [distanceKmTo_eq] at farther
  linarith

/-- The decimal text of two of the coordinates. -/
noncomputable def degrees (text : String) : Option ℝ :=
  if text = "38.13" then some 38.13 else if text = "-78.45" then some (-78.45) else none

theorem nearest_region_chosen_aws :
    main degrees Region.nearestTo unset ["--lat", "38.13", "--lon", "-78.45"] = .ok [regionLine .usEast1] ∧
      ∃ latitude longitude, degrees "38.13" = some latitude ∧ degrees "-78.45" = some longitude ∧
        ∀ other : Region, ¬ other.distanceKmTo latitude longitude < Region.usEast1.distanceKmTo latitude longitude := by
  have north : degrees "38.13" = some 38.13 := if_pos rfl
  have west : degrees "-78.45" = some (-78.45) := by simp [degrees]
  have reading : Reading degrees (inherited degrees unset) _ _ := .complete [.lat "38.13" _ north, .lon "-78.45" _ west]
  have plain : WellFormed degrees unset := by
    constructor <;> intro text given <;> cases given
  have own : Region.nearestTo (38.13 : ℝ) (-78.45) = .usEast1 := nearestTo_own .usEast1
  have printed : main degrees Region.nearestTo unset ["--lat", "38.13", "--lon", "-78.45"] = .ok [regionLine .usEast1] := by
    refine main_of_prints plain reading (.region ?_ ?_ ?_ ?_)
    · rfl
    · rfl
    · exact congrArg some own
    · rfl
  obtain ⟨latitude, longitude, first, second, nearest⟩ :=
    nearest_region_chosen.2.2 degrees unset _ _ _ .usEast1 printed reading rfl (Or.inl rfl)
  cases first
  cases second
  exact ⟨printed, _, _, north, west, nearest⟩

end Exact

end FiduciaRouting.Proofs.NearestRegion
