import Mathlib.Analysis.InnerProductSpace.PiL2
import Mathlib.Analysis.SpecialFunctions.Complex.Arg
import Mathlib.Geometry.Euclidean.Angle.Unoriented.TriangleInequality

/-! Distances along the unit sphere between points given by latitude and longitude,
in radians. The haversine of the angle between two points is a closed expression
of their coordinates, from which the angle is recovered by a two-argument
arctangent. -/

namespace FiduciaRouting.Library.GreatCircle
open Real InnerProductGeometry

noncomputable def direction (latitude longitude : ℝ) : EuclideanSpace ℝ (Fin 3) :=
  !₂[cos latitude * cos longitude, cos latitude * sin longitude, sin latitude]

noncomputable def haversine (lat1 lon1 lat2 lon2 : ℝ) : ℝ :=
  sin ((lat2 - lat1) / 2) ^ 2 + cos lat1 * cos lat2 * sin ((lon2 - lon1) / 2) ^ 2

noncomputable def atan2 (y x : ℝ) : ℝ := Complex.arg ⟨x, y⟩

variable (lat1 lon1 lat2 lon2 : ℝ)

@[simp] theorem direction_zero (latitude longitude : ℝ) : direction latitude longitude 0 = cos latitude * cos longitude := rfl

@[simp] theorem direction_one (latitude longitude : ℝ) : direction latitude longitude 1 = cos latitude * sin longitude := rfl

@[simp] theorem direction_two (latitude longitude : ℝ) : direction latitude longitude 2 = sin latitude := rfl

theorem norm_direction (latitude longitude : ℝ) : ‖direction latitude longitude‖ = 1 := by
  rw [EuclideanSpace.norm_eq, Real.sqrt_eq_one]
  simp only [Fin.sum_univ_three, Real.norm_eq_abs, sq_abs, direction_zero, direction_one, direction_two]
  have turn := sin_sq_add_cos_sq longitude
  have tilt := sin_sq_add_cos_sq latitude
  linear_combination cos latitude ^ 2 * turn + tilt

theorem sin_half_sq (x : ℝ) : sin (x / 2) ^ 2 = (1 - cos x) / 2 := by
  rw [sin_sq_eq_half_sub, show 2 * (x / 2) = x by ring]
  ring

theorem inner_direction :
    inner ℝ (direction lat1 lon1) (direction lat2 lon2) = 1 - 2 * haversine lat1 lon1 lat2 lon2 := by
  have written : inner ℝ (direction lat1 lon1) (direction lat2 lon2) =
      cos lat1 * cos lat2 * (cos lon2 * cos lon1 + sin lon2 * sin lon1) + sin lat1 * sin lat2 := by
    simp only [PiLp.inner_apply, Fin.sum_univ_three, RCLike.inner_apply, conj_trivial, direction_zero, direction_one, direction_two]
    ring
  rw [written, haversine, sin_half_sq, sin_half_sq, cos_sub, cos_sub]
  ring

theorem haversine_nonneg : 0 ≤ haversine lat1 lon1 lat2 lon2 := by
  have bound := real_inner_le_norm (direction lat1 lon1) (direction lat2 lon2)
  rw [inner_direction, norm_direction, norm_direction] at bound
  linarith

theorem haversine_le_one : haversine lat1 lon1 lat2 lon2 ≤ 1 := by
  have bound := neg_le_of_abs_le (abs_real_inner_le_norm (direction lat1 lon1) (direction lat2 lon2))
  rw [inner_direction, norm_direction, norm_direction] at bound
  linarith

theorem angle_direction :
    angle (direction lat1 lon1) (direction lat2 lon2) = arccos (1 - 2 * haversine lat1 lon1 lat2 lon2) := by
  rw [angle, inner_direction, norm_direction, norm_direction, mul_one, div_one]

/-- The point on the unit circle with these two legs stands at half the angle. -/
theorem two_mul_atan2 {ratio : ℝ} (nonneg : 0 ≤ ratio) (bounded : ratio ≤ 1) :
    2 * atan2 (√ratio) (√(1 - ratio)) = arccos (1 - 2 * ratio) := by
  have unit : ‖(⟨√(1 - ratio), √ratio⟩ : ℂ)‖ = 1 := by
    rw [Complex.norm_def, Complex.normSq_mk, Real.mul_self_sqrt (by linarith), Real.mul_self_sqrt nonneg, sub_add_cancel,
      Real.sqrt_one]
  have nonzero : (⟨√(1 - ratio), √ratio⟩ : ℂ) ≠ 0 := by
    intro zero
    rw [zero, norm_zero] at unit
    exact zero_ne_one unit
  have leg : cos (atan2 (√ratio) (√(1 - ratio))) = √(1 - ratio) := by
    rw [atan2, Complex.cos_arg nonzero, unit, div_one]
  have above : 0 ≤ atan2 (√ratio) (√(1 - ratio)) := Complex.arg_nonneg_iff.mpr (Real.sqrt_nonneg _)
  have below : atan2 (√ratio) (√(1 - ratio)) ≤ π / 2 :=
    (le_abs_self _).trans (Complex.abs_arg_le_pi_div_two_iff.mpr (Real.sqrt_nonneg _))
  have double : cos (2 * atan2 (√ratio) (√(1 - ratio))) = 1 - 2 * ratio := by
    rw [cos_two_mul, leg, Real.sq_sqrt (by linarith)]
    ring
  rw [← double, arccos_cos (by linarith) (by linarith)]

theorem angle_eq_two_mul_atan2 :
    angle (direction lat1 lon1) (direction lat2 lon2) =
      2 * atan2 (√(haversine lat1 lon1 lat2 lon2)) (√(1 - haversine lat1 lon1 lat2 lon2)) := by
  rw [angle_direction, two_mul_atan2 (haversine_nonneg _ _ _ _) (haversine_le_one _ _ _ _)]

theorem angle_eq_zero_iff_direction_eq :
    angle (direction lat1 lon1) (direction lat2 lon2) = 0 ↔ direction lat1 lon1 = direction lat2 lon2 := by
  constructor
  · intro zero
    exact eq_of_angle_eq_zero_of_norm_eq zero (by rw [norm_direction, norm_direction])
  · intro same
    rw [same]
    exact angle_self (norm_ne_zero_iff.mp (by rw [norm_direction]; exact one_ne_zero))

end FiduciaRouting.Library.GreatCircle
