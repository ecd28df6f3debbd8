import Mathlib.Data.Set.Lattice
import Mathlib.Data.Nat.ModEq
import Mathlib.Order.CompletePartialOrder
import Mathlib.Tactic.Linarith

/-! The slots `[0, total)` cut into `count` contiguous bands of equal width, the
last of which also takes the remainder. All values are unbounded numbers: this
is what banded placement means, before any machine arithmetic. -/

namespace FiduciaRouting.Library.Banding

def start (total count index : ℕ) : ℕ := index * (total / count)

def stop (total count index : ℕ) : ℕ := if index + 1 = count then total else (index + 1) * (total / count)

def band (total count index : ℕ) : Set ℕ := Set.Ico (start total count index) (stop total count index)

/-- An out-of-range index selects the last band. -/
def clamp (count index : ℕ) : ℕ := min index (count - 1)

def size (total count index : ℕ) : ℕ := stop total count index - start total count index

def place (total count index hash : ℕ) : ℕ :=
  start total count (clamp count index) + hash % size total count (clamp count index)

variable {total count : ℕ}

theorem clamp_lt (positive : 0 < count) (index : ℕ) : clamp count index < count := by
  unfold clamp
  omega

theorem clamp_of_lt {index : ℕ} (inside : index < count) : clamp count index = index := by
  unfold clamp
  omega

theorem width_pos (positive : 0 < count) (enough : count ≤ total) : 0 < total / count :=
  Nat.div_pos enough positive

private theorem start_le_total {index : ℕ} (inside : index ≤ count) : start total count index ≤ total :=
  (Nat.mul_le_mul_right _ inside).trans (Nat.mul_div_le total count)

theorem start_lt_stop (positive : 0 < count) (enough : count ≤ total) {index : ℕ} (inside : index < count) :
    start total count index < stop total count index := by
  have wide := width_pos positive enough
  have next : start total count (index + 1) = start total count index + total / count := Nat.succ_mul _ _
  unfold stop
  split
  · have bound : start total count (index + 1) ≤ total := start_le_total inside
    omega
  · change start total count index < start total count (index + 1)
    omega

theorem stop_le_total {index : ℕ} (inside : index < count) : stop total count index ≤ total := by
  unfold stop
  split
  · exact le_rfl
  · exact start_le_total inside

theorem stop_le_start {first second : ℕ} (before : first < second) (inside : second < count) :
    stop total count first ≤ start total count second := by
  unfold stop
  split
  · omega
  · exact Nat.mul_le_mul_right _ before

theorem band_nonempty (positive : 0 < count) (enough : count ≤ total) {index : ℕ} (inside : index < count) :
    (band total count index).Nonempty :=
  Set.nonempty_Ico.mpr (start_lt_stop positive enough inside)

theorem band_ordered {first second : ℕ} (before : first < second) (inside : second < count) {low high : ℕ}
    (lower : low ∈ band total count first) (upper : high ∈ band total count second) : low < high :=
  lower.2.trans_le ((stop_le_start before inside).trans upper.1)

theorem band_unique {first second : ℕ} (insideFirst : first < count) (insideSecond : second < count) {slot : ℕ}
    (inFirst : slot ∈ band total count first) (inSecond : slot ∈ band total count second) : first = second := by
  rcases Nat.lt_trichotomy first second with before | same | after
  · exact False.elim (Nat.lt_irrefl _ (band_ordered before insideSecond inFirst inSecond))
  · exact same
  · exact False.elim (Nat.lt_irrefl _ (band_ordered after insideFirst inSecond inFirst))

theorem band_disjoint {first second : ℕ} (insideFirst : first < count) (insideSecond : second < count)
    (different : first ≠ second) : Disjoint (band total count first) (band total count second) := by
  rw [Set.disjoint_left]
  intro slot inFirst inSecond
  exact different (band_unique insideFirst insideSecond inFirst inSecond)

/-- The slot's own quotient names its band, capped by the last one. -/
theorem mem_band_quotient (positive : 0 < count) (enough : count ≤ total) {slot : ℕ} (inside : slot < total) :
    slot ∈ band total count (clamp count (slot / (total / count))) := by
  have wide := width_pos positive enough
  have below : slot / (total / count) * (total / count) ≤ slot := Nat.div_mul_le_self _ _
  have above : slot < (slot / (total / count) + 1) * (total / count) := Nat.lt_mul_of_div_lt (Nat.lt_succ_self _) wide
  have capped : clamp count (slot / (total / count)) ≤ slot / (total / count) := Nat.min_le_left _ _
  refine ⟨(Nat.mul_le_mul_right _ capped).trans below, ?_⟩
  unfold stop
  split
  · exact inside
  next notLast =>
    have exact : clamp count (slot / (total / count)) = slot / (total / count) := by
      unfold clamp at notLast ⊢
      omega
    rwa [exact]

theorem iUnion_band (positive : 0 < count) (enough : count ≤ total) :
    ⋃ index ∈ Set.Iio count, band total count index = Set.Iio total := by
  ext slot
  simp only [Set.mem_iUnion, Set.mem_Iio, exists_prop]
  constructor
  · intro covered
    obtain ⟨index, inside, member⟩ := covered
    exact member.2.trans_le (stop_le_total inside)
  · intro inside
    exact ⟨_, clamp_lt positive _, mem_band_quotient positive enough inside⟩

theorem size_of_last {index : ℕ} (last : index + 1 = count) :
    size total count index = total - start total count index := by
  rw [size, stop, if_pos last]

theorem size_of_inner {index : ℕ} (inner : index + 1 ≠ count) : size total count index = total / count := by
  rw [size, stop, if_neg inner, start, Nat.succ_mul, Nat.add_sub_cancel_left]

theorem size_pos (positive : 0 < count) (enough : count ≤ total) {index : ℕ} (inside : index < count) :
    0 < size total count index :=
  Nat.sub_pos_of_lt (start_lt_stop positive enough inside)

theorem place_mem_band (positive : 0 < count) (enough : count ≤ total) (index hash : ℕ) :
    place total count index hash ∈ band total count (clamp count index) := by
  have inside := clamp_lt positive index
  have bound := Nat.mod_lt hash (size_pos positive enough inside)
  have order := start_lt_stop positive enough inside
  unfold place
  refine ⟨Nat.le_add_right _ _, ?_⟩
  unfold size at bound ⊢
  omega

theorem place_lt (positive : 0 < count) (enough : count ≤ total) (index hash : ℕ) :
    place total count index hash < total :=
  (place_mem_band positive enough index hash).2.trans_le (stop_le_total (clamp_lt positive index))

theorem place_ne (positive : 0 < count) (enough : count ≤ total) {first second : ℕ}
    (different : clamp count first ≠ clamp count second) (left right : ℕ) :
    place total count first left ≠ place total count second right := by
  intro same
  apply different
  apply band_unique (clamp_lt positive first) (clamp_lt positive second) (place_mem_band positive enough first left)
  rw [same]
  exact place_mem_band positive enough second right

theorem place_offset {index slot : ℕ} (member : slot ∈ band total count (clamp count index)) :
    place total count index (slot - start total count (clamp count index)) = slot := by
  have lower := member.1
  have upper := member.2
  have inside : slot - start total count (clamp count index) < size total count (clamp count index) := by
    unfold size
    omega
  rw [place, Nat.mod_eq_of_lt inside]
  omega

theorem place_single (total index hash : ℕ) : place total 1 index hash = hash % total := by
  have only : clamp 1 index = 0 := Nat.min_zero index
  rw [place, only, size_of_last rfl, start, Nat.zero_mul, Nat.sub_zero, Nat.zero_add]

/-- A band fixes all slots only when there is no other: a slot of another band is
placed away from itself. -/
theorem forall_place_eq_iff (positive : 0 < count) (enough : count ≤ total) (index : ℕ) :
    (∀ slot < total, place total count index slot = slot) ↔ count = 1 := by
  constructor
  · intro fixed
    by_contra several
    obtain ⟨other, inside, different⟩ : ∃ other < count, clamp count index ≠ other := by
      by_cases first : clamp count index = 0
      · exact ⟨1, by omega, by omega⟩
      · exact ⟨0, positive, first⟩
    obtain ⟨slot, member⟩ := band_nonempty positive enough inside
    have own := place_mem_band positive enough index slot
    rw [fixed slot (member.2.trans_le (stop_le_total inside))] at own
    exact different (band_unique (clamp_lt positive index) inside own member)
  · intro single slot below
    rw [single, place_single, Nat.mod_eq_of_lt below]

section Growth

/-- Coarser residues follow from finer ones, over all values below a bound that
the finer modulus fits, exactly when the coarser modulus divides the finer. -/
theorem modEq_refines_iff {coarse fine bound : ℕ} (room : fine < bound) :
    (∀ first < bound, ∀ second < bound, first ≡ second [MOD fine] → first ≡ second [MOD coarse]) ↔ coarse ∣ fine := by
  constructor
  · intro refines
    have zero : fine ≡ 0 [MOD fine] := Nat.modEq_zero_iff_dvd.mpr dvd_rfl
    exact Nat.modEq_zero_iff_dvd.mp (refines fine room 0 (by omega) zero)
  · intro divides first _ second _ same
    exact same.of_dvd divides

theorem place_eq_place_iff (index first second : ℕ) :
    place total count index first = place total count index second ↔
      first ≡ second [MOD size total count (clamp count index)] := by
  rw [place, place, Nat.add_left_cancel_iff, Nat.ModEq]

theorem size_le_total (total count index : ℕ) : size total count index ≤ total := by
  unfold size stop
  split
  · exact Nat.sub_le _ _
  · rw [start, Nat.succ_mul, Nat.add_sub_cancel_left]
    exact Nat.div_le_self total count

/-- The sizes are two numbers: the common width, unless the only band is the last,
and the size of the last band. -/
theorem forall_size_dvd_iff {wider : ℕ} (positive : 0 < count) :
    (∀ index < count, size total count index ∣ size wider count index) ↔
      (count = 1 ∨ total / count ∣ wider / count) ∧ size total count (count - 1) ∣ size wider count (count - 1) := by
  constructor
  · intro divides
    refine ⟨?_, divides (count - 1) (by omega)⟩
    by_cases single : count = 1
    · exact Or.inl single
    · have first := divides 0 positive
      rw [size_of_inner (by omega), size_of_inner (by omega)] at first
      exact Or.inr first
  · intro both index inside
    by_cases last : index + 1 = count
    · rw [show index = count - 1 by omega]
      exact both.2
    · rw [size_of_inner last, size_of_inner last]
      rcases both.1 with single | widths
      · omega
      · exact widths

/-- Once the slots have doubled, a band past the first begins after the end of
the band it replaces. -/
theorem stop_le_start_of_double {wider index : ℕ} (enough : count ≤ total) (double : 2 * total ≤ wider) (later : 0 < index)
    (inside : index < count) : stop total count index ≤ start wider count index := by
  have positive : 0 < count := by omega
  have wide := width_pos positive enough
  have remainder : total % count < count := Nat.mod_lt total positive
  have whole : count * (total / count) + total % count = total := Nat.div_add_mod total count
  have fitting : count * (total / count) ≤ total := Nat.mul_div_le total count
  have twice : 2 * (total / count) ≤ wider / count := by
    rw [Nat.le_div_iff_mul_le positive]
    linarith
  have product : index + total / count ≤ index * (total / count) + 1 := by nlinarith
  have moved : index * (2 * (total / count)) ≤ index * (wider / count) := Nat.mul_le_mul_left index twice
  unfold stop start
  split
  next last =>
    subst last
    by_cases half : index + 1 ≤ 2 * (total % (index + 1))
    · -- The remainders of both halves fill one more slot of every band.
      have roomy : 2 * (total / (index + 1)) + 1 ≤ wider / (index + 1) := by
        rw [Nat.le_div_iff_mul_le positive]
        linarith
      have further : index * (2 * (total / (index + 1)) + 1) ≤ index * (wider / (index + 1)) := Nat.mul_le_mul_left index roomy
      linarith
    · have short : total % (index + 1) + 1 ≤ index := by omega
      linarith
  next inner => linarith

end Growth

end FiduciaRouting.Library.Banding
