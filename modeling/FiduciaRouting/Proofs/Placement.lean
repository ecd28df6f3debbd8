import FiduciaRouting.Library.Banding
import FiduciaRouting.Model
import FiduciaRouting.Routing

/-! Placement of one key: the machine computation of a shard returns the slot of
the unbounded banding, and never leaves the 32-bit range on the way. -/

namespace FiduciaRouting.Proofs.Placement
open Library CheckedArithmetic Banding

theorem toNat_min (a b : UInt32) : (min a b).toNat = min a.toNat b.toNat := by
  change (if a ≤ b then a else b).toNat = _
  rw [min_def]
  simp only [UInt32.le_iff_toNat_le]
  split <;> rfl

theorem decide_positive {count : UInt32} (positive : 0 < count.toNat) : decide (count > 0) = true := by
  simpa [UInt32.lt_iff_toNat_lt] using positive

theorem shardFor_returns {shardCount : UInt32} (positive : 0 < shardCount.toNat) (key : String) :
    Returns (shardFor key shardCount) ((fnv1a key).toNat % shardCount.toNat) := by
  rw [shardFor, assert_bind (decide_positive positive)]
  exact rem_returns (by omega)

theorem shardFor_same_iff {shardCount : UInt32} (positive : 0 < shardCount.toNat) (first second : String) :
    shardFor first shardCount = shardFor second shardCount ↔
      (fnv1a first).toNat ≡ (fnv1a second).toNat [MOD shardCount.toNat] :=
  returns_eq_iff (shardFor_returns positive first) (shardFor_returns positive second)

theorem shardForRegion_panics {regionCount shardCount : UInt32} (positive : 0 < regionCount.toNat)
    (few : shardCount.toNat < regionCount.toNat) (regionIndex : UInt32) (key : String) :
    shardForRegion regionIndex regionCount key shardCount = .error (.assertion "need at least one shard per region") := by
  have short : decide (shardCount ≥ regionCount) = false := by simpa [UInt32.le_iff_toNat_le] using few
  rw [shardForRegion, assert_bind (decide_positive positive)]
  exact assert_bind_error short _ _

/-- Every intermediate value of the band arithmetic fits a word, because each is
at most the shard count; the modulus is the size of a nonempty band. -/
theorem shardForRegion_returns {regionCount shardCount : UInt32} (positive : 0 < regionCount.toNat)
    (enough : regionCount.toNat ≤ shardCount.toNat) (regionIndex : UInt32) (key : String) :
    Returns (shardForRegion regionIndex regionCount key shardCount)
      (place shardCount.toNat regionCount.toNat regionIndex.toNat (fnv1a key).toNat) := by
  have covers : decide (shardCount ≥ regionCount) = true := by simpa [UInt32.le_iff_toNat_le] using enough
  have bounded := shardCount.toNat_lt
  rw [shardForRegion, assert_bind (decide_positive positive), assert_bind covers]
  have one : (1 : UInt32).toNat = 1 := rfl
  have room := start_lt_stop positive enough (clamp_lt positive regionIndex.toNat)
  have limit : stop shardCount.toNat regionCount.toNat (clamp regionCount.toNat regionIndex.toNat) ≤ shardCount.toNat :=
    stop_le_total (clamp_lt positive regionIndex.toNat)
  refine (sub_returns (by omega)).bind fun last lastValue => ?_
  have clamped : (min regionIndex last).toNat = clamp regionCount.toNat regionIndex.toNat := by
    rw [toNat_min, lastValue, one, clamp]
  refine (div_returns (by omega)).bind fun band bandValue => ?_
  have based : (min regionIndex last).toNat * band.toNat =
      start shardCount.toNat regionCount.toNat (clamp regionCount.toNat regionIndex.toNat) := by
    rw [clamped, bandValue, start]
  refine (mul_returns (by omega)).bind fun base baseValue => ?_
  refine (sub_returns (by omega)).bind fun again againValue => ?_
  -- The last band runs to the end of the shard space; the others are one width long.
  have sized : Returns (if min regionIndex last = again then sub shardCount base else .ok band)
      (size shardCount.toNat regionCount.toNat (clamp regionCount.toNat regionIndex.toNat)) := by
    have lastIff : min regionIndex last = again ↔
        clamp regionCount.toNat regionIndex.toNat + 1 = regionCount.toNat := by
      rw [← UInt32.toNat_inj, clamped, againValue, one]
      omega
    by_cases selected : clamp regionCount.toNat regionIndex.toNat + 1 = regionCount.toNat
    · rw [if_pos (lastIff.mpr selected), size_of_last selected, ← based, ← baseValue]
      exact sub_returns (by omega)
    · rw [if_neg (fun same => selected (lastIff.mp same)), size_of_inner selected, ← bandValue]
      exact Returns.pure band
  have placed : ∀ size : UInt32,
      size.toNat = Banding.size shardCount.toNat regionCount.toNat (clamp regionCount.toNat regionIndex.toNat) →
      Returns (rem (fnv1a key) size >>= fun offset => add base offset)
        (place shardCount.toNat regionCount.toNat regionIndex.toNat (fnv1a key).toNat) := by
    intro size sizeValue
    have nonempty := size_pos positive enough (clamp_lt positive regionIndex.toNat)
    refine (rem_returns (by omega)).bind fun offset offsetValue => ?_
    have inside := place_lt positive enough regionIndex.toNat (fnv1a key).toNat
    have total : base.toNat + offset.toNat =
        place shardCount.toNat regionCount.toNat regionIndex.toNat (fnv1a key).toNat := by
      rw [baseValue, based, offsetValue, sizeValue, place]
    rw [← total]
    exact add_returns (by omega)
  split
  next selected =>
    rw [if_pos selected] at sized
    exact sized.bind placed
  next other =>
    rw [if_neg other] at sized
    exact sized.bind placed

theorem shardForCustomerRegion_returns {shardCount : UInt32} (enough : 3 ≤ shardCount) (region : Region) (key : String) :
    Returns (shardForCustomerRegion region key shardCount)
      (place shardCount.toNat Region.all.length region.index.toNat (fnv1a key).toNat) :=
  shardForRegion_returns (by decide) (UInt32.le_iff_toNat_le.mp enough) region.index key

/-- Masking the product keeps the digest equal to the wrapped word. -/
theorem model_fnv1a (s : String) : Model.fnv1a s = (fnv1a s).toNat := by
  have fold : ∀ (bytes : List UInt8) (digest : ℕ) (hash : UInt32), digest = hash.toNat →
      bytes.foldl (fun digest byte => ((digest ^^^ byte.toNat) * Model.fnvPrime) &&& Model.mask32) digest =
        (bytes.foldl (fun hash b => (hash ^^^ b.toUInt32) * fnvPrime) hash).toNat := by
    intro bytes
    induction bytes with
    | nil => exact fun _ _ same => same
    | cons byte rest ih =>
      intro digest hash same
      apply ih
      have prime : fnvPrime.toNat = Model.fnvPrime := rfl
      have masked : ∀ n : ℕ, n &&& Model.mask32 = n % 2 ^ 32 := fun n => Nat.and_two_pow_sub_one_eq_mod n 32
      simp only [masked, same, UInt32.toNat_mul, UInt32.toNat_xor, UInt8.toNat_toUInt32, prime]
  exact fold _ _ _ rfl

theorem model_shardFor {shardCount : ℕ} (positive : 0 < shardCount) (key : String) :
    Model.shardFor key shardCount = .ok (((fnv1a key).toNat % shardCount : ℕ) : Int) := by
  rw [Model.shardFor, if_neg (by omega), model_fnv1a, Python.mod_of_pos positive]

theorem model_shardForRegion {total count : ℕ} (positive : 0 < count) (enough : count ≤ total) (index : ℕ)
    (key : String) :
    Model.shardForRegion index count key total = .ok ((place total count index (fnv1a key).toNat : ℕ) : Int) := by
  have resolved : min (index : Int) (count - 1) = (clamp count index : ℕ) := by
    unfold clamp
    omega
  have lastIff : (clamp count index : Int) = count - 1 ↔ clamp count index + 1 = count := by omega
  have based : (clamp count index : Int) * (total / count : ℕ) = (start total count (clamp count index) : ℕ) := by
    rw [start]
    push_cast
    rfl
  have order := start_lt_stop positive enough (clamp_lt positive index)
  have sized : (if (clamp count index : Int) = count - 1 then (total : Int) - start total count (clamp count index)
      else (total / count : ℕ)) = (size total count (clamp count index) : ℕ) := by
    have limit : stop total count (clamp count index) ≤ total := stop_le_total (clamp_lt positive index)
    by_cases selected : clamp count index + 1 = count
    · rw [if_pos (lastIff.mpr selected), size_of_last selected]
      omega
    · rw [if_neg (fun same => selected (lastIff.mp same)), size_of_inner selected]
  rw [Model.shardForRegion, if_neg (by omega), if_neg (by omega), Python.floorDiv_of_pos positive]
  simp only [resolved, model_fnv1a, bind, Except.bind, based, sized,
    Python.mod_of_pos (size_pos positive enough (clamp_lt positive index))]
  rw [place]
  push_cast
  rfl

theorem model_bandBounds {total count index : ℕ} (positive : 0 < count) :
    Model.bandBounds index count total = .ok ((start total count index : ℕ), (stop total count index : ℕ)) := by
  have based : (index : Int) * (total / count : ℕ) = (start total count index : ℕ) := by
    rw [start]
    push_cast
    rfl
  have ended : (if (index : Int) = count - 1 then (total : Int) else start total count index + (total / count : ℕ)) =
      (stop total count index : ℕ) := by
    have lastIff : (index : Int) = count - 1 ↔ index + 1 = count := by omega
    simp only [lastIff, stop]
    split
    · rfl
    · rw [Nat.succ_mul, start]
      push_cast
      rfl
  simp only [Model.bandBounds, Python.floorDiv_of_pos positive, bind, Except.bind, based, ended]
  rfl

/-- The bands tile the shard space, and every index and key is placed in the
band of the clamped index, by the machine as by the unbounded model. -/
theorem region_bands_partition {regionCount shardCount : UInt32} (positive : 1 ≤ regionCount)
    (enough : regionCount ≤ shardCount) :
    (∀ index < regionCount.toNat, (band shardCount.toNat regionCount.toNat index).Nonempty) ∧
    (∀ first second, first < second → second < regionCount.toNat →
      ∀ low ∈ band shardCount.toNat regionCount.toNat first,
        ∀ high ∈ band shardCount.toNat regionCount.toNat second, low < high) ∧
    (∀ first < regionCount.toNat, ∀ second < regionCount.toNat, first ≠ second →
      Disjoint (band shardCount.toNat regionCount.toNat first) (band shardCount.toNat regionCount.toNat second)) ∧
    (⋃ index ∈ Set.Iio regionCount.toNat, band shardCount.toNat regionCount.toNat index = Set.Iio shardCount.toNat) ∧
    (∀ (regionIndex : UInt32) (key : String), ∃ shard : ShardId,
      shardForRegion regionIndex regionCount key shardCount = .ok shard ∧
      Model.shardForRegion regionIndex.toNat regionCount.toNat key shardCount.toNat = .ok (shard.toNat : Int) ∧
      shard.toNat ∈ band shardCount.toNat regionCount.toNat (min regionIndex.toNat (regionCount.toNat - 1))) ∧
    (∀ (first second : UInt32) (left right : String),
      min first.toNat (regionCount.toNat - 1) ≠ min second.toNat (regionCount.toNat - 1) →
      shardForRegion first regionCount left shardCount ≠ shardForRegion second regionCount right shardCount) := by
  have counted : 0 < regionCount.toNat := UInt32.le_iff_toNat_le.mp positive
  have room : regionCount.toNat ≤ shardCount.toNat := UInt32.le_iff_toNat_le.mp enough
  refine ⟨fun index inside => band_nonempty counted room inside, ?_, ?_, iUnion_band counted room, ?_, ?_⟩
  · intro first second before inside low lower high upper
    exact band_ordered before inside lower upper
  · intro first insideFirst second insideSecond different
    exact band_disjoint insideFirst insideSecond different
  · intro regionIndex key
    obtain ⟨shard, returned, value⟩ := shardForRegion_returns counted room regionIndex key
    refine ⟨shard, returned, ?_, ?_⟩
    · rw [value]
      exact model_shardForRegion counted room regionIndex.toNat key
    · rw [value]
      exact place_mem_band counted room regionIndex.toNat (fnv1a key).toNat
  · intro first second left right different same
    have returns := shardForRegion_returns counted room first left
    rw [same] at returns
    exact place_ne counted room different _ _ (returns.unique (shardForRegion_returns counted room second right))

theorem region_bands_partition_three : 1 ≤ (3 : UInt32) ∧ (3 : UInt32) ≤ 16 ∧
    shardForRegion 7 3 "orders/42" 16 ≠ shardForRegion 1 3 "orders/42" 16 :=
  ⟨by decide, by decide,
    (region_bands_partition (show 1 ≤ (3 : UInt32) by decide) (show (3 : UInt32) ≤ 16 by decide)).2.2.2.2.2
      7 1 "orders/42" "orders/42" (by decide)⟩

end FiduciaRouting.Proofs.Placement
