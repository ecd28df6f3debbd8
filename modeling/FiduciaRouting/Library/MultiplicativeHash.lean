import FiduciaRouting.Library.TwoAdicPowers
import Mathlib.Data.BitVec
import Mathlib.Data.Nat.Bitwise
import Mathlib.Data.Nat.ModEq

/-! Hashes that absorb one digit at a time by exclusive or followed by a fixed
multiplication, modulo a power of two. The state is the whole hash value, so
the digits act on it by permutations, and reachability is a property of that
action rather than of any sampled input. -/

namespace FiduciaRouting.Library.MultiplicativeHash

variable {w : ℕ} (prime : BitVec w)

def absorb (state digit : BitVec w) : BitVec w := (state ^^^ digit) * prime

def run (state : BitVec w) (digits : List (BitVec w)) : BitVec w := digits.foldl (absorb prime) state

@[simp] theorem run_nil (state : BitVec w) : run prime state [] = state := rfl

@[simp] theorem run_cons (state digit : BitVec w) (digits : List (BitVec w)) :
    run prime state (digit :: digits) = run prime ((state ^^^ digit) * prime) digits := rfl

theorem run_append (state : BitVec w) (first second : List (BitVec w)) :
    run prime state (first ++ second) = run prime (run prime state first) second :=
  List.foldl_append

/-- Zero digits only multiply, so a run of them is a power of the prime. -/
theorem run_zeros (state : BitVec w) (count : ℕ) :
    run prime state (List.replicate count 0) = state * prime ^ count := by
  induction count generalizing state with
  | zero => simp
  | succ count ih =>
    rw [List.replicate_succ, run_cons, ih]
    have cleared : state ^^^ 0 = state := BitVec.xor_zero
    rw [cleared, pow_succ']
    ring

/-- Digits below eight choose the low three bits of the state freely. -/
theorem exists_digit (wide : 3 ≤ w) (state : BitVec w) {low : ℕ} (small : low < 8) :
    ∃ digit : BitVec w, digit.toNat < 8 ∧ (state ^^^ digit).toNat % 8 = low := by
  have eight : (8 : ℕ) = 2 ^ 3 := rfl
  have room : (8 : ℕ) ≤ 2 ^ w := eight ▸ Nat.pow_le_pow_right (by omega) wide
  have below : (state.toNat % 8) ^^^ low < 8 :=
    Nat.xor_lt_two_pow (n := 3) (Nat.mod_lt _ (by omega)) small
  have exact : (BitVec.ofNat w (state.toNat % 8 ^^^ low)).toNat = state.toNat % 8 ^^^ low := by
    rw [BitVec.toNat_ofNat, Nat.mod_eq_of_lt (below.trans_le room)]
  have masked : (state.toNat ^^^ (state.toNat % 8 ^^^ low)) % 8 = state.toNat % 8 ^^^ (state.toNat % 8 ^^^ low) % 8 :=
    Nat.xor_mod_two_pow (n := 3)
  refine ⟨BitVec.ofNat w (state.toNat % 8 ^^^ low), by rwa [exact], ?_⟩
  rw [BitVec.toNat_xor, exact, masked, Nat.mod_eq_of_lt below, ← Nat.xor_assoc, Nat.xor_self, Nat.zero_xor]

theorem xor_one_of_even {state : BitVec w} (even : state.toNat % 2 = 0) (wide : 1 ≤ w) :
    state ^^^ 1 = state + 1 := by
  have room : (2 : ℕ) ≤ 2 ^ w := Nat.pow_le_pow_right (n := 2) (by omega) wide
  have one : (1 : BitVec w).toNat = 1 := by
    simp only [BitVec.ofNat_eq_ofNat, BitVec.toNat_ofNat]
    exact Nat.mod_eq_of_lt (by omega)
  apply BitVec.eq_of_toNat_eq
  rw [BitVec.toNat_xor, BitVec.toNat_add, one, Nat.xor_one_of_even (Nat.even_iff.mpr even)]
  have double : 2 ∣ 2 ^ w := dvd_pow_self 2 (by omega)
  have bound := state.isLt
  rw [Nat.mod_eq_of_lt (by omega)]

/-- A prime congruent to three modulo eight has a square of the form nine
modulo sixteen, whose powers are the numbers congruent to one modulo eight. -/
theorem prime_sq (three : prime.toNat % 8 = 3) :
    ∃ a : ℤ, Odd a ∧ prime ^ 2 = ((1 + 8 * a : ℤ) : BitVec w) := by
  obtain ⟨k, value⟩ : ∃ k, prime.toNat = 8 * k + 3 := ⟨prime.toNat / 8, by omega⟩
  have written : prime = ((8 * k + 3 : ℕ) : BitVec w) := by
    rw [← value, BitVec.natCast_eq_ofNat, BitVec.ofNat_toNat, BitVec.setWidth_eq]
  refine ⟨1 + 6 * k + 8 * k ^ 2, ?_, ?_⟩
  · exact ⟨3 * k + 4 * k ^ 2, by ring⟩
  · rw [written]
    push_cast
    ring

private theorem two_pow_cast : ((2 ^ w : ℤ) : BitVec w) = 0 := by
  apply BitVec.eq_of_toNat_eq
  have cast : ((2 ^ w : ℤ) : BitVec w) = ((2 ^ w : ℕ) : BitVec w) := by push_cast; rfl
  rw [cast, BitVec.natCast_eq_ofNat, BitVec.toNat_ofNat]
  simp

private theorem cast_eq_of_dvd {x y : ℤ} (close : (2 : ℤ) ^ w ∣ x - y) : (x : BitVec w) = (y : BitVec w) := by
  obtain ⟨c, difference⟩ := close
  have same : x = y + 2 ^ w * c := by rw [← difference]; ring
  rw [same, Int.cast_add, Int.cast_mul, two_pow_cast]
  ring

theorem even_mul {state : BitVec w} (even : state.toNat % 2 = 0) (wide : 1 ≤ w) (factor : BitVec w) :
    (state * factor).toNat % 2 = 0 := by
  have double : 2 ∣ 2 ^ w := dvd_pow_self 2 (by omega)
  rw [BitVec.toNat_mul, Nat.mod_mod_of_dvd _ double, Nat.mul_mod, even, Nat.zero_mul, Nat.zero_mod]

/-- One nonzero digit inside a full period of zeros adds a power of the prime
to an even state. The digit's position selects the power. -/
theorem run_detour (wide : 1 ≤ w) {state : BitVec w} (even : state.toNat % 2 = 0) {before after : ℕ}
    (period : prime ^ (before + (after + 1)) = 1) :
    run prime state (List.replicate before 0 ++ 1 :: List.replicate after 0) = state + prime ^ (after + 1) := by
  rw [run_append, run_zeros, run_cons, run_zeros, xor_one_of_even (even_mul even wide _) wide]
  calc (state * prime ^ before + 1) * prime * prime ^ after
      = state * prime ^ (before + (after + 1)) + prime ^ (after + 1) := by ring
    _ = state + prime ^ (after + 1) := by rw [period, mul_one]

section Reachability

variable {n : ℕ} (prime : BitVec (n + 3)) (three : prime.toNat % 8 = 3)
include three

theorem prime_period : prime ^ 2 ^ (n + 1) = 1 := by
  obtain ⟨a, odd, square⟩ := prime_sq prime three
  have close := cast_eq_of_dvd (w := n + 3) (TwoAdicPowers.pow_two_pow_dvd odd n)
  rw [pow_succ', pow_mul, square, ← Int.cast_pow, close, Int.cast_one]

theorem exists_prime_pow {target : BitVec (n + 3)} (one : target.toNat % 8 = 1) :
    ∃ after < 2 ^ (n + 1), prime ^ (after + 1) = target := by
  obtain ⟨a, odd, square⟩ := prime_sq prime three
  have period := prime_period prime three
  have near : (8 : ℤ) ∣ target.toNat - 1 := by omega
  obtain ⟨e, close⟩ := TwoAdicPowers.exists_pow_dvd_sub odd n near
  have reached : prime ^ (2 * e) = target := by
    rw [pow_mul, square, ← Int.cast_pow, ← cast_eq_of_dvd close, Int.cast_natCast, BitVec.natCast_eq_ofNat,
      BitVec.ofNat_toNat, BitVec.setWidth_eq]
  -- The exponent before the last multiplication, reduced into one period.
  have positive : 0 < 2 ^ (n + 1) := Nat.two_pow_pos _
  refine ⟨(2 * e + (2 ^ (n + 1) - 1)) % 2 ^ (n + 1), Nat.mod_lt _ positive, ?_⟩
  calc prime ^ ((2 * e + (2 ^ (n + 1) - 1)) % 2 ^ (n + 1) + 1)
      = prime ^ (2 * e + (2 ^ (n + 1) - 1)) * prime := by rw [pow_succ, ← pow_eq_pow_mod _ period]
    _ = prime ^ (2 * e) * prime ^ (2 ^ (n + 1) - 1 + 1) := by ring
    _ = target := by rw [Nat.sub_add_cancel positive, period, mul_one, reached]

/-- From every state every other state is reached by a word of digits below
eight, and one length serves all pairs: a period of the prime and two digits.
The first digit clears the low bits, the last one repairs them, and a detour
between them adds the difference, which is then a power of the prime. -/
theorem exists_word (source target : BitVec (n + 3)) :
    ∃ word : List (BitVec (n + 3)), word.length = 2 ^ (n + 1) + 2 ∧ (∀ digit ∈ word, digit.toNat < 8) ∧
      run prime source word = target := by
  have period := prime_period prime three
  have positive : 0 < 2 ^ (n + 1) := Nat.two_pow_pos _
  have eight : 8 ∣ 2 ^ (n + 3) := pow_dvd_pow 2 (Nat.le_add_left 3 n)
  obtain ⟨first, firstSmall, cleared⟩ := exists_digit (Nat.le_add_left 3 n) source (show 0 < 8 by omega)
  let entered := (source ^^^ first) * prime
  have aligned : entered.toNat % 8 = 0 := by
    rw [BitVec.toNat_mul, Nat.mod_mod_of_dvd _ eight, Nat.mul_mod, cleared, Nat.zero_mul, Nat.zero_mod]
  -- Undo the final multiplication, then choose the last digit so that the gap ends in 001.
  obtain ⟨last, lastSmall, repaired⟩ :=
    exists_digit (Nat.le_add_left 3 n) (target * prime ^ (2 ^ (n + 1) - 1)) (show 1 < 8 by omega)
  let leaving := target * prime ^ (2 ^ (n + 1) - 1) ^^^ last
  have gap : (leaving - entered).toNat % 8 = 1 := by
    have bound := entered.isLt
    rw [BitVec.toNat_sub, Nat.mod_mod_of_dvd _ eight]
    change leaving.toNat % 8 = 1 at repaired
    omega
  obtain ⟨after, inside, power⟩ := exists_prime_pow prime three gap
  have split : 2 ^ (n + 1) - 1 - after + (after + 1) = 2 ^ (n + 1) := by omega
  refine ⟨first :: (List.replicate (2 ^ (n + 1) - 1 - after) 0 ++ 1 :: List.replicate after 0) ++ [last], ?_, ?_, ?_⟩
  · simp only [List.length_append, List.length_cons, List.length_replicate, List.length_nil]
    omega
  · have one : (1 : BitVec (n + 3)).toNat < 8 := by
      simp only [BitVec.ofNat_eq_ofNat, BitVec.toNat_ofNat]
      exact (Nat.mod_le _ _).trans_lt (by omega)
    intro digit member
    simp only [List.cons_append, List.append_assoc, List.mem_cons, List.mem_append, List.mem_replicate,
      List.not_mem_nil, or_false] at member
    rcases member with rfl | ⟨_, rfl⟩ | rfl | ⟨_, rfl⟩ | rfl
    · exact firstSmall
    · simp
    · exact one
    · simp
    · exact lastSmall
  · have even : entered.toNat % 2 = 0 := by omega
    have detour := run_detour prime (Nat.le_add_left 1 (n + 2)) even (split ▸ period)
    rw [List.cons_append, run_cons, run_append, detour, power]
    calc run prime (entered + (leaving - entered)) [last]
        = (leaving ^^^ last) * prime := by rw [add_sub_cancel]; rfl
      _ = target * prime ^ (2 ^ (n + 1) - 1) * prime := by
        rw [BitVec.xor_assoc, BitVec.xor_self, BitVec.xor_zero]
      _ = target * prime ^ (2 ^ (n + 1) - 1 + 1) := by ring
      _ = target := by rw [Nat.sub_add_cancel positive, period, mul_one]

end Reachability

section Congruence

variable {k : ℕ}

private theorem xor_modEq_iff {first second other : ℕ} :
    first ^^^ other ≡ second ^^^ other [MOD 2 ^ k] ↔ first ≡ second [MOD 2 ^ k] := by
  unfold Nat.ModEq
  rw [Nat.xor_mod_two_pow, Nat.xor_mod_two_pow]
  constructor
  · intro same
    have cancelled := congrArg (fun value => value ^^^ other % 2 ^ k) same
    simpa only [Nat.xor_assoc, Nat.xor_self, Nat.xor_zero] using cancelled
  · intro same
    rw [same]

private theorem mul_modEq_iff (odd : prime.toNat % 2 = 1) {first second : ℕ} :
    first * prime.toNat ≡ second * prime.toNat [MOD 2 ^ k] ↔ first ≡ second [MOD 2 ^ k] := by
  have coprime : Nat.gcd (2 ^ k) prime.toNat = 1 :=
    Nat.Coprime.pow_left k ((Nat.coprime_two_left).mpr (Nat.odd_iff.mpr odd))
  constructor
  · intro same
    exact Nat.ModEq.cancel_right_of_coprime coprime same
  · intro same
    exact same.mul_right _

private theorem absorb_modEq (narrow : k ≤ w) (state digit : BitVec w) :
    (absorb prime state digit).toNat ≡ (state.toNat ^^^ digit.toNat) * prime.toNat [MOD 2 ^ k] := by
  rw [absorb, BitVec.toNat_mul, BitVec.toNat_xor]
  exact (Nat.mod_modEq _ _).of_dvd (pow_dvd_pow 2 narrow)

private theorem absorb_modEq_absorb_iff (odd : prime.toNat % 2 = 1) (narrow : k ≤ w) (first second left right : BitVec w) :
    (absorb prime first left).toNat ≡ (absorb prime second right).toNat [MOD 2 ^ k] ↔
      first.toNat ^^^ left.toNat ≡ second.toNat ^^^ right.toNat [MOD 2 ^ k] := by
  have entered := absorb_modEq prime narrow first left
  have other := absorb_modEq prime narrow second right
  constructor
  · intro same
    exact (mul_modEq_iff prime odd).mp (entered.symm.trans (same.trans other))
  · intro same
    exact entered.trans (((mul_modEq_iff prime odd).mpr same).trans other.symm)

/-- One digit permutes the residues of the state modulo every smaller power. -/
theorem absorb_modEq_iff (odd : prime.toNat % 2 = 1) (narrow : k ≤ w) {first second : BitVec w} (digit : BitVec w) :
    (absorb prime first digit).toNat ≡ (absorb prime second digit).toNat [MOD 2 ^ k] ↔
      first.toNat ≡ second.toNat [MOD 2 ^ k] :=
  (absorb_modEq_absorb_iff prime odd narrow first second digit digit).trans xor_modEq_iff

/-- From one state, digits that differ in their low bits lead to states that do. -/
theorem absorb_digit_modEq_iff (odd : prime.toNat % 2 = 1) (narrow : k ≤ w) (state : BitVec w) {first second : BitVec w} :
    (absorb prime state first).toNat ≡ (absorb prime state second).toNat [MOD 2 ^ k] ↔
      first.toNat ≡ second.toNat [MOD 2 ^ k] := by
  rw [absorb_modEq_absorb_iff prime odd narrow, Nat.xor_comm state.toNat, Nat.xor_comm state.toNat]
  exact xor_modEq_iff

/-- A common word neither merges nor separates residues. -/
theorem run_modEq_iff (odd : prime.toNat % 2 = 1) (narrow : k ≤ w) {first second : BitVec w} (digits : List (BitVec w)) :
    (run prime first digits).toNat ≡ (run prime second digits).toNat [MOD 2 ^ k] ↔
      first.toNat ≡ second.toNat [MOD 2 ^ k] := by
  induction digits generalizing first second with
  | nil => exact Iff.rfl
  | cons digit rest ih => exact ih.trans (absorb_modEq_iff prime odd narrow digit)

/-- Words that differ in one digit collide only when that digit's residues do. -/
theorem run_replace_modEq_iff (odd : prime.toNat % 2 = 1) (narrow : k ≤ w) (state : BitVec w)
    (front back : List (BitVec w)) {first second : BitVec w} :
    (run prime state (front ++ first :: back)).toNat ≡ (run prime state (front ++ second :: back)).toNat [MOD 2 ^ k] ↔
      first.toNat ≡ second.toNat [MOD 2 ^ k] := by
  rw [run_append, run_append]
  exact (run_modEq_iff prime odd narrow back).trans (absorb_digit_modEq_iff prime odd narrow _)

end Congruence

end FiduciaRouting.Library.MultiplicativeHash
