import Mathlib.RingTheory.ZMod.UnitsCyclic

/-! Powers of a number congruent to nine modulo sixteen reach every number
congruent to one modulo eight, at every binary precision. -/

namespace FiduciaRouting.Library.TwoAdicPowers

variable {a : ℤ}

/-- Doubling the exponent `m` times raises the 2-adic distance to one by
exactly `m`: the remaining factor stays odd. -/
theorem pow_two_pow (odd : Odd a) (m : ℕ) :
    ∃ rest, Odd rest ∧ (1 + 8 * a) ^ 2 ^ m = 1 + 2 ^ (m + 3) * rest := by
  obtain ⟨y, power⟩ := ZMod.exists_one_add_mul_pow_prime_pow_eq (R := ℤ) (u := 8) (v := 2)
    Nat.prime_two (by norm_num) (by norm_num) a m
  refine ⟨a + 2 * y, odd.add_even (even_two_mul y), ?_⟩
  rw [power, pow_add]
  push_cast
  ring

theorem pow_two_pow_dvd (odd : Odd a) (m : ℕ) : (2 : ℤ) ^ (m + 3) ∣ (1 + 8 * a) ^ 2 ^ m - 1 := by
  obtain ⟨rest, _, power⟩ := pow_two_pow odd m
  exact ⟨rest, by rw [power]; ring⟩

/-- Lifting one binary digit at a time: an exponent that is right to `m + 3`
digits is right to the next one, or becomes so after adding `2 ^ m`. -/
theorem exists_pow_dvd_sub (odd : Odd a) (m : ℕ) {x : ℤ} (one : 8 ∣ x - 1) :
    ∃ e : ℕ, (2 : ℤ) ^ (m + 3) ∣ x - (1 + 8 * a) ^ e := by
  induction m with
  | zero => exact ⟨0, by simpa using one⟩
  | succ m ih =>
    obtain ⟨e, c, difference⟩ := ih
    rcases Int.even_or_odd c with even | oddDigit
    · obtain ⟨half, rfl⟩ := even
      exact ⟨e, half, by rw [difference]; ring⟩
    · obtain ⟨rest, oddRest, power⟩ := pow_two_pow odd m
      have oddBase : Odd (1 + 8 * a) := odd_one.add_even ((by decide : Even (8 : ℤ)).mul_right a)
      have oddPower : Odd ((1 + 8 * a) ^ e) := oddBase.pow
      obtain ⟨half, carried⟩ := oddDigit.sub_odd (oddPower.mul oddRest)
      refine ⟨e + 2 ^ m, half, ?_⟩
      calc x - (1 + 8 * a) ^ (e + 2 ^ m)
          = (x - (1 + 8 * a) ^ e) - 2 ^ (m + 3) * ((1 + 8 * a) ^ e * rest) := by rw [pow_add, power]; ring
        _ = 2 ^ (m + 3) * (c - (1 + 8 * a) ^ e * rest) := by rw [difference]; ring
        _ = 2 ^ (m + 1 + 3) * half := by rw [carried]; ring

end FiduciaRouting.Library.TwoAdicPowers
