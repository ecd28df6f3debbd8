import Mathlib.Algebra.BigOperators.Fin
import Mathlib.Data.Int.CardIntervalMod
import Mathlib.Data.Fintype.BigOperators
import Mathlib.Data.Fin.Tuple.Basic

/-! Counting residues over words. A value whose residue each digit separates, with
the other digits fixed, takes every residue equally often over all words. -/

namespace FiduciaRouting.Library.Equidistribution

variable {modulus blocks : ℕ}

/-- The numbers below a multiple of the modulus that lie in one residue class. -/
theorem card_residue (positive : 0 < modulus) (residue : ℕ) :
    (Finset.univ.filter (fun digit : Fin (modulus * blocks) => digit.val ≡ residue [MOD modulus])).card = blocks := by
  have counted := Nat.count_modEq_card (modulus * blocks) positive residue
  rw [Nat.mul_mod_right, if_neg (Nat.not_lt_zero _), Nat.mul_div_cancel_left _ positive, Nat.add_zero] at counted
  refine Eq.trans ?_ counted
  rw [Nat.count_eq_card_filter_range, Finset.card_filter, Finset.card_filter, Finset.sum_range]

/-- A digit that separates residues reaches each of them. -/
theorem exists_digit (positive : 0 < modulus) (filled : 0 < blocks) {value : Fin (modulus * blocks) → ℕ}
    (separates : ∀ first second, value first ≡ value second [MOD modulus] ↔ first.val ≡ second.val [MOD modulus])
    (residue : ℕ) : ∃ digit, value digit ≡ residue [MOD modulus] := by
  have room : modulus ≤ modulus * blocks := Nat.le_mul_of_pos_right modulus filled
  let reduced (digit : Fin modulus) : Fin modulus := ⟨value (Fin.castLE room digit) % modulus, Nat.mod_lt _ positive⟩
  have injective : Function.Injective reduced := by
    intro first second same
    have congruent := (separates _ _).mp (Fin.mk.inj same)
    exact Fin.ext (congruent.eq_of_lt_of_lt first.isLt second.isLt)
  obtain ⟨digit, reached⟩ := Finite.surjective_of_injective injective ⟨residue % modulus, Nat.mod_lt _ positive⟩
  exact ⟨Fin.castLE room digit, Fin.mk.inj reached⟩

theorem card_digits (positive : 0 < modulus) (filled : 0 < blocks) {value : Fin (modulus * blocks) → ℕ}
    (separates : ∀ first second, value first ≡ value second [MOD modulus] ↔ first.val ≡ second.val [MOD modulus])
    (residue : ℕ) : (Finset.univ.filter (fun digit => value digit ≡ residue [MOD modulus])).card = blocks := by
  obtain ⟨origin, reached⟩ := exists_digit positive filled separates residue
  refine Eq.trans ?_ (card_residue positive origin.val)
  congr 1
  apply Finset.filter_congr
  intro digit _
  rw [← separates]
  exact ⟨fun same => same.trans reached.symm, fun same => same.trans reached⟩

/-- Over all words, one separated digit is enough to spread the residues evenly. -/
theorem card_words {base : ℕ} (whole : modulus * blocks = base) (positive : 0 < base) {length : ℕ}
    {value : (Fin (length + 1) → Fin base) → ℕ}
    (separates : ∀ (rest : Fin length → Fin base) first second,
      value (Fin.cons first rest) ≡ value (Fin.cons second rest) [MOD modulus] ↔ first.val ≡ second.val [MOD modulus])
    (residue : ℕ) :
    (Finset.univ.filter (fun word => value word ≡ residue [MOD modulus])).card * modulus = base ^ (length + 1) := by
  subst whole
  have divided := Nat.pos_of_mul_pos_right positive
  have filled := Nat.pos_of_mul_pos_left positive
  have digits (rest : Fin length → Fin (modulus * blocks)) :
      ∑ digit, (if value (Fin.cons digit rest) ≡ residue [MOD modulus] then 1 else 0) = blocks := by
    rw [← Finset.card_filter]
    exact card_digits divided filled (separates rest) residue
  rw [Finset.card_filter, ← (Fin.consEquiv (fun _ => Fin (modulus * blocks))).sum_comp, Fintype.sum_prod_type_right]
  calc (∑ rest : Fin length → Fin (modulus * blocks), ∑ digit,
        (if value (Fin.cons digit rest) ≡ residue [MOD modulus] then 1 else 0)) * modulus
      = (∑ _rest : Fin length → Fin (modulus * blocks), blocks) * modulus := by
        rw [Finset.sum_congr rfl (fun rest _ => digits rest)]
    _ = (modulus * blocks) ^ length * blocks * modulus := by simp
    _ = (modulus * blocks) ^ (length + 1) := by rw [pow_succ, mul_assoc, mul_comm blocks]

end FiduciaRouting.Library.Equidistribution
