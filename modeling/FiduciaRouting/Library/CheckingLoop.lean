import FiduciaRouting.Library.Fallible
import Mathlib.Algebra.BigOperators.Group.List.Basic
import Mathlib.Algebra.GroupWithZero.Nat
import Mathlib.Data.List.Nodup

/-! Loops that check their items and stop at the first failure: one that counts
the checks it makes, and one that refuses a name it has seen. -/

namespace FiduciaRouting.Library.CheckingLoop
open Fallible

variable {α β ε σ κ : Type} {step : σ → α → Except ε σ}

theorem foldlM_cons_eq_ok_iff {item : α} {items : List α} {start result : σ} :
    (item :: items).foldlM step start = .ok result ↔
      ∃ middle, step start item = .ok middle ∧ items.foldlM step middle = .ok result := by
  rw [List.foldlM_cons, bind_eq_ok_iff]

theorem foldlM_flatMap (inner : β → List α) (items : List β) (start : σ) :
    (items.flatMap inner).foldlM step start = items.foldlM (fun state item => (inner item).foldlM step state) start := by
  induction items generalizing start with
  | nil => rfl
  | cons item items ih =>
    rw [List.flatMap_cons, List.foldlM_append, List.foldlM_cons]
    exact congrArg (fun next => (inner item).foldlM step start >>= next) (funext ih)

/-- A loop whose items all pass counts them. -/
theorem count_eq_ok {step : ℕ → α → Except ε ℕ} {weight : ℕ} (steps : ∀ total item, step total item = .ok (total + weight))
    (items : List α) (total : ℕ) : items.foldlM step total = .ok (total + items.length * weight) := by
  induction items generalizing total with
  | nil => simp [pure, Except.pure]
  | cons item items ih =>
    rw [foldlM_cons_eq_ok_iff]
    refine ⟨_, steps total item, ?_⟩
    rw [ih, List.length_cons, Nat.succ_mul, Nat.add_assoc, Nat.add_comm weight]

/-- The loop completes when every item passes, and then it has added their weights. -/
theorem tally_eq_ok_iff {step : ℕ → α → Except ε ℕ} {passes : α → Prop} {weight : α → ℕ}
    (steps : ∀ total item result, step total item = .ok result ↔ passes item ∧ total + weight item = result)
    {items : List α} {total result : ℕ} :
    items.foldlM step total = .ok result ↔ (∀ item ∈ items, passes item) ∧ total + (items.map weight).sum = result := by
  induction items generalizing total with
  | nil => simp only [List.foldlM_nil, pure_eq_ok_iff, List.not_mem_nil, false_implies, implies_true, List.map_nil, List.sum_nil,
    Nat.add_zero, true_and]
  | cons item items ih =>
    simp only [foldlM_cons_eq_ok_iff, steps, ih, List.forall_mem_cons, List.map_cons, List.sum_cons]
    constructor
    · intro completed
      obtain ⟨_, ⟨passed, rfl⟩, others, same⟩ := completed
      exact ⟨⟨passed, others⟩, by rw [← same, Nat.add_assoc]⟩
    · intro condition
      obtain ⟨⟨passed, others⟩, same⟩ := condition
      exact ⟨_, ⟨passed, rfl⟩, others, by rw [← same, Nat.add_assoc]⟩

/-- The loop completes when the names of the items are pairwise different and were
not seen before. -/
theorem fresh_eq_ok_iff {seen : σ → List κ} {name : α → κ} {after : σ → α → σ}
    (steps : ∀ state item result, step state item = .ok result ↔ name item ∉ seen state ∧ after state item = result)
    (records : ∀ state item, seen (after state item) = name item :: seen state) {items : List α} {start result : σ} :
    items.foldlM step start = .ok result ↔
      (items.map name).Nodup ∧ (∀ item ∈ items, name item ∉ seen start) ∧ items.foldl after start = result := by
  induction items generalizing start with
  | nil => simp [pure_eq_ok_iff]
  | cons item items ih =>
    simp only [foldlM_cons_eq_ok_iff, steps, ih, List.map_cons, List.nodup_cons, List.forall_mem_cons, List.foldl_cons]
    constructor
    · intro completed
      obtain ⟨_, ⟨new, rfl⟩, distinct, others, same⟩ := completed
      simp only [records, List.mem_cons, not_or] at others
      refine ⟨⟨?_, distinct⟩, ⟨new, fun other member => (others other member).2⟩, same⟩
      intro repeated
      obtain ⟨other, member, equal⟩ := List.mem_map.mp repeated
      exact (others other member).1 equal
    · intro condition
      obtain ⟨⟨unique, distinct⟩, ⟨new, others⟩, same⟩ := condition
      refine ⟨_, ⟨new, rfl⟩, distinct, ?_, same⟩
      simp only [records, List.mem_cons, not_or]
      exact fun other member => ⟨fun equal => unique (List.mem_map.mpr ⟨other, member, equal⟩), others other member⟩

end FiduciaRouting.Library.CheckingLoop
