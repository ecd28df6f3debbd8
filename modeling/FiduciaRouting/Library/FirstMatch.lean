import Mathlib.Data.List.Basic

/-! The first entry of a list that satisfies a test, as a property of the entries
up to it, and when two tests select the same position with a default of zero. -/

namespace FiduciaRouting.Library.FirstMatch

variable {α : Type}

/-- The entry at the position satisfies the test and none before it does. -/
def Selects (test : α → Bool) (entries : List α) (position : ℕ) : Prop :=
  (∃ entry, entries[position]? = some entry ∧ test entry = true) ∧
    ∀ earlier < position, ∀ entry, entries[earlier]? = some entry → test entry = false

variable {test other : α → Bool} {entries : List α} {position : ℕ}

theorem findIdx?_eq_some_iff : entries.findIdx? test = some position ↔ Selects test entries position := by
  rw [List.findIdx?_eq_some_iff_getElem]
  constructor
  · intro found
    obtain ⟨inside, holds, before⟩ := found
    refine ⟨⟨entries[position], List.getElem?_eq_getElem inside, holds⟩, ?_⟩
    intro earlier precedes entry read
    rw [List.getElem?_eq_getElem (Nat.lt_trans precedes inside), Option.some.injEq] at read
    rw [← read]
    exact Bool.not_eq_true _ |>.mp (before earlier precedes)
  · intro first
    obtain ⟨⟨entry, read, holds⟩, before⟩ := first
    obtain ⟨inside, same⟩ := List.getElem?_eq_some_iff.mp read
    refine ⟨inside, by rw [same]; exact holds, ?_⟩
    intro earlier precedes
    rw [before earlier precedes _ (List.getElem?_eq_getElem (Nat.lt_trans precedes inside))]
    exact Bool.false_ne_true

theorem Selects.lt_length (first : Selects test entries position) : position < entries.length := by
  obtain ⟨⟨entry, read, _⟩, _⟩ := first
  exact (List.getElem?_eq_some_iff.mp read).1

theorem findIdx?_getD_lt (nonempty : entries ≠ []) : (entries.findIdx? test).getD 0 < entries.length := by
  cases found : entries.findIdx? test with
  | none => exact List.length_pos_iff.mpr nonempty
  | some position => exact (findIdx?_eq_some_iff.mp found).lt_length

theorem findIdx?_getD_eq_iff (nonzero : position ≠ 0) :
    (entries.findIdx? test).getD 0 = position ↔ Selects test entries position := by
  rw [← findIdx?_eq_some_iff]
  cases entries.findIdx? test with
  | none => exact iff_of_false (fun zero => nonzero zero.symm) (fun absurd => nomatch absurd)
  | some found => rw [Option.getD_some, Option.some.injEq]

theorem findIdx?_getD_eq_findIdx?_getD_iff :
    (entries.findIdx? test).getD 0 = (entries.findIdx? other).getD 0 ↔
      ∀ position ≠ 0, (Selects test entries position ↔ Selects other entries position) := by
  constructor
  · intro same position nonzero
    rw [← findIdx?_getD_eq_iff nonzero, same, findIdx?_getD_eq_iff nonzero]
  · intro agree
    by_cases zero : (entries.findIdx? test).getD 0 = 0
    · by_contra different
      have nonzero : (entries.findIdx? other).getD 0 ≠ 0 := fun equal => different (zero.trans equal.symm)
      have second : Selects other entries _ := (findIdx?_getD_eq_iff nonzero).mp rfl
      exact different ((findIdx?_getD_eq_iff nonzero).mpr ((agree _ nonzero).mpr second))
    · have first : Selects test entries _ := (findIdx?_getD_eq_iff zero).mp rfl
      exact ((findIdx?_getD_eq_iff zero).mpr ((agree _ zero).mp first)).symm

theorem findIdx?_congr (same : ∀ entry ∈ entries, test entry = other entry) : entries.findIdx? test = entries.findIdx? other := by
  induction entries with
  | nil => rfl
  | cons entry rest ih =>
    obtain ⟨head, tail⟩ := List.forall_mem_cons.mp same
    rw [List.findIdx?_cons, List.findIdx?_cons, head, ih tail]

/-- Where at most one entry can satisfy the test, that entry alone decides. -/
theorem findIdx?_of_unique {entry : α} (read : entries[position]? = some entry)
    (unique : ∀ (index : ℕ) (item : α), entries[index]? = some item → test item = true → index = position) :
    entries.findIdx? test = if test entry = true then some position else none := by
  by_cases holds : test entry = true
  · rw [if_pos holds, findIdx?_eq_some_iff]
    refine ⟨⟨entry, read, holds⟩, ?_⟩
    intro earlier before item found
    by_contra accepted
    exact Nat.ne_of_lt before (unique earlier item found (by simpa using accepted))
  · rw [if_neg holds, List.findIdx?_eq_none_iff]
    intro item member
    obtain ⟨index, inside, same⟩ := List.getElem_of_mem member
    have found : entries[index]? = some item := by rw [List.getElem?_eq_getElem inside, same]
    by_contra accepted
    have met : test item = true := by simpa using accepted
    cases unique index item found met
    cases read.symm.trans found
    exact holds met

end FiduciaRouting.Library.FirstMatch
