import Mathlib.Order.Lattice
import Mathlib.Order.RelClasses

/-! A loop that keeps the best candidate so far together with its score, and
replaces it by a candidate of strictly smaller score. The comparison is only a
strict order: scores that compare with nothing neither replace nor are replaced. -/

namespace FiduciaRouting.Library.RunningBest

variable {α δ : Type} [LT δ] [DecidableLT δ]

def step (score : α → δ) (kept : α × δ) (candidate : α) : α × δ :=
  if score candidate < kept.2 then (candidate, score candidate) else kept

def run (score : α → δ) (best : α) (candidates : List α) : α × δ := candidates.foldl (step score) (best, score best)

variable {score : α → δ} {best candidate : α} {candidates : List α}

theorem run_cons_of_lt (smaller : score candidate < score best) :
    run score best (candidate :: candidates) = run score candidate candidates := by
  rw [run, List.foldl_cons, step, if_pos smaller]
  rfl

theorem run_cons_of_not_lt (kept : ¬ score candidate < score best) :
    run score best (candidate :: candidates) = run score best candidates := by
  rw [run, List.foldl_cons, step, if_neg kept]
  rfl

section StrictOrder

variable [IsTrans δ (fun first second => first < second)]

theorem run_eq_or_lt (score : α → δ) (best : α) (candidates : List α) :
    (run score best candidates).1 = best ∨ score (run score best candidates).1 < score best := by
  induction candidates generalizing best with
  | nil => exact Or.inl rfl
  | cons candidate rest ih =>
    by_cases smaller : score candidate < score best
    · rw [run_cons_of_lt smaller]
      rcases ih candidate with same | below
      · exact Or.inr (by rwa [same])
      · exact Or.inr (trans_of (fun first second => first < second) below smaller)
    · rw [run_cons_of_not_lt smaller]
      exact ih best

variable [Std.Irrefl (fun first second : δ => first < second)]

/-- Nothing the loop has seen scores below what it keeps. -/
theorem not_lt_run (score : α → δ) (best : α) (candidates : List α) :
    ∀ seen ∈ best :: candidates, ¬ score seen < score (run score best candidates).1 := by
  induction candidates generalizing best with
  | nil =>
    intro seen member
    rw [List.mem_singleton.mp member]
    exact irrefl_of (fun first second : δ => first < second) _
  | cons candidate rest ih =>
    intro seen member below
    by_cases smaller : score candidate < score best
    · rw [run_cons_of_lt smaller] at below
      rcases List.mem_cons.mp member with rfl | later
      · exact ih candidate candidate List.mem_cons_self (trans_of (fun first second => first < second) smaller below)
      · exact ih candidate seen later below
    · rw [run_cons_of_not_lt smaller] at below
      rcases List.mem_cons.mp member with rfl | later
      · exact ih seen seen List.mem_cons_self below
      · rcases List.mem_cons.mp later with rfl | further
        · -- What has replaced the best scores below it, and so would the candidate.
          rcases run_eq_or_lt score best rest with same | lower
          · rw [same] at below
            exact smaller below
          · exact smaller (trans_of (fun first second => first < second) below lower)
        · exact ih best seen (List.mem_cons_of_mem _ further) below

end StrictOrder

/-- Over a linear order the loop keeps the first of the smallest scores. -/
theorem run_earliest {δ : Type} [LinearOrder δ] (score : α → δ) (best : α) (candidates : List α) :
    ∃ before after, best :: candidates = before ++ (run score best candidates).1 :: after ∧
      ∀ seen ∈ before, score (run score best candidates).1 < score seen := by
  induction candidates generalizing best with
  | nil => exact ⟨[], [], rfl, fun _ absent => nomatch absent⟩
  | cons candidate rest ih =>
    by_cases smaller : score candidate < score best
    · rw [run_cons_of_lt smaller]
      obtain ⟨before, after, split, above⟩ := ih candidate
      refine ⟨best :: before, after, by rw [split, List.cons_append], ?_⟩
      intro seen member
      rcases List.mem_cons.mp member with rfl | later
      · have least : ¬ score candidate < score (run score candidate rest).1 := not_lt_run score candidate rest candidate List.mem_cons_self
        exact (not_lt.mp least).trans_lt smaller
      · exact above seen later
    · rw [run_cons_of_not_lt smaller]
      obtain ⟨before, after, split, above⟩ := ih best
      cases before with
      | nil =>
        obtain ⟨same, _⟩ := List.cons.inj split
        exact ⟨[], candidate :: rest, by rw [← same, List.nil_append], fun _ absent => nomatch absent⟩
      | cons head front =>
        obtain ⟨rfl, tails⟩ := List.cons.inj split
        refine ⟨best :: candidate :: front, after, congrArg (fun tail => best :: candidate :: tail) tails, ?_⟩
        intro seen member
        have lower := above best List.mem_cons_self
        rcases List.mem_cons.mp member with rfl | later
        · exact lower
        · rcases List.mem_cons.mp later with rfl | further
          · exact lower.trans_le (not_lt.mp smaller)
          · exact above seen (List.mem_cons_of_mem _ further)

end FiduciaRouting.Library.RunningBest
