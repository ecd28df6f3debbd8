import Mathlib.Data.List.Basic

/-! Batches: the items are numbered and processed in order. An item is skipped,
produces one output, or fails the whole batch, and the outputs are kept until the
last item has been processed. -/

namespace FiduciaRouting.Library.Batch

variable {ι ο ε : Type} (process : ℕ → ι → Except ε (Option ο))

def run (number : ℕ) (outputs : List ο) : List ι → Except ε (List ο)
  | [] => .ok outputs
  | item :: rest => do
    match ← process number item with
    | none => run (number + 1) outputs rest
    | some output => run (number + 1) (outputs ++ [output]) rest

/-- A batch that no item fails, with the outputs it adds. -/
inductive Completes : ℕ → List ι → List ο → Prop where
  | done {number} : Completes number [] []
  | skipped {number item items outputs} (quiet : process number item = .ok none)
      (rest : Completes (number + 1) items outputs) : Completes number (item :: items) outputs
  | produced {number item items output outputs} (made : process number item = .ok (some output))
      (rest : Completes (number + 1) items outputs) : Completes number (item :: items) (output :: outputs)

variable {process}

theorem run_eq_ok_iff {number : ℕ} {kept all : List ο} {items : List ι} :
    run process number kept items = .ok all ↔ ∃ fresh, all = kept ++ fresh ∧ Completes process number items fresh := by
  induction items generalizing number kept with
  | nil =>
    constructor
    · intro returned
      cases returned
      exact ⟨[], (List.append_nil _).symm, .done⟩
    · intro completed
      obtain ⟨fresh, rfl, completes⟩ := completed
      cases completes
      rw [run, List.append_nil]
  | cons item rest ih =>
    cases made : process number item with
    | error raised =>
      refine iff_of_false (fun returned => ?_) (fun completed => ?_)
      · simp [run, made, bind, Except.bind] at returned
      · obtain ⟨fresh, _, completes⟩ := completed
        cases completes with
        | skipped quiet _ => cases made.symm.trans quiet
        | produced other _ => cases made.symm.trans other
    | ok output? =>
      cases output? with
      | none =>
        have step : run process number kept (item :: rest) = run process (number + 1) kept rest := by
          simp [run, made, bind, Except.bind]
        rw [step, ih]
        refine exists_congr fun fresh => and_congr_right fun _ => ?_
        constructor
        · exact .skipped made
        · intro completes
          cases completes with
          | skipped _ rest => exact rest
          | produced other _ => cases made.symm.trans other
      | some output =>
        have step : run process number kept (item :: rest) = run process (number + 1) (kept ++ [output]) rest := by
          simp [run, made, bind, Except.bind]
        rw [step, ih]
        constructor
        · intro completed
          obtain ⟨fresh, rfl, completes⟩ := completed
          exact ⟨output :: fresh, by rw [List.append_assoc, List.singleton_append], .produced made completes⟩
        · intro completed
          obtain ⟨fresh, rfl, completes⟩ := completed
          cases completes with
          | skipped quiet _ => cases made.symm.trans quiet
          | produced other rest =>
            cases made.symm.trans other
            exact ⟨_, by rw [List.append_assoc, List.singleton_append], rest⟩

/-- A batch completes when every item does under its own number. -/
theorem exists_completes_iff {number : ℕ} {items : List ι} :
    (∃ outputs, Completes process number items outputs) ↔
      ∀ entry ∈ items.zipIdx number, ∃ output?, process entry.2 entry.1 = .ok output? := by
  induction items generalizing number with
  | nil => exact iff_of_true ⟨[], .done⟩ (by simp)
  | cons item rest ih =>
    rw [List.zipIdx_cons, List.forall_mem_cons, ← ih]
    constructor
    · intro completed
      obtain ⟨outputs, completes⟩ := completed
      cases completes with
      | skipped quiet rest => exact ⟨⟨none, quiet⟩, _, rest⟩
      | produced made rest => exact ⟨⟨some _, made⟩, _, rest⟩
    · intro both
      obtain ⟨⟨output?, made⟩, outputs, rest⟩ := both
      cases output? with
      | none => exact ⟨outputs, .skipped made rest⟩
      | some output => exact ⟨output :: outputs, .produced made rest⟩

theorem exists_number_of_mem (number : ℕ) {items : List ι} {item : ι} (member : item ∈ items) :
    ∃ own, (item, own) ∈ items.zipIdx number := by
  obtain ⟨index, inside, same⟩ := List.getElem_of_mem member
  refine ⟨number + index, List.mem_zipIdx_iff_le_and_getElem?_sub.mpr ⟨Nat.le_add_right _ _, ?_⟩⟩
  rw [Nat.add_sub_cancel_left, List.getElem?_eq_getElem inside, same]

/-- When the items that are skipped are known, the outputs are those of the
others, one each and in their order. -/
theorem Completes.forall₂ {speaks : ι → Bool} {number : ℕ} {items : List ι} {outputs : List ο}
    (completes : Completes process number items outputs)
    (known : ∀ number item output?, process number item = .ok output? → output?.isSome = speaks item) :
    List.Forall₂ (fun entry output => process entry.2 entry.1 = .ok (some output))
      ((items.zipIdx number).filter (fun entry => speaks entry.1)) outputs := by
  induction completes with
  | done => exact .nil
  | skipped quiet _ ih =>
    have silent := known _ _ _ quiet
    simpa only [List.zipIdx_cons, List.filter_cons, ← silent, Option.isSome_none, Bool.false_eq_true, if_false] using ih
  | produced made _ ih =>
    have heard := known _ _ _ made
    simp only [List.zipIdx_cons, List.filter_cons, ← heard, Option.isSome_some, if_true]
    exact .cons made ih

theorem Completes.of_mem {number : ℕ} {items : List ι} {outputs : List ο}
    (completes : Completes process number items outputs) {output : ο} (member : output ∈ outputs) :
    ∃ entry ∈ items.zipIdx number, process entry.2 entry.1 = .ok (some output) := by
  induction completes with
  | done => cases member
  | skipped _ _ ih =>
    obtain ⟨entry, inside, made⟩ := ih member
    exact ⟨entry, by rw [List.zipIdx_cons]; exact List.mem_cons_of_mem _ inside, made⟩
  | produced made _ ih =>
    rw [List.zipIdx_cons]
    rcases List.mem_cons.mp member with same | later
    · exact ⟨_, List.mem_cons_self, by rw [same]; exact made⟩
    · obtain ⟨entry, inside, made⟩ := ih later
      exact ⟨entry, List.mem_cons_of_mem _ inside, made⟩

theorem Completes.mem_of_produced {number : ℕ} {items : List ι} {outputs : List ο}
    (completes : Completes process number items outputs) {entry : ι × ℕ} (inside : entry ∈ items.zipIdx number)
    {output : ο} (made : process entry.2 entry.1 = .ok (some output)) : output ∈ outputs := by
  induction completes with
  | done => cases inside
  | skipped quiet _ ih =>
    rw [List.zipIdx_cons] at inside
    rcases List.mem_cons.mp inside with same | later
    · rw [same] at made
      cases quiet.symm.trans made
    · exact ih later
  | produced other _ ih =>
    rw [List.zipIdx_cons] at inside
    rcases List.mem_cons.mp inside with same | later
    · rw [same] at made
      cases other.symm.trans made
      exact List.mem_cons_self
    · exact List.mem_cons_of_mem _ (ih later)

/-- Related lists whose items each decide a second relation to their outputs. -/
theorem forall₂_iff_forall {related second : ι → ο → Prop} {decides : ι → Prop} {items : List ι} {outputs : List ο}
    (pairs : List.Forall₂ related items outputs)
    (each : ∀ item ∈ items, ∀ output, related item output → (second item output ↔ decides item)) :
    List.Forall₂ second items outputs ↔ ∀ item ∈ items, decides item := by
  induction pairs with
  | nil => exact iff_of_true .nil (fun _ absent => nomatch absent)
  | @cons item output items outputs first _ ih =>
    obtain ⟨head, rest⟩ := List.forall_mem_cons.mp each
    rw [List.forall₂_cons, List.forall_mem_cons, head output first, ih rest]

theorem run_append (number : ℕ) (kept : List ο) (first second : List ι) :
    run process number kept (first ++ second) = run process number kept first >>= fun outputs =>
      run process (number + first.length) outputs second := by
  induction first generalizing number kept with
  | nil => rfl
  | cons item rest ih =>
    have next : number + 1 + rest.length = number + (item :: rest).length := by
      rw [List.length_cons]
      omega
    cases made : process number item with
    | error raised => simp [run, made, bind, Except.bind]
    | ok output? =>
      cases output? with
      | none => simpa [run, made, bind, Except.bind, next] using ih (number + 1) kept
      | some output => simpa [run, made, bind, Except.bind, next] using ih (number + 1) (kept ++ [output])

/-- Where a later number changes an item's output only by renumbering it, it changes
the outputs of a batch only so. -/
theorem completes_shift_iff {offset : ℕ} {renumber : ο → ο}
    (moved : ∀ number item output?, process (number + offset) item = .ok output? ↔
      ∃ own?, process number item = .ok own? ∧ own?.map renumber = output?) {number : ℕ} {items : List ι} {outputs : List ο} :
    Completes process (number + offset) items outputs ↔ ∃ own, Completes process number items own ∧ own.map renumber = outputs := by
  constructor
  · intro completes
    generalize shifted : number + offset = start at completes
    induction completes generalizing number with
    | done => exact ⟨[], .done, rfl⟩
    | skipped quiet _ ih =>
      subst shifted
      obtain ⟨own?, made, same⟩ := (moved _ _ _).mp quiet
      obtain ⟨own, rest, others⟩ := ih (Nat.add_right_comm number 1 offset)
      cases Option.map_eq_none_iff.mp same
      exact ⟨own, .skipped made rest, others⟩
    | produced other _ ih =>
      subst shifted
      obtain ⟨own?, made, same⟩ := (moved _ _ _).mp other
      obtain ⟨own, rest, rfl⟩ := ih (Nat.add_right_comm number 1 offset)
      obtain ⟨output, rfl, rfl⟩ := Option.map_eq_some_iff.mp same
      exact ⟨output :: own, .produced made rest, rfl⟩
  · intro completed
    obtain ⟨own, completes, rfl⟩ := completed
    induction completes with
    | done => exact .done
    | skipped quiet _ ih =>
      rw [Nat.add_right_comm] at ih
      exact .skipped ((moved _ _ _).mpr ⟨none, quiet, rfl⟩) ih
    | produced made _ ih =>
      rw [Nat.add_right_comm] at ih
      exact .produced ((moved _ _ _).mpr ⟨some _, made, rfl⟩) ih

end FiduciaRouting.Library.Batch
