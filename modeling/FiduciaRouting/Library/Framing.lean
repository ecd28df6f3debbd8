import Mathlib.Data.List.Basic
import Mathlib.Algebra.BigOperators.Group.List.Basic
import Mathlib.Algebra.GroupWithZero.Nat

/-! Self-delimiting encodings of finite words. A message written after a header
can be cut at one place only, whatever the message contains, so neither the
header nor the message can imitate another header. -/

namespace FiduciaRouting.Library.Framing

variable {α : Type*} {ι κ : Type*}

def SelfDelimiting (encode : ι → List α) : Prop :=
  ∀ ⦃first second left right⦄, encode first ++ left = encode second ++ right → first = second ∧ left = right

variable {encode : ι → List α}

theorem SelfDelimiting.injective (delimited : SelfDelimiting encode) : Function.Injective encode := by
  intro first second same
  have appended : encode first ++ [] = encode second ++ [] := by rw [same]
  exact (delimited appended).1

theorem SelfDelimiting.prefix_free (delimited : SelfDelimiting encode) {first second : ι}
    (initial : encode first <+: encode second) : first = second := by
  obtain ⟨rest, extended⟩ := initial
  have appended : encode first ++ rest = encode second ++ [] := by rw [extended, List.append_nil]
  exact (delimited appended).1

theorem SelfDelimiting.framed (delimited : SelfDelimiting encode) (frame : List α) :
    SelfDelimiting (fun index => frame ++ encode index) := by
  intro first second left right same
  have cut : frame ++ (encode first ++ left) = frame ++ (encode second ++ right) := by
    simpa only [List.append_assoc] using same
  exact delimited (List.append_cancel_left cut)

theorem SelfDelimiting.followed (delimited : SelfDelimiting encode) (tail : List α) :
    SelfDelimiting (fun index => encode index ++ tail) := by
  intro first second left right same
  simp only [List.append_assoc] at same
  obtain ⟨equal, rest⟩ := delimited same
  exact ⟨equal, List.append_cancel_left rest⟩

/-- A word closed by a mark it does not contain ends at the first mark. -/
theorem cut_at_mark {mark : α} {first second left right : List α}
    (clearFirst : mark ∉ first) (clearSecond : mark ∉ second)
    (same : first ++ mark :: left = second ++ mark :: right) : first = second ∧ left = right := by
  induction first generalizing second with
  | nil =>
    cases second with
    | nil => exact ⟨rfl, (List.cons.inj same).2⟩
    | cons head tail => exact False.elim (clearSecond ((List.cons.inj same).1 ▸ List.mem_cons_self))
  | cons head tail ih =>
    cases second with
    | nil => exact False.elim (clearFirst ((List.cons.inj same).1 ▸ List.mem_cons_self))
    | cons other rest =>
      obtain ⟨rfl, tails⟩ := List.cons.inj same
      obtain ⟨rfl, closed⟩ := ih (fun member => clearFirst (List.mem_cons_of_mem _ member))
        (fun member => clearSecond (List.mem_cons_of_mem _ member)) tails
      exact ⟨rfl, closed⟩

/-- A word after the last mark is cut off there, whatever precedes the mark. -/
theorem cut_at_last_mark {mark : α} {first second left right : List α}
    (clearLeft : mark ∉ left) (clearRight : mark ∉ right)
    (same : first ++ mark :: left = second ++ mark :: right) : first = second ∧ left = right := by
  have mirrored : left.reverse ++ mark :: first.reverse = right.reverse ++ mark :: second.reverse := by
    simpa using congrArg List.reverse same
  obtain ⟨lefts, firsts⟩ := cut_at_mark (by rwa [List.mem_reverse]) (by rwa [List.mem_reverse]) mirrored
  exact ⟨List.reverse_inj.mp firsts, List.reverse_inj.mp lefts⟩

theorem SelfDelimiting.terminated {body : ι → List α} {mark : α}
    (injective : Function.Injective body) (clear : ∀ index, mark ∉ body index) :
    SelfDelimiting (fun index => body index ++ [mark]) := by
  intro first second left right same
  have cut : body first ++ mark :: left = body second ++ mark :: right := by
    simpa only [List.append_assoc, List.singleton_append] using same
  obtain ⟨equal, rest⟩ := cut_at_mark (clear first) (clear second) cut
  exact ⟨injective equal, rest⟩

/-- Positive weights make a prefix of equal total weight the whole word. -/
theorem eq_of_weight_eq {weight : α → ℕ} (positive : ∀ letter, 0 < weight letter)
    {first second left right : List α} (same : first ++ left = second ++ right)
    (balanced : (first.map weight).sum = (second.map weight).sum) : first = second ∧ left = right := by
  induction first generalizing second with
  | nil =>
    cases second with
    | nil => exact ⟨rfl, same⟩
    | cons head tail =>
      have heavy := positive head
      simp only [List.map_nil, List.sum_nil, List.map_cons, List.sum_cons] at balanced
      omega
  | cons head tail ih =>
    cases second with
    | nil =>
      have heavy := positive head
      simp only [List.map_nil, List.sum_nil, List.map_cons, List.sum_cons] at balanced
      omega
    | cons other rest =>
      obtain ⟨rfl, tails⟩ := List.cons.inj same
      simp only [List.map_cons, List.sum_cons, Nat.add_left_cancel_iff] at balanced
      obtain ⟨rfl, closed⟩ := ih tails balanced
      exact ⟨rfl, closed⟩

/-- A header announces a label; the payload only has to be delimited among the
items that carry the announced label. -/
theorem SelfDelimiting.announced (delimited : SelfDelimiting encode) (label : κ → ι) (payload : κ → List α)
    (within : ∀ ⦃first second left right⦄, label first = label second →
      payload first ++ left = payload second ++ right → first = second ∧ left = right) :
    SelfDelimiting (fun item => encode (label item) ++ payload item) := by
  intro first second left right same
  simp only [List.append_assoc] at same
  obtain ⟨announced, rest⟩ := delimited same
  exact within announced rest

section Sequences

/-- Two sequences of codes that read alike go on from one another. -/
theorem SelfDelimiting.comparable (delimited : SelfDelimiting encode) {first second : List ι} {left right : List α}
    (same : first.flatMap encode ++ left = second.flatMap encode ++ right) :
    (∃ rest, second = first ++ rest ∧ left = rest.flatMap encode ++ right) ∨
      ∃ rest, first = second ++ rest ∧ right = rest.flatMap encode ++ left := by
  induction first generalizing second with
  | nil => exact Or.inl ⟨second, rfl, same⟩
  | cons head tail ih =>
    cases second with
    | nil => exact Or.inr ⟨head :: tail, rfl, same.symm⟩
    | cons other others =>
      simp only [List.flatMap_cons, List.append_assoc] at same
      obtain ⟨rfl, tails⟩ := delimited same
      rcases ih tails with ⟨rest, rfl, remains⟩ | ⟨rest, rfl, remains⟩
      · exact Or.inl ⟨rest, rfl, remains⟩
      · exact Or.inr ⟨rest, rfl, remains⟩

/-- Codes over an alphabet that is coded in turn. -/
theorem SelfDelimiting.flatMap {outer : κ → List ι} (words : SelfDelimiting outer) (delimited : SelfDelimiting encode) :
    SelfDelimiting (fun item => (outer item).flatMap encode) := by
  intro first second left right same
  have equal : first = second := by
    rcases delimited.comparable same with ⟨rest, longer, _⟩ | ⟨rest, longer, _⟩
    · exact words.prefix_free ⟨rest, longer.symm⟩
    · exact (words.prefix_free ⟨rest, longer.symm⟩).symm
  subst equal
  exact ⟨rfl, List.append_cancel_left same⟩

theorem SelfDelimiting.append {second : κ → List α} (delimited : SelfDelimiting encode) (then_ : SelfDelimiting second) :
    SelfDelimiting (fun item : ι × κ => encode item.1 ++ second item.2) := by
  intro first other left right same
  simp only [List.append_assoc] at same
  obtain ⟨heads, rest⟩ := delimited same
  obtain ⟨tails, closed⟩ := then_ rest
  exact ⟨Prod.ext heads tails, closed⟩

/-- A sequence of codes ends at a mark with which none of them starts. -/
theorem SelfDelimiting.sequence {mark : α} (delimited : SelfDelimiting encode)
    (starts : ∀ index, ∃ first rest, encode index = first :: rest ∧ first ≠ mark) :
    SelfDelimiting (fun indices : List ι => indices.flatMap encode ++ [mark]) := by
  have ends (rest : List ι) {left right : List α} (same : mark :: left = rest.flatMap encode ++ mark :: right) : rest = [] := by
    cases rest with
    | nil => rfl
    | cons index others =>
      obtain ⟨first, tail, coded, other⟩ := starts index
      rw [List.flatMap_cons, coded] at same
      exact False.elim (other (List.cons.inj same).1.symm)
  intro first second left right same
  simp only [List.append_assoc, List.singleton_append] at same
  rcases delimited.comparable same with ⟨rest, rfl, remains⟩ | ⟨rest, rfl, remains⟩
  · cases ends rest remains
    exact ⟨(List.append_nil _).symm, (List.cons.inj remains).2⟩
  · cases ends rest remains
    exact ⟨List.append_nil _, (List.cons.inj remains).2.symm⟩

/-- Nonempty codes in a row are read back from the whole text. -/
theorem SelfDelimiting.flatMap_injective (delimited : SelfDelimiting encode) (nonempty : ∀ index, encode index ≠ []) :
    Function.Injective (fun indices : List ι => indices.flatMap encode) := by
  have ends (rest : List ι) (same : [] = rest.flatMap encode ++ []) : rest = [] := by
    cases rest with
    | nil => rfl
    | cons index others =>
      rw [List.append_nil, List.flatMap_cons] at same
      exact False.elim (nonempty index (List.append_eq_nil_iff.mp same.symm).1)
  intro first second same
  have whole : first.flatMap encode ++ [] = second.flatMap encode ++ [] := congrArg (· ++ []) same
  rcases delimited.comparable whole with ⟨rest, rfl, remains⟩ | ⟨rest, rfl, remains⟩
  · rw [ends rest remains, List.append_nil]
  · rw [ends rest remains, List.append_nil]

end Sequences

def Apart (first second : List α) : Prop := ∀ left right, first ++ left ≠ second ++ right

theorem Apart.of_take {first second : List α} {n : ℕ} (inFirst : n ≤ first.length) (inSecond : n ≤ second.length)
    (differ : first.take n ≠ second.take n) : Apart first second := by
  intro left right same
  apply differ
  have cut := congrArg (List.take n) same
  rwa [List.take_append_of_le_length inFirst, List.take_append_of_le_length inSecond] at cut

theorem Apart.append_left {first second : List α} (apart : Apart first second) (rest : List α) :
    Apart (first ++ rest) second := by
  intro left right same
  exact apart (rest ++ left) right (by rw [← same, List.append_assoc])

section Retrieval

variable [DecidableEq α] [DecidableEq ι]

theorem dropPrefix?_eq_some {word header rest : List α} :
    word.dropPrefix? header = some rest ↔ word = header ++ rest := by
  simp [List.dropPrefix?_eq_some_iff]

/-- Stripping one header from a framed message succeeds exactly for the
message's own label, and returns the message unchanged. -/
theorem SelfDelimiting.dropPrefix? (delimited : SelfDelimiting encode) (owner other : ι) (message : List α) :
    (encode other ++ message).dropPrefix? (encode owner) = if other = owner then some message else none := by
  split
  next same =>
    subst other
    exact dropPrefix?_eq_some.mpr rfl
  next different =>
    cases found : (encode other ++ message).dropPrefix? (encode owner) with
    | none => rfl
    | some rest => exact False.elim (different (delimited (dropPrefix?_eq_some.mp found)).1)

end Retrieval

end FiduciaRouting.Library.Framing
