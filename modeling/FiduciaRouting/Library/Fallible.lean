import Mathlib.Data.Option.Basic

/-! Computations that may fail with an error. Rules that read a successful result
back through the ways such computations are put together. -/

namespace FiduciaRouting.Library.Fallible

variable {α β ε : Type}

def okOr (value : Option α) (failure : ε) : Except ε α :=
  match value with
  | some value => .ok value
  | none => .error failure

theorem bind_eq_ok_iff {first : Except ε α} {next : α → Except ε β} {result : β} :
    (first >>= next) = .ok result ↔ ∃ value, first = .ok value ∧ next value = .ok result := by
  cases first with
  | error raised => simp [bind, Except.bind]
  | ok value => simp [bind, Except.bind]

theorem pure_eq_ok_iff {value result : α} : (pure value : Except ε α) = .ok result ↔ value = result := by
  simp [pure, Except.pure]

theorem okOr_eq_ok_iff {value : Option α} {failure : ε} {result : α} :
    okOr value failure = .ok result ↔ value = some result := by
  cases value with
  | none => simp [okOr]
  | some given => simp [okOr]

theorem mapError_eq_ok_iff {δ : Type} {computation : Except ε α} {translate : ε → δ} {result : α} :
    computation.mapError translate = .ok result ↔ computation = .ok result := by
  cases computation with
  | error raised => simp [Except.mapError]
  | ok value => simp [Except.mapError]

/-- An optional input read by a fallible reader: a present one has to be readable,
an absent one is left absent. -/
theorem mapM_eq_ok_iff {reader : α → Except ε β} {read : α → Option β}
    (reads : ∀ input output, reader input = .ok output ↔ read input = some output) {value : Option α} {result : Option β} :
    value.mapM reader = .ok result ↔ (∀ input, value = some input → (read input).isSome) ∧ result = value.bind read := by
  cases value with
  | none =>
    have absent : (none : Option α).mapM reader = pure none := rfl
    rw [absent, pure_eq_ok_iff, Option.bind_none]
    constructor
    · intro same
      exact ⟨fun _ missing => (nomatch missing), same.symm⟩
    · intro found
      exact found.2.symm
  | some input =>
    have present : (some input).mapM reader = reader input >>= fun output => pure (some output) := rfl
    simp only [present, bind_eq_ok_iff, pure_eq_ok_iff, reads, Option.some.injEq, forall_eq', Option.bind_some,
      Option.isSome_iff_exists]
    constructor
    · intro found
      obtain ⟨output, same, rfl⟩ := found
      exact ⟨⟨output, same⟩, same.symm⟩
    · intro found
      obtain ⟨⟨output, same⟩, rfl⟩ := found
      exact ⟨output, same, same.symm⟩

end FiduciaRouting.Library.Fallible
