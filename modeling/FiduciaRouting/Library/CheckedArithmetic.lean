import Mathlib.Data.UInt

/-! Fixed-width arithmetic that stops instead of wrapping. A computation that
returns a value here returns the value of the same expression over unbounded
numbers; where it stops, a build without overflow checks would go on with a
different number. -/

namespace FiduciaRouting.Library.CheckedArithmetic

variable {α : Type}

inductive Panic where
  | assertion (message : String)
  | addOverflow
  | subOverflow
  | mulOverflow
  | divByZero
  | remByZero
  deriving DecidableEq, Repr

abbrev Checked := Except Panic

def assert (condition : Bool) (message : String) : Checked Unit :=
  if condition then .ok () else .error (.assertion message)

def add (a b : UInt32) : Checked UInt32 := if a.toNat + b.toNat < 2 ^ 32 then .ok (a + b) else .error .addOverflow

def sub (a b : UInt32) : Checked UInt32 := if b.toNat ≤ a.toNat then .ok (a - b) else .error .subOverflow

def mul (a b : UInt32) : Checked UInt32 := if a.toNat * b.toNat < 2 ^ 32 then .ok (a * b) else .error .mulOverflow

def div (a b : UInt32) : Checked UInt32 := if b = 0 then .error .divByZero else .ok (a / b)

def rem (a b : UInt32) : Checked UInt32 := if b = 0 then .error .remByZero else .ok (a % b)

/-- The computation finishes, with the word that denotes the number. -/
def Returns (run : Checked UInt32) (value : ℕ) : Prop := ∃ word, run = .ok word ∧ word.toNat = value

theorem Returns.pure (word : UInt32) : Returns (.ok word) word.toNat := ⟨word, rfl, rfl⟩

theorem Returns.unique {run : Checked UInt32} {first second : ℕ} (left : Returns run first)
    (right : Returns run second) : first = second := by
  obtain ⟨word, returned, rfl⟩ := left
  obtain ⟨other, same, rfl⟩ := right
  cases returned.symm.trans same
  rfl

theorem Returns.eq_ok {run : Checked UInt32} {value : ℕ} (returns : Returns run value) :
    run = .ok (UInt32.ofNat value) := by
  obtain ⟨word, returned, rfl⟩ := returns
  rw [returned, UInt32.ofNat_toNat]

theorem returns_ok_iff {word : UInt32} {value : ℕ} : Returns (.ok word) value ↔ word.toNat = value := by
  constructor
  · intro returns
    obtain ⟨other, same, denotes⟩ := returns
    cases same
    exact denotes
  · intro denotes
    rw [← denotes]
    exact Returns.pure word

theorem returns_eq_iff {first second : Checked UInt32} {left right : ℕ} (leftReturns : Returns first left)
    (rightReturns : Returns second right) : first = second ↔ left = right := by
  constructor
  · intro same
    rw [same] at leftReturns
    exact leftReturns.unique rightReturns
  · intro same
    rw [leftReturns.eq_ok, rightReturns.eq_ok, same]

theorem Returns.bind {first : Checked UInt32} {next : UInt32 → Checked UInt32} {middle value : ℕ}
    (returns : Returns first middle) (rest : ∀ word, word.toNat = middle → Returns (next word) value) :
    Returns (first >>= next) value := by
  obtain ⟨word, rfl, denotes⟩ := returns
  exact rest word denotes

theorem assert_bind {condition : Bool} (holds : condition = true) (message : String) (next : Unit → Checked α) :
    (assert condition message >>= next) = next () := by
  rw [assert, if_pos holds]
  rfl

theorem assert_bind_error {condition : Bool} (fails : condition = false) (message : String) (next : Unit → Checked α) :
    (assert condition message >>= next) = .error (.assertion message) := by
  rw [assert, fails]
  rfl

theorem add_returns {a b : UInt32} (fits : a.toNat + b.toNat < 2 ^ 32) : Returns (add a b) (a.toNat + b.toNat) :=
  ⟨a + b, if_pos fits, (UInt32.toNat_add a b).trans (Nat.mod_eq_of_lt fits)⟩

theorem sub_returns {a b : UInt32} (below : b.toNat ≤ a.toNat) : Returns (sub a b) (a.toNat - b.toNat) :=
  ⟨a - b, if_pos below, UInt32.toNat_sub_of_le _ _ below⟩

theorem mul_returns {a b : UInt32} (fits : a.toNat * b.toNat < 2 ^ 32) : Returns (mul a b) (a.toNat * b.toNat) :=
  ⟨a * b, if_pos fits, (UInt32.toNat_mul a b).trans (Nat.mod_eq_of_lt fits)⟩

theorem div_returns {a b : UInt32} (nonzero : b.toNat ≠ 0) : Returns (div a b) (a.toNat / b.toNat) :=
  ⟨a / b, if_neg (fun zero => nonzero (by rw [zero]; rfl)), UInt32.toNat_div a b⟩

theorem rem_returns {a b : UInt32} (nonzero : b.toNat ≠ 0) : Returns (rem a b) (a.toNat % b.toNat) :=
  ⟨a % b, if_neg (fun zero => nonzero (by rw [zero]; rfl)), UInt32.toNat_mod a b⟩

end FiduciaRouting.Library.CheckedArithmetic
