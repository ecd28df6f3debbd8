import FiduciaRouting.Library.CaseFolding
import FiduciaRouting.Library.Fallible
import FiduciaRouting.Library.Json
import Mathlib.Data.Int.Log
import Mathlib.Data.Nat.Digits.Defs
import Mathlib.Data.Rat.Floor

/-! The built-in operations of Python on the values `json.loads` returns. An
operation that raises returns the exception. The text of `repr` is a parameter
wherever it is needed: it never fails, and nothing is decided by its result. -/

namespace FiduciaRouting.Library.Python

inductive Raised where
  | valueError (message : String)
  | keyError (key : String)
  | typeError (message : String)
  | attributeError (message : String)
  | overflowError (message : String)
  | zeroDivisionError (message : String)
  | assertionError
  | jsonDecodeError
  deriving DecidableEq, Repr

abbrev Py := Except Raised

/-- White space for `str.isspace`: the Unicode property and four separators. -/
def isspace (c : Char) : Bool := Text.isWhiteSpace c || (0x1C ≤ c.toNat && c.toNat ≤ 0x1F)

def strip (text : String) : String := Text.trimWhere isspace text

def casefold (text : String) : String := CaseFolding.casefold text

def floorDiv (a b : Int) : Py Int :=
  if b = 0 then .error (.zeroDivisionError "integer division or modulo by zero") else .ok (a.fdiv b)

def mod (a b : Int) : Py Int :=
  if b = 0 then .error (.zeroDivisionError "integer modulo by zero") else .ok (a.fmod b)

/-- The zeros of the decimal digits of Unicode 15.0, each the first of ten in a row. -/
def zeros : List Nat := [
  0x30, 0x660, 0x6F0, 0x7C0, 0x966, 0x9E6, 0xA66, 0xAE6, 0xB66, 0xBE6, 0xC66, 0xCE6, 0xD66, 0xDE6, 0xE50, 0xED0,
  0xF20, 0x1040, 0x1090, 0x17E0, 0x1810, 0x1946, 0x19D0, 0x1A80, 0x1A90, 0x1B50, 0x1BB0, 0x1C40, 0x1C50, 0xA620,
  0xA8D0, 0xA900, 0xA9D0, 0xA9F0, 0xAA50, 0xABF0, 0xFF10, 0x104A0, 0x10D30, 0x11066, 0x110F0, 0x11136, 0x111D0,
  0x112F0, 0x11450, 0x114D0, 0x11650, 0x116C0, 0x11730, 0x118E0, 0x11950, 0x11C50, 0x11D50, 0x11DA0, 0x11F50,
  0x16A60, 0x16AC0, 0x16B50, 0x1D7CE, 0x1D7D8, 0x1D7E2, 0x1D7EC, 0x1D7F6, 0x1E140, 0x1E2F0, 0x1E4F0, 0x1E950,
  0x1FBF0]

def digit? (c : Char) : Option Nat :=
  (zeros.find? (fun first => first ≤ c.toNat && c.toNat < first + 10)).map (fun first => c.toNat - first)

/-- Decimal digits, with at most one underscore between two of them. -/
def digits? : List Char → Option (List Nat)
  | [] => none
  | [c] => (digit? c).map (fun digit => [digit])
  | c :: '_' :: rest => do
    let digit ← digit? c
    let others ← digits? rest
    return digit :: others
  | c :: rest => do
    let digit ← digit? c
    let others ← digits? rest
    return digit :: others

/-- The sign and the digits of a base ten literal. The spaces around it are the
Unicode ones: unlike `strip`, the parser keeps the four separators. -/
def literal? (text : String) : Option (Bool × List Nat) :=
  match (Text.trim text).toList with
  | '-' :: rest => (digits? rest).map (fun digits => (true, digits))
  | '+' :: rest => (digits? rest).map (fun digits => (false, digits))
  | rest => (digits? rest).map (fun digits => (false, digits))

def maxStrDigits : Nat := 4300

def intOfText (repr : Json → String) (text : String) : Py Int :=
  match literal? text with
  | none => .error (.valueError s!"invalid literal for int() with base 10: {repr (.str text)}")
  | some (negative, digits) =>
    if maxStrDigits < digits.length then
      .error (.valueError s!"Exceeds the limit ({maxStrDigits} digits) for integer string conversion: value has {digits.length} digits; use sys.set_int_max_str_digits() to increase the limit")
    else
      let magnitude : Nat := digits.foldl (fun value digit => 10 * value + digit) 0
      .ok (if negative then -magnitude else magnitude)

def roundHalfEven (value : ℚ) : Int :=
  let lower := ⌊value⌋
  let rest := value - lower
  if rest < 1 / 2 ∨ (rest = 1 / 2 ∧ lower % 2 = 0) then lower else lower + 1

/-- The binary64 number nearest to a nonnegative rational, ties to even, or
nothing when it is rounded past the largest finite number. -/
def nearestDouble (magnitude : ℚ) : Option ℚ :=
  let exponent := max (Int.log 2 magnitude - 52) (-1074)
  let rounded := roundHalfEven (magnitude / 2 ^ exponent) * (2 : ℚ) ^ exponent
  if rounded < 2 ^ 1024 then some rounded else none

/-- A decimal is read as the nearest float, then truncated toward zero. -/
def intOfDecimal (negative : Bool) (digits : Nat) (exponent : Int) : Py Int :=
  match nearestDouble (digits * 10 ^ exponent) with
  | some magnitude => .ok (if negative then -⌊magnitude⌋ else ⌊magnitude⌋)
  | none => .error (.overflowError "cannot convert float infinity to integer")

def typeName : Json → String
  | .null => "NoneType"
  | .bool _ => "bool"
  | .int _ => "int"
  | .decimal _ _ _ => "float"
  | .str _ => "str"
  | .arr _ => "list"
  | .obj _ => "dict"

def str (repr : Json → String) : Json → String
  | .str text => text
  | value => repr value

def int (repr : Json → String) : Json → Py Int
  | .bool value => .ok (if value then 1 else 0)
  | .int value => .ok value
  | .decimal negative digits exponent => intOfDecimal negative digits exponent
  | .str text => intOfText repr text
  | value => .error (.typeError
      s!"int() argument must be a string, a bytes-like object or a real number, not '{typeName value}'")

/-- The values a `for` loop over a value visits: a string its characters, a
dictionary its keys. -/
def iterate : Json → Py (List Json)
  | .arr items => .ok items
  | .str text => .ok (text.toList.map (fun c => .str (String.singleton c)))
  | .obj members => .ok ((members.map Prod.fst).eraseDups.map .str)
  | value => .error (.typeError s!"'{typeName value}' object is not iterable")

theorem floorDiv_of_pos {a b : ℕ} (positive : 0 < b) : floorDiv a b = .ok ((a / b : ℕ) : Int) := by
  rw [floorDiv, if_neg (by omega), Int.fdiv_eq_ediv_of_nonneg _ (by omega), Int.natCast_ediv]

theorem mod_of_pos {a b : ℕ} (positive : 0 < b) : mod a b = .ok ((a % b : ℕ) : Int) := by
  rw [mod, if_neg (by omega), Int.fmod_eq_emod_of_nonneg _ (by omega), Int.natCast_emod]

theorem roundHalfEven_intCast (value : Int) : roundHalfEven value = value := by
  simp [roundHalfEven]

theorem roundHalfEven_nonneg {value : ℚ} (nonneg : 0 ≤ value) : 0 ≤ roundHalfEven value := by
  have lower : 0 ≤ ⌊value⌋ := Int.floor_nonneg.mpr nonneg
  simp only [roundHalfEven]
  split <;> omega

/-- Integers below two to the fifty-third are floats. -/
theorem nearestDouble_natCast {value : ℕ} (positive : 0 < value) (small : value < 2 ^ 53) :
    nearestDouble value = some (value : ℚ) := by
  have low : Nat.log 2 value < 53 := Nat.log_lt_of_lt_pow (by omega) small
  obtain ⟨shift, depth⟩ : ∃ shift : ℕ, (Nat.log 2 value : Int) - 52 = -(shift : Int) := ⟨52 - Nat.log 2 value, by omega⟩
  have exponent : max (Int.log 2 (value : ℚ) - 52) (-1074) = -(shift : Int) := by
    rw [Int.log_natCast, depth]
    omega
  have scaled : (value : ℚ) / 2 ^ (-(shift : Int)) = ((value * 2 ^ shift : ℤ) : ℚ) := by
    rw [zpow_neg, div_inv_eq_mul, zpow_natCast]
    push_cast
    rfl
  have nonzero : (2 : ℚ) ^ shift ≠ 0 := by positivity
  have exact : ((value * 2 ^ shift : ℤ) : ℚ) * 2 ^ (-(shift : Int)) = value := by
    rw [zpow_neg, zpow_natCast]
    push_cast
    field_simp
  have bounded : (value : ℚ) < 2 ^ 1024 := by
    calc (value : ℚ) < 2 ^ 53 := by exact_mod_cast small
      _ ≤ 2 ^ 1024 := pow_le_pow_right₀ (by norm_num) (by norm_num)
  simp only [nearestDouble, exponent, scaled, roundHalfEven_intCast, exact, if_pos bounded]

private theorem magnitude_nonneg (digits : ℕ) (exponent : Int) : (0 : ℚ) ≤ digits * 10 ^ exponent :=
  mul_nonneg (Nat.cast_nonneg _) (zpow_nonneg (by norm_num) _)

theorem int_of_number (repr : Json → String) {json : Json} {value : ℕ} (number : json.number? = some (value : ℚ))
    (positive : 0 < value) (small : value < 2 ^ 53) : int repr json = .ok value := by
  have above : (0 : ℚ) < value := by exact_mod_cast positive
  cases json with
  | int written =>
    simp only [Json.number?, Option.some.injEq] at number
    have same : written = value := by exact_mod_cast number
    rw [same, int]
  | decimal negative digits exponent =>
    simp only [Json.number?, Option.some.injEq] at number
    have magnitude := magnitude_nonneg digits exponent
    cases negative with
    | true =>
      simp only [if_true] at number
      nlinarith
    | false =>
      have plain : (digits : ℚ) * 10 ^ exponent = value := by simpa using number
      simp [int, intOfDecimal, plain, nearestDouble_natCast positive small]
  | _ => simp [Json.number?] at number

theorem nearestDouble_nonneg {magnitude rounded : ℚ} (nonneg : 0 ≤ magnitude)
    (nearest : nearestDouble magnitude = some rounded) : 0 ≤ rounded := by
  simp only [nearestDouble] at nearest
  split at nearest
  · cases nearest
    have scale (exponent : Int) : (0 : ℚ) ≤ 2 ^ exponent := zpow_nonneg (by norm_num) exponent
    exact mul_nonneg (by exact_mod_cast roundHalfEven_nonneg (div_nonneg nonneg (scale _))) (scale _)
  · cases nearest

theorem nearestDouble_zero : nearestDouble 0 = some 0 := by
  have whole : roundHalfEven 0 = 0 := roundHalfEven_intCast 0
  simp [nearestDouble, whole]

theorem int_nonpos {repr : Json → String} {json : Json} {number : ℚ} {value : Int} (written : json.number? = some number)
    (nonpositive : number ≤ 0) (converted : int repr json = .ok value) : value ≤ 0 := by
  cases json with
  | int literal =>
    simp only [Json.number?, Option.some.injEq] at written
    simp only [int, Except.ok.injEq] at converted
    rw [← converted]
    rw [← written] at nonpositive
    exact_mod_cast nonpositive
  | decimal negative digits exponent =>
    simp only [Json.number?, Option.some.injEq] at written
    have magnitude := magnitude_nonneg digits exponent
    simp only [int, intOfDecimal] at converted
    cases negative with
    | true =>
      split at converted
      next rounded nearest =>
        have floored : 0 ≤ ⌊rounded⌋ := Int.floor_nonneg.mpr (nearestDouble_nonneg magnitude nearest)
        simp only [if_true, Except.ok.injEq] at converted
        omega
      next overflow => cases converted
    | false =>
      have zero : (digits : ℚ) * 10 ^ exponent = 0 := by
        have plain : (digits : ℚ) * 10 ^ exponent = number := by simpa using written
        linarith
      rw [zero, nearestDouble_zero] at converted
      simpa using (Except.ok.inj converted).symm.le
  | _ => simp [Json.number?] at written

section Convertible

/-- An integer short enough to be read from text and to be written. -/
def Convertible (value : Int) : Prop := value.natAbs < 10 ^ maxStrDigits

private theorem two_pow_le {n : ℕ} (few : n ≤ maxStrDigits) : 2 ^ n ≤ 10 ^ maxStrDigits :=
  (Nat.pow_le_pow_left (by omega) n).trans (Nat.pow_le_pow_right (by omega) few)

theorem convertible_of_le {value bound : Int} (nonneg : 0 ≤ value) (below : value ≤ bound) (convertible : Convertible bound) :
    Convertible value := by
  have magnitude : value.natAbs ≤ bound.natAbs := by omega
  exact magnitude.trans_lt convertible

theorem convertible_of_word {value : ℕ} (small : value < 2 ^ 32) : Convertible value := by
  have room : 2 ^ 32 ≤ 10 ^ maxStrDigits := two_pow_le (by decide)
  rw [Convertible, Int.natAbs_natCast]
  exact small.trans_le room

private theorem digit_lt {c : Char} {digit : ℕ} (read : digit? c = some digit) : digit < 10 := by
  obtain ⟨first, found, rfl⟩ := Option.map_eq_some_iff.mp read
  have range := List.find?_some found
  simp only [Bool.and_eq_true, decide_eq_true_eq] at range
  omega

private theorem digits_lt {chars : List Char} {digits : List ℕ} (read : digits? chars = some digits) :
    ∀ digit ∈ digits, digit < 10 := by
  induction chars using digits?.induct generalizing digits with
  | case1 => cases read
  | case2 c =>
    obtain ⟨digit, first, rfl⟩ := Option.map_eq_some_iff.mp read
    intro own member
    rw [List.mem_singleton.mp member]
    exact digit_lt first
  | case3 c rest ih =>
    simp only [digits?, Option.bind_eq_bind, Option.bind_eq_some_iff, Option.pure_def, Option.some.injEq] at read
    obtain ⟨digit, first, others, following, rfl⟩ := read
    exact List.forall_mem_cons.mpr ⟨digit_lt first, ih following⟩
  | case4 c rest single underscored ih =>
    rw [digits?.eq_4 _ _ single underscored] at read
    simp only [Option.bind_eq_bind, Option.bind_eq_some_iff, Option.pure_def, Option.some.injEq] at read
    obtain ⟨digit, first, others, following, rfl⟩ := read
    exact List.forall_mem_cons.mpr ⟨digit_lt first, ih following⟩

theorem foldl_digits_lt {digits : List ℕ} (decimal : ∀ digit ∈ digits, digit < 10) :
    digits.foldl (fun value digit => 10 * value + digit) 0 < 10 ^ digits.length := by
  have reversed : digits.foldl (fun value digit => 10 * value + digit) 0 = Nat.ofDigits 10 digits.reverse := by
    rw [Nat.ofDigits_eq_foldr, List.foldr_reverse]
    simp only [Nat.cast_id, Nat.add_comm]
  rw [reversed, ← List.length_reverse]
  exact Nat.ofDigits_lt_base_pow_length (by omega) (fun digit member => decimal digit (List.mem_reverse.mp member))

theorem literal_digits_lt {text : String} {negative : Bool} {digits : List ℕ} (read : literal? text = some (negative, digits)) :
    ∀ digit ∈ digits, digit < 10 := by
  unfold literal? at read
  split at read
  all_goals
    obtain ⟨own, found, same⟩ := Option.map_eq_some_iff.mp read
    cases same
    exact digits_lt found

theorem intOfText_convertible {repr : Json → String} {text : String} {value : Int} (converted : intOfText repr text = .ok value) :
    Convertible value := by
  unfold intOfText at converted
  split at converted
  next => cases converted
  next negative digits read =>
    split at converted
    next => cases converted
    next short =>
      have magnitude := foldl_digits_lt (literal_digits_lt read)
      have room : 10 ^ digits.length ≤ 10 ^ maxStrDigits := Nat.pow_le_pow_right (by omega) (not_lt.mp short)
      cases converted
      unfold Convertible
      split
      · rw [Int.natAbs_neg, Int.natAbs_natCast]
        exact magnitude.trans_le room
      · rw [Int.natAbs_natCast]
        exact magnitude.trans_le room

theorem nearestDouble_lt {magnitude rounded : ℚ} (nearest : nearestDouble magnitude = some rounded) : rounded < 2 ^ 1024 := by
  simp only [nearestDouble] at nearest
  split at nearest
  next below =>
    cases nearest
    exact below
  next => cases nearest

theorem intOfDecimal_convertible {negative : Bool} {digits : ℕ} {exponent value : Int}
    (converted : intOfDecimal negative digits exponent = .ok value) : Convertible value := by
  unfold intOfDecimal at converted
  split at converted
  next rounded nearest =>
    have lower : 0 ≤ ⌊rounded⌋ := Int.floor_nonneg.mpr (nearestDouble_nonneg (magnitude_nonneg digits exponent) nearest)
    have upper : ⌊rounded⌋ < 2 ^ 1024 := by
      rw [Int.floor_lt]
      exact_mod_cast nearestDouble_lt nearest
    cases converted
    have size : ⌊rounded⌋.natAbs < 10 ^ maxStrDigits := by
      refine lt_of_lt_of_le ?_ (two_pow_le (show 1024 ≤ maxStrDigits by decide))
      zify
      rw [abs_of_nonneg lower]
      exact upper
    unfold Convertible
    split
    · rwa [Int.natAbs_neg]
    · exact size
  next => cases converted

theorem int_convertible {repr : Json → String} {json : Json} {value : Int}
    (loaded : ∀ written, json = .int written → Convertible written) (converted : int repr json = .ok value) :
    Convertible value := by
  cases json with
  | bool own =>
    cases converted
    cases own with
    | true => exact convertible_of_word (show 1 < 2 ^ 32 by decide)
    | false => exact convertible_of_word (show 0 < 2 ^ 32 by decide)
  | int written =>
    cases converted
    exact loaded _ rfl
  | decimal negative digits exponent =>
    rw [int] at converted
    exact intOfDecimal_convertible converted
  | str text =>
    rw [int] at converted
    exact intOfText_convertible converted
  | _ => cases converted

end Convertible

end FiduciaRouting.Library.Python
