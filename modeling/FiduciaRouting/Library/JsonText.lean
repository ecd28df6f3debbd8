import FiduciaRouting.Library.Framing
import FiduciaRouting.Library.Text
import Mathlib.Tactic.NormNum

/-! The ASCII text of JSON strings and integers. A character outside the printable
range is written by its UTF-16 code units, and what is written can be cut out of any
text that follows it. An encoder may refuse very long integers; here all have a text. -/

namespace FiduciaRouting.Library.JsonText
open Framing Text

def hexDigit (value : Nat) : Char := if value < 10 then Char.ofNat (0x30 + value) else Char.ofNat (0x57 + value)

/-- The code units of a character; beyond the basic plane there are two. -/
def units (c : Char) : List UInt16 :=
  let n := c.toNat
  if n < 0x10000 then [UInt16.ofNat n]
  else [UInt16.ofNat (0xD800 + (n - 0x10000) / 0x400), UInt16.ofNat (0xDC00 + (n - 0x10000) % 0x400)]

def escapeUnit (unit : UInt16) : List Char :=
  let n := unit.toNat
  ['\\', 'u', hexDigit (n / 0x1000 % 16), hexDigit (n / 0x100 % 16), hexDigit (n / 0x10 % 16), hexDigit (n % 16)]

/-- The characters with an escape of two characters, and its second one. -/
def escapes : List (Char × Char) :=
  [('\\', '\\'), ('"', '"'), ('\u0008', 'b'), ('\u000c', 'f'), ('\n', 'n'), ('\r', 'r'), ('\t', 't')]

def isPrintable (c : Char) : Bool := 0x20 ≤ c.toNat && c.toNat ≤ 0x7E

def escape (c : Char) : List Char :=
  match escapes.lookup c with
  | some letter => ['\\', letter]
  | none => if isPrintable c then [c] else (units c).flatMap escapeUnit

def encodeString (text : String) : List Char := '"' :: (text.toList.flatMap escape ++ ['"'])

def encodeInt (value : Int) : List Char :=
  match value with
  | .ofNat magnitude => Nat.toDigits 10 magnitude
  | .negSucc below => '-' :: Nat.toDigits 10 (below + 1)

theorem hexDigit_injective {first second : ℕ} (left : first < 16) (right : second < 16)
    (same : hexDigit first = hexDigit second) : first = second := by
  have table : ∀ first second : Fin 16, hexDigit first = hexDigit second → first = second := by decide
  exact congrArg Fin.val (table ⟨first, left⟩ ⟨second, right⟩ same)

theorem escapeUnit_delimited : SelfDelimiting escapeUnit := by
  intro first second left right same
  simp only [escapeUnit, List.cons_append, List.nil_append, List.cons.injEq] at same
  obtain ⟨_, _, one, two, three, four, rest⟩ := same
  have digits {m n : ℕ} (equal : hexDigit (m % 16) = hexDigit (n % 16)) : m % 16 = n % 16 :=
    hexDigit_injective (Nat.mod_lt _ (by omega)) (Nat.mod_lt _ (by omega)) equal
  refine ⟨UInt16.toNat_inj.mp ?_, rest⟩
  have boundFirst := first.toNat_lt
  have boundSecond := second.toNat_lt
  have := digits one
  have := digits two
  have := digits three
  have := digits four
  omega

/-- No character is coded by a unit that opens a pair. -/
theorem units_delimited : SelfDelimiting units := by
  have valid (c : Char) : c.toNat < 0xD800 ∨ (0xDFFF < c.toNat ∧ c.toNat < 0x110000) := c.valid
  have value {m n : ℕ} (left : m < 0x10000) (right : n < 0x10000) (same : UInt16.ofNat m = UInt16.ofNat n) : m = n := by
    have numbers := congrArg UInt16.toNat same
    rwa [UInt16.toNat_ofNat_of_lt' left, UInt16.toNat_ofNat_of_lt' right] at numbers
  intro first second left right same
  have boundFirst := valid first
  have boundSecond := valid second
  by_cases basic : first.toNat < 0x10000
  · by_cases plain : second.toNat < 0x10000
    · simp only [units, if_pos basic, if_pos plain, List.cons_append, List.nil_append, List.cons.injEq] at same
      exact ⟨Char.toNat_inj.mp (value basic plain same.1), same.2⟩
    · simp only [units, if_pos basic, if_neg plain, List.cons_append, List.nil_append, List.cons.injEq] at same
      have opened := value basic (by omega) same.1
      omega
  · by_cases plain : second.toNat < 0x10000
    · simp only [units, if_neg basic, if_pos plain, List.cons_append, List.nil_append, List.cons.injEq] at same
      have opened := value (by omega) plain same.1
      omega
    · simp only [units, if_neg basic, if_neg plain, List.cons_append, List.nil_append, List.cons.injEq] at same
      obtain ⟨high, low, rest⟩ := same
      have highs := value (by omega) (by omega) high
      have lows := value (by omega) (by omega) low
      exact ⟨Char.toNat_inj.mp (by omega), rest⟩

theorem units_nonempty (c : Char) : ∃ unit others, units c = unit :: others := by
  by_cases basic : c.toNat < 0x10000
  · exact ⟨_, _, if_pos basic⟩
  · exact ⟨_, _, if_neg basic⟩

/-- A character is written by its short escape, as itself, or by its code units. -/
inductive Written (c : Char) : List Char → Prop where
  | short {letter : Char} (listed : (c, letter) ∈ escapes) : Written c ['\\', letter]
  | plain (unlisted : escapes.lookup c = none) (printable : isPrintable c = true) : Written c [c]
  | coded (rest : List Char) (starts : (units c).flatMap escapeUnit = '\\' :: 'u' :: rest) :
      Written c ((units c).flatMap escapeUnit)

theorem escape_written (c : Char) : Written c (escape c) := by
  unfold escape
  split
  next letter found =>
    obtain ⟨before, after, same, _⟩ := List.lookup_eq_some_iff.mp found
    exact .short (by rw [same]; simp)
  next unlisted =>
    split
    next printable => exact .plain unlisted printable
    next =>
      obtain ⟨unit, others, same⟩ := units_nonempty c
      exact .coded _ (by rw [same]; rfl)

theorem escape_delimited : SelfDelimiting escape := by
  have injective : ∀ first ∈ escapes, ∀ second ∈ escapes, first.2 = second.2 → first.1 = second.1 := by decide
  have unreserved : ∀ entry ∈ escapes, entry.2 ≠ 'u' := by decide
  have backslash {c : Char} (unlisted : escapes.lookup c = none) : c ≠ '\\' := by
    rintro rfl
    cases unlisted
  intro first second left right same
  have writtenFirst := escape_written first
  have writtenSecond := escape_written second
  generalize escape first = one at same writtenFirst
  generalize escape second = two at same writtenSecond
  cases writtenFirst with
  | short listed =>
    cases writtenSecond with
    | short other =>
      simp only [List.cons_append, List.nil_append, List.cons.injEq, true_and] at same
      exact ⟨injective _ listed _ other same.1, same.2⟩
    | plain unlisted => exact False.elim (backslash unlisted (List.cons.inj same).1.symm)
    | coded rest starts =>
      rw [starts] at same
      simp only [List.cons_append, List.nil_append, List.cons.injEq, true_and] at same
      exact False.elim (unreserved _ listed same.1)
  | plain unlisted =>
    cases writtenSecond with
    | short other => exact False.elim (backslash unlisted (List.cons.inj same).1)
    | plain => exact List.cons.inj same
    | coded rest starts =>
      rw [starts] at same
      exact False.elim (backslash unlisted (List.cons.inj same).1)
  | coded rest starts =>
    cases writtenSecond with
    | short other =>
      rw [starts] at same
      simp only [List.cons_append, List.nil_append, List.cons.injEq, true_and] at same
      exact False.elim (unreserved _ other same.1.symm)
    | plain unlisted =>
      rw [starts] at same
      exact False.elim (backslash unlisted (List.cons.inj same).1.symm)
    | coded => exact units_delimited.flatMap escapeUnit_delimited same

theorem encodeString_delimited : SelfDelimiting encodeString := by
  have starts (c : Char) : ∃ first rest, escape c = first :: rest ∧ first ≠ '"' := by
    have written := escape_written c
    generalize escape c = text at written
    cases written with
    | short => exact ⟨_, _, rfl, by decide⟩
    | plain unlisted =>
      refine ⟨c, [], rfl, ?_⟩
      rintro rfl
      cases unlisted
    | coded rest opened => exact ⟨_, _, opened, by decide⟩
  have closed := escape_delimited.sequence starts
  intro first second left right same
  obtain ⟨chars, rest⟩ := closed (List.cons.inj same).2
  exact ⟨String.toList_inj.mp chars, rest⟩

theorem encodeInt_injective : Function.Injective encodeInt := by
  have unsigned (number : ℕ) (rest : List Char) : Nat.toDigits 10 number ≠ '-' :: rest := by
    intro same
    exact not_mem_toDigits rfl number (same ▸ List.mem_cons_self)
  intro first second same
  cases first with
  | ofNat magnitude =>
    cases second with
    | ofNat other => exact congrArg Int.ofNat (toDigits_injective same)
    | negSucc below => exact False.elim (unsigned _ _ same)
  | negSucc below =>
    cases second with
    | ofNat other => exact False.elim (unsigned _ _ same.symm)
    | negSucc other =>
      have numbers := toDigits_injective (List.cons.inj same).2
      exact congrArg Int.negSucc (Nat.succ.inj numbers)

theorem not_mem_encodeInt {mark : Char} (other : mark.isDigit = false) (unsigned : mark ≠ '-') (value : Int) :
    mark ∉ encodeInt value := by
  cases value with
  | ofNat magnitude => exact not_mem_toDigits other magnitude
  | negSucc below => exact List.not_mem_cons_of_ne_of_not_mem unsigned (not_mem_toDigits other _)

theorem encodeInt_delimited {mark : Char} (other : mark.isDigit = false) (unsigned : mark ≠ '-') :
    SelfDelimiting (fun value => encodeInt value ++ [mark]) :=
  SelfDelimiting.terminated encodeInt_injective (not_mem_encodeInt other unsigned)

/-- Characters of the printable ASCII range only, and so no line break. -/
def Printable (text : List Char) : Prop := ∀ c ∈ text, isPrintable c = true

theorem Printable.append {first second : List Char} (left : Printable first) (right : Printable second) :
    Printable (first ++ second) := by
  intro c member
  rcases List.mem_append.mp member with inFirst | inSecond
  · exact left c inFirst
  · exact right c inSecond

theorem Printable.newline {text : List Char} (printable : Printable text) : '\n' ∉ text := by
  intro member
  cases printable _ member

theorem toDigits_printable (number : ℕ) : Printable (Nat.toDigits 10 number) := by
  intro c member
  have digit := Char.isDigit_iff_toNat.mp (Nat.isDigit_of_mem_toDigits (by omega) (le_refl 10) member)
  have lower : '0'.toNat = 48 := rfl
  have upper : '9'.toNat = 57 := rfl
  simp only [isPrintable, Bool.and_eq_true, decide_eq_true_eq]
  omega

theorem encodeInt_printable (value : Int) : Printable (encodeInt value) := by
  cases value with
  | ofNat magnitude => exact toDigits_printable magnitude
  | negSucc below =>
    intro c member
    rcases List.mem_cons.mp member with rfl | digit
    · rfl
    · exact toDigits_printable _ c digit

theorem escapeUnit_printable (unit : UInt16) : Printable (escapeUnit unit) := by
  have table : ∀ digit : Fin 16, isPrintable (hexDigit digit) = true := by decide
  have printable (n : ℕ) : isPrintable (hexDigit (n % 16)) = true := table ⟨n % 16, Nat.mod_lt _ (by omega)⟩
  intro c member
  simp only [escapeUnit, List.mem_cons, List.not_mem_nil, or_false] at member
  rcases member with rfl | rfl | rfl | rfl | rfl | rfl
  · rfl
  · rfl
  · exact printable _
  · exact printable _
  · exact printable _
  · exact printable _

theorem escape_printable (c : Char) : Printable (escape c) := by
  have letters : ∀ entry ∈ escapes, isPrintable entry.2 = true := by decide
  have written := escape_written c
  generalize escape c = text at written
  cases written with
  | short listed =>
    intro other member
    simp only [List.mem_cons, List.not_mem_nil, or_false] at member
    rcases member with rfl | rfl
    · rfl
    · exact letters _ listed
  | plain unlisted printable =>
    intro other member
    rwa [List.mem_singleton.mp member]
  | coded =>
    intro other member
    obtain ⟨unit, _, inside⟩ := List.mem_flatMap.mp member
    exact escapeUnit_printable unit other inside

theorem encodeString_printable (text : String) : Printable (encodeString text) := by
  have quote : Printable ['"'] := by
    intro c member
    rw [List.mem_singleton.mp member]
    rfl
  have body : Printable (text.toList.flatMap escape) := by
    intro c member
    obtain ⟨own, _, inside⟩ := List.mem_flatMap.mp member
    exact escape_printable own c inside
  exact quote.append (body.append quote)

end FiduciaRouting.Library.JsonText
