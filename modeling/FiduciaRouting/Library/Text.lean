import Mathlib.Algebra.GroupWithZero.Nat
import Mathlib.Data.List.DropRight
import Mathlib.Data.List.Basic

/-! Strings as sequences of Unicode scalar values with their UTF-8 bytes, and
the operations on them that do not depend on a locale. -/

namespace FiduciaRouting.Library.Text

def bytes (text : String) : List UInt8 := text.toByteArray.data.toList

def isAscii (text : String) : Bool := text.toList.all (fun c => c.toNat < 128)

def isWhiteSpace (c : Char) : Bool :=
  let n := c.toNat
  (0x9 ≤ n && n ≤ 0xD) || n == 0x20 || n == 0x85 || n == 0xA0 || n == 0x1680 || (0x2000 ≤ n && n ≤ 0x200A) ||
    n == 0x2028 || n == 0x2029 || n == 0x202F || n == 0x205F || n == 0x3000

def trimWhere (drop : Char → Bool) (text : String) : String :=
  String.ofList ((text.toList.dropWhile drop).rdropWhile drop)

def trim (text : String) : String := trimWhere isWhiteSpace text

/-- `Char.toLower` changes the ASCII capitals only. -/
def toAsciiLowercase (text : String) : String := String.ofList (text.toList.map Char.toLower)

def eqIgnoreAsciiCase (first second : String) : Bool := toAsciiLowercase first == toAsciiLowercase second

def startsWith (text header : String) : Bool := header.toList.isPrefixOf text.toList

def stripPrefix (text header : String) : Option String := (text.toList.dropPrefix? header.toList).map String.ofList

/-- A decimal numeral below the limit, with an optional plus sign and no other. -/
def decimalBelow (limit : ℕ) (text : String) : Option ℕ :=
  let digits := if startsWith text "+" then text.toList.tail else text.toList
  if digits.isEmpty then none
  else digits.foldlM (fun value c =>
    let next := value * 10 + (c.toNat - '0'.toNat)
    if c.isDigit && next < limit then some next else none) 0

@[simp] theorem bytes_append (first second : String) : bytes (first ++ second) = bytes first ++ bytes second := by
  simp [bytes]

theorem bytes_ofList (chars : List Char) : bytes (String.ofList chars) = chars.flatMap String.utf8EncodeChar := by
  simp [bytes, List.utf8Encode]

theorem utf8ByteSize_eq_length (text : String) : text.utf8ByteSize = (bytes text).length := rfl

theorem utf8ByteSize_eq_sum (text : String) : text.utf8ByteSize = (text.toList.map Char.utf8Size).sum := by
  rw [utf8ByteSize_eq_length, ← String.ofList_toList (s := text), bytes_ofList, List.length_flatMap,
    String.toList_ofList]
  simp only [String.length_utf8EncodeChar]

def asciiText (word : List UInt8) : String := String.ofList (word.map Char.ofUInt8)

private theorem encode_ascii {byte : UInt8} (low : byte.toNat < 128) :
    String.utf8EncodeChar (Char.ofUInt8 byte) = [byte] := by
  have value : (Char.ofUInt8 byte).val.toNat = byte.toNat := UInt8.toNat_toUInt32 byte
  unfold String.utf8EncodeChar
  simp only [value]
  rw [if_pos (by omega)]
  simp

theorem bytes_asciiText {word : List UInt8} (low : ∀ byte ∈ word, byte.toNat < 128) : bytes (asciiText word) = word := by
  rw [asciiText, bytes_ofList]
  induction word with
  | nil => rfl
  | cons byte rest ih =>
    rw [List.map_cons, List.flatMap_cons, encode_ascii (low byte List.mem_cons_self),
      ih (fun other member => low other (List.mem_cons_of_mem _ member)), List.singleton_append]

theorem isAscii_asciiText {word : List UInt8} (low : ∀ byte ∈ word, byte.toNat < 128) :
    isAscii (asciiText word) = true := by
  simp only [isAscii, asciiText, String.toList_ofList, List.all_map, List.all_eq_true, Function.comp_apply,
    decide_eq_true_eq]
  intro byte member
  have value : (Char.ofUInt8 byte).toNat = byte.toNat := UInt8.toNat_toUInt32 byte
  rw [value]
  exact low byte member

theorem exists_utf8ByteSize_eq (size : ℕ) : ∃ text : String, text.utf8ByteSize = size := by
  have low : ∀ byte ∈ List.replicate size (97 : UInt8), byte.toNat < 128 := by
    intro byte member
    rw [List.eq_of_mem_replicate member]
    decide
  exact ⟨asciiText (List.replicate size 97), by rw [utf8ByteSize_eq_length, bytes_asciiText low, List.length_replicate]⟩

theorem stripPrefix_eq_some {text header rest : String} : stripPrefix text header = some rest ↔ text = header ++ rest := by
  rw [stripPrefix, Option.map_eq_some_iff, ← String.toList_inj, String.toList_append]
  simp only [List.dropPrefix?_eq_some_iff, beq_iff_eq]
  constructor
  · intro found
    obtain ⟨chars, ⟨front, same, rfl⟩, rfl⟩ := found
    rw [same, String.toList_ofList]
  · intro same
    exact ⟨rest.toList, ⟨_, same, rfl⟩, String.ofList_toList⟩

theorem startsWith_iff {text header : String} : startsWith text header = true ↔ ∃ rest, text = header ++ rest := by
  rw [startsWith, List.isPrefixOf_iff_prefix]
  constructor
  · intro initial
    obtain ⟨rest, same⟩ := initial
    exact ⟨String.ofList rest, by rw [← String.toList_inj, String.toList_append, String.toList_ofList, same]⟩
  · intro extended
    obtain ⟨rest, rfl⟩ := extended
    exact ⟨rest.toList, by rw [String.toList_append]⟩

theorem trimWhere_trimWhere (drop : Char → Bool) (text : String) :
    trimWhere drop (trimWhere drop text) = trimWhere drop text := by
  simp only [trimWhere, String.toList_ofList]
  have started : ((text.toList.dropWhile drop).rdropWhile drop).dropWhile drop =
      (text.toList.dropWhile drop).rdropWhile drop := by
    rw [List.dropWhile_eq_self_iff]
    intro nonempty
    have initial := List.rdropWhile_prefix drop (text.toList.dropWhile drop)
    rw [initial.getElem nonempty]
    exact List.dropWhile_get_zero_not drop text.toList (nonempty.trans_le initial.length_le)
  rw [started, List.rdropWhile_idempotent]

/-- Trimming that keeps the length keeps the text. -/
theorem trimWhere_eq_self {drop : Char → Bool} {text : String}
    (whole : (trimWhere drop text).toList.length = text.toList.length) : trimWhere drop text = text := by
  rw [trimWhere, String.toList_ofList] at whole
  have kept := (List.rdropWhile_prefix drop (text.toList.dropWhile drop)).length_le
  have started : text.toList.dropWhile drop = text.toList :=
    (List.dropWhile_suffix drop).eq_of_length_le (by omega)
  rw [started] at whole
  have ended : text.toList.rdropWhile drop = text.toList := (List.rdropWhile_prefix drop _).eq_of_length whole
  rw [trimWhere, started, ended, String.ofList_toList]

private theorem dropWhile_congr {first second : Char → Bool} {chars : List Char} (same : ∀ c ∈ chars, first c = second c) :
    chars.dropWhile first = chars.dropWhile second := by
  induction chars with
  | nil => rfl
  | cons c rest ih =>
    obtain ⟨head, tail⟩ := List.forall_mem_cons.mp same
    rw [List.dropWhile_cons, List.dropWhile_cons, head, ih tail]

/-- Trimming looks at the characters of the text only. -/
theorem trimWhere_congr {first second : Char → Bool} {text : String} (same : ∀ c ∈ text.toList, first c = second c) :
    trimWhere first text = trimWhere second text := by
  have started := dropWhile_congr same
  have inner : ∀ c ∈ (text.toList.dropWhile second).reverse, first c = second c := by
    intro c member
    exact same c ((List.dropWhile_sublist second).mem (List.mem_reverse.mp member))
  rw [trimWhere, trimWhere, started, List.rdropWhile, List.rdropWhile, dropWhile_congr inner]

theorem mem_of_mem_trimWhere {drop : Char → Bool} {text : String} {c : Char} (member : c ∈ (trimWhere drop text).toList) :
    c ∈ text.toList := by
  rw [trimWhere, String.toList_ofList] at member
  exact (List.dropWhile_sublist drop).mem ((List.rdropWhile_prefix drop _).subset member)

theorem isAscii_iff {text : String} : isAscii text = true ↔ ∀ c ∈ text.toList, c.toNat < 128 := by
  simp [isAscii]

@[simp] theorem toAsciiLowercase_length (text : String) : (toAsciiLowercase text).toList.length = text.toList.length := by
  rw [toAsciiLowercase, String.toList_ofList, List.length_map]

theorem isWhiteSpace_toLower (c : Char) : isWhiteSpace c.toLower = isWhiteSpace c := by
  unfold Char.toLower
  split
  next capital =>
    have lower : 65 ≤ c.toNat := UInt32.le_iff_toNat_le.mp capital.1
    have upper : c.toNat ≤ 90 := UInt32.le_iff_toNat_le.mp capital.2
    have small : (c.val + ('a'.val - 'A'.val)).toNat = c.toNat + 32 := by
      rw [UInt32.toNat_add]
      change (c.toNat + 32) % 2 ^ 32 = c.toNat + 32
      omega
    have letter (code : ℕ) (inside : 65 ≤ code ∧ code ≤ 122) :
        ((0x9 ≤ code && code ≤ 0xD) || code == 0x20 || code == 0x85 || code == 0xA0 || code == 0x1680 ||
          (0x2000 ≤ code && code ≤ 0x200A) || code == 0x2028 || code == 0x2029 || code == 0x202F || code == 0x205F ||
          code == 0x3000) = false := by
      simp only [Bool.or_eq_false_iff, Bool.and_eq_false_iff, beq_eq_false_iff_ne, decide_eq_false_iff_not]
      omega
    have other := letter c.toNat (by omega)
    have same := letter (c.val + ('a'.val - 'A'.val)).toNat (by omega)
    exact same.trans other.symm
  next => rfl

private theorem rdropWhile_map {α β : Type} (f : α → β) (drop : β → Bool) (items : List α) :
    (items.map f).rdropWhile drop = (items.rdropWhile (drop ∘ f)).map f := by
  rw [List.rdropWhile, ← List.map_reverse, List.dropWhile_map, ← List.map_reverse]
  rfl

/-- Lowercasing moves no white space, so it commutes with trimming. -/
theorem toAsciiLowercase_trim (text : String) : toAsciiLowercase (trim text) = trim (toAsciiLowercase text) := by
  have classes : isWhiteSpace ∘ Char.toLower = isWhiteSpace := funext isWhiteSpace_toLower
  simp only [toAsciiLowercase, trim, trimWhere, String.toList_ofList, List.dropWhile_map, rdropWhile_map, classes]

theorem not_mem_toDigits {mark : Char} (other : mark.isDigit = false) (number : ℕ) : mark ∉ Nat.toDigits 10 number := by
  intro member
  rw [Nat.isDigit_of_mem_toDigits (by omega) (le_refl 10) member] at other
  cases other

theorem toDigits_injective {first second : ℕ} (same : Nat.toDigits 10 first = Nat.toDigits 10 second) : first = second := by
  have numbers := congrArg (fun digits => Nat.ofDigitChars 10 digits 0) same
  simpa only [Nat.ofDigitChars_ten_toDigits] using numbers

private theorem le_ofDigitChars (digits : List Char) (value : ℕ) : value ≤ Nat.ofDigitChars 10 digits value := by
  induction digits generalizing value with
  | nil => rw [Nat.ofDigitChars_nil]
  | cons c rest ih =>
    rw [Nat.ofDigitChars_cons]
    exact (by omega : value ≤ 10 * value + (c.toNat - '0'.toNat)).trans (ih _)

/-- Reading digits never goes down, so a value below the limit stays below it on the way. -/
private theorem foldlM_digits {limit : ℕ} {digits : List Char} (decimal : ∀ c ∈ digits, c.isDigit = true) {value : ℕ}
    (below : Nat.ofDigitChars 10 digits value < limit) :
    digits.foldlM (fun value c =>
      let next := value * 10 + (c.toNat - '0'.toNat)
      if c.isDigit && next < limit then some next else none) value = some (Nat.ofDigitChars 10 digits value) := by
  induction digits generalizing value with
  | nil => rw [Nat.ofDigitChars_nil, List.foldlM_nil]; rfl
  | cons c rest ih =>
    rw [Nat.ofDigitChars_cons, Nat.mul_comm 10 value] at below ⊢
    have small := (le_ofDigitChars rest (value * 10 + (c.toNat - '0'.toNat))).trans_lt below
    have first := decimal c List.mem_cons_self
    simp only [List.foldlM_cons, first, decide_eq_true small, Bool.and_self, if_true]
    exact ih (fun other member => decimal other (List.mem_cons_of_mem _ member)) below

/-- A number below the limit is read back from its decimal form. -/
theorem decimalBelow_repr {limit value : ℕ} (below : value < limit) : decimalBelow limit (Nat.repr value) = some value := by
  have decimal : ∀ c ∈ Nat.toDigits 10 value, c.isDigit = true :=
    fun c member => Nat.isDigit_of_mem_toDigits (by omega) (le_refl 10) member
  have unsigned : startsWith (Nat.repr value) "+" = false := by
    rw [Bool.eq_false_iff]
    intro signed
    obtain ⟨rest, same⟩ := startsWith_iff.mp signed
    have chars := congrArg String.toList same
    rw [Nat.toList_repr, String.toList_append] at chars
    have sign := decimal '+' (by rw [chars]; exact List.mem_cons_self)
    cases sign
  have written : (Nat.toDigits 10 value).isEmpty = false := by simp
  have read : Nat.ofDigitChars 10 (Nat.toDigits 10 value) 0 = value := Nat.ofDigitChars_ten_toDigits
  simp only [decimalBelow, unsigned, Nat.toList_repr, written, Bool.false_eq_true, if_false]
  rw [foldlM_digits decimal (by rwa [read]), read]

end FiduciaRouting.Library.Text
