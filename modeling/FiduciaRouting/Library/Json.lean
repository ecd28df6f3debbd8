import Mathlib.Data.Rat.Defs
import Mathlib.Algebra.Order.Field.Rat
import Mathlib.Tactic.NormNum

/-! JSON values, and validation against the schemas whose objects are closed. -/

namespace FiduciaRouting.Library

/-- A number keeps how it was written: with neither fraction nor exponent, or
as a decimal `± digits · 10 ^ exponent`. Members keep their textual order. -/
inductive Json where
  | null
  | bool (value : Bool)
  | int (value : Int)
  | decimal (negative : Bool) (digits : Nat) (exponent : Int)
  | str (value : String)
  | arr (items : List Json)
  | obj (members : List (String × Json))

namespace Json

def number? : Json → Option ℚ
  | .int value => some value
  | .decimal negative digits exponent => some ((if negative then -1 else 1) * digits * 10 ^ exponent)
  | _ => none

/-- The value of a member. A repeated name has the value written last. -/
def get? (members : List (String × Json)) (name : String) : Option Json := members.reverse.lookup name

inductive Schema where
  | string
  | const (value : String)
  | enum (values : List String)
  | integer (minimum maximum : Int)
  | array (items : Schema)
  | object (properties : List (String × Schema)) (required : List String)

mutual
/-- A number with zero fractional part is an integer, however it is written. -/
def Schema.validates : Schema → Json → Bool
  | .string, .str _ => true
  | .const value, .str actual => actual == value
  | .enum values, .str actual => values.contains actual
  | .integer minimum maximum, json =>
    match json.number? with
    | some value => value.den == 1 && minimum ≤ value.num && value.num ≤ maximum
    | none => false
  | .array schema, .arr items => items.all (fun item => schema.validates item)
  | .object properties required, .obj members =>
    required.all (fun name => (get? members name).isSome) &&
      members.all (fun member => (get? members member.1).all (fun value => Schema.admits properties member.1 value))
  | _, _ => false
termination_by structural schema => schema

def Schema.admits : List (String × Schema) → String → Json → Bool
  | [], _, _ => false
  | (declared, schema) :: rest, name, value =>
    if declared == name then schema.validates value else Schema.admits rest name value
termination_by structural properties => properties
end

@[simp] theorem validates_string_iff {json : Json} : Schema.string.validates json = true ↔ ∃ text, json = .str text := by
  cases json <;> simp [Schema.validates]

@[simp] theorem validates_const_iff {value : String} {json : Json} :
    (Schema.const value).validates json = true ↔ json = .str value := by
  cases json <;> simp [Schema.validates]

@[simp] theorem validates_enum_iff {values : List String} {json : Json} :
    (Schema.enum values).validates json = true ↔ ∃ text ∈ values, json = .str text := by
  cases json <;> simp [Schema.validates]

theorem validates_integer_iff {minimum maximum : Int} {json : Json} :
    (Schema.integer minimum maximum).validates json = true ↔
      ∃ value : Int, json.number? = some (value : ℚ) ∧ minimum ≤ value ∧ value ≤ maximum := by
  simp only [Schema.validates]
  cases found : json.number? with
  | none => simp
  | some value =>
    simp only [Bool.and_eq_true, beq_iff_eq, decide_eq_true_eq, Option.some.injEq]
    constructor
    · intro integer
      obtain ⟨⟨whole, lower⟩, upper⟩ := integer
      exact ⟨value.num, (Rat.den_eq_one_iff value).mp whole |>.symm, lower, upper⟩
    · intro ranged
      obtain ⟨number, rfl, lower, upper⟩ := ranged
      exact ⟨⟨Rat.den_intCast number, lower⟩, upper⟩

theorem validates_array_iff {schema : Schema} {json : Json} :
    (Schema.array schema).validates json = true ↔
      ∃ items, json = .arr items ∧ ∀ item ∈ items, schema.validates item = true := by
  cases json <;> simp [Schema.validates]

theorem admits_iff {properties : List (String × Schema)} {name : String} {value : Json} :
    Schema.admits properties name value = true ↔
      ∃ schema, properties.lookup name = some schema ∧ schema.validates value = true := by
  induction properties with
  | nil => simp [Schema.admits]
  | cons property rest ih =>
    obtain ⟨declared, schema⟩ := property
    simp only [Schema.admits, List.lookup_cons]
    by_cases same : declared = name
    · simp [same]
    · have reversed : (name == declared) = false := beq_false_of_ne (fun equal => same equal.symm)
      simpa [same, reversed] using ih

theorem mem_of_get? {members : List (String × Json)} {name : String} {value : Json}
    (found : get? members name = some value) : (name, value) ∈ members := by
  obtain ⟨before, after, split, _⟩ := List.lookup_eq_some_iff.mp found
  have inside : (name, value) ∈ members.reverse := by rw [split]; simp
  exact List.mem_reverse.mp inside

theorem validates_object_iff {properties : List (String × Schema)} {required : List String} {json : Json} :
    (Schema.object properties required).validates json = true ↔
      ∃ members, json = .obj members ∧ (∀ name ∈ required, ∃ value, get? members name = some value) ∧
        ∀ name value, get? members name = some value →
          ∃ schema, properties.lookup name = some schema ∧ schema.validates value = true := by
  cases json with
  | obj members =>
    simp only [Schema.validates, Bool.and_eq_true, List.all_eq_true, Option.isSome_iff_exists, Json.obj.injEq,
      exists_eq_left', Option.all_eq_true, admits_iff]
    refine and_congr_right fun _ => ?_
    constructor
    · intro declared name value found
      exact declared _ (mem_of_get? found) value found
    · intro declared member _ value found
      exact declared member.1 value found
  | _ => simp [Schema.validates]

section Members

variable {properties : List (String × Schema)} {required : List String} {members : List (String × Json)} {name : String}

theorem member_present (valid : (Schema.object properties required).validates (.obj members) = true)
    (needed : name ∈ required) : ∃ value, get? members name = some value := by
  obtain ⟨_, same, present, _⟩ := validates_object_iff.mp valid
  cases same
  exact present name needed

/-- The object is closed: what can be read has been declared, and is valid. -/
theorem member_valid (valid : (Schema.object properties required).validates (.obj members) = true) {value : Json}
    (found : get? members name = some value) :
    ∃ schema, properties.lookup name = some schema ∧ schema.validates value = true := by
  obtain ⟨_, same, _, declared⟩ := validates_object_iff.mp valid
  cases same
  exact declared name value found

theorem member_of_declared (valid : (Schema.object properties required).validates (.obj members) = true)
    {schema : Schema} (declared : properties.lookup name = some schema) {value : Json}
    (found : get? members name = some value) : schema.validates value = true := by
  obtain ⟨own, property, holds⟩ := member_valid valid found
  cases declared.symm.trans property
  exact holds

end Members

end Json

end FiduciaRouting.Library
