import Mathlib.Algebra.Group.Int.Defs
import Mathlib.Data.Rat.Defs

/-! # JSON values

Values as they are stored in a JSONB column: integers are kept apart from other finite numbers, an object
lists each key once, and a timestamp stands for the text it is written as. `merge` is the JSONB
concatenation of two objects, `set` replaces or adds one key at the top level and `without?` removes one.
-/

inductive Json
  | null
  | bool (value : Bool)
  | int (value : ℤ)
  | float (value : ℚ)
  | str (value : String)
  | timestamp (value : ℤ)
  | arr (items : List Json)
  | obj (fields : List (String × Json))
deriving Inhabited

namespace Json

mutual

/-- Two values are compared constructor by constructor. -/
def same : Json → Json → Bool
  | .null, .null => true
  | .bool a, .bool b => a == b
  | .int a, .int b => a == b
  | .float a, .float b => a == b
  | .str a, .str b => a == b
  | .timestamp a, .timestamp b => a == b
  | .arr a, .arr b => sameItems a b
  | .obj a, .obj b => sameFields a b
  | _, _ => false

def sameItems : List Json → List Json → Bool
  | [], [] => true
  | a :: as, b :: bs => same a b && sameItems as bs
  | _, _ => false

def sameFields : List (String × Json) → List (String × Json) → Bool
  | [], [] => true
  | (k, a) :: as, (l, b) :: bs => k == l && same a b && sameFields as bs
  | _, _ => false

end

mutual

theorem same_iff : (a b : Json) → (same a b = true ↔ a = b)
  | .null, b => by cases b <;> simp [same]
  | .bool _, b => by cases b <;> simp [same]
  | .int _, b => by cases b <;> simp [same]
  | .float _, b => by cases b <;> simp [same]
  | .str _, b => by cases b <;> simp [same]
  | .timestamp _, b => by cases b <;> simp [same]
  | .arr items, b => by cases b <;> simp [same, sameItems_iff items]
  | .obj fields, b => by cases b <;> simp [same, sameFields_iff fields]

theorem sameItems_iff : (as bs : List Json) → (sameItems as bs = true ↔ as = bs)
  | [], bs => by cases bs <;> simp [sameItems]
  | a :: as, bs => by cases bs <;> simp [sameItems, same_iff a, sameItems_iff as]

theorem sameFields_iff : (as bs : List (String × Json)) → (sameFields as bs = true ↔ as = bs)
  | [], bs => by cases bs <;> simp [sameFields]
  | (_, a) :: as, bs => by cases bs <;> simp [sameFields, same_iff a, sameFields_iff as, Prod.ext_iff]

end

instance : DecidableEq Json := fun a b => decidable_of_iff _ (same_iff a b)

/-- The field of an object, or `none` if the value is no object or has no such key. -/
def get? (value : Json) (key : String) : Option Json :=
  match value with
  | .obj fields => (fields.find? fun field => field.1 = key).map (·.2)
  | _ => none

def asStr? : Json → Option String
  | .str value => some value
  | _ => none

/-- Indexing by a missing key gives null. -/
def index (value : Json) (key : String) : Json := (value.get? key).getD .null

def asI64? : Json → Option ℤ
  | .int value => if -2 ^ 63 ≤ value ∧ value < 2 ^ 63 then some value else none
  | _ => none

def asU64? : Json → Option ℕ
  | .int value => if 0 ≤ value ∧ value < 2 ^ 64 then some value.toNat else none
  | _ => none

/-- Any number as a double. -/
def asF64? : Json → Option ℚ
  | .int value => some value
  | .float value => some value
  | _ => none

/-- Replace the value of a key, or add the key. -/
def setField (key : String) (value : Json) : List (String × Json) → List (String × Json)
  | [] => [(key, value)]
  | field :: rest => if field.1 = key then (key, value) :: rest else field :: setField key value rest

/-- Replace or add one key of an object; any other value is left alone. -/
def set (target : Json) (key : String) (value : Json) : Json :=
  match target with
  | .obj fields => .obj (setField key value fields)
  | other => other

/-- Two objects are merged key by key, the second winning; other values are joined as arrays. -/
def merge : Json → Json → Json
  | .obj old, .obj new => new.foldl (fun merged field => merged.set field.1 field.2) (.obj old)
  | .arr old, .arr new => .arr (old ++ new)
  | .arr old, new => .arr (old ++ [new])
  | old, .arr new => .arr (old :: new)
  | old, new => .arr [old, new]

/-- Removing a key leaves the other keys of an object, and the other texts of an array; of anything else
the database refuses to remove it. -/
def without? (key : String) : Json → Option Json
  | .obj fields => some (.obj (fields.filter fun field => field.1 ≠ key))
  | .arr items => some (.arr (items.filter fun item => item ≠ .str key))
  | _ => none

/-- Removing one key leaves what the others read. -/
theorem get?_of_without? {key other : String} {value rest : Json} (removed : value.without? key = some rest)
    (distinct : other ≠ key) : rest.get? other = value.get? other := by
  cases value with
  | obj fields =>
    cases removed
    simp only [get?]
    rw [List.find?_filter]
    congr 2
    funext field
    by_cases same : field.1 = other
    · simp [same, distinct]
    · simp [same]
  | arr items =>
    cases removed
    rfl
  | _ => cases removed

theorem get?_set_self (fields : List (String × Json)) (key : String) (value : Json) :
    ((obj fields).set key value).get? key = some value := by
  simp only [set, get?]
  induction fields with
  | nil => simp [setField]
  | cons field rest ih =>
    by_cases same : field.1 = key
    · simp [setField, same]
    · simpa [setField, same] using ih

theorem get?_set_ne (target : Json) {key other : String} (value : Json) (distinct : other ≠ key) :
    (target.set key value).get? other = target.get? other := by
  cases target with
  | obj fields =>
    simp only [set, get?]
    congr 1
    induction fields with
    | nil => simp [setField, distinct.symm]
    | cons field rest ih =>
      by_cases same : field.1 = key
      · simp [setField, same, distinct.symm]
      · simp only [setField, if_neg same, List.find?_cons, ih]
  | _ => rfl

end Json
