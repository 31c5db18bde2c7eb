import Mathlib.Data.Int.Init
import Mathlib.Data.Rat.Defs
import Mathlib.Algebra.Order.Ring.Rat

/-! # Machine numbers

Signed and unsigned machine integers are integers brought back into their range by wrapping, as the
release build does. A double is an exact rational or one of the special values: the special values
follow the usual rules, rounding is left out.
-/

/-- The largest 32-bit signed integer. -/
def i32Max : ℤ := 2 ^ 31 - 1

/-- A 32-bit signed integer. -/
def IsI32 (value : ℤ) : Prop := -2 ^ 31 ≤ value ∧ value ≤ i32Max

instance (value : ℤ) : Decidable (IsI32 value) := inferInstanceAs (Decidable (_ ∧ _))

/-- A 64-bit signed integer. -/
def IsI64 (value : ℤ) : Prop := -2 ^ 63 ≤ value ∧ value < 2 ^ 63

/-- Bring an integer into the 32-bit signed range by wrapping. -/
def wrapI32 (value : ℤ) : ℤ := value.bmod (2 ^ 32)

/-- Bring a natural number into the 64-bit unsigned range by wrapping. -/
def wrapU64 (value : ℕ) : ℕ := value % 2 ^ 64

/-- Read a signed integer as a 64-bit unsigned one, as a cast does. -/
def castU64 (value : ℤ) : ℕ := (value % 2 ^ 64).toNat

/-- Read an integer as a 64-bit signed one, as a cast does. -/
def castI64 (value : ℤ) : ℤ := value.bmod (2 ^ 64)

/-- Multiply and stop at the largest 64-bit unsigned integer. -/
def saturatingMulU64 (a b : ℕ) : ℕ := min (2 ^ 64 - 1) (a * b)

/-- Subtract and stop at the ends of the 32-bit signed range. -/
def saturatingSubI32 (a b : ℤ) : ℤ := max (-2 ^ 31) (min i32Max (a - b))

/-- A checked conversion to a 32-bit signed integer. -/
def tryIntoI32 (value : ℤ) : Option ℤ := if IsI32 value then some value else none

/-- A double without rounding. -/
inductive F64
  | finite (value : ℚ)
  | infinite (negative : Bool)
  | nan
deriving DecidableEq, Inhabited

namespace F64

def IsFinite : F64 → Prop
  | .finite _ => True
  | _ => False

def ofInt (value : ℤ) : F64 := .finite value

/-- The number that a double is; the special values count as zero. -/
def value : F64 → ℚ
  | .finite value => value
  | _ => 0

/-- Division: by zero it is infinite, or not a number when the dividend is zero too. -/
def div : F64 → F64 → F64
  | .finite a, .finite b =>
    if b = 0 then (if a = 0 then .nan else .infinite (decide (a < 0))) else .finite (a / b)
  | .finite _, .infinite _ => .finite 0
  | .infinite negative, .finite b => .infinite (negative != decide (b < 0))
  | _, _ => .nan

def mul : F64 → F64 → F64
  | .finite a, .finite b => .finite (a * b)
  | .infinite negative, .finite b | .finite b, .infinite negative =>
    if b = 0 then .nan else .infinite (negative != decide (b < 0))
  | .infinite a, .infinite b => .infinite (a != b)
  | _, _ => .nan

end F64
