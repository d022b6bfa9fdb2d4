import Mathlib.Algebra.Field.Rat
import Mathlib.Algebra.Order.Field.Basic
import Mathlib.Algebra.Order.Ring.Rat
import Mathlib.Data.Rat.Cast.Defs

/-!
# The numbers of the game

Positions, velocities and times are `float` in the source. The model is written
over any type with the operations the source applies to them, so that a result
holds for IEEE single precision (`Float32`) as for exact numbers (`ExactOps`),
unless it says which it needs.
-/

namespace RType

/-- The `float` operations of the source. Integers converted to `float` are casts,
decimal literals are scientific literals. -/
class FloatOps (F : Type*) extends Add F, Sub F, Neg F, Mul F, Div F, LT F, IntCast F,
    OfScientific F where
  /-- `std::sin` -/
  sin : F → F
  decLt : ∀ x y : F, Decidable (x < y)

instance FloatOps.decidableLt {F : Type*} [FloatOps F] (x y : F) : Decidable (x < y) :=
  FloatOps.decLt x y

instance : FloatOps Float32 where
  intCast := Float32.ofInt
  sin := Float32.sin
  decLt := fun _ _ => inferInstance

/-- Exact numbers: an ordered field, with any function for `sin`. -/
class ExactOps (F : Type*) extends Field F, LinearOrder F, IsStrictOrderedRing F where
  sin : F → F

instance (priority := low) ExactOps.toFloatOps (F : Type*) [ExactOps F] : FloatOps F where
  sin := ExactOps.sin
  decLt := fun _ _ => inferInstance

/-- What IEEE single precision and exact numbers have in common: rounding keeps the order,
and small integers, their products and tenths are what they should be. -/
class LawfulFloat (F : Type*) [FloatOps F] : Prop where
  lt_add {a b x y : F} : a < b → x < y + a → x < y + b
  lt_mul {a b c x : F} : a < b → ((0 : ℤ) : F) < c → x < c * a → x < c * b
  not_zero_lt_zero : ¬((0 : ℤ) : F) < ((0 : ℤ) : F)
  ofTenths_eq {n : ℕ} : n ≤ 2 ^ 20 → (OfScientific.ofScientific (10 * n) true 1 : F) = ((n : ℤ) : F)
  ofTenths_lt {m n : ℕ} : m < n → n ≤ 2 ^ 20 →
    (OfScientific.ofScientific m true 1 : F) < OfScientific.ofScientific n true 1
  intCast_mul {m n : ℕ} : m * n ≤ 2 ^ 20 → ((m : ℤ) : F) * ((n : ℤ) : F) = ((m * n : ℕ) : ℤ)

/-- Tenths of exact numbers. -/
theorem ExactOps.ofTenths {K : Type*} [ExactOps K] (m : ℕ) :
    (OfScientific.ofScientific m true 1 : K) = (m : K) / 10 := by
  rw [NNRatCast.ofScientific_eq_ite, if_pos rfl, NNRat.cast_divNat_of_ne_zero]
  · norm_num
  · norm_num

instance ExactOps.lawfulFloat {K : Type*} [ExactOps K] : LawfulFloat K where
  lt_add {a b x y} h hx := by
    have hle : y + a < y + b := add_lt_add_right h y
    exact hx.trans hle
  lt_mul {a b c x} h hc hx := by
    have hpos : 0 < c := by simpa using hc
    exact hx.trans (mul_lt_mul_of_pos_left h hpos)
  not_zero_lt_zero := lt_irrefl _
  ofTenths_eq {n} _ := by
    rw [ExactOps.ofTenths]
    push_cast
    exact mul_div_cancel_left₀ _ (by norm_num)
  ofTenths_lt {m n} h _ := by
    have hcast : (m : K) < n := Nat.cast_lt.2 h
    rw [ExactOps.ofTenths, ExactOps.ofTenths]
    exact div_lt_div_of_pos_right hcast (by norm_num)
  intCast_mul {m n} _ := by
    push_cast
    rfl

/-- Exact numbers to compute with, where `sin` does not matter. -/
instance : ExactOps ℚ where
  sin := fun _ => 0

end RType
