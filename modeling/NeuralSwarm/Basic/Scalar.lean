import Mathlib.Algebra.Order.Ring.Rat
import Mathlib.Algebra.Order.Floor.Semiring
import Mathlib.Data.Rat.Floor

/-!
# Single precision arithmetic and its exact counterpart

`Scalar F` is the arithmetic that a program written over `f32` uses.  It has two instances:
`Float32`, the IEEE 754 binary32 type with its rounding, infinities and NaN, and `ℚ`, the same
program in exact arithmetic.  `max`, `min`, `clamp`, `partialCmp` and `sum` are those of `f32`: the
first two ignore a NaN argument, the comparison of a NaN has no answer.
-/

/-- The operations of `f32`; `roundU32` is `.round() as u32` and `ofNat` is `as f32`. -/
class Scalar (F : Type) extends Add F, Sub F, Mul F, Div F, OfScientific F, LT F, LE F where
  decidableLT : DecidableLT F
  decidableLE : DecidableLE F
  ofNat : ℕ → F
  abs : F → F
  roundU32 : F → UInt32

attribute [reducible, instance] Scalar.decidableLT Scalar.decidableLE

/-- A natural number as `u32`, the largest one if it is too large. -/
def saturatingU32 (n : ℕ) : UInt32 := .ofNat (min n (2 ^ 32 - 1))

namespace Float32

open Float.Model

/-- The magnitude `m * 2 ^ e` rounded to the nearest integer, halves away from zero. -/
def roundMagnitude (m : ℕ) : ℤ → ℕ
  | .ofNat e => m * 2 ^ e
  | .negSucc k => (m + 2 ^ k) / 2 ^ (k + 1)

/-- `.round() as u32`: NaN and negative numbers become `0`, large ones saturate. -/
def roundU32 (x : Float32) : UInt32 :=
  match x.toModel.unpack with
  | .notANumber => 0
  | .infinity .positive => saturatingU32 (2 ^ 32)
  | .infinity .negative => 0
  | .zero _ => 0
  | .finite .negative _ _ _ => 0
  | .finite .positive m e _ => saturatingU32 (roundMagnitude m e)

end Float32

instance : Scalar Float32 where
  decidableLT := inferInstance
  decidableLE := inferInstance
  ofNat := Float32.ofNat
  abs := Float32.abs
  roundU32 := Float32.roundU32

instance : Scalar ℚ where
  decidableLT := inferInstance
  decidableLE := inferInstance
  ofNat n := n
  abs x := |x|
  roundU32 x := saturatingU32 ⌊x + 1 / 2⌋₊

namespace Scalar

variable {F : Type} [Scalar F]

/-- `f32::max`. -/
def max (x y : F) : F := if x ≤ x then if x < y then y else x else y

/-- `f32::min`. -/
def min (x y : F) : F := if x ≤ x then if y < x then y else x else y

/-- `f32::clamp`. -/
def clamp (x lo hi : F) : F :=
  let x := if x < lo then lo else x
  if hi < x then hi else x

/-- `f32::partial_cmp`. -/
def partialCmp (x y : F) : Option Ordering :=
  if x < y then some .lt else if y < x then some .gt else if x ≤ y then some .eq else none

/-- `Iterator::sum` over `f32`. -/
def sum (xs : List F) : F := xs.foldl (· + ·) 0.0

/-! ### Exact arithmetic -/

@[simp] theorem max_rat (x y : ℚ) : Scalar.max x y = x ⊔ y := by
  unfold Scalar.max
  rw [if_pos le_rfl]
  split_ifs with h
  · exact (max_eq_right h.le).symm
  · exact (max_eq_left (not_lt.1 h)).symm

@[simp] theorem min_rat (x y : ℚ) : Scalar.min x y = x ⊓ y := by
  unfold Scalar.min
  rw [if_pos le_rfl]
  split_ifs with h
  · exact (min_eq_right h.le).symm
  · exact (min_eq_left (not_lt.1 h)).symm

@[simp] theorem clamp_rat (x lo hi : ℚ) : Scalar.clamp x lo hi = (x ⊔ lo) ⊓ hi := by
  have hlo : (if x < lo then lo else x) = x ⊔ lo := by
    split_ifs with h
    · exact (max_eq_right h.le).symm
    · exact (max_eq_left (not_lt.1 h)).symm
  simp only [Scalar.clamp, hlo]
  split_ifs with h
  · exact (min_eq_right h.le).symm
  · exact (min_eq_left (not_lt.1 h)).symm

end Scalar

/-- `+` on `u32` in a release build: the sum wraps. -/
def u32Add (a b : ℕ) : ℕ := (a + b) % 2 ^ 32

theorem u32Add_of_lt {a b : ℕ} (h : a + b < 2 ^ 32) : u32Add a b = a + b := Nat.mod_eq_of_lt h

example : Scalar.roundU32 (2.5 : Float32) = 3 := by decide +kernel
