import Mathlib.Algebra.BigOperators.Group.List.Basic
import Mathlib.Algebra.Order.Floor.Semiring
import Mathlib.Algebra.Order.Round
import Mathlib.Tactic.Linarith
import Mathlib.Tactic.Ring

/-!
# Sums of rounded numbers

`⌊x + 1 / 2⌋₊` rounds to the nearest natural number, halves up.  The errors of a sum add up, and
cutting the sum off at a bound that the exact sum respects does not make the error larger.
-/

variable {K : Type*} [Field K] [LinearOrder K] [IsStrictOrderedRing K] [FloorRing K]

theorem abs_floor_add_half_sub_le {x : K} (hx : 0 ≤ x) :
    |(⌊x + 1 / 2⌋₊ : K) - x| ≤ 1 / 2 := by
  have hnonneg : 0 ≤ x + 1 / 2 := by positivity
  rw [natCast_floor_eq_intCast_floor hnonneg, ← round_eq, abs_sub_comm]
  exact abs_sub_round x

/-- Rounding at most doubles a number. -/
theorem floor_add_half_le_two_mul {x : K} (hx : 0 ≤ x) : (⌊x + 1 / 2⌋₊ : K) ≤ 2 * x := by
  by_cases hlt : x < 1 / 2
  · have hzero : ⌊x + 1 / 2⌋₊ = 0 := Nat.floor_eq_zero.2 (by linarith)
    rw [hzero, Nat.cast_zero]
    positivity
  · have hfloor : (⌊x + 1 / 2⌋₊ : K) ≤ x + 1 / 2 := Nat.floor_le (by positivity)
    linarith

/-- What does not exceed a natural number does not exceed it after rounding. -/
theorem floor_add_half_le {x : K} {n : ℕ} (hx : x ≤ n) : ⌊x + 1 / 2⌋₊ ≤ n := by
  refine Nat.lt_succ_iff.1 ((Nat.floor_lt' n.succ_ne_zero).2 ?_)
  push_cast
  linarith

theorem floor_add_half_mono {x y : K} (h : x ≤ y) : ⌊x + 1 / 2⌋₊ ≤ ⌊y + 1 / 2⌋₊ :=
  Nat.floor_mono (by linarith)

omit [FloorRing K]

theorem abs_sum_sub_sum_le {α : Type*} {f g : α → K} {e : K} {xs : List α}
    (h : ∀ x ∈ xs, |f x - g x| ≤ e) : |(xs.map f).sum - (xs.map g).sum| ≤ xs.length * e := by
  induction xs with
  | nil => simp
  | cons x xs ih =>
    rw [List.forall_mem_cons] at h
    obtain ⟨hx, hxs⟩ := h
    have hsplit : (f x + (xs.map f).sum) - (g x + (xs.map g).sum) =
        (f x - g x) + ((xs.map f).sum - (xs.map g).sum) := by ring
    rw [List.map_cons, List.map_cons, List.sum_cons, List.sum_cons, List.length_cons, hsplit]
    calc |(f x - g x) + ((xs.map f).sum - (xs.map g).sum)|
        ≤ |f x - g x| + |(xs.map f).sum - (xs.map g).sum| := abs_add_le ..
      _ ≤ e + xs.length * e := add_le_add hx (ih hxs)
      _ = ((xs.length + 1 : ℕ) : K) * e := by push_cast; ring

/-- Cutting off at a bound of the exact value keeps the error. -/
theorem abs_min_sub_le {s x total e : K} (hx : x ≤ total) (h : |s - x| ≤ e) :
    |min s total - x| ≤ e := by
  rw [abs_sub_le_iff] at h ⊢
  rcases le_total s total with hs | hs
  · rw [min_eq_left hs]
    exact h
  · rw [min_eq_right hs]
    constructor <;> linarith
