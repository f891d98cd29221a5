import Mathlib.Data.Int.Order.Basic
import Mathlib.Algebra.Order.BigOperators.Group.List
import Mathlib.Algebra.Order.Ring.Int

/-!
# Machine integers and panics

`u64`/`usize` values are natural numbers and `i64` values are integers; the casts
and the operations that can leave the 64-bit range are explicit. The release
profile of the crate has no overflow checks, so `*` on `i64` wraps.
-/

namespace Pyroscope

def u32Max : ℕ := 2 ^ 32 - 1

def i64Max : ℤ := 2 ^ 63 - 1

def i64Min : ℤ := -2 ^ 63

def InI64 (x : ℤ) : Prop := i64Min ≤ x ∧ x ≤ i64Max

/-- `as i64`: the two's complement value of the low 64 bits. -/
def asI64 (x : ℤ) : ℤ := Int.bmod x (2 ^ 64)

def wrappingMul (x y : ℤ) : ℤ := asI64 (x * y)

def saturatingAdd (x y : ℤ) : ℤ := max i64Min (min i64Max (x + y))

theorem asI64_mem (x : ℤ) : InI64 (asI64 x) := by
  have h1 := Int.le_bmod (x := x) (m := 2 ^ 64) (by decide)
  have h2 := Int.bmod_lt (x := x) (m := 2 ^ 64) (by decide)
  simp only [InI64, asI64, i64Min, i64Max]
  constructor <;> omega

theorem asI64_of_mem (x : ℤ) (h : InI64 x) : asI64 x = x := by
  simp only [InI64, i64Min, i64Max] at h
  exact Int.bmod_eq_of_le (by omega) (by omega)

/- A product that fits is computed exactly, whatever the cast did to a factor
that is multiplied by zero. -/
theorem wrappingMul_exact (n : ℕ) (p : ℤ) (hp : 0 ≤ p) (h : (n : ℤ) * p ≤ i64Max) :
    wrappingMul (asI64 n) p = (n : ℤ) * p := by
  rcases eq_or_lt_of_le hp with rfl | hpos
  · rw [Int.mul_zero, wrappingMul, Int.mul_zero, asI64_of_mem 0 (by simp only [InI64, i64Min, i64Max]; omega)]
  · have hn : (n : ℤ) ≤ n * p := le_mul_of_one_le_right (Int.natCast_nonneg n) hpos
    have hm : InI64 n := by
      simp only [InI64, i64Min, i64Max] at h ⊢
      omega
    rw [asI64_of_mem _ hm, wrappingMul, asI64_of_mem]
    have hnp : 0 ≤ (n : ℤ) * p := Int.mul_nonneg (Int.natCast_nonneg n) hp
    simp only [InI64, i64Min, i64Max] at h ⊢
    omega

/- Saturating sums of non-negative terms saturate the exact sum once. -/
theorem foldl_saturatingAdd (xs : List ℤ) (x : ℤ) (hx : 0 ≤ x) (hxs : ∀ y ∈ xs, 0 ≤ y) :
    xs.foldl saturatingAdd (min i64Max x) = min i64Max (x + xs.sum) := by
  induction xs generalizing x with
  | nil => simp only [List.foldl_nil, List.sum_nil, Int.add_zero]
  | cons y ys ih =>
    have hy : 0 ≤ y := hxs y (List.mem_cons_self ..)
    have hys : ∀ z ∈ ys, 0 ≤ z := fun z hz => hxs z (List.mem_cons_of_mem _ hz)
    have hstep : saturatingAdd (min i64Max x) y = min i64Max (x + y) := by
      simp only [saturatingAdd, i64Min, i64Max]
      omega
    rw [List.foldl_cons, hstep, ih (x + y) (by omega) hys, List.sum_cons, Int.add_assoc]

inductive Panic where
  /-- `assert!(id < u32::MAX as usize)` in `StringID::new` -/
  | stringIds
  /-- `assert_ne!` in `add_function_mirror` -/
  | functionIds
  /-- `assert_ne!` in `add_location_mirror` -/
  | locationIds
  | indexOutOfBounds
  | divideByZero
  /-- `path_segments_mut().unwrap()` in `Session::push` -/
  | unwrapUrl
  deriving DecidableEq, Repr

end Pyroscope
