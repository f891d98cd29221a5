import Mathlib.Algebra.BigOperators.Group.Finset.Basic
import Mathlib.Data.Fintype.Basic

/-!
# Amounts held by parties

When every party of a finite family holds an amount that depends on its control point,
a step of one party changes the total by what that party gains and loses.
-/

namespace Pyroscope.Lib
open Finset

variable {ι P : Type*} [Fintype ι] [DecidableEq ι]

theorem sum_update (amount : P → ℕ) (pcs : ι → P) (i : ι) (pc : P) :
    ∑ j, amount (Function.update pcs i pc j) + amount (pcs i) = ∑ j, amount (pcs j) + amount pc := by
  have hrest : ∑ j ∈ univ.erase i, amount (Function.update pcs i pc j) =
      ∑ j ∈ univ.erase i, amount (pcs j) := by
    refine sum_congr rfl fun j hj => ?_
    rw [Function.update_of_ne (mem_erase.mp hj).1]
  have hnew := add_sum_erase univ (fun j => amount (Function.update pcs i pc j)) (mem_univ i)
  have hold := add_sum_erase univ (fun j => amount (pcs j)) (mem_univ i)
  simp only [Function.update_self] at hnew
  omega

end Pyroscope.Lib
