import Mathlib.Data.BitVec

/-!
# Checked conversions of machine integers

A checked conversion into a signed type keeps the value or fails; a checked difference
fails below zero.
-/

namespace Pyroscope.Lib
variable {v w : ℕ}

def toSigned (w : ℕ) (n : ℤ) : Option (BitVec w) :=
  if -2 ^ (w - 1) ≤ n ∧ n < 2 ^ (w - 1) then some (BitVec.ofInt w n) else none

def checkedSub (x y : BitVec w) : Option (BitVec w) := if y.toNat ≤ x.toNat then some (x - y) else none

theorem toSigned_toInt (x : BitVec w) : toSigned w x.toInt = some x := by
  rw [toSigned, if_pos ⟨x.le_toInt, BitVec.toInt_lt⟩, BitVec.ofInt_toInt]

/- Widening and narrowing again gives the value back. -/
theorem toSigned_signExtend (h : w ≤ v) (x : BitVec w) : toSigned w (x.signExtend v).toInt = some x := by
  rw [BitVec.toInt_signExtend_of_le h, toSigned_toInt]

theorem toInt_toSigned (hw : 0 < w) {n : ℤ} {x : BitVec w} (h : toSigned w n = some x) : x.toInt = n := by
  unfold toSigned at h
  split at h
  · next hn =>
    obtain rfl := Option.some.inj h
    exact BitVec.toInt_ofInt_eq_self hw hn.1 hn.2
  · cases h

theorem toSigned_isSome {n : ℤ} (hn : 0 ≤ n) : (toSigned w n).isSome ↔ n < 2 ^ (w - 1) := by
  unfold toSigned
  have hpow : (0 : ℤ) < 2 ^ (w - 1) := Int.pow_pos (by decide)
  split
  · next h => exact iff_of_true rfl h.2
  · next h => exact iff_of_false Bool.false_ne_true fun hlt => h ⟨by omega, hlt⟩

theorem checkedSub_of_le {x y : BitVec w} (h : y.toNat ≤ x.toNat) :
    ∃ d, checkedSub x y = some d ∧ d.toNat = x.toNat - y.toNat := by
  refine ⟨x - y, if_pos h, ?_⟩
  exact BitVec.toNat_sub_of_le h

theorem checkedSub_of_lt {x y : BitVec w} (h : x.toNat < y.toNat) : checkedSub x y = none :=
  if_neg (Nat.not_le.mpr h)

end Pyroscope.Lib
