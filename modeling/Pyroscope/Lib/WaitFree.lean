import Mathlib.Data.Nat.Basic

/-!
# Calls that return after a bounded number of steps

Every step belongs to a thread. A thread has so many steps left in the call it is in;
each of its own steps uses up at least one of them, and the steps of the other threads
use up none. Then it returns after that many steps of its own, whatever the others do
in between.
-/

namespace Pyroscope.Lib
variable {σ θ : Type*}

/-- From `s` to `s'` the thread takes `n` steps, and is inside its call in every state. -/
inductive Within (step : σ → θ → σ → Prop) (busy : σ → θ → Prop) (t : θ) (s : σ) : ℕ → σ → Prop where
  | start (h : busy s t) : Within step busy t s 0 s
  | own {n s' s''} (h : Within step busy t s n s') (hs : step s' t s'') (hb : busy s'' t) :
    Within step busy t s (n + 1) s''
  | other {n s' s'' t'} (h : Within step busy t s n s') (hs : step s' t' s'') (ht : t' ≠ t) :
    Within step busy t s n s''

/-- `left` bounds the steps that a call still takes. -/
structure Bounded (step : σ → θ → σ → Prop) (inv : σ → Prop) (busy : σ → θ → Prop)
    (left : σ → θ → ℕ) : Prop where
  keeps : ∀ s t s', inv s → step s t s' → inv s'
  own : ∀ s t s', inv s → busy s t → step s t s' → busy s' t → left s' t < left s t
  others : ∀ s t t' s', step s t' s' → t' ≠ t →
    left s' t = left s t ∧ (busy s t → busy s' t)

theorem Within.first {step : σ → θ → σ → Prop} {busy : σ → θ → Prop} {t : θ} {s s' : σ} {n : ℕ}
    (hw : Within step busy t s n s') : busy s t := by
  induction hw with
  | start h => exact h
  | own _ _ _ ih => exact ih
  | other _ _ _ ih => exact ih

theorem Within.bound {step : σ → θ → σ → Prop} {inv : σ → Prop} {busy : σ → θ → Prop}
    {left : σ → θ → ℕ} {t : θ} {s s' : σ} {n : ℕ} (h : Bounded step inv busy left)
    (hs : inv s) (hw : Within step busy t s n s') :
    inv s' ∧ busy s' t ∧ n + left s' t ≤ left s t := by
  induction hw with
  | start hb => exact ⟨hs, hb, Nat.le_of_eq (Nat.zero_add _)⟩
  | own _ hstep hb ih =>
    obtain ⟨hi, hbefore, hle⟩ := ih
    have hlt := h.own _ _ _ hi hbefore hstep hb
    exact ⟨h.keeps _ _ _ hi hstep, hb, by omega⟩
  | other _ hstep ht ih =>
    obtain ⟨hi, hbefore, hle⟩ := ih
    obtain ⟨hleft, hbusy⟩ := h.others _ _ _ _ hstep ht
    exact ⟨h.keeps _ _ _ hi hstep, hbusy hbefore, by omega⟩

end Pyroscope.Lib
