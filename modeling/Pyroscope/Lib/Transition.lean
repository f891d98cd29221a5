import Mathlib.Logic.Relation

/-!
# Transition systems

A system is a predicate of initial states and a step relation. Safety properties are
proved once for the initial states and once for a step.
-/

namespace Pyroscope.Lib
variable {σ τ : Type*}

inductive Reachable (init : σ → Prop) (step : σ → σ → Prop) : σ → Prop where
  | init {s : σ} (h : init s) : Reachable init step s
  | step {s s' : σ} (h : Reachable init step s) (hs : step s s') : Reachable init step s'

namespace Reachable
variable {init : σ → Prop} {step : σ → σ → Prop}

theorem invariant {inv : σ → Prop} (hinit : ∀ s, init s → inv s)
    (hstep : ∀ s s', inv s → step s s' → inv s') {s : σ} (h : Reachable init step s) : inv s := by
  induction h with
  | init h => exact hinit _ h
  | step _ hs ih => exact hstep _ _ ih hs

/- An invariant may use another one that is already known. -/
theorem invariant_with {known inv : σ → Prop} (hknown : ∀ s, Reachable init step s → known s)
    (hinit : ∀ s, init s → inv s)
    (hstep : ∀ s s', known s → inv s → step s s' → inv s') {s : σ}
    (h : Reachable init step s) : inv s := by
  induction h with
  | init h => exact hinit _ h
  | step h hs ih => exact hstep _ _ (hknown _ h) ih hs

theorem steps {s s' : σ} (h : Reachable init step s) (hs : Relation.ReflTransGen step s s') :
    Reachable init step s' := by
  induction hs with
  | refl => exact h
  | tail _ hlast ih => exact ih.step hlast

theorem mono {step' : σ → σ → Prop} (hstep : ∀ s s', step s s' → step' s s') {s : σ}
    (h : Reachable init step s) : Reachable init step' s := by
  induction h with
  | init h => exact .init h
  | step _ hs ih => exact ih.step (hstep _ _ hs)

/- Forward simulation: reachable states of the one system map to reachable states of
the other, a step to a step or to nothing. -/
theorem simulation {init' : τ → Prop} {step' : τ → τ → Prop} (f : σ → τ)
    (hinit : ∀ s, init s → init' (f s))
    (hstep : ∀ s s', Reachable init step s → step s s' → f s' = f s ∨ step' (f s) (f s'))
    {s : σ} (h : Reachable init step s) : Reachable init' step' (f s) := by
  induction h with
  | init h => exact .init (hinit _ h)
  | step h hs ih =>
    rcases hstep _ _ h hs with he | hs'
    · rw [he]
      exact ih
    · exact ih.step hs'

end Reachable

/- Where every step makes a weight smaller and only a finished state has no step, a
finished state is reached. -/
theorem reaches_done {step : σ → σ → Prop} {inv done : σ → Prop} (weight : σ → Nat)
    (hstep : ∀ s s', inv s → step s s' → inv s' ∧ weight s' < weight s)
    (hprogress : ∀ s, inv s → ¬done s → ∃ s', step s s') (s : σ) (hs : inv s) :
    ∃ s', Relation.ReflTransGen step s s' ∧ done s' := by
  induction hw : weight s using Nat.strongRecOn generalizing s with
  | ind n ih =>
    subst hw
    by_cases hd : done s
    · exact ⟨s, .refl, hd⟩
    · obtain ⟨s', hss'⟩ := hprogress s hs hd
      obtain ⟨hs', hlt⟩ := hstep s s' hs hss'
      obtain ⟨s'', hrun, hdone⟩ := ih (weight s') hlt s' hs' rfl
      exact ⟨s'', .head hss' hrun, hdone⟩

end Pyroscope.Lib
