import Pyroscope.Lib.Call

/-!
# Two calls side by side

A triple about two calls from related states: both return, or both fail, and what they
return and leave behind is related again. Relational counterparts of the rules of `Ensures`.
-/

namespace Pyroscope.Lib.Call
variable {σ τ ε ε' α β γ δ : Type}

/- The two outcomes are of one kind. -/
def Both (Q : α → β → σ → σ → Prop) (R : ε → ε → σ → σ → Prop) : Except ε α × σ → Except ε β × σ → Prop
  | (.ok a, s), (.ok b, s') => Q a b s s'
  | (.error e, s), (.error e', s') => R e e' s s'
  | _, _ => False

def Relates (P : σ → σ → Prop) (c : Call σ ε α) (c' : Call σ ε β) (Q : α → β → σ → σ → Prop)
    (R : ε → ε → σ → σ → Prop) : Prop := ∀ s s', P s s' → Both Q R (c s) (c' s')

theorem Both.imp {Q Q' : α → β → σ → σ → Prop} {R R' : ε → ε → σ → σ → Prop} {r : Except ε α × σ}
    {r' : Except ε β × σ} (h : Both Q R r r') (hQ : ∀ a b s s', Q a b s s' → Q' a b s s')
    (hR : ∀ e e' s s', R e e' s s' → R' e e' s s') : Both Q' R' r r' := by
  rcases r with ⟨e | a, s⟩ <;> rcases r' with ⟨e' | b, s'⟩
  · exact hR e e' s s' h
  · exact h
  · exact h
  · exact hQ a b s s' h

/- The states that are left, whatever was returned. -/
theorem Both.states {Q : α → β → σ → σ → Prop} {R : ε → ε → σ → σ → Prop} {S : σ → σ → Prop}
    {r : Except ε α × σ} {r' : Except ε β × σ} (h : Both Q R r r') (hQ : ∀ a b s s', Q a b s s' → S s s')
    (hR : ∀ e e' s s', R e e' s s' → S s s') : S r.2 r'.2 := by
  rcases r with ⟨e | a, s⟩ <;> rcases r' with ⟨e' | b, s'⟩
  · exact hR e e' s s' h
  · exact h.elim
  · exact h.elim
  · exact hQ a b s s' h

namespace Relates
variable {P P' : σ → σ → Prop} {c : Call σ ε α} {c' : Call σ ε β} {f : α → Call σ ε γ} {f' : β → Call σ ε δ}
  {Q Q' : α → β → σ → σ → Prop} {S : γ → δ → σ → σ → Prop} {R R' : ε → ε → σ → σ → Prop}

theorem conseq (h : Relates P c c' Q R) (hP : ∀ s s', P' s s' → P s s')
    (hQ : ∀ a b s s', Q a b s s' → Q' a b s s') (hR : ∀ e e' s s', R e e' s s' → R' e e' s s') :
    Relates P' c c' Q' R' := fun s s' hs => (h s s' (hP s s' hs)).imp hQ hR

/- What the states say of the calls may be used to compare these. -/
theorem given {φ : Prop} (hP : ∀ s s', P s s' → φ) (h : φ → Relates P c c' Q R) : Relates P c c' Q R :=
  fun s s' hs => h (hP s s' hs) s s' hs

theorem pure {a : α} {b : β} (h : ∀ s s', P s s' → Q a b s s') :
    Relates P (Pure.pure a : Call σ ε α) (Pure.pure b : Call σ ε β) Q R := h

theorem bind (h : Relates P c c' Q R) (hf : ∀ a b, Relates (Q a b) (f a) (f' b) S R) :
    Relates P (c >>= f) (c' >>= f') S R := by
  intro s s' hs
  have hr := h s s' hs
  rcases hc : c s with ⟨e | a, t⟩ <;> rcases hc' : c' s' with ⟨e' | b, t'⟩ <;> rw [hc, hc'] at hr
  · rw [bind_of_error hc, bind_of_error hc']
    exact hr
  · exact hr.elim
  · exact hr.elim
  · rw [bind_of_ok hc, bind_of_ok hc']
    exact hf a b t t' hr

theorem get {Q : σ → σ → σ → σ → Prop} (h : ∀ s s', P s s' → Q s s' s s') :
    Relates P (Call.get : Call σ ε σ) Call.get Q R := h

theorem modify {g g' : σ → σ} {Q : Unit → Unit → σ → σ → Prop} (h : ∀ s s', P s s' → Q () () (g s) (g' s')) :
    Relates P (Call.modify g : Call σ ε Unit) (Call.modify g') Q R := h

theorem fail {e e' : ε} (h : ∀ s s', P s s' → R e e' s s') :
    Relates P (Call.fail e : Call σ ε α) (Call.fail e' : Call σ ε β) Q R := h

/- Both fail or neither does. -/
theorem failIf {b b' : Prop} [Decidable b] [Decidable b'] {e e' : ε} {Q : Unit → Unit → σ → σ → Prop}
    (hb : b ↔ b') (ht : b → ∀ s s', P s s' → R e e' s s') (hf : ¬b → ∀ s s', P s s' → Q () () s s') :
    Relates P (Call.failIf b e) (Call.failIf b' e') Q R := by
  unfold Call.failIf
  by_cases h : b
  · rw [if_pos h, if_pos (hb.mp h)]
    exact fail (ht h)
  · rw [if_neg h, if_neg fun h' => h (hb.mpr h')]
    exact pure (hf h)

theorem returned {r : Except ε α} {Q : α → α → σ → σ → Prop} (hok : ∀ a s s', P s s' → Q a a s s')
    (herr : ∀ e s s', P s s' → R e e s s') : Relates P (Call.returned r) (Call.returned r) Q R := by
  intro s s' hs
  cases r with
  | ok a => exact hok a s s' hs
  | error e => exact herr e s s' hs

/- From equal states a call does the same. -/
theorem same {A : σ → Prop} {B : α → σ → Prop} {C : ε → σ → Prop} (h : Ensures A c B C)
    (hP : ∀ s s', P s s' → s' = s ∧ A s) :
    Relates P c c (fun a b s s' => b = a ∧ s' = s ∧ B a s) fun e e' s s' => e' = e ∧ s' = s ∧ C e s := by
  intro s s' hs
  obtain ⟨rfl, hs⟩ := hP s s' hs
  have hr := h s' hs
  revert hr
  rcases c s' with ⟨e | a, t⟩ <;> exact fun hr => ⟨rfl, rfl, hr⟩

theorem mapError {g g' : ε → ε'} {R : ε' → ε' → σ → σ → Prop}
    (h : Relates P c c' Q fun e e' => R (g e) (g' e')) : Relates P (c.mapError g) (c'.mapError g') Q R := by
  intro s s' hs
  have hr := h s s' hs
  unfold Call.mapError
  revert hr
  rcases c s with ⟨e | a, t⟩ <;> rcases c' s' with ⟨e' | b, t'⟩ <;> exact fun hr => hr

theorem guarded {undo undo' : σ → σ} (h : Relates P c c' Q fun e e' s s' => R e e' (undo s) (undo' s')) :
    Relates P (c.guarded undo) (c'.guarded undo') Q R := by
  intro s s' hs
  have hr := h s s' hs
  unfold Call.guarded
  revert hr
  rcases c s with ⟨e | a, t⟩ <;> rcases c' s' with ⟨e' | b, t'⟩ <;> exact fun hr => hr

theorem on {view : τ → σ} {put : τ → σ → τ} {P : τ → τ → Prop} {Q : α → β → τ → τ → Prop}
    {R : ε → ε → τ → τ → Prop}
    (h : ∀ t t', P t t' → Both (fun a b s s' => Q a b (put t s) (put t' s'))
      (fun e e' s s' => R e e' (put t s) (put t' s')) (c (view t)) (c' (view t'))) :
    Relates P (c.on view put) (c'.on view put) Q R := by
  intro t t' ht
  have hr := h t t' ht
  unfold Call.on
  revert hr
  rcases c (view t) with ⟨e | a, s⟩ <;> rcases c' (view t') with ⟨e' | b, s'⟩ <;> exact fun hr => hr

end Relates

end Pyroscope.Lib.Call
