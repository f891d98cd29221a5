import Mathlib.Tactic.TypeStar

/-!
# Calls that may fail half way

A call reads and writes a state and returns a value or an error. What it wrote before
it failed stays written; a guard undoes its share when the calls after it fail. `Ensures`
is a triple with one postcondition for a result and one for an error.
-/

namespace Pyroscope.Lib

def Call (σ ε α : Type) : Type := σ → Except ε α × σ

namespace Call
variable {σ τ ε ε' α β : Type}

instance : Monad (Call σ ε) where
  pure a := fun s => (.ok a, s)
  bind c f := fun s =>
    match c s with
    | (.ok a, s) => f a s
    | (.error e, s) => (.error e, s)

def get : Call σ ε σ := fun s => (.ok s, s)

def modify (f : σ → σ) : Call σ ε Unit := fun s => (.ok (), f s)

def fail (e : ε) : Call σ ε α := fun s => (.error e, s)

def failIf (c : Prop) [Decidable c] (e : ε) : Call σ ε Unit := if c then fail e else pure ()

/-- A call that does not touch the state, with what it returned. -/
def returned (r : Except ε α) : Call σ ε α := fun s => (r, s)

def mapError (f : ε → ε') (c : Call σ ε α) : Call σ ε' α := fun s =>
  match c s with
  | (.ok a, s) => (.ok a, s)
  | (.error e, s) => (.error (f e), s)

/-- `undo` runs when `c` fails. -/
def guarded (undo : σ → σ) (c : Call σ ε α) : Call σ ε α := fun s =>
  match c s with
  | (.ok a, s) => (.ok a, s)
  | (.error e, s) => (.error e, undo s)

/-- `cleanup` runs in either case, and its own error wins. -/
def tryFinally (c : Call σ ε α) (cleanup : Call σ ε Unit) : Call σ ε α := fun s =>
  match cleanup (c s).2 with
  | (.ok _, s') => ((c s).1, s')
  | (.error e, s') => (.error e, s')

/-- `f` for the elements of a list in turn, up to the first error. -/
def forEach (f : β → Call σ ε Unit) : List β → Call σ ε Unit
  | [] => pure ()
  | b :: bs => do
    f b
    forEach f bs

/-- The error is logged and dropped. -/
def ignore (c : Call σ ε α) (s : σ) : σ := (c s).2

/-- A call on one component of a larger state. -/
def on (view : τ → σ) (put : τ → σ → τ) (c : Call σ ε α) : Call τ ε α := fun t =>
  ((c (view t)).1, put t (c (view t)).2)

theorem bind_of_ok {c : Call σ ε α} {f : α → Call σ ε β} {s s' : σ} {a : α} (h : c s = (.ok a, s')) :
    (c >>= f) s = f a s' := by
  show (match c s with
    | (.ok a, s) => f a s
    | (.error e, s) => (.error e, s)) = f a s'
  rw [h]

theorem bind_of_error {c : Call σ ε α} {f : α → Call σ ε β} {s s' : σ} {e : ε}
    (h : c s = (.error e, s')) : (c >>= f) s = (.error e, s') := by
  show (match c s with
    | (.ok a, s) => f a s
    | (.error e, s) => (.error e, s)) = (.error e, s')
  rw [h]

def Post (Q : α → σ → Prop) (R : ε → σ → Prop) : Except ε α × σ → Prop
  | (.ok a, s) => Q a s
  | (.error e, s) => R e s

def Ensures (P : σ → Prop) (c : Call σ ε α) (Q : α → σ → Prop) (R : ε → σ → Prop) : Prop :=
  ∀ s, P s → Post Q R (c s)

theorem Post.imp {Q Q' : α → σ → Prop} {R R' : ε → σ → Prop} {r : Except ε α × σ} (h : Post Q R r)
    (hQ : ∀ a s, Q a s → Q' a s) (hR : ∀ e s, R e s → R' e s) : Post Q' R' r := by
  rcases r with ⟨e | a, s⟩
  · exact hR e s h
  · exact hQ a s h

namespace Ensures
variable {P P' : σ → Prop} {c : Call σ ε α} {f : α → Call σ ε β} {Q Q' : α → σ → Prop}
  {S : β → σ → Prop} {R R' : ε → σ → Prop}

theorem conseq (h : Ensures P c Q R) (hP : ∀ s, P' s → P s) (hQ : ∀ a s, Q a s → Q' a s)
    (hR : ∀ e s, R e s → R' e s) : Ensures P' c Q' R' :=
  fun s hs => (h s (hP s hs)).imp hQ hR

theorem and (h : Ensures P c Q R) (h' : Ensures P' c Q' R') :
    Ensures (fun s => P s ∧ P' s) c (fun a s => Q a s ∧ Q' a s) fun e s => R e s ∧ R' e s := by
  intro s hs
  have hr := h s hs.1
  have hr' := h' s hs.2
  revert hr hr'
  rcases c s with ⟨e | a, s'⟩
  · exact fun hr hr' => ⟨hr, hr'⟩
  · exact fun hr hr' => ⟨hr, hr'⟩

theorem pure {a : α} (h : ∀ s, P s → Q a s) : Ensures P (Pure.pure a : Call σ ε α) Q R := h

theorem bind (h : Ensures P c Q R) (hf : ∀ a, Ensures (Q a) (f a) S R) : Ensures P (c >>= f) S R := by
  intro s hs
  have hr := h s hs
  rcases hc : c s with ⟨e | a, s'⟩
  · rw [hc] at hr
    rw [bind_of_error hc]
    exact hr
  · rw [hc] at hr
    rw [bind_of_ok hc]
    exact hf a s' hr

theorem get {Q : σ → σ → Prop} (h : ∀ s, P s → Q s s) : Ensures P (Call.get : Call σ ε σ) Q R := h

theorem modify {g : σ → σ} {Q : Unit → σ → Prop} (h : ∀ s, P s → Q () (g s)) :
    Ensures P (Call.modify g : Call σ ε Unit) Q R := h

theorem fail {e : ε} (h : ∀ s, P s → R e s) : Ensures P (Call.fail e : Call σ ε α) Q R := h

theorem failIf {b : Prop} [Decidable b] {e : ε} {Q : Unit → σ → Prop} (ht : b → ∀ s, P s → R e s)
    (hf : ¬b → ∀ s, P s → Q () s) : Ensures P (Call.failIf b e) Q R := by
  unfold Call.failIf
  split
  · next hb => exact fail (ht hb)
  · next hb => exact pure (hf hb)

theorem returned {r : Except ε α} (hok : ∀ a, r = .ok a → ∀ s, P s → Q a s)
    (herr : ∀ e, r = .error e → ∀ s, P s → R e s) : Ensures P (Call.returned r) Q R := by
  intro s hs
  cases r with
  | ok a => exact hok a rfl s hs
  | error e => exact herr e rfl s hs

theorem mapError {g : ε → ε'} {R : ε' → σ → Prop} (h : Ensures P c Q fun e => R (g e)) :
    Ensures P (c.mapError g) Q R := by
  intro s hs
  have hr := h s hs
  unfold Call.mapError
  revert hr
  rcases c s with ⟨e | a, s'⟩ <;> exact fun hr => hr

theorem guarded {undo : σ → σ} (h : Ensures P c Q fun e s => R e (undo s)) :
    Ensures P (c.guarded undo) Q R := by
  intro s hs
  have hr := h s hs
  unfold Call.guarded
  revert hr
  rcases c s with ⟨e | a, s'⟩ <;> exact fun hr => hr

theorem ignore {Q : σ → Prop} (h : Ensures P c (fun _ => Q) fun _ => Q) {s : σ} (hs : P s) :
    Q (c.ignore s) := by
  have hr := h s hs
  unfold Call.ignore
  revert hr
  rcases c s with ⟨e | a, s'⟩ <;> exact fun hr => hr

theorem on {view : τ → σ} {put : τ → σ → τ} {P : τ → Prop} {Q : α → τ → Prop} {R : ε → τ → Prop}
    (h : ∀ t, P t → Post (fun a s => Q a (put t s)) (fun e s => R e (put t s)) (c (view t))) :
    Ensures P (c.on view put) Q R := by
  intro t ht
  have hr := h t ht
  unfold Call.on
  revert hr
  rcases c (view t) with ⟨e | a, s'⟩ <;> exact fun hr => hr

/- Where no error is possible there is a result. -/
theorem succeeds (h : Ensures P c Q fun _ _ => False) {s : σ} (hs : P s) :
    ∃ a s', c s = (.ok a, s') ∧ Q a s' := by
  have hr := h s hs
  revert hr
  rcases c s with ⟨e | a, s'⟩
  · exact fun hr => hr.elim
  · exact fun hr => ⟨a, s', rfl, hr⟩

end Ensures

end Call

end Pyroscope.Lib
