import Mathlib.Tactic.TypeStar

/-!
# Computations with one way to fail

`Outcome c p r P` says exactly what `r` does: where `c` holds it returns a result
satisfying `P`, and where `c` fails it stops with `p`. Sequencing two of them
sequences their conditions.
-/

namespace Pyroscope.Lib
variable {ε α β : Type} {p : ε}

structure Outcome (c : Prop) (p : ε) (r : Except ε α) (P : α → Prop) : Prop where
  ok : c → ∃ a, r = .ok a ∧ P a
  panic : ¬c → r = .error p

namespace Outcome
variable {c d : Prop} {r : Except ε α} {f : α → Except ε β} {P Q : α → Prop} {R : β → Prop}

theorem pure {a : α} (h : P a) : Outcome True p (.ok a) P :=
  ⟨fun _ => ⟨a, rfl, h⟩, fun hn => (hn trivial).elim⟩

theorem imp (h : Outcome c p r P) (hPQ : ∀ a, P a → Q a) : Outcome c p r Q := by
  refine ⟨fun hc => ?_, h.panic⟩
  obtain ⟨a, hr, ha⟩ := h.ok hc
  exact ⟨a, hr, hPQ a ha⟩

theorem congr (h : Outcome c p r P) (hcd : c ↔ d) : Outcome d p r P :=
  ⟨fun hd => h.ok (hcd.mpr hd), fun hd => h.panic fun hc => hd (hcd.mp hc)⟩

theorem bind (h : Outcome c p r P) (hf : ∀ a, P a → Outcome d p (f a) R) :
    Outcome (c ∧ d) p (r >>= f) R := by
  by_cases hc : c
  · obtain ⟨a, hr, ha⟩ := h.ok hc
    have hbind : r >>= f = f a := by rw [hr]; rfl
    rw [hbind]
    exact (hf a ha).congr (iff_and_self.mpr fun _ => hc)
  · have hbind : r >>= f = .error p := by rw [h.panic hc]; rfl
    exact ⟨fun hcd => (hc hcd.1).elim, fun _ => hbind⟩

/- A last step that cannot fail adds no condition. -/
theorem map {g : α → β} (h : Outcome c p r P) (hg : ∀ a, P a → R (g a)) :
    Outcome c p (r >>= fun a => .ok (g a)) R :=
  (h.bind fun a ha => pure (hg a ha)).congr (iff_of_eq (and_true c))

theorem inv (h : Outcome c p r P) {a : α} (hr : r = .ok a) : c ∧ P a := by
  by_cases hc : c
  · obtain ⟨b, hr', hb⟩ := h.ok hc
    rw [hr'] at hr
    cases hr
    exact ⟨hc, hb⟩
  · rw [h.panic hc] at hr
    cases hr

/- A total step, given by its value, in front of the rest. -/
theorem after {a : α} (hr : r = .ok a) (hf : Outcome d p (f a) R) : Outcome d p (r >>= f) R := by
  have hbind : r >>= f = f a := by rw [hr]; rfl
  rwa [hbind]

end Outcome

/-- A result satisfies `P`, an error satisfies `E`. -/
def Lands (E : ε → Prop) (P : α → Prop) : Except ε α → Prop
  | .ok a => P a
  | .error e => E e

namespace Lands
variable {E : ε → Prop} {P Q : α → Prop} {R : β → Prop} {r : Except ε α} {f : α → Except ε β}

theorem imp (h : Lands E P r) (hPQ : ∀ a, P a → Q a) : Lands E Q r := by
  cases r with
  | ok a => exact hPQ a h
  | error e => exact h

theorem bind (h : Lands E P r) (hf : ∀ a, P a → Lands E R (f a)) : Lands E R (r >>= f) := by
  cases r with
  | ok a => exact hf a h
  | error e => exact h

theorem result (h : Lands E P r) {a : α} (hr : r = .ok a) : P a := by
  rw [hr] at h
  exact h

theorem error (h : Lands E P r) {e : ε} (hr : r = .error e) : E e := by
  rw [hr] at h
  exact h

end Lands

def Returns (r : Except ε α) : Prop := ∃ a, r = .ok a

section Returns
variable {r : Except ε α} {f : α → Except ε β}

@[simp] theorem returns_ok (a : α) : Returns (.ok a : Except ε α) := ⟨a, rfl⟩

@[simp] theorem not_returns_error (p : ε) : ¬Returns (.error p : Except ε α) := nofun

theorem returns_bind : Returns (r >>= f) ↔ ∃ a, r = .ok a ∧ Returns (f a) := by
  cases r with
  | error p => exact ⟨nofun, nofun⟩
  | ok a =>
    refine ⟨fun h => ⟨a, rfl, h⟩, fun h => ?_⟩
    obtain ⟨b, hb, hf⟩ := h
    cases hb
    exact hf

/- The rest returns whatever it is given. -/
theorem returns_bind_of_forall (hf : ∀ a, Returns (f a)) : Returns (r >>= f) ↔ Returns r := by
  rw [returns_bind]
  exact ⟨fun ⟨a, ha, _⟩ => ⟨a, ha⟩, fun ⟨a, ha⟩ => ⟨a, ha, hf a⟩⟩

theorem Outcome.returns {c : Prop} {p : ε} {P : α → Prop} (h : Outcome c p r P) : Returns r ↔ c := by
  refine ⟨fun ⟨a, ha⟩ => (h.inv ha).1, fun hc => ?_⟩
  obtain ⟨a, ha, -⟩ := h.ok hc
  exact ⟨a, ha⟩

end Returns

end Pyroscope.Lib
