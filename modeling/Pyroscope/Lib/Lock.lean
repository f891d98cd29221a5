import Mathlib.Logic.Function.Basic

/-!
# Exclusive holders

A flag that is true while some party is inside, and at most one party inside at a
time. Parties are control points `pcs i`; which points count as inside is a predicate.
-/

namespace Pyroscope.Lib
variable {ι P : Type*} [DecidableEq ι]

structure Exclusive (locked : Bool) (pcs : ι → P) (inside : P → Prop) : Prop where
  locked_of : ∀ i, inside (pcs i) → locked = true
  unique : ∀ i j, inside (pcs i) → inside (pcs j) → i = j

namespace Exclusive
variable {locked : Bool} {pcs : ι → P} {inside : P → Prop}

omit [DecidableEq ι] in
theorem none_inside (h : ∀ i, ¬inside (pcs i)) (b : Bool) : Exclusive b pcs inside :=
  ⟨fun i hi => (h i hi).elim, fun i _ hi => (h i hi).elim⟩

omit [DecidableEq ι] in
theorem out_of_unlocked (h : Exclusive false pcs inside) (i : ι) : ¬inside (pcs i) :=
  fun hi => Bool.false_ne_true (h.locked_of i hi)

omit [DecidableEq ι] in
theorem others_out (h : Exclusive locked pcs inside) {i j : ι} (hi : inside (pcs i)) (hj : j ≠ i) :
    ¬inside (pcs j) := fun hin => hj (h.unique j i hin hi)

theorem acquire (h : Exclusive false pcs inside) (i : ι) (pc : P) :
    Exclusive true (Function.update pcs i pc) inside := by
  have hout : ∀ j, j ≠ i → ¬inside (Function.update pcs i pc j) := by
    intro j hj
    rw [Function.update_of_ne hj]
    exact h.out_of_unlocked j
  refine ⟨fun _ _ => rfl, fun j j' hj hj' => ?_⟩
  have hji : j = i := by_contra fun hne => hout j hne hj
  have hji' : j' = i := by_contra fun hne => hout j' hne hj'
  rw [hji, hji']

/- The party inside goes on, and may stay inside or not. -/
theorem move (h : Exclusive locked pcs inside) {i : ι} (pc : P) (hi : inside (pcs i)) :
    Exclusive locked (Function.update pcs i pc) inside := by
  refine ⟨fun _ _ => h.locked_of i hi, fun j j' hj hj' => ?_⟩
  have hout : ∀ j, j ≠ i → ¬inside (Function.update pcs i pc j) := by
    intro j hj
    rw [Function.update_of_ne hj]
    exact h.others_out hi hj
  have hji : j = i := by_contra fun hne => hout j hne hj
  have hji' : j' = i := by_contra fun hne => hout j' hne hj'
  rw [hji, hji']

theorem leave (h : Exclusive locked pcs inside) {i : ι} {pc : P} (hi : inside (pcs i))
    (hpc : ¬inside pc) (b : Bool) : Exclusive b (Function.update pcs i pc) inside := by
  refine none_inside (fun j hj => ?_) b
  by_cases hji : j = i
  · rw [hji, Function.update_self] at hj
    exact hpc hj
  · rw [Function.update_of_ne hji] at hj
    exact h.others_out hi hji hj

/- A party outside stays outside. -/
theorem outside (h : Exclusive locked pcs inside) {i : ι} {pc : P} (hpc : ¬inside pc) :
    Exclusive locked (Function.update pcs i pc) inside := by
  have hold : ∀ j, inside (Function.update pcs i pc j) → inside (pcs j) := by
    intro j hj
    by_cases hji : j = i
    · rw [hji, Function.update_self] at hj
      exact (hpc hj).elim
    · rwa [Function.update_of_ne hji] at hj
  exact ⟨fun j hj => h.locked_of j (hold j hj), fun j j' hj hj' => h.unique j j' (hold j hj) (hold j' hj')⟩

/-- What one party's step may do to the flag: take it when it is free, give it up on
leaving, or leave it alone without sneaking in. -/
inductive LockStep (inside : P → Prop) (locked : Bool) (pc : P) (locked' : Bool) (pc' : P) : Prop where
  | acquire (free : locked = false) (taken : locked' = true)
  | leave (hin : inside pc) (hout : ¬inside pc')
  | keep (same : locked' = locked) (h : inside pc ∨ ¬inside pc')

theorem step (h : Exclusive locked pcs inside) {i : ι} {locked' : Bool} {pc' : P}
    (hs : LockStep inside locked (pcs i) locked' pc') :
    Exclusive locked' (Function.update pcs i pc') inside := by
  cases hs with
  | acquire free taken =>
    subst free taken
    exact h.acquire i pc'
  | leave hin hout => exact h.leave hin hout locked'
  | keep same hpc =>
    subst same
    rcases hpc with hin | hout
    · exact h.move pc' hin
    · exact h.outside hout

end Exclusive

/-! ### A named holder

`Held` says which party is inside, if any: that one is at an inside point, and all
others are at outside points. -/

def Held (owner : Option ι) (pcs : ι → P) (inside outside : P → Prop) : Prop :=
  ∀ i, (owner = some i → inside (pcs i)) ∧ (owner ≠ some i → outside (pcs i))

namespace Held
variable {owner : Option ι} {pcs : ι → P} {inside inside' outside : P → Prop} {i : ι} {pc : P}

omit [DecidableEq ι] in
theorem nobody (h : ∀ i, outside (pcs i)) : Held none pcs inside outside :=
  fun i => ⟨nofun, fun _ => h i⟩

omit [DecidableEq ι] in
theorem owner_of_not_outside (h : Held owner pcs inside outside) (hi : ¬outside (pcs i)) :
    owner = some i := by
  by_contra hn
  exact hi ((h i).2 hn)

omit [DecidableEq ι] in
theorem inside_of_not_outside (h : Held owner pcs inside outside) (hi : ¬outside (pcs i)) :
    inside (pcs i) := (h i).1 (h.owner_of_not_outside hi)

/- A party outside that stays outside. -/
theorem pass (h : Held owner pcs inside outside) (hown : owner ≠ some i) (hpc : outside pc) :
    Held owner (Function.update pcs i pc) inside outside := by
  intro j
  by_cases hj : j = i
  · subst hj
    rw [Function.update_self]
    exact ⟨fun ho => (hown ho).elim, fun _ => hpc⟩
  · rw [Function.update_of_ne hj]
    exact h j

/- A new holder, where there was none or it was the same party. -/
theorem hold (h : Held owner pcs inside outside) (hown : ∀ j, owner = some j → j = i)
    (hpc : inside' pc) : Held (some i) (Function.update pcs i pc) inside' outside := by
  intro j
  by_cases hj : j = i
  · subst hj
    rw [Function.update_self]
    exact ⟨fun _ => hpc, fun hne => (hne rfl).elim⟩
  · rw [Function.update_of_ne hj]
    exact ⟨fun ho => (hj (Option.some.inj ho).symm).elim, fun _ => (h j).2 fun ho => hj (hown j ho)⟩

/- The holder leaves. -/
theorem drop (h : Held (some i) pcs inside outside) (hpc : outside pc) :
    Held none (Function.update pcs i pc) inside' outside := by
  refine nobody fun j => ?_
  by_cases hj : j = i
  · subst hj
    rwa [Function.update_self]
  · rw [Function.update_of_ne hj]
    exact (h j).2 fun ho => hj (Option.some.inj ho).symm

end Held

/-! ### Several mutexes

Each mutex names its holder; which mutex a party holds, at most one, follows from its
control point. -/

def Mutexes {κ : Type*} (lock : κ → Option ι) (pcs : ι → P) (holds : P → Option κ) : Prop :=
  ∀ i k, lock k = some i ↔ holds (pcs i) = some k

namespace Mutexes
variable {κ : Type*} [DecidableEq κ] {lock : κ → Option ι} {pcs : ι → P} {holds : P → Option κ}
  {i j : ι} {k : κ} {pc pc' : P}

omit [DecidableEq ι] [DecidableEq κ] in
theorem exclusive (h : Mutexes lock pcs holds) (hi : holds (pcs i) = some k)
    (hj : holds (pcs j) = some k) : i = j :=
  Option.some.inj (((h i k).mpr hi).symm.trans ((h j k).mpr hj))

omit [DecidableEq ι] [DecidableEq κ] in
theorem unheld (h : ∀ i, holds (pcs i) = none) : Mutexes (fun _ : κ => none) pcs holds := by
  intro i k
  rw [h i]
  exact ⟨nofun, nofun⟩

omit [DecidableEq ι] [DecidableEq κ] in
theorem free (h : Mutexes lock pcs holds) (hk : ∀ i, holds (pcs i) ≠ some k) : lock k = none := by
  cases hl : lock k with
  | none => rfl
  | some i => exact (hk i ((h i k).mp hl)).elim

/- A party goes on with what it holds. -/
omit [DecidableEq κ] in
theorem keep (h : Mutexes lock pcs holds) (hpc : pcs i = pc) (hh : holds pc' = holds pc) :
    Mutexes lock (Function.update pcs i pc') holds := by
  intro j k
  by_cases hj : j = i
  · subst hj
    rw [Function.update_self, hh, ← hpc]
    exact h j k
  · rw [Function.update_of_ne hj]
    exact h j k

theorem acquire (h : Mutexes lock pcs holds) (free : lock k = none) (hpc : pcs i = pc)
    (hn : holds pc = none) (hh : holds pc' = some k) :
    Mutexes (Function.update lock k (some i)) (Function.update pcs i pc') holds := by
  intro j k'
  by_cases hj : j = i
  · subst hj
    rw [Function.update_self, hh]
    by_cases hk : k' = k
    · rw [hk, Function.update_self]
      exact ⟨fun _ => rfl, fun _ => rfl⟩
    · rw [Function.update_of_ne hk, h j k', hpc, hn]
      exact ⟨nofun, fun he => (hk (Option.some.inj he).symm).elim⟩
  · rw [Function.update_of_ne hj]
    by_cases hk : k' = k
    · subst hk
      rw [Function.update_self, ← h j k', free]
      exact ⟨fun he => (hj (Option.some.inj he).symm).elim, nofun⟩
    · rw [Function.update_of_ne hk]
      exact h j k'

theorem release (h : Mutexes lock pcs holds) (hpc : pcs i = pc) (hheld : holds pc = some k)
    (hh : holds pc' = none) :
    Mutexes (Function.update lock k none) (Function.update pcs i pc') holds := by
  have hlock : lock k = some i := (h i k).mpr (by rw [hpc, hheld])
  intro j k'
  by_cases hk : k' = k
  · subst hk
    rw [Function.update_self]
    refine ⟨nofun, fun hj => ?_⟩
    by_cases hji : j = i
    · rw [hji, Function.update_self, hh] at hj
      cases hj
    · rw [Function.update_of_ne hji, ← h j k', hlock] at hj
      exact (hji (Option.some.inj hj).symm).elim
  · rw [Function.update_of_ne hk, h j k']
    by_cases hji : j = i
    · rw [hji, Function.update_self, hpc, hheld, hh]
      exact ⟨fun he => (hk (Option.some.inj he).symm).elim, nofun⟩
    · rw [Function.update_of_ne hji]

end Mutexes

end Pyroscope.Lib
