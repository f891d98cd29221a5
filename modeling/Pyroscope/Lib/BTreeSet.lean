import Mathlib.Order.Lattice
import Mathlib.Data.List.Sort

/-!
# Ordered sets

A set kept as its strictly increasing list of elements, which is also its iteration
order.
-/

namespace Pyroscope.Lib

structure BTreeSet (α : Type) [LT α] where
  toList : List α
  sorted : toList.Pairwise (· < ·)

namespace BTreeSet
variable {α : Type} [LinearOrder α]

instance : DecidableEq (BTreeSet α) := fun s t =>
  decidable_of_iff (s.toList = t.toList) (by cases s; cases t; simp)

def empty : BTreeSet α := ⟨[], List.Pairwise.nil⟩

def insertSorted (x : α) : List α → List α
  | [] => [x]
  | y :: ys => if x < y then x :: y :: ys else if x = y then y :: ys else y :: insertSorted x ys

theorem mem_insertSorted (x y : α) (l : List α) : y ∈ insertSorted x l ↔ y = x ∨ y ∈ l := by
  induction l with
  | nil => simp [insertSorted]
  | cons z zs ih =>
    simp only [insertSorted]
    split
    · exact List.mem_cons
    · split
      · rename_i he
        rw [he]
        exact ⟨Or.inr, fun h => h.elim (fun hy => hy ▸ List.mem_cons_self ..) (fun hy => hy)⟩
      · simp only [List.mem_cons, ih, or_left_comm]

theorem insertSorted_sorted (x : α) (l : List α) (h : l.Pairwise (· < ·)) :
    (insertSorted x l).Pairwise (· < ·) := by
  induction l with
  | nil => exact List.pairwise_singleton _ x
  | cons z zs ih =>
    obtain ⟨hz, hzs⟩ := List.pairwise_cons.mp h
    simp only [insertSorted]
    split
    · rename_i hlt
      exact List.pairwise_cons.mpr ⟨fun w hw => (List.mem_cons.mp hw).elim
        (fun he => he ▸ hlt) (fun hm => hlt.trans (hz w hm)), h⟩
    · rename_i hnlt
      split
      · exact h
      · rename_i hne
        refine List.pairwise_cons.mpr ⟨fun w hw => ?_, ih hzs⟩
        rcases (mem_insertSorted x w zs).mp hw with rfl | hm
        · exact lt_of_le_of_ne (not_lt.mp hnlt) (Ne.symm hne)
        · exact hz w hm

def insert (s : BTreeSet α) (x : α) : BTreeSet α :=
  ⟨insertSorted x s.toList, insertSorted_sorted x s.toList s.sorted⟩

@[simp] theorem mem_insert (s : BTreeSet α) (x y : α) :
    y ∈ (s.insert x).toList ↔ y = x ∨ y ∈ s.toList := mem_insertSorted x y s.toList

/- The elements determine the list they are kept in. -/
theorem eq_of_mem_iff {s t : BTreeSet α} (h : ∀ x, x ∈ s.toList ↔ x ∈ t.toList) : s = t := by
  obtain ⟨l, hl⟩ := s
  obtain ⟨l', hl'⟩ := t
  have he : l = l' := hl.eq_of_mem_iff hl' h
  subst he
  rfl

end BTreeSet

end Pyroscope.Lib
