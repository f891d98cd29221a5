import Mathlib.Logic.Function.Basic
import Mathlib.Data.Nat.Notation

/-!
# Allocations and their addresses

Each allocation has a number of its own. Its address is free again when it has been freed,
and may be given to a later allocation.
-/

namespace Pyroscope.Lib

/-- `live` is the allocation at an address. -/
structure Heap (α : Type) where
  live : α → Option ℕ
  next : ℕ
  freed : List ℕ

namespace Heap
variable {α : Type} [DecidableEq α]

def empty : Heap α := ⟨fun _ => none, 0, []⟩

def alloc (h : Heap α) (a : α) : Heap α := ⟨Function.update h.live a (some h.next), h.next + 1, h.freed⟩

/-- Whatever is at the address. -/
def free (h : Heap α) (a : α) : Heap α := ⟨Function.update h.live a none, h.next, (h.live a).toList ++ h.freed⟩

variable {h : Heap α} {a b : α} {n : ℕ}

@[simp] theorem alloc_live_self (h : Heap α) (a : α) : (h.alloc a).live a = some h.next := Function.update_self ..

theorem alloc_live_ne (hne : b ≠ a) : (h.alloc a).live b = h.live b := Function.update_of_ne hne ..

theorem alloc_live_of_live (ha : h.live a = none) (hb : h.live b = some n) : (h.alloc a).live b = some n := by
  have hne : b ≠ a := by
    rintro rfl
    rw [ha] at hb
    cases hb
  rw [alloc_live_ne hne, hb]

@[simp] theorem free_live_self (h : Heap α) (a : α) : (h.free a).live a = none := Function.update_self ..

theorem free_live_ne (hne : b ≠ a) : (h.free a).live b = h.live b := Function.update_of_ne hne ..

theorem free_live_inv (hb : (h.free a).live b = some n) : b ≠ a ∧ h.live b = some n := by
  by_cases he : b = a
  · rw [he, free_live_self] at hb
    cases hb
  · exact ⟨he, by rw [← free_live_ne he, hb]⟩

theorem mem_freed_free : n ∈ (h.free a).freed ↔ h.live a = some n ∨ n ∈ h.freed := by
  simp [free]

/-- Numbers are not used twice. -/
structure WF (h : Heap α) : Prop where
  bound : ∀ a n, h.live a = some n → n < h.next
  inj : ∀ a b n, h.live a = some n → h.live b = some n → a = b
  freed : ∀ n ∈ h.freed, n < h.next ∧ ∀ a, h.live a ≠ some n

omit [DecidableEq α] in
theorem WF.empty : (empty : Heap α).WF := ⟨nofun, nofun, nofun⟩

theorem WF.alloc (hw : h.WF) (a : α) : (h.alloc a).WF := by
  have hcases : ∀ b n, (h.alloc a).live b = some n → b = a ∧ n = h.next ∨ b ≠ a ∧ h.live b = some n := by
    intro b n hb
    by_cases he : b = a
    · rw [he, alloc_live_self] at hb
      exact .inl ⟨he, (Option.some.inj hb).symm⟩
    · rw [alloc_live_ne he] at hb
      exact .inr ⟨he, hb⟩
  refine ⟨fun b n hb => ?_, fun b b' n hb hb' => ?_, fun n hn => ⟨Nat.lt_succ_of_lt (hw.freed n hn).1, fun b hb => ?_⟩⟩
  · rcases hcases b n hb with ⟨-, rfl⟩ | ⟨-, hb⟩
    · exact Nat.lt_succ_self _
    · exact Nat.lt_succ_of_lt (hw.bound b n hb)
  · rcases hcases b n hb with ⟨hba, hn⟩ | ⟨-, hb⟩ <;> rcases hcases b' n hb' with ⟨hba', hn'⟩ | ⟨-, hb'⟩
    · rw [hba, hba']
    · rw [hn] at hb'
      exact absurd (hw.bound b' _ hb') (Nat.lt_irrefl _)
    · rw [hn'] at hb
      exact absurd (hw.bound b _ hb) (Nat.lt_irrefl _)
    · exact hw.inj b b' n hb hb'
  · rcases hcases b n hb with ⟨-, rfl⟩ | ⟨-, hb⟩
    · exact absurd (hw.freed _ hn).1 (Nat.lt_irrefl _)
    · exact (hw.freed n hn).2 b hb

theorem WF.free (hw : h.WF) (a : α) : (h.free a).WF := by
  refine ⟨fun b n hb => hw.bound b n (free_live_inv hb).2,
    fun b b' n hb hb' => hw.inj b b' n (free_live_inv hb).2 (free_live_inv hb').2, fun n hn => ?_⟩
  rcases mem_freed_free.mp hn with ha | hn
  · refine ⟨hw.bound a n ha, fun b hb => ?_⟩
    obtain ⟨hne, hb⟩ := free_live_inv hb
    exact hne (hw.inj b a n hb ha)
  · exact ⟨(hw.freed n hn).1, fun b hb => (hw.freed n hn).2 b (free_live_inv hb).2⟩

end Heap

end Pyroscope.Lib
