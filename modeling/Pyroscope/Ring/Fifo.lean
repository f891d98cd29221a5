import Pyroscope.Ring.Invariant

/-!
# The ring buffer is a queue of records

Seen through `queue`, a step of a producer or a consumer either changes nothing or is
one operation of a bounded first-in first-out queue.
-/

namespace Pyroscope.Ring
open Pyroscope.Lib Cyclic

variable {ι κ α : Type} [DecidableEq ι] [DecidableEq κ] {c : Capacity} {base : Usize}

/- What has been popped is at every moment a prefix of what has been published. -/
theorem popped_prefix_published {s : State ι κ α} (h : Reachable (Initial base) (Step c) s) :
    s.popped <+: s.published := (reachable_inv h).core.popped_extends

/- Four slots, and counters about to wrap: two producers push a record each, the second one
while the first is popped. -/
theorem wrapping_run : ∃ s : State Bool Unit ℕ,
    Reachable (Initial (BitVec.allOnes 64)) (Step ⟨2, by decide⟩) s ∧
      s.published = [[7], [8]] ∧ s.popped = [[7]] := by
  have h : Reachable (Initial (BitVec.allOnes 64)) (Step ⟨2, by decide⟩)
      (⟨RingBuffer.start _ fun _ => none, fun _ => .released, fun _ => .released, [], []⟩ :
        State Bool Unit ℕ) := .init ⟨_, rfl⟩
  have h := h.step (.producer true (.lock rfl))
  have h := h.step (.producer true .loadHead)
  have h := h.step (.producer true .loadTail)
  have h := h.step (.producer true (.pushFits [7] (by decide)))
  have h := h.step (.producer true (.writeValue rfl))
  have h := h.step (.producer true .writeLen)
  have h := h.step (.producer true .publish)
  have h := h.step (.producer true .drop)
  have h := h.step (.consumer () (.lock rfl))
  have h := h.step (.consumer () .loadHead)
  have h := h.step (.consumer () .loadTail)
  have h := h.step (.consumer () (.popReady [0, 0] (by decide)))
  have h := h.step (.producer false (.lock rfl))
  have h := h.step (.producer false .loadHead)
  have h := h.step (.consumer () (.readLen (show _ = some (Slot.len 1) from rfl) (by decide)))
  have h := h.step (.producer false .loadTail)
  have h := h.step (.producer false (.pushFits [8] (by decide)))
  have h := h.step (.consumer () (.readValue (by decide) (show _ = some (Slot.value 7) from rfl)))
  have h := h.step (.producer false (.writeValue rfl))
  have h := h.step (.consumer () .store)
  have h := h.step (.producer false .writeLen)
  have h := h.step (.producer false .publish)
  exact ⟨_, h, rfl, rfl⟩

theorem popped_prefix_published_wrapping : ∃ s : State Bool Unit ℕ,
    s.published = [[7], [8]] ∧ s.popped = [[7]] ∧ s.popped <+: s.published := by
  obtain ⟨s, h, hpublished, hpopped⟩ := wrapping_run
  exact ⟨s, hpublished, hpopped, popped_prefix_published h⟩

def queue (s : State ι κ α) : List (List α) := s.published.drop s.popped.length

/-- The operations of a queue that holds at most `N` slots. -/
inductive QueueStep (c : Capacity) : List (List α) → List (List α) → Prop where
  | push {q} (r : List α) (room : span (q ++ [r]) ≤ c.slots) : QueueStep c q (q ++ [r])
  | pop {r q} : QueueStep c (r :: q) q

omit [DecidableEq ι] [DecidableEq κ] in
theorem published_eq {s : State ι κ α} (h : Inv c base s) : s.published = s.popped ++ queue s := by
  obtain ⟨pending, he⟩ := h.core.popped_extends
  rw [queue, ← he, List.drop_left]

omit [DecidableEq ι] [DecidableEq κ] in
theorem queue_span {s : State ι κ α} (h : Inv c base s) : span (queue s) ≤ c.slots := by
  have hbound := h.core.bound
  rw [published_eq h, span_append] at hbound
  omega

theorem queue_pushed {published popped q q' : List (List α)} {r : List α}
    (h : published = popped ++ q) (h' : published ++ [r] = popped ++ q') : q' = q ++ [r] := by
  rw [h, List.append_assoc, List.append_cancel_left_eq] at h'
  exact h'.symm

theorem queue_popped {published popped q q' : List (List α)} {r : List α}
    (h : published = popped ++ q) (h' : published = popped ++ [r] ++ q') : q = r :: q' := by
  rwa [h, List.append_assoc, List.append_cancel_left_eq, List.singleton_append] at h'

theorem step_queue {s s' : State ι κ α} (h : Inv c base s) (hs : Step c s s') :
    queue s' = queue s ∨ QueueStep c (queue s) (queue s') := by
  have h' := step_inv h hs
  have hpub := published_eq h
  have hpub' := published_eq h'
  have hroom := queue_span h'
  cases hs with
  | @producer i event rb pc hstep =>
    cases event with
    | none => exact Or.inl rfl
    | some r =>
      have hq := queue_pushed hpub hpub'
      rw [hq] at hroom
      rw [hq]
      exact Or.inr (.push r hroom)
  | @consumer j event rb pc hstep =>
    cases event with
    | none => exact Or.inl rfl
    | some r =>
      rw [queue_popped hpub hpub']
      exact Or.inr .pop

/- The ring buffer refines the bounded queue, which starts empty. -/
theorem queue_reachable {s : State ι κ α} (h : Reachable (Initial base) (Step c) s) :
    Reachable (fun q => q = []) (QueueStep c) (queue s) := by
  refine h.simulation queue (fun s hs => ?_) fun s s' hr hs => step_queue (reachable_inv hr) hs
  obtain ⟨slots, rfl⟩ := hs
  rfl

end Pyroscope.Ring
