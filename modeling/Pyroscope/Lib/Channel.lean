import Mathlib.Data.List.Basic
import Mathlib.Data.Nat.Notation

/-!
# Bounded channels

A queue that never holds more than `cap` messages. A sender waits while it is full, a
receiver while it is empty; what has been received and what is still queued is what
has been sent, in order.
-/

namespace Pyroscope.Lib

structure Channel (α : Type) (cap : ℕ) where
  queue : List α
  bounded : queue.length ≤ cap

namespace Channel
variable {α : Type} {cap : ℕ}

def empty : Channel α cap := ⟨[], Nat.zero_le cap⟩

def send (c : Channel α cap) (a : α) : Option (Channel α cap) :=
  if h : c.queue.length < cap then
    some ⟨c.queue ++ [a], by
      rw [List.length_append]
      exact h⟩
  else none

def recv : Channel α cap → Option (α × Channel α cap)
  | ⟨[], _⟩ => none
  | ⟨a :: queue, h⟩ => some (a, ⟨queue, Nat.le_of_succ_le h⟩)

theorem send_queue {c c' : Channel α cap} {a : α} (h : c.send a = some c') :
    c'.queue = c.queue ++ [a] := by
  unfold send at h
  split at h
  · cases h
    rfl
  · cases h

theorem recv_queue {c c' : Channel α cap} {a : α} (h : c.recv = some (a, c')) :
    c.queue = a :: c'.queue := by
  obtain ⟨queue, hq⟩ := c
  cases queue with
  | nil => cases h
  | cons b queue =>
    cases h
    rfl

theorem exists_send {c : Channel α cap} (h : c.queue.length < cap) (a : α) :
    ∃ c', c.send a = some c' := ⟨_, dif_pos h⟩

theorem exists_recv {c : Channel α cap} {a : α} {queue : List α} (h : c.queue = a :: queue) :
    ∃ c', c.recv = some (a, c') := by
  obtain ⟨queue', hq⟩ := c
  cases h
  exact ⟨_, rfl⟩

/-- Everything sent is either received or still queued, in order. -/
def Fifo (sent received : List α) (c : Channel α cap) : Prop := received ++ c.queue = sent

theorem Fifo.send {sent received : List α} {c c' : Channel α cap} {a : α} (h : Fifo sent received c)
    (hs : c.send a = some c') : Fifo (sent ++ [a]) received c' := by
  rw [Fifo, send_queue hs, ← List.append_assoc, h]

theorem Fifo.recv {sent received : List α} {c c' : Channel α cap} {a : α} (h : Fifo sent received c)
    (hr : c.recv = some (a, c')) : Fifo sent (received ++ [a]) c' := by
  rw [Fifo, recv_queue hr] at h
  rw [Fifo, List.append_assoc]
  exact h

end Channel

end Pyroscope.Lib
