import Pyroscope.Upload.Flush

/-!
# A profiler in more detail

A profiler refines another one when each of its moves, seen through a projection, is a
move of the other or nothing. The agent around it then does, seen through the projection,
what the agent around the other can do.
-/

namespace Pyroscope.Upload.Flush
open Pyroscope.Lib Pyroscope.Encode

variable {σ τ κ : Type}

structure Refines (P : Source τ κ) (S : Source σ κ) (f : τ → σ) : Prop where
  initial : ∀ {a}, P.initial a → S.initial (f a)
  runs : ∀ {r a a'}, P.runs r a a' → f a' = f a ∨ S.runs r (f a) (f a')
  lock : ∀ {a a'}, P.lock a a' → S.lock (f a) (f a')
  take : ∀ {a a'}, P.take a a' → S.take (f a) (f a')
  swap : ∀ {a a'}, P.swap a a' → S.swap (f a) (f a')
  finish : ∀ {a b a'}, P.finish a b a' → S.finish (f a) b (f a')
  payload : ∀ {timeRange b r}, P.payload timeRange b r → S.payload timeRange b r
  capture : ∀ a, P.capture a = S.capture (f a)
  ended : ∀ {a}, P.ended a → S.ended (f a)

/-- The agent with its profiler seen through the projection. -/
def State.through (f : τ → σ) (s : State τ κ) : State σ κ :=
  ⟨s.agent, s.stage, s.watch, s.running, f s.source, s.captured, s.handed⟩

namespace Refines
variable {P : Source τ κ} {S : Source σ κ} {f : τ → σ} {crates : Crates} {config : PyroscopeConfig}

theorem initial_through (h : Refines P S f) {s : State τ κ} (hs : Initial P s) :
    Initial S (s.through f) := by
  obtain ⟨watch, source, hsource, rfl⟩ := hs
  exact ⟨watch, f source, h.initial hsource, rfl⟩

theorem step_through (h : Refines P S f) {s s' : State τ κ} (hs : Step P crates config s s') :
    s'.through f = s.through f ∨ Step S crates config (s.through f) (s'.through f) := by
  cases hs with
  | runs hr =>
    rcases h.runs hr with he | hr
    · left
      simp only [State.through, he]
    · exact Or.inr (.runs hr)
  | wakes hw hf => exact Or.inr (.wakes hw hf)
  | lap now hst epoch => exact Or.inr (.lap now hst epoch)
  | lapFails hst epoch hf => exact Or.inr (.lapFails hst epoch hf)
  | dump others hst => exact Or.inr (.dump others hst)
  | lock hst hl => exact Or.inr (.lock hst (h.lock hl))
  | take hst ht => exact Or.inr (.take hst (h.take ht))
  | swap hst hw => exact Or.inr (.swap hst (h.swap hw))
  | finish hst hf => exact Or.inr (.finish hst (h.finish hf))
  | panics hst hp hf => exact Or.inr (.panics hst (h.payload hp) hf)
  | empty hst hp hf hb => exact Or.inr (.empty hst (h.payload hp) hf hb)
  | session hst hp hf hb => exact Or.inr (.session hst (h.payload hp) hf hb)
  | send hst hf alive hc => exact Or.inr (.send hst hf alive hc)
  | sendFails hf gone => exact Or.inr (.sendFails hf gone)
  | manager hman => exact Or.inr (.manager hman)
  | stop hst =>
    right
    simp only [State.through, h.capture]
    exact .stop (s := s.through f) hst
  | joinSnapshot hst exited => exact Or.inr (.joinSnapshot hst exited)
  | clearRunning hst => exact Or.inr (.clearRunning hst)
  | joinSampler hst stopped ended => exact Or.inr (.joinSampler hst stopped (h.ended ended))
  | kill hst hk => exact Or.inr (.kill hst hk)
  | joinManager hst hk => exact Or.inr (.joinManager hst hk)

/- A condition on the steps that only sees the projection goes along. -/
theorem reachable_through (h : Refines P S f) {Q : State σ κ → State σ κ → Prop} {s : State τ κ}
    (hs : Reachable (Initial P) (fun s s' => Step P crates config s s' ∧
      Q (s.through f) (s'.through f)) s) :
    Reachable (Initial S) (fun s s' => Step S crates config s s' ∧ Q s s') (s.through f) := by
  refine hs.simulation (State.through f) (fun s hs => h.initial_through hs) fun s s' _ hs => ?_
  rcases h.step_through hs.1 with he | hstep
  · exact Or.inl he
  · exact Or.inr ⟨hstep, hs.2⟩

end Refines

/-! ### Invariants of the profiler -/

section Moves
variable {S : Source σ κ} {crates : Crates} {config : PyroscopeConfig}

theorem step_source {s s' : State σ κ} (hs : Step S crates config s s') :
    s'.source = s.source ∨ S.Moves s.source s'.source := by
  cases hs with
  | runs hr => exact Or.inr (.runs _ hr)
  | lock hst hl => exact Or.inr (.lock hl)
  | take hst ht => exact Or.inr (.take ht)
  | swap hst hw => exact Or.inr (.swap hw)
  | finish hst hf => exact Or.inr (.finish _ hf)
  | _ => exact Or.inl rfl

theorem source_invariant (inv : σ → Prop) (hinit : ∀ a, S.initial a → inv a)
    (hmoves : ∀ a a', inv a → S.Moves a a' → inv a') {s : State σ κ}
    (h : Reachable (Initial S) (Step S crates config) s) : inv s.source := by
  induction h with
  | init h =>
    obtain ⟨watch, source, hsource, rfl⟩ := h
    exact hinit source hsource
  | step _ hs ih =>
    rcases step_source hs with he | hm
    · rw [he]
      exact ih
    · exact hmoves _ _ ih hm

end Moves
end Pyroscope.Upload.Flush
