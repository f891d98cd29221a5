import Pyroscope.Lib.TwoRuns
import Pyroscope.Signal.Registry

/-!
# What a session leaves behind (signal_sampler.rs, signal_backend.rs)

A session leaves its last records in `RECORDS` and its last counts in `METRICS`. No call
reads them, and the start of the next session throws both away.
-/

namespace Pyroscope.Signal.Calls
open Pyroscope.Lib Pyroscope.Signal.Timers

/-- Two states with one sampler thread, which differ in the records and the counts at most, and
not in these if `known`. -/
def Alike (known : Prop) (thread : Option (ℕ × Mode)) (x x' : Statics) : Prop :=
  ∃ records metrics, x' = { x with records, metrics } ∧
    (known → records = x.records ∧ metrics = x.metrics) ∧ x.samplerThread = thread

section Alike
variable {known : Prop} {thread : Option (ℕ × Mode)}

/- A call on the timers sees nothing else. -/
theorem onTimers_relates {α : Type} {R : Statics → Statics → Prop} (ht : ∀ x x', R x x' → x'.timers = x.timers)
    (hput : ∀ x x' timers, R x x' → R { x with timers } { x' with timers }) (c : TimerCall String α) :
    (onTimers c).Relates R (onTimers c) (fun a b x x' => b = a ∧ R x x') fun e e' x x' => e' = e ∧ R x x' := by
  refine .on fun x x' h => ?_
  rw [ht x x' h]
  rcases c x.timers with ⟨e | a, timers⟩ <;> exact ⟨rfl, hput x x' timers h⟩

theorem Alike.timers {x x' : Statics} (h : Alike known thread x x') : x'.timers = x.timers := by
  obtain ⟨records, metrics, rfl, -, -⟩ := h
  rfl

theorem Alike.put {x x' : Statics} (timers : Timers.State Unit) (h : Alike known thread x x') :
    Alike known thread { x with timers } { x' with timers } := by
  obtain ⟨records, metrics, rfl, hknown, hthread⟩ := h
  exact ⟨records, metrics, rfl, hknown, hthread⟩

/- Past the first reset only the counts may differ. -/
theorem start_alike (p : Platform) (w : Externals) (config : Config) :
    (SignalHandlerSession.start p w config).Relates (Alike known thread) (SignalHandlerSession.start p w config)
      (fun k k' x x' => k' = k ∧ x' = x ∧ x.samplerThread = thread)
      fun e e' x x' => e' = e ∧ Alike known thread x x' := by
  let counts : Statics → Statics → Prop := fun x x' =>
    Alike known thread x x' ∧ ∃ metrics, x' = { x with metrics }
  have hcounts : ∀ x x' timers, counts x x' → counts { x with timers } { x' with timers } := by
    rintro x x' timers ⟨halike, metrics, rfl⟩
    exact ⟨halike.put timers, metrics, rfl⟩
  refine .bind (onTimers_relates (fun _ _ h => h.timers) (fun _ _ timers h => h.put timers) _) fun _ _ => ?_
  refine .bind (Q := fun _ _ => counts) (.modify ?_) fun _ _ => ?_
  · rintro x _ ⟨-, records, metrics, rfl, hknown, hthread⟩
    exact ⟨⟨[], metrics, rfl, fun hk => ⟨rfl, (hknown hk).2⟩, hthread⟩, metrics, rfl⟩
  refine .bind ((onTimers_relates (fun _ _ h => h.1.timers) hcounts _).conseq (fun _ _ h => h)
    (fun _ _ _ _ h => h) fun _ _ _ _ h => ⟨h.1, h.2.1⟩) fun _ _ => ?_
  refine .bind (Q := fun _ _ x x' => x' = x ∧ x.samplerThread = thread) (.modify ?_) fun _ _ => ?_
  · rintro x _ ⟨-, ⟨-, -, -, -, hthread⟩, metrics, rfl⟩
    exact ⟨rfl, hthread⟩
  refine (onTimers_relates (R := fun x x' => x' = x ∧ x.samplerThread = thread) ?_ ?_ _).conseq
    (fun _ _ h => h) (fun _ _ _ _ h => h) ?_
  · rintro x _ ⟨rfl, -⟩
    rfl
  · rintro x _ timers ⟨rfl, hthread⟩
    exact ⟨rfl, hthread⟩
  · rintro e e' x x' ⟨he, rfl, hthread⟩
    exact ⟨he, x'.records, x'.metrics, rfl, fun _ => ⟨rfl, rfl⟩, hthread⟩

theorem onTimers_thread {α : Type} (c : TimerCall String α) :
    (onTimers c).Ensures (fun x => x.samplerThread = thread) (fun _ x => x.samplerThread = thread)
      fun _ x => x.samplerThread = thread := by
  refine .on fun x hx => ?_
  rcases c x.timers with ⟨e | a, timers⟩ <;> exact hx

theorem attach_thread (p : Platform) (w : Externals) (k : ℕ) :
    (Threads.attach p w k).Ensures (fun x => x.samplerThread = thread) (fun _ x => x.samplerThread = thread)
      fun _ x => x.samplerThread = thread := by
  let kept : Statics → Prop := fun x => x.samplerThread = thread
  unfold Threads.attach
  split
  · refine .bind (Q := fun _ => kept) (.get fun _ h => h) fun _ => ?_
    refine .bind (Q := fun _ => kept) (.failIf (fun _ _ h => h) fun _ _ h => h) fun _ => ?_
    refine .bind (Q := fun _ => kept) (.modify fun _ h => h) fun _ => ?_
    refine .bind (.mapError (onTimers_thread _)) fun _ => ?_
    exact .bind (Q := fun _ => kept) (.modify fun _ h => h) fun _ => .modify fun _ h => h
  · exact .fail fun _ h => h

/-- What the session before left is gone when `Signal::new` has succeeded; when it has not, the
calls still are not told apart. -/
theorem new_alike (p : Platform) (w : Externals) (config : Config) :
    (new p w config).Relates (Alike known thread) (new p w config) (fun _ _ x x' => x' = x)
      fun e e' x x' => e' = e ∧ Alike known thread x x' := by
  refine .bind (.mapError ((start_alike p w config).conseq (fun _ _ h => h) (fun _ _ _ _ h => h) ?_)) ?_
  · rintro e e' x x' ⟨rfl, halike⟩
    exact ⟨rfl, halike⟩
  · intro k k'
    refine .bind (Q := fun _ _ x x' => k' = k ∧ x' = x) ?_ fun _ _ => .modify ?_
    · rintro x x' ⟨rfl, rfl, hthread⟩
      refine (Call.Relates.same (P := fun x x' => x' = x ∧ x.samplerThread = thread)
        (A := fun x => x.samplerThread = thread) (B := fun _ _ => True)
        (C := fun _ x => x.samplerThread = thread) ?_ (fun _ _ h => h) x' x' ⟨rfl, hthread⟩).imp
        (fun _ _ _ _ h => ⟨rfl, h.2.1⟩) ?_
      · split
        · exact .guarded ((attach_thread p w k').conseq (fun _ h => h) (fun _ _ _ => trivial) fun _ _ h => h)
        · exact .pure fun _ _ => trivial
      · rintro e e' y y' ⟨he, rfl, ht⟩
        exact ⟨he, y'.records, y'.metrics, rfl, fun _ => ⟨rfl, rfl⟩, ht⟩
    · rintro x x' ⟨rfl, rfl⟩
      rfl

theorem install_alike (hooks : Except String Unit) :
    (Threads.install hooks).Relates (Alike known thread) (Threads.install hooks) (fun _ _ => Alike known thread)
      fun e e' x x' => e' = e ∧ Alike known thread x x' := by
  refine .bind (Q := fun x₀ x₀' x x' => x₀'.installed = x₀.installed ∧ Alike known thread x x') (.get ?_)
    fun x₀ x₀' => .given (fun _ _ h => h.1) fun hsame => ?_
  · rintro x _ ⟨records, metrics, rfl, hknown, hthread⟩
    exact ⟨rfl, records, metrics, rfl, hknown, hthread⟩
  · rw [hsame]
    split
    · exact .pure fun _ _ h => h.2
    · refine .bind (Q := fun _ _ => Alike known thread)
        (.returned (fun _ _ _ h => h.2) fun _ _ _ h => ⟨rfl, h.2⟩) fun _ _ => .modify ?_
      rintro x _ ⟨records, metrics, rfl, hknown, hthread⟩
      exact ⟨records, metrics, rfl, hknown, hthread⟩

end Alike

/-! ### The hooks and the end of the sampler thread -/

section Left
variable (x : Statics) (records : List (List Frame)) (metrics : Metrics)

theorem registerThread_left (w : Externals) (id tid : ℕ) :
    Threads.registerThread w id tid { x with records, metrics } =
      { Threads.registerThread w id tid x with records, metrics } := by
  unfold Threads.registerThread
  cases x.timer <;> rfl

theorem unregisterThread_left (id : ℕ) : Threads.unregisterThread id { x with records, metrics } =
    { Threads.unregisterThread id x with records, metrics } := by
  unfold Threads.unregisterThread
  cases x.live.get id with
  | none => rfl
  | some tid => cases x.timer <;> rfl

theorem samplerThreadEnds_left (w : Externals) : samplerThreadEnds w { x with records, metrics } =
    { samplerThreadEnds w x with records, metrics } := by
  rcases x with ⟨timers, left, counts, installed, live, timer, _ | ⟨k, mode⟩⟩
  · rfl
  · cases mode <;> rfl

end Left

end Pyroscope.Signal.Calls
