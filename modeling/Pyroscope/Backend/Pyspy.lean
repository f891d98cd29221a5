import Pyroscope.Backend.Ruleset
import Pyroscope.Upload.Flush

/-!
# The py-spy profiler (pyspy_backend.rs)

The sampler thread records the traces of one py-spy sample after the other, each under
the lock of the buffer; `Reporter::report` takes the buffer under the same lock.
-/

namespace Pyroscope.Backend.Pyspy
open Pyroscope.Lib Pyroscope.Encode Pyroscope.Upload.Flush

/-- The fields of `py_spy::Config` that the sampler thread reads. -/
structure Config where
  includeIdle : Bool
  gilOnly : Bool

/-- A trace of py-spy; `trace` is what `StackTraceWrapper` makes of it. -/
structure Trace where
  active : Bool
  ownsGil : Bool
  trace : StackTrace

def Config.skips (config : Config) (trace : Trace) : Bool :=
  !(config.includeIdle || trace.active) || (config.gilOnly && !trace.ownsGil)

inductive Sampler where
  | starting
  | sampling
  | recording (traces : List Trace)
  | ended

/-- `recorded` lists what went into the buffer; `report` is a buffer taken by a report
that has not returned. -/
structure State where
  sampler : Sampler
  rules : ThreadTagsSet
  buffer : StackBuffer
  report : Option StackBuffer
  recorded : List StackTrace

variable (config : Config)

inductive Step (running : Bool) : State → State → Prop where
  | samplerNew {s} (h : s.sampler = .starting) : Step running s { s with sampler := .sampling }
  | samplerFails {s} (h : s.sampler = .starting) : Step running s { s with sampler := .ended }
  /-- `take_while` lets the sample through -/
  | sample {s} (traces : List Trace) (h : s.sampler = .sampling) (hr : running = true) :
    Step running s { s with sampler := .recording traces }
  /-- py-spy has no more samples, or `running` is off -/
  | samplerEnds {s} (h : s.sampler = .sampling) : Step running s { s with sampler := .ended }
  | skip {s trace traces} (h : s.sampler = .recording (trace :: traces))
      (hs : config.skips trace = true) : Step running s { s with sampler := .recording traces }
  | record {s trace traces} (ord : IterOrder (ThreadTag × Unit))
      (h : s.sampler = .recording (trace :: traces)) (hs : config.skips trace = false) :
    Step running s { s with
      sampler := .recording traces
      buffer := s.buffer.record (trace.trace.addTagRules ord s.rules)
      recorded := s.recorded ++ [trace.trace.addTagRules ord s.rules] }
  | nextSample {s} (h : s.sampler = .recording []) : Step running s { s with sampler := .sampling }
  /-- `add_thread_tag` and `remove_thread_tag` -/
  | retag {s} (rules : ThreadTagsSet) : Step running s { s with rules := rules }

section Report
variable {Id : Type} [DecidableEq Id] (getId : Metadata → Id)

/-- The profiler for the agent. What has been recorded is captured by count. -/
def source : Source State (StackTrace → ℕ) where
  initial s := s.sampler = .starting ∧ s.buffer = .default ∧ s.report = none ∧ s.recorded = []
  runs := Step config
  lock _ _ := False
  take s s' := s' = { s with buffer := .default, report := some s.buffer }
  swap _ _ := False
  finish s b s' := s.report = some b ∧ s' = { s with report := none }
  payload _ b r := ∃ (ordBuffer : IterOrder (StackTrace × ℕ)) (ordReports : IterOrder (Id × Report)),
    r = .ok (.reports (reportsOfBuffer getId ordBuffer ordReports b))
  capture s t := s.recorded.count t
  ended s := s.sampler = .ended

def State.taken (s : State) (t : StackTrace) : ℕ :=
  match s.report with
  | some b => b.count t
  | none => 0

theorem step_balance {running : Bool} {s s' : State} (h : Step config running s s') (t : StackTrace) :
    s'.recorded.count t + s.buffer.count t = s.recorded.count t + s'.buffer.count t := by
  cases h with
  | record ord h hs =>
    simp only [List.count_append, List.count_singleton, StackBuffer.count_record, beq_iff_eq]
    omega
  | _ => rfl

theorem step_report {running : Bool} {s s' : State} (h : Step config running s s') :
    s'.report = s.report := by
  cases h <;> rfl

theorem moves_recorded {s s' : State} (h : (source config getId).Moves s s') (t : StackTrace) :
    s.recorded.count t ≤ s'.recorded.count t := by
  cases h with
  | runs r h =>
    cases h with
    | record ord h hs =>
      rw [List.count_append]
      exact Nat.le_add_right ..
    | _ => exact le_rfl
  | lock h => exact h.elim
  | take h =>
    cases h
    exact le_rfl
  | swap h => exact h.elim
  | finish b h =>
    obtain ⟨-, rfl⟩ := h
    exact le_rfl

/-- Nothing has to be waited for: what is recorded is in the buffer. -/
def ledger (sampleRate : UInt32) : Ledger (source config getId) sampleRate where
  Inv _ := True
  entered s t := s.recorded.count t
  pending s t := s.buffer.count t
  taken := State.taken
  left _ _ := 0
  Kept c s := ∀ t, c t ≤ s.recorded.count t
  Whole _ _ := True
  need c _ := c
  Fits _ := True
  inv_initial _ := trivial
  inv_moves _ _ := trivial
  entered_initial h t := by
    rw [h.2.2.2]
    exact Nat.zero_le _
  taken_initial h t := by rw [State.taken, h.2.2.1]
  runs_balance _ h := step_balance config h
  runs_taken h t := by rw [State.taken, State.taken, step_report config h]
  runs_left _ _ := le_rfl
  lock_same h := h.elim
  take_balance h t _ := by
    cases h
    refine ⟨rfl, ?_⟩
    rw [StackBuffer.count_default]
    rfl
  take_finds h t := by
    cases h
    exact le_rfl
  swap_balance h := h.elim
  swap_finds _ h := h.elim
  finish_balance h t := by
    obtain ⟨hb, rfl⟩ := h
    exact ⟨rfl, by simp only [State.taken, hb], rfl⟩
  finish_finds h t := by
    rw [State.taken, h.1]
    exact le_rfl
  kept_capture _ _ := le_rfl
  kept_moves _ h hk t := (hk t).trans (moves_recorded config getId h t)
  whole_moves _ _ _ := trivial
  need_moves _ _ _ _ := rfl
  need_le hk _ := hk
  shows {_ b _} _ h := by
    obtain ⟨ordBuffer, ordReports, rfl⟩ := h
    exact ⟨_, rfl, fun ordData => reportEntries_perm getId ordBuffer ordData ordReports b⟩

end Report

end Pyroscope.Backend.Pyspy
