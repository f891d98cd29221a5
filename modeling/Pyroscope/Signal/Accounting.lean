import Pyroscope.Signal.Ordered
import Pyroscope.Lib.Balance

/-!
# Every tick is accounted for once

Each step moves one unit between the places where a tick can be. The places that only
exist while a handler, a drain or a report is under way are `settled` and `held`; when
nothing is under way they are empty and the balance is the accounting identity.
-/

namespace Pyroscope.Signal
open Pyroscope.Lib Pyroscope.Backend Pyroscope.Ring Finset

/-- A run that has published or counted its tick and has not returned yet. -/
def Handler.settled : Handler → ℕ
  | .leaving _ _ => 1
  | .returning => 1
  | _ => 0

def Sampler.held : Sampler → ℕ
  | .draining traces _ _ => traces.length
  | .resolving traces _ _ _ => traces.length + 1
  | .finishing traces _ _ => traces.length
  | .drained traces => traces.length
  | .recording traces => traces.length
  | _ => 0

def Reporter.held : Reporter → ℕ
  | .swapping report counts _ => report.total + countsTotal counts
  | _ => 0

def eventCount : Option (List Frame) → ℕ
  | none => 0
  | some _ => 1

theorem logged_length (log : List (List Frame)) (event : Option (List Frame)) :
    (logged log event).length = log.length + eventCount event := by
  cases event with
  | none => rfl
  | some r => exact List.length_append

theorem handlerStep_balance {rb rb' : RingBuffer Frame} {m m' : Metrics} {h h' : Handler}
    {event : Option (List Frame)} {finished : ℕ}
    (hs : HandlerStep rb m h event finished rb' m' h') :
    finished + h'.settled + m.total = h.settled + eventCount event + m'.total := by
  cases hs with
  | countError =>
    simp only [Handler.settled, eventCount, Metrics.total_fetchAdd]
    omega
  | countContention =>
    simp only [Handler.settled, eventCount, Metrics.total_fetchAdd]
    omega
  | countFull =>
    simp only [Handler.settled, eventCount, Metrics.total_fetchAdd]
    omega
  | _ => simp only [Handler.settled, eventCount, Nat.zero_add, Nat.add_zero]

section
variable {config : BackendConfig} {pid : ℕ} {ι ρ : Type}

theorem samplerStep_balance {rb rb' : RingBuffer Frame} {m m' : Metrics} {b b' : StackBuffer}
    {l l' : Bool} {t t' : Sampler} {event : Option (List Frame)}
    (hs : SamplerStep config pid rb m b l t event rb' m' b' l' t') (ht : t' ≠ .panicked) :
    t'.held + b'.total + m'.total = t.held + b.total + m.total + eventCount event := by
  cases hs with
  | readLenSmall => exact (ht rfl).elim
  | readLenBad => exact (ht rfl).elim
  | readValueBad => exact (ht rfl).elim
  | resolved frames =>
    simp only [Sampler.held, eventCount, List.length_append, List.length_singleton]
    omega
  | resolveFailed =>
    simp only [Sampler.held, eventCount, Metrics.total_fetchAdd]
    omega
  | record =>
    simp only [Sampler.held, eventCount, List.length_cons, StackBuffer.total_record]
    omega
  | store =>
    simp only [Sampler.held, eventCount]
    omega
  | _ => simp only [Sampler.held, eventCount, List.length_nil, Nat.add_zero]

def reported : Option StackBuffer → ℕ
  | none => 0
  | some report => report.total

theorem reporterStep_balance {m m' : Metrics} {b b' : StackBuffer} {l l' : Bool} {r r' : Reporter}
    {finished : Option StackBuffer} (hs : ReporterStep config pid m b l r finished m' b' l' r') :
    reported finished + r'.held + b'.total + m'.total = r.held + b.total + m.total := by
  cases hs with
  | lock => simp only [reported, Reporter.held, Nat.zero_add]
  | take =>
    simp only [reported, Reporter.held, StackBuffer.total_default, countsTotal, List.map_nil,
      List.sum_nil]
    omega
  | swap =>
    rename_i report counts reason rest
    have hclear := m.total_clear reason
    simp only [reported, Reporter.held, countsTotal, List.map_append, List.map_cons, List.map_nil,
      List.sum_append, List.sum_cons, List.sum_nil]
    omega
  | finish =>
    simp only [reported, Reporter.held, recordDroppedStacks_total]
    omega

/-! ### The session -/

variable [Fintype ι] [Fintype ρ]

/-- What came in, as completed or settled runs, is somewhere. -/
def Balanced (s : State ι ρ) : Prop :=
  s.completed + ∑ i, (s.handlers i).settled + s.popped.length =
    (s.reports.map StackBuffer.total).sum + ∑ j, (s.reporters j).held + s.buffer.total +
      s.sampler.held + s.published.length + s.metrics.total

structure Inv (base : Usize) (s : State ι ρ) : Prop extends Ordered base s where
  balance : Balanced s

theorem initial_inv {base : Usize} {s : State ι ρ} (h : Initial base s) : Inv base s := by
  refine ⟨initial_ordered h, ?_⟩
  obtain ⟨slots, rfl⟩ := h
  simp only [Balanced, Handler.settled, Reporter.held, Sampler.held, Finset.sum_const_zero,
    StackBuffer.total_default, Metrics.total_zero, List.length_nil, List.map_nil, List.sum_nil]

variable [DecidableEq ι] [DecidableEq ρ]

theorem step_inv {base : Usize} {s s' : State ι ρ} (hinv : Inv base s)
    (h : Step config pid s s') : Inv base s' := by
  have hordered := step_ordered hinv.toOrdered h
  refine ⟨hordered, ?_⟩
  have hold := hinv.balance
  cases h with
  | @handler i event finished rb m h hs =>
    have hbalance := handlerStep_balance hs
    have hsum := sum_update Handler.settled s.handlers i h
    simp only [Balanced, logged_length] at hold ⊢
    omega
  | @sampler event rb m b l t hs =>
    have hbalance := samplerStep_balance hs hordered.alive
    simp only [Balanced, logged_length] at hold ⊢
    omega
  | @reporter j finished m b l r hs =>
    have hbalance := reporterStep_balance hs
    have hsum := sum_update Reporter.held s.reporters j r
    have hreports : ((s.reports ++ finished.toList).map StackBuffer.total).sum =
        (s.reports.map StackBuffer.total).sum + reported finished := by
      cases finished with
      | none => simp only [Option.toList_none, List.append_nil, reported, Nat.add_zero]
      | some report =>
        simp only [Option.toList_some, List.map_append, List.map_singleton, List.sum_append,
          List.sum_singleton, reported]
    simp only [Balanced, hreports] at hold ⊢
    omega

theorem reachable_inv {base : Usize} {s : State ι ρ}
    (h : Reachable (Initial base) (Step config pid) s) : Inv base s :=
  h.invariant (fun _ hs => initial_inv hs) fun _ _ hi hs => step_inv hi hs

/-- Traces popped and not yet recorded, when no drain is under way. -/
def Sampler.waiting : Sampler → Option (List StackTrace)
  | .sleeping => some []
  | .ended => some []
  | .drained traces => some traces
  | .recording traces => some traces
  | _ => none

omit [Fintype ι] [Fintype ρ] [DecidableEq ι] [DecidableEq ρ] in
theorem Sampler.held_eq {t : Sampler} {traces : List StackTrace} (h : t.waiting = some traces) :
    t.held = traces.length := by
  cases t with
  | sleeping =>
    cases h
    rfl
  | ended =>
    cases h
    rfl
  | drained traces' =>
    cases h
    rfl
  | recording traces' =>
    cases h
    rfl
  | _ => cases h

/- Whenever no handler, drain or report is under way, the completed handler runs are
exactly: what the reports show, what the buffer holds, what the sampler has popped and
not recorded, what `RECORDS` holds, and what `METRICS` counts. -/
theorem ticks_accounted {base : Usize} {s : State ι ρ}
    (h : Reachable (Initial base) (Step config pid) s) (hhandlers : ∀ i, s.handlers i = .idle)
    (hreporters : ∀ j, s.reporters j = .idle) {traces : List StackTrace}
    (hsampler : s.sampler.waiting = some traces) :
    s.completed = (s.reports.map StackBuffer.total).sum + s.buffer.total + traces.length +
      (queue s.records).length + s.metrics.total := by
  have hinv := reachable_inv h
  have hsettled : ∑ i, (s.handlers i).settled = 0 :=
    Finset.sum_eq_zero fun i _ => by rw [hhandlers i]; rfl
  have hheld : ∑ j, (s.reporters j).held = 0 :=
    Finset.sum_eq_zero fun j _ => by rw [hreporters j]; rfl
  have hlog : s.published.length = s.popped.length + (queue s.records).length := by
    rw [← List.length_append]
    exact congrArg List.length (published_eq hinv.ring)
  have hbalance := hinv.balance
  rw [Balanced, hsettled, hheld, Sampler.held_eq hsampler] at hbalance
  omega

end

/- A tick that fails to unwind, and the report that shows it. -/
theorem failed_tick_run : ∃ s : State (Fin 2) (Fin 1),
    Reachable (Initial 0) (Step ⟨true, false, false⟩ 1) s ∧ (∀ i, s.handlers i = .idle) ∧
      (∀ j, s.reporters j = .idle) ∧ s.sampler.waiting = some [] ∧ s.completed = 1 ∧
      s.reports.length = 1 := by
  have h : Reachable (Initial 0) (Step ⟨true, false, false⟩ 1)
      (⟨RingBuffer.start _ fun _ => none, Metrics.zero, fun _ => .idle, .sleeping, fun _ => .idle,
        .default, false, 0, [], [], []⟩ : State (Fin 2) (Fin 1)) := .init ⟨_, rfl⟩
  have h := h.step (.handler 0 (.tickFails .truncated))
  have h := h.step (.handler 0 .countError)
  have h := h.step (.handler 0 .return)
  have h := h.step (.reporter 0 .lock)
  have h := h.step (.reporter 0 .take)
  have h := h.step (.reporter 0 .swap)
  have h := h.step (.reporter 0 .swap)
  have h := h.step (.reporter 0 .swap)
  have h := h.step (.reporter 0 .swap)
  have h := h.step (.reporter 0 .swap)
  have h := h.step (.reporter 0 .swap)
  have h := h.step (.reporter 0 .swap)
  have h := h.step (.reporter 0 .swap)
  have h := h.step (.reporter 0 .finish)
  exact ⟨_, h, fun | 0 => rfl | 1 => rfl, fun | 0 => rfl, rfl, rfl, rfl⟩

theorem ticks_accounted_failed_tick : ∃ s : State (Fin 2) (Fin 1), s.completed = 1 ∧
    s.completed = (s.reports.map StackBuffer.total).sum + s.buffer.total + 0 +
      (queue s.records).length + s.metrics.total := by
  obtain ⟨s, h, hhandlers, hreporters, hsampler, hcompleted, -⟩ := failed_tick_run
  exact ⟨s, hcompleted, ticks_accounted h hhandlers hreporters hsampler⟩

end Pyroscope.Signal
