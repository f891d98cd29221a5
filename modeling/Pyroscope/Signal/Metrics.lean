import Pyroscope.Backend.Types

/-!
# Ticks that leave no stack (crates/python-unwind, signal_backend.rs)

`METRICS` counts the ticks that were lost, by reason; a report swaps the counters to
zero and shows them as single-frame stacks.
-/

namespace Pyroscope.Signal
open Pyroscope.Backend

/-- The counters of `Metrics`, in the order of `take_drop_counts`. -/
inductive Reason where
  | contentions
  | bufferDropped
  | noThreadState
  | invalidCodeType
  | readErrors
  | truncated
  | invalid
  | resolveError
  deriving DecidableEq, Repr

def Reason.all : List Reason :=
  [.contentions, .bufferDropped, .noThreadState, .invalidCodeType, .readErrors, .truncated, .invalid,
    .resolveError]

def Reason.name : Reason → String
  | .contentions => "contentions"
  | .bufferDropped => "buffer_dropped"
  | .noThreadState => "no_thread_state"
  | .invalidCodeType => "invalid_code_type"
  | .readErrors => "read_errors"
  | .truncated => "truncated"
  | .invalid => "invalid"
  | .resolveError => "resolve_error"

theorem Reason.mem_all (r : Reason) : r ∈ Reason.all := by
  cases r <;> decide

inductive UnwindError where
  | noThreadState
  | read
  | invalidCodeType
  | truncated
  | invalid
  deriving DecidableEq, Repr

/-- The counter that `unwind_thread` increments for an error. -/
def UnwindError.reason : UnwindError → Reason
  | .noThreadState => .noThreadState
  | .invalidCodeType => .invalidCodeType
  | .read => .readErrors
  | .truncated => .truncated
  | .invalid => .invalid

/-- The counters are `AtomicUsize` in the code and have no bound here. -/
abbrev Metrics : Type := Reason → ℕ

namespace Metrics

def zero : Metrics := fun _ => 0

def fetchAdd (m : Metrics) (r : Reason) : Metrics := Function.update m r (m r + 1)

/-- What `swap(0)` leaves. -/
def clear (m : Metrics) (r : Reason) : Metrics := Function.update m r 0

def total (m : Metrics) : ℕ := (Reason.all.map m).sum

theorem total_zero : total zero = 0 := rfl

theorem total_update (m : Metrics) (r : Reason) (n : ℕ) :
    total (Function.update m r n) + m r = total m + n := by
  cases r <;>
    simp only [total, Reason.all, List.map_cons, List.map_nil, List.sum_cons, List.sum_nil,
      Function.update_apply, reduceCtorEq, if_true, if_false] <;>
    omega

theorem total_fetchAdd (m : Metrics) (r : Reason) : total (m.fetchAdd r) = total m + 1 := by
  have h := total_update m r (m r + 1)
  rw [fetchAdd]
  omega

theorem total_clear (m : Metrics) (r : Reason) : total (m.clear r) + m r = total m := by
  have h := total_update m r 0
  rw [clear]
  omega

end Metrics

/-! ### Stacks made for a report -/

/-- The fields of a resolved frame that `to_stack_trace` reads. -/
structure ResolvedFrame where
  name : String
  filename : String
  line : ℤ
  deriving DecidableEq, Repr

/-- `line.max(0) as u32`; no thread id and no thread name. -/
def toStackTrace (frames : List ResolvedFrame) (config : BackendConfig) (pid : ℕ) : StackTrace :=
  StackTrace.new config (some pid) none none
    (frames.map fun f => ⟨f.name, f.filename, (max f.line 0).toNat⟩)

def droppedTrace (config : BackendConfig) (pid : ℕ) (r : Reason) : StackTrace :=
  StackTrace.new config (some pid) none none [⟨"[dropped: " ++ r.name ++ "]", "", 0⟩]

/-- One reason with no losses is skipped. -/
def recordDroppedStacks (config : BackendConfig) (pid : ℕ) :
    StackBuffer → List (Reason × ℕ) → StackBuffer
  | buffer, [] => buffer
  | buffer, (r, count) :: counts =>
    if count = 0 then recordDroppedStacks config pid buffer counts
    else recordDroppedStacks config pid (buffer.recordWithCount (droppedTrace config pid r) count) counts

def countsTotal (counts : List (Reason × ℕ)) : ℕ := (counts.map Prod.snd).sum

/- The stacks carry exactly the counts that were taken. -/
theorem recordDroppedStacks_total (config : BackendConfig) (pid : ℕ) (buffer : StackBuffer)
    (counts : List (Reason × ℕ)) :
    (recordDroppedStacks config pid buffer counts).total = buffer.total + countsTotal counts := by
  induction counts generalizing buffer with
  | nil => rfl
  | cons e counts ih =>
    obtain ⟨r, count⟩ := e
    simp only [recordDroppedStacks, countsTotal, List.map_cons, List.sum_cons] at ih ⊢
    split
    · rw [ih]
      omega
    · rw [ih, StackBuffer.total_recordWithCount]
      omega

/-! ### The counts of one stack -/

/-- What the counts amount to for the stack `t`. -/
def shownCounts (config : BackendConfig) (pid : ℕ) (counts : List (Reason × ℕ)) (t : StackTrace) : ℕ :=
  (counts.map fun e => if droppedTrace config pid e.1 = t then e.2 else 0).sum

/-- What the counters of some reasons amount to for the stack `t`. -/
def Metrics.shown (config : BackendConfig) (pid : ℕ) (m : Metrics) (reasons : List Reason)
    (t : StackTrace) : ℕ :=
  shownCounts config pid (reasons.map fun r => (r, m r)) t

section Shown
variable (config : BackendConfig) (pid : ℕ)

@[simp] theorem shownCounts_nil (t : StackTrace) : shownCounts config pid [] t = 0 := rfl

theorem shownCounts_append (counts counts' : List (Reason × ℕ)) (t : StackTrace) :
    shownCounts config pid (counts ++ counts') t =
      shownCounts config pid counts t + shownCounts config pid counts' t := by
  rw [shownCounts, List.map_append, List.sum_append]
  rfl

theorem shownCounts_cons (r : Reason) (n : ℕ) (counts : List (Reason × ℕ)) (t : StackTrace) :
    shownCounts config pid ((r, n) :: counts) t =
      (if droppedTrace config pid r = t then n else 0) + shownCounts config pid counts t := by
  rw [shownCounts, List.map_cons, List.sum_cons]
  rfl

theorem recordDroppedStacks_count (buffer : StackBuffer) (counts : List (Reason × ℕ))
    (t : StackTrace) :
    (recordDroppedStacks config pid buffer counts).count t =
      buffer.count t + shownCounts config pid counts t := by
  induction counts generalizing buffer with
  | nil => rfl
  | cons e counts ih =>
    obtain ⟨r, n⟩ := e
    rw [recordDroppedStacks, shownCounts_cons]
    split
    · rename_i hn
      rw [ih, hn]
      simp
    · rw [ih, StackBuffer.count_recordWithCount]
      omega

namespace Metrics

theorem shown_cons (m : Metrics) (r : Reason) (reasons : List Reason) (t : StackTrace) :
    m.shown config pid (r :: reasons) t =
      (if droppedTrace config pid r = t then m r else 0) + m.shown config pid reasons t :=
  shownCounts_cons ..

theorem shown_zero (reasons : List Reason) (t : StackTrace) : zero.shown config pid reasons t = 0 := by
  induction reasons with
  | nil => rfl
  | cons r reasons ih =>
    rw [shown_cons, ih]
    exact ite_self _

theorem shown_mono {m m' : Metrics} (h : ∀ r, m r ≤ m' r) (reasons : List Reason) (t : StackTrace) :
    m.shown config pid reasons t ≤ m'.shown config pid reasons t := by
  induction reasons with
  | nil => exact le_rfl
  | cons r reasons ih =>
    have hr := h r
    rw [shown_cons, shown_cons]
    split <;> omega

theorem shown_update_other (m : Metrics) {r : Reason} {reasons : List Reason} (hr : r ∉ reasons)
    (n : ℕ) (t : StackTrace) :
    shown config pid (Function.update m r n) reasons t = m.shown config pid reasons t := by
  have hsame : ∀ r' ∈ reasons, (r', Function.update m r n r') = (r', m r') := by
    intro r' hr'
    have hne : r' ≠ r := by
      rintro rfl
      exact hr hr'
    rw [Function.update_of_ne hne]
  rw [shown, List.map_congr_left hsame]
  rfl

theorem shown_update (m : Metrics) {r : Reason} {reasons : List Reason} (hn : reasons.Nodup)
    (hr : r ∈ reasons) (n : ℕ) (t : StackTrace) :
    shown config pid (Function.update m r n) reasons t +
        (if droppedTrace config pid r = t then m r else 0) =
      m.shown config pid reasons t + if droppedTrace config pid r = t then n else 0 := by
  induction reasons with
  | nil => cases hr
  | cons r' reasons ih =>
    obtain ⟨hnot, hn⟩ := List.nodup_cons.mp hn
    rw [shown_cons, shown_cons]
    rcases List.mem_cons.mp hr with rfl | hr
    · rw [shown_update_other config pid m hnot, Function.update_self]
      omega
    · have hne : r' ≠ r := fun he => hnot (he ▸ hr)
      have hrest := ih hn hr
      rw [Function.update_of_ne hne]
      omega

theorem shown_fetchAdd (m : Metrics) (r : Reason) (t : StackTrace) :
    (m.fetchAdd r).shown config pid Reason.all t =
      m.shown config pid Reason.all t + if droppedTrace config pid r = t then 1 else 0 := by
  have h := shown_update config pid m (by decide) r.mem_all (m r + 1) t
  rw [fetchAdd]
  by_cases he : droppedTrace config pid r = t
  · simp only [he, if_true] at h ⊢
    omega
  · simp only [he, if_false] at h ⊢
    exact h

theorem le_fetchAdd (m : Metrics) (r r' : Reason) : m r' ≤ m.fetchAdd r r' := by
  rw [fetchAdd, Function.update_apply]
  split
  · rename_i he
    rw [he]
    exact Nat.le_succ _
  · exact le_rfl

end Metrics

end Shown

end Pyroscope.Signal
