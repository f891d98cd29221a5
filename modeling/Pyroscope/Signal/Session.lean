import Pyroscope.Signal.Metrics
import Pyroscope.Ring.Fifo
import Mathlib.Algebra.BigOperators.Group.Finset.Basic
import Mathlib.Data.Fintype.Basic

/-!
# One Signal session (python-unwind `handler`, signal_sampler.rs, signal_backend.rs)

Signal handlers on any threads, the sampler thread and callers of `Reporter::report`
share the ring buffer `RECORDS`, the counters `METRICS` and a locked `StackBuffer`.
The steps on the ring buffer are those of its own model; between them the other atomic
actions of the three programs.
-/

namespace Pyroscope.Signal
open Pyroscope.Lib Pyroscope.Backend Pyroscope.Ring

/-- A record of the unwinder: code object address and instruction. -/
structure Frame where
  code : Usize
  instr : Usize
  deriving DecidableEq, Repr

def maxFrames : ℕ := 256

def maxDrainStacks : ℕ := 64

/-- `SLOTS = 1 << 16` -/
def recordSlots : Capacity := ⟨16, by decide⟩

/-! ### The signal handler -/

inductive Handler where
  | idle
  | unwindFailed (e : UnwindError)
  | unwound (frames : List Frame)
  | contended
  | pushing (frames : List Frame) (p : Producer Frame)
  | full (head tail : Usize)
  | leaving (head tail : Usize)
  | returning

/-- The part of the run that concerns the ring buffer. -/
def Handler.producer : Handler → Producer Frame
  | .pushing _ p => p
  | .full head tail => .held head tail
  | .leaving head tail => .held head tail
  | _ => .released

/-- One atomic action; `event` is a published record, `finished` counts a return. -/
inductive HandlerStep : RingBuffer Frame → Metrics → Handler →
    Option (List Frame) → ℕ → RingBuffer Frame → Metrics → Handler → Prop where
  | tickFails {rb m} (e : UnwindError) : HandlerStep rb m .idle none 0 rb m (.unwindFailed e)
  | tick {rb m} (frames : List Frame) (h : frames.length ≤ maxFrames) :
    HandlerStep rb m .idle none 0 rb m (.unwound frames)
  | countError {rb m e} : HandlerStep rb m (.unwindFailed e) none 0 rb (m.fetchAdd e.reason) .returning
  | producer {rb m frames} (free : rb.producerLocked = false) :
    HandlerStep rb m (.unwound frames) none 0 { rb with producerLocked := true } m
      (.pushing frames .locked)
  | producerBusy {rb m frames} (taken : rb.producerLocked = true) :
    HandlerStep rb m (.unwound frames) none 0 rb m .contended
  | countContention {rb m} :
    HandlerStep rb m .contended none 0 rb (m.fetchAdd .contentions) .returning
  | loadHead {rb m frames} :
    HandlerStep rb m (.pushing frames .locked) none 0 rb m (.pushing frames (.headLoaded rb.head))
  | loadTail {rb m frames head} :
    HandlerStep rb m (.pushing frames (.headLoaded head)) none 0 rb m
      (.pushing frames (.held head rb.tail))
  | pushFits {rb m frames head tail} (h : fits recordSlots head tail frames.length = true) :
    HandlerStep rb m (.pushing frames (.held head tail)) none 0 rb m
      (.pushing frames (.writing head tail frames 0))
  | pushRefresh {rb m frames head tail} (h : fits recordSlots head tail frames.length = false) :
    HandlerStep rb m (.pushing frames (.held head tail)) none 0 rb m
      (.pushing frames (.loadingTail head tail frames))
  | refreshFits {rb m frames head tail values}
      (h : fits recordSlots head rb.tail values.length = true) :
    HandlerStep rb m (.pushing frames (.loadingTail head tail values)) none 0 rb m
      (.pushing frames (.writing head rb.tail values 0))
  | refreshFull {rb m frames head tail values}
      (h : fits recordSlots head rb.tail values.length = false) :
    HandlerStep rb m (.pushing frames (.loadingTail head tail values)) none 0 rb m
      (.full head rb.tail)
  | writeValue {rb m frames head tail values i v} (h : values[i]? = some v) :
    HandlerStep rb m (.pushing frames (.writing head tail values i)) none 0
      (rb.writeSlot recordSlots (advance head i) (.value v)) m
      (.pushing frames (.writing head tail values (i + 1)))
  | writeLen {rb m frames head tail values} :
    HandlerStep rb m (.pushing frames (.writing head tail values values.length)) none 0
      (rb.writeSlot recordSlots head (.len values.length)) m
      (.pushing frames (.publishing head tail values))
  | publish {rb m frames head tail values} :
    HandlerStep rb m (.pushing frames (.publishing head tail values)) (some values) 0
      { rb with head := advance head values.length } m (.leaving (advance head values.length) tail)
  | countFull {rb m head tail} :
    HandlerStep rb m (.full head tail) none 0 rb (m.fetchAdd .bufferDropped) (.leaving head tail)
  | drop {rb m head tail} :
    HandlerStep rb m (.leaving head tail) none 0 { rb with producerLocked := false } m .returning
  | return {rb m} : HandlerStep rb m .returning none 1 rb m .idle

/-! ### The sampler thread -/

/-- Where the loop of the sampler thread is; `traces` are popped and not yet recorded. -/
inductive Sampler where
  | sleeping
  | draining (traces : List StackTrace) (n : ℕ) (consumer : Consumer Frame)
  | resolving (traces : List StackTrace) (n : ℕ) (head tail : Usize)
  | finishing (traces : List StackTrace) (head tail : Usize)
  | drained (traces : List StackTrace)
  | recording (traces : List StackTrace)
  | ended
  /-- `unreachable!("buffer fits MAX_FRAMES")` -/
  | panicked

def Sampler.consumer : Sampler → Consumer Frame
  | .draining _ _ consumer => consumer
  | .resolving _ _ head tail => .held head tail
  | .finishing _ head tail => .held head tail
  | _ => .released

variable (config : BackendConfig) (pid : ℕ)

inductive SamplerStep : RingBuffer Frame → Metrics → StackBuffer → Bool → Sampler →
    Option (List Frame) → RingBuffer Frame → Metrics → StackBuffer → Bool → Sampler → Prop where
  | stop {rb m b l} : SamplerStep rb m b l .sleeping none rb m b l .ended
  | consumer {rb m b l} (free : rb.consumerLocked = false) :
    SamplerStep rb m b l .sleeping none { rb with consumerLocked := true } m b l (.draining [] 0 .locked)
  | consumerBusy {rb m b l} (taken : rb.consumerLocked = true) :
    SamplerStep rb m b l .sleeping none rb m b l (.drained [])
  | loadHead {rb m b l traces n} :
    SamplerStep rb m b l (.draining traces n .locked) none rb m b l
      (.draining traces n (.headLoaded rb.head))
  | loadTail {rb m b l traces n head} :
    SamplerStep rb m b l (.draining traces n (.headLoaded head)) none rb m b l
      (.draining traces n (.held head rb.tail))
  | popRefresh {rb m b l traces n head tail} (buf : List Frame) (hbuf : buf.length = maxFrames)
      (hn : n < maxDrainStacks) (h : tail = head) :
    SamplerStep rb m b l (.draining traces n (.held head tail)) none rb m b l
      (.draining traces n (.loadingHead head tail buf))
  | popReady {rb m b l traces n head tail} (buf : List Frame) (hbuf : buf.length = maxFrames)
      (hn : n < maxDrainStacks) (h : tail ≠ head) :
    SamplerStep rb m b l (.draining traces n (.held head tail)) none rb m b l
      (.draining traces n (.readingLen head tail buf))
  | batchFull {rb m b l traces n head tail} (hn : ¬n < maxDrainStacks) :
    SamplerStep rb m b l (.draining traces n (.held head tail)) none rb m b l
      (.finishing traces head tail)
  | refreshEmpty {rb m b l traces n head tail buf} (h : tail = rb.head) :
    SamplerStep rb m b l (.draining traces n (.loadingHead head tail buf)) none rb m b l
      (.finishing traces rb.head tail)
  | refreshReady {rb m b l traces n head tail buf} (h : tail ≠ rb.head) :
    SamplerStep rb m b l (.draining traces n (.loadingHead head tail buf)) none rb m b l
      (.draining traces n (.readingLen rb.head tail buf))
  | readLen {rb m b l traces n head tail buf len}
      (hs : rb.slot recordSlots tail = some (.len len)) (h : len ≤ buf.length) :
    SamplerStep rb m b l (.draining traces n (.readingLen head tail buf)) none rb m b l
      (.draining traces n (.reading head tail len buf 0))
  | readLenSmall {rb m b l traces n head tail buf len}
      (hs : rb.slot recordSlots tail = some (.len len)) (h : buf.length < len) :
    SamplerStep rb m b l (.draining traces n (.readingLen head tail buf)) none rb m b l .panicked
  | readLenBad {rb m b l traces n head tail buf}
      (hs : ∀ len, rb.slot recordSlots tail ≠ some (.len len)) :
    SamplerStep rb m b l (.draining traces n (.readingLen head tail buf)) none rb m b l .panicked
  | readValue {rb m b l traces n head tail len buf i v} (h : i < len)
      (hs : rb.slot recordSlots (advance tail i) = some (.value v)) :
    SamplerStep rb m b l (.draining traces n (.reading head tail len buf i)) none rb m b l
      (.draining traces n (.reading head tail len (buf.set i v) (i + 1)))
  | readValueBad {rb m b l traces n head tail len buf i} (h : i < len)
      (hs : ∀ v, rb.slot recordSlots (advance tail i) ≠ some (.value v)) :
    SamplerStep rb m b l (.draining traces n (.reading head tail len buf i)) none rb m b l .panicked
  | store {rb m b l traces n head tail len buf} :
    SamplerStep rb m b l (.draining traces n (.reading head tail len buf len)) (some (buf.take len))
      { rb with tail := advance tail len } m b l (.resolving traces n head (advance tail len))
  | resolved {rb m b l traces n head tail} (frames : List ResolvedFrame) :
    SamplerStep rb m b l (.resolving traces n head tail) none rb m b l
      (.draining (traces ++ [toStackTrace frames config pid]) (n + 1) (.held head tail))
  | resolveFailed {rb m b l traces n head tail} :
    SamplerStep rb m b l (.resolving traces n head tail) none rb (m.fetchAdd .resolveError) b l
      (.draining traces (n + 1) (.held head tail))
  | drop {rb m b l traces head tail} :
    SamplerStep rb m b l (.finishing traces head tail) none { rb with consumerLocked := false } m b l
      (.drained traces)
  | lock {rb m b traces} :
    SamplerStep rb m b false (.drained traces) none rb m b true (.recording traces)
  | record {rb m b trace traces} :
    SamplerStep rb m b true (.recording (trace :: traces)) none rb m (b.record trace) true
      (.recording traces)
  | unlock {rb m b} : SamplerStep rb m b true (.recording []) none rb m b false .sleeping

/-! ### `Reporter::report` -/

inductive Reporter where
  | idle
  | locked
  | swapping (report : StackBuffer) (counts : List (Reason × ℕ)) (rest : List Reason)

/-- `finished` is the report of a call that returns. -/
inductive ReporterStep : Metrics → StackBuffer → Bool → Reporter → Option StackBuffer →
    Metrics → StackBuffer → Bool → Reporter → Prop where
  | lock {m b} : ReporterStep m b false .idle none m b true .locked
  | take {m b} : ReporterStep m b true .locked none m .default false (.swapping b [] Reason.all)
  | swap {m b l report counts r rest} :
    ReporterStep m b l (.swapping report counts (r :: rest)) none (m.clear r) b l
      (.swapping report (counts ++ [(r, m r)]) rest)
  | finish {m b l report counts} :
    ReporterStep m b l (.swapping report counts [])
      (some (recordDroppedStacks config pid report counts)) m b l .idle

/-! ### The session -/

structure State (ι ρ : Type) where
  rb : RingBuffer Frame
  metrics : Metrics
  handlers : ι → Handler
  sampler : Sampler
  reporters : ρ → Reporter
  buffer : StackBuffer
  bufferLocked : Bool
  /-- completed handler runs -/
  completed : ℕ
  published : List (List Frame)
  popped : List (List Frame)
  /-- the stack buffers behind the reports made so far -/
  reports : List StackBuffer

variable {ι ρ : Type} [DecidableEq ι] [DecidableEq ρ]

inductive Step : State ι ρ → State ι ρ → Prop where
  | handler {s : State ι ρ} (i : ι) {event finished rb m h}
      (hs : HandlerStep s.rb s.metrics (s.handlers i) event finished rb m h) :
    Step s { s with
      rb := rb
      metrics := m
      handlers := Function.update s.handlers i h
      completed := s.completed + finished
      published := logged s.published event }
  | sampler {s : State ι ρ} {event rb m b l t}
      (hs : SamplerStep config pid s.rb s.metrics s.buffer s.bufferLocked s.sampler event rb m b l t) :
    Step s { s with
      rb := rb
      metrics := m
      buffer := b
      bufferLocked := l
      sampler := t
      popped := logged s.popped event }
  | reporter {s : State ι ρ} (j : ρ) {finished m b l r}
      (hs : ReporterStep config pid s.metrics s.buffer s.bufferLocked (s.reporters j) finished m b l r) :
    Step s { s with
      metrics := m
      buffer := b
      bufferLocked := l
      reporters := Function.update s.reporters j r
      reports := s.reports ++ finished.toList }

/-- Just after `start` has emptied `RECORDS` and reset the counters. -/
def Initial (counter : Usize) (s : State ι ρ) : Prop :=
  ∃ slots, s = ⟨RingBuffer.start counter slots, Metrics.zero, fun _ => .idle, .sleeping,
    fun _ => .idle, .default, false, 0, [], [], []⟩

end Pyroscope.Signal
