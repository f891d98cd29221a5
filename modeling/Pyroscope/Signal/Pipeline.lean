import Pyroscope.Upload.Refines
import Pyroscope.Upload.Delivery
import Pyroscope.Signal.Accounting
import Pyroscope.Signal.Resolve

/-!
# From the interrupted thread to the report (python-unwind, signal_sampler.rs)

The session with what its steps leave open filled in: a tick walks the memory of the
process, a popped record goes through the resolver. Beside it is written down which tick
is behind each published record and each counted failure, and what py-spy answered for
each record.
-/

namespace Pyroscope.Signal.Pipeline
open Pyroscope.Lib Pyroscope.Backend Pyroscope.Ring Pyroscope.Encode
open Pyroscope.Signal.Unwind (PyVersion unwindThread)
open Pyroscope.Signal.Resolve (Types Lines Resolver ResolveFrames StackCall)
open Pyroscope.Upload.Flush (Source Refines)

/-- The interpreter that the extension was built for, the type objects and the choice of
lines. -/
structure Setup where
  version : PyVersion
  types : Types
  lines : Lines

/-- The thread state of the interrupted thread, and the memory that its walk finds. -/
structure Tick where
  memory : Memory 64
  tstate : Usize

/-- `unwind(&mut [Frame::default(); MAX_FRAMES])`; the counter of an error is the next
step of the handler. -/
def Setup.unwind (u : Setup) (tick : Tick) : Except UnwindError (List Frame) :=
  (unwindThread tick.memory u.version.layout u.types.code tick.tstate
    (List.replicate maxFrames ⟨0, 0⟩) .zero).result

def Setup.entered (u : Setup) (tick : Tick) : Handler :=
  match u.unwind tick with
  | .ok frames => .unwound frames
  | .error e => .unwindFailed e

/-- `ticks` are those of the runs under way; `origins` are the ticks behind the published
records, `failures` those that were counted, `answers` what py-spy was for each popped
record. -/
structure State (ι E : Type) where
  backlog : Backlog.State ι
  memory : Memory 64
  resolver : Resolver
  ticks : ι → Option Tick
  origins : List Tick
  failures : List (Tick × UnwindError)
  answers : List (ResolveFrames E)

section Steps
variable {ι E : Type} [DecidableEq ι] (u : Setup) (config : BackendConfig) (pid : ℕ)

/-- The session after an action of the handler on thread `i`. -/
def handled (b : Backlog.State ι) (i : ι) (event : Option (List Frame)) (finished : ℕ)
    (rb : RingBuffer Frame) (m : Metrics) (h : Handler) : Backlog.State ι :=
  { b with
    session := { b.session with
      rb := rb
      metrics := m
      handlers := Function.update b.session.handlers i h
      completed := b.session.completed + finished
      published := logged b.session.published event }
    tickets := Function.update b.tickets i
      (Backlog.ticket b.session.published.length event finished (b.tickets i))
    completed := Backlog.completes b.completed finished (b.tickets i)
    lost := fun r => b.lost r + (m r - b.session.metrics r) }

/-- The session after an action of the sampler thread. -/
def sampled (b : Backlog.State ι) (event : Option (List Frame)) (rb : RingBuffer Frame) (m : Metrics)
    (buffer : StackBuffer) (l : Bool) (t : Sampler) : Backlog.State ι :=
  { b with
    session := { b.session with
      rb := rb
      metrics := m
      buffer := buffer
      bufferLocked := l
      sampler := t
      popped := logged b.session.popped event }
    awake := match t with
      | .sleeping => false
      | _ => b.awake
    fates := b.fates.follow config pid (b.session.popped.length - 1) b.session.sampler t }

/-- The tick behind a record that is being published. -/
def published : Option (List Frame) → Option Tick → List Tick
  | some _, some tick => [tick]
  | _, _ => []

/-- The tick behind a failure that is being counted. -/
def failed : Handler → Option Tick → List (Tick × UnwindError)
  | .unwindFailed e, some tick => [(tick, e)]
  | _, _ => []

/-- `resolve_stack(&self.buf[..n])` for the record popped last. -/
def State.resolve (s : State ι E) (traces : List StackTrace) (n : ℕ) (head tail : Usize)
    (record : List Frame) (resolveFrames : ResolveFrames E) : State ι E :=
  let session := s.backlog.session
  let answer := Resolve.answer u.version ⟨record, resolveFrames⟩
    ⟨s.resolver, session.metrics, none⟩
  let traces := match answer.1.result with
    | .ok frames => traces ++ [toStackTrace frames config pid]
    | .error _ => traces
  { s with
    backlog := sampled config pid s.backlog none session.rb answer.2.metrics session.buffer
      session.bufferLocked (.draining traces (n + 1) (.held head tail))
    resolver := answer.2.resolver
    answers := s.answers ++ [resolveFrames] }

inductive Runs (running : Bool) : State ι E → State ι E → Prop where
  /-- other threads of the process -/
  | python {s : State ι E} (memory : Memory 64) : Runs running s { s with memory := memory }
  | tick {s : State ι E} (i : ι) (tstate : Usize) (h : s.backlog.session.handlers i = .idle) :
    Runs running s { s with
      backlog := handled s.backlog i none 0 s.backlog.session.rb s.backlog.session.metrics
        (u.entered ⟨s.memory, tstate⟩)
      ticks := Function.update s.ticks i (some ⟨s.memory, tstate⟩) }
  | handler {s : State ι E} (i : ι) {event finished rb m h}
      (busy : s.backlog.session.handlers i ≠ .idle)
      (hs : HandlerStep s.backlog.session.rb s.backlog.session.metrics
        (s.backlog.session.handlers i) event finished rb m h) :
    Runs running s { s with
      backlog := handled s.backlog i event finished rb m h
      origins := s.origins ++ published event (s.ticks i)
      failures := s.failures ++ failed (s.backlog.session.handlers i) (s.ticks i) }
  | enterLoop {s : State ι E} (h : s.backlog.session.sampler = .sleeping) (on : running = true) :
    Runs running s { s with backlog := { s.backlog with awake := true } }
  | resolve {s : State ι E} {traces n head tail record} (resolveFrames : ResolveFrames E)
      (h : s.backlog.session.sampler = .resolving traces n head tail)
      (hr : s.backlog.session.popped.getLast? = some record) :
    Runs running s (s.resolve u config pid traces n head tail record resolveFrames)
  | sampler {s : State ι E} {event rb m b l t}
      (h : ∀ traces n head tail, s.backlog.session.sampler ≠ .resolving traces n head tail)
      (hs : SamplerStep config pid s.backlog.session.rb s.backlog.session.metrics
        s.backlog.session.buffer s.backlog.session.bufferLocked s.backlog.session.sampler event rb m b l t)
      (entered : s.backlog.session.sampler = .sleeping → s.backlog.awake = true) (ht : t ≠ .ended) :
    Runs running s { s with backlog := sampled config pid s.backlog event rb m b l t }
  | leaveLoop {s : State ι E} (h : s.backlog.session.sampler = .sleeping) (off : running = false)
      (looked : s.backlog.awake = false) :
    Runs running s { s with
      backlog := { s.backlog with session := { s.backlog.session with sampler := .ended } } }

variable {Id : Type} [DecidableEq Id] (getId : Metadata → Id) (counter : Usize) (sampleRate : UInt32)

/-- A move of the report that leaves the rest alone. -/
def reports (move : Backlog.State ι → Backlog.State ι → Prop) (s s' : State ι E) : Prop :=
  ∃ b, move s.backlog b ∧ s' = { s with backlog := b }

/-- The profiler for the agent. -/
def source : Source (State ι E) Backlog.Captured :=
  let inner := Backlog.source config pid getId counter sampleRate
  { initial := fun s => inner.initial s.backlog ∧ s.resolver = .new u.types u.lines ∧
      s.ticks = (fun _ => none) ∧ s.origins = [] ∧ s.failures = [] ∧ s.answers = []
    runs := Runs u config pid
    lock := reports inner.lock
    take := reports inner.take
    swap := reports inner.swap
    finish := fun s report => reports (fun b b' => inner.finish b report b') s
    payload := inner.payload
    capture := fun s => inner.capture s.backlog
    ended := fun s => inner.ended s.backlog }

end Steps

/-! ### What a walk leaves in its slice -/

section Refinement
variable {ι E : Type} [DecidableEq ι] {u : Setup} {config : BackendConfig} {pid : ℕ}

theorem walkFrom_length (mem : Memory 64) (l : Unwind.Layout) (codeType : Usize) (left : ℕ)
    (frame : Usize) (frames : List Frame) (pushed : ℕ) :
    (Unwind.walkFrom mem l codeType left frame frames pushed).2.length = frames.length := by
  induction left generalizing frame frames pushed with
  | zero =>
    rw [Unwind.walkFrom]
    split <;> rfl
  | succ left ih =>
    rw [Unwind.walkFrom]
    split
    · rfl
    · split
      · rfl
      · exact ih _ _ _
      · split
        · rw [ih, List.length_set]
        · rfl

theorem unwind_length {tick : Tick} {frames : List Frame} (h : u.unwind tick = .ok frames) :
    frames.length ≤ maxFrames := by
  rw [Setup.unwind, unwindThread] at h
  by_cases hnull : tick.tstate = 0
  · rw [if_pos hnull] at h
    cases h
  rw [if_neg hnull, Unwind.walk] at h
  cases hc : Unwind.currentFrame tick.memory u.version.layout tick.tstate with
  | error e =>
    rw [hc] at h
    cases h
  | ok frame =>
    rw [hc] at h
    have hlength := walkFrom_length tick.memory u.version.layout u.types.code maxFrames frame
      (List.replicate maxFrames ⟨0, 0⟩) 0
    rw [List.length_replicate] at hlength
    dsimp only at h
    split at h
    · rename_i pushed hw
      cases h
      exact (List.length_take_le' _ _).trans hlength.le
    · cases h

/-! ### The session below -/

theorem sampled_below {running : Bool} {b : Backlog.State ι} {event : Option (List Frame)}
    {rb : RingBuffer Frame} {m : Metrics} {buffer : StackBuffer} {l : Bool} {t : Sampler}
    (hs : SamplerStep config pid b.session.rb b.session.metrics b.session.buffer
      b.session.bufferLocked b.session.sampler event rb m buffer l t)
    (entered : b.session.sampler = .sleeping → b.awake = true) (ht : t ≠ .ended) :
    Backlog.Runs config pid running b (sampled config pid b event rb m buffer l t) := by
  cases t <;> exact .sampler hs entered ht

/- The step of the sampler thread that a resolved record makes. -/
theorem resolve_step {rb : RingBuffer Frame} {m : Metrics} {buffer : StackBuffer} {l : Bool}
    {traces : List StackTrace} {n : ℕ} {head tail : Usize} (c : StackCall E) (r : Resolver) :
    SamplerStep config pid rb m buffer l (.resolving traces n head tail) none rb
      (Resolve.answer u.version c ⟨r, m, none⟩).2.metrics buffer l
      (.draining (match (Resolve.answer u.version c ⟨r, m, none⟩).1.result with
        | .ok frames => traces ++ [toStackTrace frames config pid]
        | .error _ => traces) (n + 1) (.held head tail)) := by
  have hm := (Resolve.answer_answered u.version c ⟨r, m, none⟩).metrics
  rw [hm, Resolve.Answer.failed]
  cases (Resolve.answer u.version c ⟨r, m, none⟩).1.result with
  | ok frames => exact .resolved frames
  | error e => exact .resolveFailed

/- Each move of the threads is one of the session, or leaves it as it is. -/
theorem runs_below {running : Bool} {s s' : State ι E} (h : Runs u config pid running s s') :
    s'.backlog = s.backlog ∨ Backlog.Runs config pid running s.backlog s'.backlog := by
  cases h with
  | python memory => exact Or.inl rfl
  | tick i tstate hidle =>
    have hs : HandlerStep s.backlog.session.rb s.backlog.session.metrics
        (s.backlog.session.handlers i) none 0 s.backlog.session.rb s.backlog.session.metrics
        (u.entered ⟨s.memory, tstate⟩) := by
      rw [hidle, Setup.entered]
      split
      · rename_i frames hu
        exact .tick frames (unwind_length hu)
      · exact .tickFails _
    exact Or.inr (.handler i hs)
  | handler i busy hs => exact Or.inr (.handler i hs)
  | enterLoop h on => exact Or.inr (.enterLoop h on)
  | @resolve traces n head tail record resolveFrames h hr =>
    refine Or.inr (sampled_below ?_ (fun hsleeping => ?_) nofun)
    · rw [h]
      exact resolve_step _ _
    · cases h.symm.trans hsleeping
  | sampler h hs entered ht => exact Or.inr (sampled_below hs entered ht)
  | leaveLoop h off looked => exact Or.inr (.leaveLoop h off looked)

theorem source_refines {Id : Type} [DecidableEq Id] (getId : Metadata → Id) (counter : Usize)
    (sampleRate : UInt32) :
    Refines (source u config pid getId counter sampleRate : Source (State ι E) Backlog.Captured)
      (Backlog.source config pid getId counter sampleRate) State.backlog where
  initial h := h.1
  runs h := runs_below h
  lock := by
    rintro a a' ⟨b, hb, rfl⟩
    exact hb
  take := by
    rintro a a' ⟨b, hb, rfl⟩
    exact hb
  swap := by
    rintro a a' ⟨b, hb, rfl⟩
    exact hb
  finish := by
    rintro a report a' ⟨b, hb, rfl⟩
    exact hb
  payload h := h
  capture a := rfl
  ended h := h

end Refinement

/-! ### What a handler run carries -/

section Handlers
variable {u : Setup}

/-- What the producer is pushing. -/
def pushed : Producer Frame → Option (List Frame)
  | .loadingTail _ _ values => some values
  | .writing _ _ values _ => some values
  | .publishing _ _ values => some values
  | _ => none

/-- The run comes from the tick: it carries what the walk returned, and pushes nothing else. -/
def From (u : Setup) (tick : Option Tick) : Handler → Prop
  | .unwindFailed e => ∃ k, tick = some k ∧ u.unwind k = .error e
  | .unwound frames => ∃ k, tick = some k ∧ u.unwind k = .ok frames
  | .pushing frames p =>
    (∃ k, tick = some k ∧ u.unwind k = .ok frames) ∧ ∀ values, pushed p = some values → values = frames
  | _ => True

theorem handlerStep_from {rb rb' : RingBuffer Frame} {m m' : Metrics} {h h' : Handler}
    {event : Option (List Frame)} {finished : ℕ} {tick : Option Tick}
    (hs : HandlerStep rb m h event finished rb' m' h') (busy : h ≠ .idle) (hf : From u tick h) :
    From u tick h' ∧ List.Forall₂ (fun r k => u.unwind k = .ok r) event.toList (published event tick) := by
  cases hs with
  | tickFails e => exact (busy rfl).elim
  | tick frames hlen => exact (busy rfl).elim
  | producer free => exact ⟨⟨hf, nofun⟩, .nil⟩
  | loadHead => exact ⟨⟨hf.1, nofun⟩, .nil⟩
  | loadTail => exact ⟨⟨hf.1, nofun⟩, .nil⟩
  | pushFits hfits => exact ⟨⟨hf.1, fun values hv => (Option.some.inj hv).symm⟩, .nil⟩
  | pushRefresh hfits => exact ⟨⟨hf.1, fun values hv => (Option.some.inj hv).symm⟩, .nil⟩
  | refreshFits hfits => exact ⟨⟨hf.1, fun values hv => hf.2 values hv⟩, .nil⟩
  | writeValue hv => exact ⟨⟨hf.1, fun values hv => hf.2 values hv⟩, .nil⟩
  | writeLen => exact ⟨⟨hf.1, fun values hv => hf.2 values hv⟩, .nil⟩
  | publish =>
    obtain ⟨⟨k, rfl, hk⟩, hvalues⟩ := hf
    obtain rfl := hvalues _ rfl
    exact ⟨trivial, .cons hk .nil⟩
  | _ => exact ⟨trivial, .nil⟩

theorem reason_inj {e e' : UnwindError} (h : e.reason = e'.reason) : e = e' := by
  cases e <;> cases e' <;> first | rfl | cases h

/- A failure is counted under its reason, and nothing else is counted there. -/
theorem handlerStep_counted {rb rb' : RingBuffer Frame} {m m' : Metrics} {h h' : Handler}
    {event : Option (List Frame)} {finished : ℕ} {tick : Option Tick}
    (hs : HandlerStep rb m h event finished rb' m' h') (hf : From u tick h) (e : UnwindError) :
    m' e.reason - m e.reason = (failed h tick).countP (fun f => f.2 = e) ∧
      ∀ f ∈ failed h tick, u.unwind f.1 = .error f.2 := by
  have hother : ∀ r, r ≠ e.reason → m.fetchAdd r e.reason - m e.reason = 0 := by
    intro r hr
    rw [Metrics.fetchAdd, Function.update_of_ne (fun he => hr he.symm)]
    omega
  cases hs with
  | @countError e' =>
    obtain ⟨k, rfl, hk⟩ := hf
    refine ⟨?_, fun f hmem => ?_⟩
    · by_cases he : e' = e
      · subst he
        rw [Metrics.fetchAdd, Function.update_self]
        simp [failed]
      · rw [hother _ fun hr => he (reason_inj hr)]
        simp [failed, he]
    · obtain rfl := List.mem_singleton.mp hmem
      exact hk
  | countContention => exact ⟨hother _ (by cases e <;> decide), fun f hf => absurd hf List.not_mem_nil⟩
  | countFull => exact ⟨hother _ (by cases e <;> decide), fun f hf => absurd hf List.not_mem_nil⟩
  | _ => exact ⟨Nat.sub_self _, fun f hf => absurd hf List.not_mem_nil⟩

end Handlers

/-! ### What becomes of a record -/

section Fates
variable {E : Type} {u : Setup} {config : BackendConfig} {pid : ℕ}

/-- The stack that a record is shown as, with what py-spy was for it. -/
def Setup.shown (u : Setup) (config : BackendConfig) (pid : ℕ) (c : StackCall E) : StackTrace :=
  match (Resolve.alone u.version u.types u.lines c).result with
  | .ok frames => toStackTrace frames config pid
  | .error _ => droppedTrace config pid .resolveError

/-- A fate that follows from the record and from what py-spy was for it. -/
def Explained (u : Setup) (config : BackendConfig) (pid : ℕ) (popped : List (List Frame))
    (answers : List (ResolveFrames E)) (e : ℕ × StackTrace) : Prop :=
  ∃ record resolveFrames, popped[e.1]? = some record ∧ answers[e.1]? = some resolveFrames ∧
    e.2 = u.shown config pid ⟨record, resolveFrames⟩

theorem Explained.grow {popped popped' : List (List Frame)} {answers answers' : List (ResolveFrames E)}
    {e : ℕ × StackTrace} (h : Explained u config pid popped answers e) (hp : popped <+: popped')
    (ha : answers <+: answers') : Explained u config pid popped' answers' e := by
  obtain ⟨record, resolveFrames, hrecord, hanswer, hshown⟩ := h
  exact ⟨record, resolveFrames, getElem?_mono hp hrecord, getElem?_mono ha hanswer, hshown⟩

/- Between two pops the sampler thread only moves fates from its hands to the buffer. -/
theorem follow_kept (f : Backlog.Fates) (k : ℕ) {t t' : Sampler}
    (h : ∀ traces n head tail, t ≠ .resolving traces n head tail) :
    ∀ e ∈ (f.follow config pid k t t').settled ++ (f.follow config pid k t t').held,
      e ∈ f.settled ++ f.held := by
  intro e he
  cases t with
  | resolving traces n head tail => exact (h _ _ _ _ rfl).elim
  | recording traces =>
    cases traces with
    | nil => exact he
    | cons trace traces =>
      cases t' with
      | recording traces' =>
        have hsame : f.held.take 1 ++ f.held.tail = f.held := by cases f.held <;> rfl
        simp only [Backlog.Fates.follow, List.append_assoc, hsame] at he
        exact he
      | _ => exact he
  | _ => exact he

/- A record that is resolved gets the fate that its answer gives it. -/
theorem follow_answer (f : Backlog.Fates) (k : ℕ) (traces : List StackTrace) (n n' : ℕ) (head tail : Usize)
    (c : Consumer Frame) (result : Except (Resolve.Error E) (List ResolvedFrame)) :
    ∀ e ∈ (f.follow config pid k (.resolving traces n head tail) (.draining (match result with
        | .ok frames => traces ++ [toStackTrace frames config pid]
        | .error _ => traces) n' c)).settled ++
      (f.follow config pid k (.resolving traces n head tail) (.draining (match result with
        | .ok frames => traces ++ [toStackTrace frames config pid]
        | .error _ => traces) n' c)).held,
      e ∈ f.settled ++ f.held ∨ e = (k, match result with
        | .ok frames => toStackTrace frames config pid
        | .error _ => droppedTrace config pid .resolveError) := by
  intro e he
  cases result with
  | ok frames =>
    rw [Backlog.follow_resolved, ← List.append_assoc] at he
    exact (List.mem_append.mp he).imp_right List.mem_singleton.mp
  | error reason =>
    rw [Backlog.follow_failed, List.append_assoc] at he
    rcases List.mem_append.mp he with he | he
    · exact Or.inl (List.mem_append_left _ he)
    · rcases List.mem_cons.mp he with rfl | he
      · exact Or.inr rfl
      · exact Or.inl (List.mem_append_right _ he)

theorem samplerStep_unresolved {rb rb' : RingBuffer Frame} {m m' : Metrics} {b b' : StackBuffer}
    {l l' : Bool} {t t' : Sampler} {event : Option (List Frame)}
    (hs : SamplerStep config pid rb m b l t event rb' m' b' l' t')
    (h : ∀ traces n head tail, t ≠ .resolving traces n head tail) :
    Backlog.unresolved t = 0 ∧ Backlog.unresolved t' = eventCount event := by
  cases hs with
  | resolved frames => exact (h _ _ _ _ rfl).elim
  | resolveFailed => exact (h _ _ _ _ rfl).elim
  | _ => exact ⟨rfl, rfl⟩

end Fates

/-! ### Along a run -/

section Runs
variable {ι E : Type} [DecidableEq ι] {u : Setup} {config : BackendConfig} {pid : ℕ}

structure Traced (u : Setup) (config : BackendConfig) (pid : ℕ) (s : State ι E) : Prop where
  types : s.resolver.types = u.types
  lines : s.resolver.lines = u.lines
  runs : ∀ i, From u (s.ticks i) (s.backlog.session.handlers i)
  origins : List.Forall₂ (fun r k => u.unwind k = .ok r) s.backlog.session.published s.origins
  failures : ∀ f ∈ s.failures, u.unwind f.1 = .error f.2
  counted : ∀ e : UnwindError, s.backlog.lost e.reason = s.failures.countP fun f => f.2 = e
  answers : s.answers.length + Backlog.unresolved s.backlog.session.sampler =
    s.backlog.session.popped.length
  fates : ∀ e ∈ s.backlog.fates.settled ++ s.backlog.fates.held,
    Explained u config pid s.backlog.session.popped s.answers e

theorem logged_mono (log : List (List Frame)) (event : Option (List Frame)) :
    log <+: logged log event := by
  cases event with
  | none => exact List.prefix_rfl
  | some r => exact List.prefix_append ..

theorem runs_traced {running : Bool} {s s' : State ι E} (h : Traced u config pid s)
    (hs : Runs u config pid running s s') : Traced u config pid s' := by
  cases hs with
  | python memory => exact ⟨h.types, h.lines, h.runs, h.origins, h.failures, h.counted, h.answers, h.fates⟩
  | tick i tstate hidle =>
    refine ⟨h.types, h.lines, fun j => ?_, h.origins, h.failures, fun e => ?_, h.answers, h.fates⟩
    · show From u (Function.update s.ticks i _ j) (Function.update s.backlog.session.handlers i _ j)
      by_cases hj : j = i
      · subst hj
        rw [Function.update_self, Function.update_self, Setup.entered]
        split
        · exact ⟨_, rfl, ‹_›⟩
        · exact ⟨_, rfl, ‹_›⟩
      · rw [Function.update_of_ne hj, Function.update_of_ne hj]
        exact h.runs j
    · show s.backlog.lost e.reason + (s.backlog.session.metrics e.reason - s.backlog.session.metrics e.reason) = _
      rw [Nat.sub_self, Nat.add_zero]
      exact h.counted e
  | @handler i event finished rb m h' busy hs =>
    obtain ⟨hfrom, horigins⟩ := handlerStep_from hs busy (h.runs i)
    refine ⟨h.types, h.lines, fun j => ?_, ?_, fun f hf => ?_, fun e => ?_, h.answers, h.fates⟩
    · show From u (s.ticks j) (Function.update s.backlog.session.handlers i h' j)
      by_cases hj : j = i
      · subst hj
        rw [Function.update_self]
        exact hfrom
      · rw [Function.update_of_ne hj]
        exact h.runs j
    · have hlogged : logged s.backlog.session.published event =
          s.backlog.session.published ++ event.toList := by
        cases event with
        | none => exact (List.append_nil _).symm
        | some r => rfl
      show List.Forall₂ _ (logged s.backlog.session.published event) _
      rw [hlogged]
      exact List.rel_append h.origins horigins
    · rcases List.mem_append.mp hf with hf | hf
      · exact h.failures f hf
      · exact (handlerStep_counted hs (h.runs i) f.2).2 f hf
    · show s.backlog.lost e.reason + (m e.reason - s.backlog.session.metrics e.reason) = _
      rw [(handlerStep_counted hs (h.runs i) e).1, List.countP_append, h.counted e]
  | enterLoop hst on =>
    exact ⟨h.types, h.lines, h.runs, h.origins, h.failures, h.counted, h.answers, h.fates⟩
  | @resolve traces n head tail record resolveFrames hst hr =>
    have hlength := h.answers
    rw [hst, Backlog.unresolved] at hlength
    have hlast : s.backlog.session.popped[s.backlog.session.popped.length - 1]? = some record := by
      rw [← List.getLast?_eq_getElem?]
      exact hr
    have hfound : (s.answers ++ [resolveFrames])[s.backlog.session.popped.length - 1]? =
        some resolveFrames := by
      rw [show s.backlog.session.popped.length - 1 = s.answers.length by omega]
      exact List.getElem?_concat_length
    have hanswer := Resolve.answer_answered u.version ⟨record, resolveFrames⟩
      ⟨s.resolver, s.backlog.session.metrics, none⟩
    have halone : (Resolve.answer u.version ⟨record, resolveFrames⟩
        ⟨s.resolver, s.backlog.session.metrics, none⟩).1 =
        Resolve.alone u.version u.types u.lines ⟨record, resolveFrames⟩ := by
      rw [hanswer.answer, Resolve.alone_eq, ← h.types, ← h.lines]
    refine ⟨hanswer.types.trans h.types, hanswer.lines.trans h.lines, h.runs, h.origins, h.failures,
      h.counted, ?_, fun e he => ?_⟩
    · show (s.answers ++ [resolveFrames]).length + 0 = s.backlog.session.popped.length
      rw [List.length_append, List.length_singleton]
      omega
    · have hnew : e ∈ s.backlog.fates.settled ++ s.backlog.fates.held ∨
          e = (s.backlog.session.popped.length - 1, u.shown config pid ⟨record, resolveFrames⟩) := by
        rw [Setup.shown, ← halone]
        simp only [State.resolve, sampled, hst] at he
        exact follow_answer _ _ traces n (n + 1) head tail _ _ e he
      rcases hnew with hold | rfl
      · exact (h.fates e hold).grow List.prefix_rfl (List.prefix_append ..)
      · exact ⟨record, resolveFrames, hlast, hfound, rfl⟩
  | @sampler event rb m b l t hst hs entered ht =>
    obtain ⟨hbefore, hafter⟩ := samplerStep_unresolved hs hst
    have hlength := h.answers
    refine ⟨h.types, h.lines, h.runs, h.origins, h.failures, h.counted, ?_, fun e he => ?_⟩
    · show s.answers.length + Backlog.unresolved t = (logged s.backlog.session.popped event).length
      rw [logged_length]
      omega
    · exact (h.fates e (follow_kept _ _ hst e he)).grow (logged_mono ..) List.prefix_rfl
  | leaveLoop hst off looked =>
    have hlength := h.answers
    rw [hst] at hlength
    exact ⟨h.types, h.lines, h.runs, h.origins, h.failures, h.counted, hlength, h.fates⟩

variable {Id : Type} [DecidableEq Id] {getId : Metadata → Id} {counter : Usize} {sampleRate : UInt32}

theorem initial_traced {s : State ι E}
    (h : (source u config pid getId counter sampleRate).initial s) : Traced u config pid s := by
  obtain ⟨⟨⟨slots, hsession⟩, -, -, -, hlost, hfates⟩, hresolver, hticks, horigins, hfailures, hanswers⟩ := h
  constructor
  case types => rw [hresolver]; rfl
  case lines => rw [hresolver]; rfl
  case runs =>
    rw [hsession]
    exact fun _ => trivial
  case origins =>
    rw [hsession, horigins]
    exact .nil
  case failures =>
    rw [hfailures]
    exact nofun
  case counted =>
    rw [hlost, hfailures]
    exact fun _ => rfl
  case answers =>
    rw [hsession, hanswers]
    rfl
  case fates =>
    rw [hfates]
    exact nofun

omit [DecidableEq ι] in
/- A report does not touch what is written down here. -/
theorem reportStep_traced {s : State ι E} {b : Backlog.State ι} {finished : Option StackBuffer}
    (h : Traced u config pid s) (hs : Backlog.reportStep config pid s.backlog finished b) :
    Traced u config pid { s with backlog := b } := by
  obtain ⟨m, buffer, l, r, -, rfl⟩ := hs
  exact ⟨h.types, h.lines, h.runs, h.origins, h.failures, h.counted, h.answers, h.fates⟩

theorem moves_traced {s s' : State ι E} (h : Traced u config pid s)
    (hs : (source u config pid getId counter sampleRate).Moves s s') : Traced u config pid s' := by
  cases hs with
  | runs r hr => exact runs_traced h hr
  | lock hl =>
    obtain ⟨b, hb, rfl⟩ := hl
    exact reportStep_traced h hb.2
  | take ht =>
    obtain ⟨b, hb, rfl⟩ := ht
    exact reportStep_traced h hb.2
  | swap hw =>
    obtain ⟨b, hb, rfl⟩ := hw
    exact reportStep_traced h hb.2
  | finish report hf =>
    obtain ⟨b, hb, rfl⟩ := hf
    exact reportStep_traced h hb

end Runs

/-! ### To the server -/

section Server
variable {ι E : Type} [DecidableEq ι] (u : Setup) (config : BackendConfig) (pid : ℕ)

/-- A walk of frames that belong to CPython returned the whole chain. -/
def ChainAt (tick : Tick) (frames : List Frame) : Prop :=
  Unwind.OwnersBelow8 tick.memory u.version.layout u.types.code tick.tstate →
    Unwind.Stack tick.memory u.version.layout u.types.code tick.tstate maxFrames frames

/-- A walk of frames that belong to CPython met this failure first. -/
def FailsAt (tick : Tick) (e : UnwindError) : Prop :=
  Unwind.OwnersBelow8 tick.memory u.version.layout u.types.code tick.tstate →
    Unwind.UnwindFails tick.memory u.version.layout u.types.code tick.tstate maxFrames e

/-- The stack shown for a record is that of the interrupted thread, its frames resolved by
what py-spy was when the record was popped. -/
def Behind (s : State ι E) (e : ℕ × StackTrace) : Prop :=
  ∃ tick frames resolveFrames, s.origins[e.1]? = some tick ∧ ChainAt u tick frames ∧
    s.backlog.session.published[e.1]? = some frames ∧ s.answers[e.1]? = some resolveFrames ∧
    e.2 = u.shown config pid ⟨frames, resolveFrames⟩

structure Accounted (s : State ι E) (c : Backlog.Captured) : Prop where
  settled : ∀ k ∈ c.records, k ∈ s.backlog.fates.settled.map Prod.fst
  behind : ∀ e ∈ s.backlog.fates.settled, Behind u config pid s e
  counted : ∀ e : UnwindError, s.backlog.lost e.reason = s.failures.countP fun f => f.2 = e
  failed : ∀ f ∈ s.failures, FailsAt u f.1 f.2

variable {u config pid}

theorem unwind_exact {tick : Tick}
    (hsmall : Unwind.OwnersBelow8 tick.memory u.version.layout u.types.code tick.tstate) :
    (∃ stack, Unwind.Stack tick.memory u.version.layout u.types.code tick.tstate maxFrames stack ∧
      u.unwind tick = .ok stack) ∨
    ∃ e, Unwind.UnwindFails tick.memory u.version.layout u.types.code tick.tstate maxFrames e ∧
      u.unwind tick = .error e := by
  have hroom : (List.replicate maxFrames (⟨0, 0⟩ : Frame)).length = maxFrames := List.length_replicate
  rw [Setup.unwind]
  rcases Unwind.stack_or_fails tick.memory u.version.layout u.types.code tick.tstate maxFrames with
    ⟨stack, hs⟩ | ⟨e, he⟩
  · refine Or.inl ⟨stack, hs, ?_⟩
    rw [← hroom] at hs
    rw [Unwind.unwindThread_stack u.version.maskExact hsmall hs]
  · refine Or.inr ⟨e, he, ?_⟩
    rw [← hroom] at he
    exact (Unwind.unwindThread_fails u.version.maskExact hsmall he).1

theorem unwind_chain {tick : Tick} {frames : List Frame} (h : u.unwind tick = .ok frames) :
    ChainAt u tick frames := by
  intro hsmall
  rcases unwind_exact hsmall with ⟨stack, hs, hu⟩ | ⟨e, he, hu⟩
  · cases h.symm.trans hu
    exact hs
  · cases h.symm.trans hu

theorem unwind_fails {tick : Tick} {e : UnwindError} (h : u.unwind tick = .error e) :
    FailsAt u tick e := by
  intro hsmall
  rcases unwind_exact hsmall with ⟨stack, hs, hu⟩ | ⟨e', he, hu⟩
  · cases h.symm.trans hu
  · cases h.symm.trans hu
    exact he

omit [DecidableEq ι] in
/- The fates of the records that were popped, by the ticks behind them. -/
theorem behind_of_traced {s : State ι E} {counter : Usize} (h : Traced u config pid s)
    (hordered : Ordered counter s.backlog.session) {e : ℕ × StackTrace}
    (he : e ∈ s.backlog.fates.settled) : Behind u config pid s e := by
  obtain ⟨record, resolveFrames, hrecord, hanswer, hshown⟩ := h.fates e (List.mem_append_left _ he)
  have hpublished := getElem?_mono hordered.popped_prefix hrecord
  obtain ⟨hlength, hnth⟩ := List.forall₂_iff_get.mp h.origins
  obtain ⟨hk, hget⟩ := List.getElem?_eq_some_iff.mp hpublished
  have hunwound := hnth e.1 hk (hlength ▸ hk)
  have htick : s.origins[e.1]? = some (s.origins.get ⟨e.1, hlength ▸ hk⟩) :=
    List.getElem?_eq_getElem _
  refine ⟨_, record, resolveFrames, htick, unwind_chain ?_, hpublished, hanswer, hshown⟩
  rw [hunwound]
  exact congrArg _ hget

end Server

end Pyroscope.Signal.Pipeline

namespace Pyroscope.Upload.Flush
open Pyroscope.Lib Pyroscope.Backend Pyroscope.Encode Pyroscope.Signal

section
variable {ι E : Type} [DecidableEq ι] {Id : Type} [DecidableEq Id] {getId : Metadata → Id}
  {counter : Ring.Usize} {sampleRate : UInt32} {crates : Crates} {agentConfig : PyroscopeConfig}
  {config : BackendConfig} {pid : ℕ} {u : Pipeline.Setup}

theorem backlog_ordered {s : State (Backlog.State ι) Backlog.Captured}
    (h : Reachable (Initial (Backlog.source config pid getId counter sampleRate))
      (Step (Backlog.source config pid getId counter sampleRate) crates agentConfig) s) :
    Ordered counter s.source.session := by
  refine source_invariant (fun b : Backlog.State ι => Ordered counter b.session) ?_ ?_ h
  · rintro b ⟨hsession, -⟩
    exact initial_ordered hsession
  · intro b b' hi hm
    rcases Backlog.moves_session config pid getId counter sampleRate hm with he | hs
    · rw [he]
      exact hi
    · exact step_ordered hi hs

theorem pipeline_traced {s : State (Pipeline.State ι E) Backlog.Captured}
    (h : Reachable (Initial (Pipeline.source u config pid getId counter sampleRate))
      (Step (Pipeline.source u config pid getId counter sampleRate) crates agentConfig) s) :
    Pipeline.Traced u config pid s.source :=
  source_invariant _ (fun _ ha => Pipeline.initial_traced ha)
    (fun _ _ hi hm => Pipeline.moves_traced hi hm) h

end

/-- The signal profiler as a whole, from the memory of the interrupted threads to the
requests: when `stop` has returned the requests show every record of a handler run that had
returned before it, each as the stack of its thread, and nothing that no tick is behind;
the counted failures are those of the walks. -/
theorem ticks_reach_server {ι E : Type} [DecidableEq ι] {Id : Type} [DecidableEq Id]
    (u : Pipeline.Setup) (config : BackendConfig) (pid : ℕ) (getId : Metadata → Id)
    (counter : Ring.Usize) (crates : Crates) (agentConfig : PyroscopeConfig) (env : ℕ → Env)
    {s : State (Pipeline.State ι E) Backlog.Captured}
    (h : Reachable (Initial (Pipeline.source u config pid getId counter agentConfig.sampleRate))
      (fun s s' => Step (Pipeline.source u config pid getId counter agentConfig.sampleRate) crates
        agentConfig s s' ∧ AfterEpoch s ∧ ReportFits agentConfig.sampleRate s ∧
        Drained (s.through Pipeline.State.backlog) (s'.through Pipeline.State.backlog)) s)
    (hdone : s.agent.stopper = .done)
    (hup : Uploadable crates agentConfig env (s.through Pipeline.State.backlog)) :
    ∃ c, s.captured = some c ∧ Pipeline.Accounted u config pid s.source c ∧
      AllDelivered crates env (s.through Pipeline.State.backlog)
        (fun t => s.source.backlog.fates.shownOf c.records t + c.lost.shown config pid Reason.all t)
        fun t => Backlog.entered config pid s.source.backlog t := by
  have hrefines : Refines (Pipeline.source u config pid getId counter agentConfig.sampleRate)
      (Backlog.source config pid getId counter agentConfig.sampleRate)
      (Pipeline.State.backlog : Pipeline.State ι E → Backlog.State ι) :=
    Pipeline.source_refines getId counter agentConfig.sampleRate
  have hbelow := hrefines.reachable_through (Q := fun s s' => AfterEpoch s ∧
    ReportFits agentConfig.sampleRate s ∧ Drained s s') h
  have htraced := pipeline_traced (h.mono fun _ _ hs => hs.1)
  have hordered := backlog_ordered (hbelow.mono fun _ _ hs => hs.1)
  obtain ⟨c, hc, hdelivered⟩ := signal_delivered getId agentConfig crates config pid counter env
    hbelow hdone hup
  obtain ⟨c', hc', hsettled, -⟩ := signal_kept getId crates agentConfig config pid counter hbelow hdone
  cases hc.symm.trans hc'
  exact ⟨c, hc, ⟨hsettled, fun e he => Pipeline.behind_of_traced htraced hordered he,
    htraced.counted, fun f hf => Pipeline.unwind_fails (htraced.failures f hf)⟩, hdelivered⟩

/-! ### One tick, to the server -/

/- One frame of 3.13 with a code object. -/
def oneFrame : Memory 64 := fun a => some
  (if a = 0x149 then 2 else if a = 0x201 then 3 else if a = 0x309 then 4 else if a = 0x238 then 5 else 0)

def oneFrameSetup : Pipeline.Setup := ⟨.v313, ⟨0x400, 0, 0⟩, .first⟩

def pipelineSource : Source (Pipeline.State Unit Unit) Backlog.Captured :=
  Pipeline.source oneFrameSetup backendConfig 1 (fun _ => (0 : ℕ)) 0 agentConfig.sampleRate

def pipelineStarted : State (Pipeline.State Unit Unit) Backlog.Captured :=
  ⟨Shutdown.State.initial, .idle, 0, true, ⟨started.source, oneFrame,
    .new oneFrameSetup.types oneFrameSetup.lines, fun _ => none, [], [], []⟩, none, []⟩

set_option maxRecDepth 4000 in
theorem oneFrame_entered :
    oneFrameSetup.entered ⟨oneFrame, 0x100⟩ = .unwound [⟨0x300, 5⟩] := by
  rfl

def namedFrame : Resolve.ResolveFrames Unit := fun _ _ _ => .ok [⟨"f", "app.py", 7⟩]

theorem namedFrame_metrics :
    (Resolve.answer oneFrameSetup.version ⟨[⟨0x300, 5⟩], namedFrame⟩
      ⟨.new oneFrameSetup.types oneFrameSetup.lines, Metrics.zero, none⟩).2.metrics = Metrics.zero := by
  rfl

theorem quiet_pipeline {s s' : State (Pipeline.State Unit Unit) Backlog.Captured}
    (hs : Step pipelineSource splitCrates agentConfig s s') (hquiet : s.stage.isQuiet = true)
    (huntaken : s'.stage.taken = false) :
    Step pipelineSource splitCrates agentConfig s s' ∧ AfterEpoch s ∧
      ReportFits agentConfig.sampleRate s ∧
      Drained (s.through Pipeline.State.backlog) (s'.through Pipeline.State.backlog) :=
  ⟨hs, quiet_afterEpoch hquiet, quiet_reportFits _ hquiet, .of_untaken huntaken⟩

/-- The sampler thread is in a drain, and not waiting for the resolver. -/
def drains : Sampler → Bool
  | .sleeping => false
  | .resolving .. => false
  | .ended => false
  | _ => true

theorem drain_step {s : Pipeline.State Unit Unit} {event : Option (List Frame)}
    {rb : Ring.RingBuffer Frame} {m : Metrics} {b : StackBuffer} {l : Bool} {t : Sampler}
    (hs : SamplerStep backendConfig 1 s.backlog.session.rb s.backlog.session.metrics
      s.backlog.session.buffer s.backlog.session.bufferLocked s.backlog.session.sampler event rb m b l t)
    (hdrains : drains s.backlog.session.sampler = true) (ht : t ≠ .ended) {running : Bool} :
    Pipeline.Runs oneFrameSetup backendConfig 1 running s
      { s with backlog := Pipeline.sampled backendConfig 1 s.backlog event rb m b l t } := by
  refine .sampler (fun traces n head tail hresolving => ?_) hs (fun hsleeping => ?_) ht
  · rw [hresolving] at hdrains
    cases hdrains
  · rw [hsleeping] at hdrains
    cases hdrains

theorem pipeline_upload_run : ∃ s p, Reachable (Initial pipelineSource)
    (fun s s' => Step pipelineSource splitCrates agentConfig s s' ∧ AfterEpoch s ∧
      ReportFits agentConfig.sampleRate s ∧
      Drained (s.through Pipeline.State.backlog) (s'.through Pipeline.State.backlog)) s ∧
      s.agent.stopper = .done ∧ s.agent.sent = [oneTickSession p] ∧ s.handed = [oneTick] := by
  obtain ⟨p, hpayload⟩ := oneTick_payload
  have h : Reachable (Initial pipelineSource)
      (fun s s' => Step pipelineSource splitCrates agentConfig s s' ∧ AfterEpoch s ∧
        ReportFits agentConfig.sampleRate s ∧
        Drained (s.through Pipeline.State.backlog) (s'.through Pipeline.State.backlog))
      pipelineStarted :=
    .init ⟨_, _, ⟨⟨⟨_, rfl⟩, rfl, fun _ => rfl, rfl, rfl, rfl⟩, rfl, rfl, rfl, rfl, rfl⟩, rfl⟩
  -- the tick, and the handler
  have h := h.step (quiet_pipeline (.runs (.tick () 0x100 rfl)) rfl rfl)
  simp only [pipelineStarted, started, oneFrame_entered] at h
  have h := h.step (quiet_pipeline (.runs (.handler () (by rintro ⟨⟩) (.producer rfl))) rfl rfl)
  have h := h.step (quiet_pipeline (.runs (.handler () (by rintro ⟨⟩) .loadHead)) rfl rfl)
  have h := h.step (quiet_pipeline (.runs (.handler () (by rintro ⟨⟩) .loadTail)) rfl rfl)
  have h := h.step (quiet_pipeline (.runs (.handler () (by rintro ⟨⟩) (.pushFits rfl))) rfl rfl)
  have h := h.step (quiet_pipeline (.runs (.handler () (by rintro ⟨⟩) (.writeValue rfl))) rfl rfl)
  have h := h.step (quiet_pipeline (.runs (.handler () (by rintro ⟨⟩) .writeLen)) rfl rfl)
  have h := h.step (quiet_pipeline (.runs (.handler () (by rintro ⟨⟩) .publish)) rfl rfl)
  have h := h.step (quiet_pipeline (.runs (.handler () (by rintro ⟨⟩) .drop)) rfl rfl)
  have h := h.step (quiet_pipeline (.runs (.handler () (by rintro ⟨⟩) .return)) rfl rfl)
  simp only [Pipeline.handled, Pipeline.published, Pipeline.failed, Ring.logged,
    Function.update_self, Function.update_idem] at h
  -- a drain
  have h := h.step (quiet_pipeline (.runs (.enterLoop rfl rfl)) rfl rfl)
  have h := h.step (quiet_pipeline (.runs (.sampler (by simp) (.consumer rfl) (fun _ => rfl) (by simp))) rfl rfl)
  have h := h.step (quiet_pipeline (.runs (drain_step .loadHead rfl (by simp))) rfl rfl)
  have h := h.step (quiet_pipeline (.runs (drain_step .loadTail rfl (by simp))) rfl rfl)
  have h := h.step (quiet_pipeline (.runs (drain_step
    (.popReady popBuffer popBuffer_length (by decide) (by decide)) rfl (by simp))) rfl rfl)
  have h := h.step (quiet_pipeline (.runs (drain_step
    (.readLen rfl (by rw [popBuffer_length]; decide)) rfl (by simp))) rfl rfl)
  have h := h.step (quiet_pipeline (.runs (drain_step (.readValue (by decide) rfl) rfl (by simp))) rfl rfl)
  have h := h.step (quiet_pipeline (.runs (drain_step .store rfl (by simp))) rfl rfl)
  have h := h.step (quiet_pipeline (.runs
    (.resolve namedFrame rfl (show _ = some [(⟨0x300, 5⟩ : Frame)] from rfl))) rfl rfl)
  simp only [Pipeline.State.resolve, Pipeline.sampled, Ring.logged] at h
  have h := h.step (quiet_pipeline (.runs (drain_step
    (.popRefresh popBuffer popBuffer_length (by decide) rfl) rfl (by simp))) rfl rfl)
  have h := h.step (quiet_pipeline (.runs (drain_step (.refreshEmpty rfl) rfl (by simp))) rfl rfl)
  have h := h.step (quiet_pipeline (.runs (drain_step .drop rfl (by simp))) rfl rfl)
  have h := h.step (quiet_pipeline (.runs (drain_step .lock rfl (by simp))) rfl rfl)
  have h := h.step (quiet_pipeline (.runs (drain_step .record rfl (by simp))) rfl rfl)
  have h := h.step (quiet_pipeline (.runs (drain_step .unlock rfl (by simp))) rfl rfl)
  simp only [Pipeline.sampled, Ring.logged] at h
  -- the report
  have h := h.step (quiet_pipeline (.stop rfl) rfl rfl)
  have h := h.step (quiet_pipeline (.wakes rfl rfl) rfl rfl)
  have h := h.step ⟨.lap 0 rfl le_rfl, fun _ => le_rfl, fun _ _ _ hst => (by cases hst), .of_untaken rfl⟩
  have h := h.step (quiet_pipeline (.dump [] rfl) rfl rfl)
  have h := h.step (quiet_pipeline (.lock rfl ⟨_, ⟨rfl, _, _, _, _, .lock, rfl⟩, rfl⟩) rfl rfl)
  have h := h.step ⟨.take rfl ⟨_, ⟨rfl, _, _, _, _, .take, rfl⟩, rfl⟩, fun hst => (by cases hst),
    fun _ _ _ hst => (by cases hst), by
      rintro - - c hc k hk
      cases hc
      revert k
      decide⟩
  simp only [Reason.all] at h
  -- one swap for each counter
  iterate 8 replace h := h.step ⟨.swap rfl ⟨_, ⟨⟨_, _, _, rfl⟩, _, _, _, _, .swap, rfl⟩, rfl⟩,
    fun hst => (by cases hst), fun _ _ _ hst => (by cases hst), .of_taken rfl⟩
  have h := h.step (quiet_pipeline (.finish rfl ⟨_, ⟨_, _, _, _, .finish, rfl⟩, rfl⟩) rfl rfl)
  simp only [namedFrame_metrics, Metrics.clear, Metrics.zero, Function.update_apply, ite_self,
    List.nil_append, List.cons_append, recordDroppedStacks, if_true] at h
  have h := h.step ⟨.session rfl hpayload rfl (by simp [batch, Payload.isEmpty]),
    fun hst => (by cases hst), by
      rintro timeRange others b hb
      cases hb
      exact ⟨by decide, oneTick_room, oneTick_values⟩, .of_untaken rfl⟩
  have h := h.step (quiet_pipeline (.send rfl rfl (by rintro ⟨⟩) rfl) rfl rfl)
  have h := h.step (quiet_pipeline (.joinSnapshot rfl rfl) rfl rfl)
  have h := h.step (quiet_pipeline (.clearRunning rfl) rfl rfl)
  have h := h.step (quiet_pipeline (.runs (.leaveLoop rfl rfl rfl)) rfl rfl)
  have h := h.step (quiet_pipeline (.joinSampler rfl rfl rfl) rfl rfl)
  have h := h.step (quiet_pipeline (.kill rfl (.sendKill rfl (by rintro ⟨⟩) rfl)) rfl rfl)
  have h := h.step (quiet_pipeline (.manager (.recvSession rfl rfl)) rfl rfl)
  have h := h.step (quiet_pipeline (.manager (.pushReturns rfl)) rfl rfl)
  have h := h.step (quiet_pipeline (.manager (.recvKill rfl rfl)) rfl rfl)
  have h := h.step (quiet_pipeline (.joinManager rfl (.joinManager rfl rfl)) rfl rfl)
  exact ⟨_, p, h, rfl, rfl, rfl⟩

theorem ticks_reach_server_runs :
    ∃ (s : State (Pipeline.State Unit Unit) Backlog.Captured) (c : Backlog.Captured),
      s.handed = [oneTick] ∧ s.captured = some c ∧
      Pipeline.Accounted oneFrameSetup backendConfig 1 s.source c ∧
      AllDelivered splitCrates acceptingEnv (s.through Pipeline.State.backlog)
        (fun t => s.source.backlog.fates.shownOf c.records t +
          c.lost.shown backendConfig 1 Reason.all t)
        fun t => Backlog.entered backendConfig 1 s.source.backlog t := by
  obtain ⟨s, p, hs, hdone, hsent, hhanded⟩ := pipeline_upload_run
  have hup : Uploadable splitCrates agentConfig acceptingEnv (s.through Pipeline.State.backlog) :=
    oneTick_uploadable hsent hhanded
  obtain ⟨c, hc, haccounted, hall⟩ := ticks_reach_server oneFrameSetup backendConfig 1
    (fun _ => (0 : ℕ)) 0 splitCrates agentConfig acceptingEnv hs hdone hup
  exact ⟨s, c, hhanded, hc, haccounted, hall⟩

end Pyroscope.Upload.Flush
