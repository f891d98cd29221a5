import Pyroscope.Signal.Session
import Pyroscope.Upload.Flush

/-!
# The signal profiler behind the snapshots (signal_backend.rs, pyspy_backend.rs)

A session whose one report at a time is the snapshot thread's, with the loop of the
sampler thread tied to `running`. Beside the session it is written down which record
each handler run published and what became of each record that was popped.
-/

namespace Pyroscope.Signal.Backlog
open Pyroscope.Lib Pyroscope.Backend Pyroscope.Ring Pyroscope.Encode
open Pyroscope.Upload.Flush (Source Ledger Payload)

/-- The popped records by their number, with the stack that each was resolved to: those in
the hands of the sampler thread, and those recorded in the buffer or, when they could not
be resolved, counted. -/
structure Fates where
  held : List (ℕ × StackTrace)
  settled : List (ℕ × StackTrace)
  failed : Finset ℕ

structure State (ι : Type) where
  session : Signal.State ι Unit
  /-- the sampler thread has found `running` on and has not looked again -/
  awake : Bool
  /-- the record that the handler run under way has published -/
  tickets : ι → Option ℕ
  /-- the records published by handler runs that have returned -/
  completed : Finset ℕ
  /-- what the handlers have counted since the start -/
  lost : Metrics
  fates : Fates

/-- What `stop` finds captured: records of completed runs, or counted, and drops. -/
structure Captured where
  records : Finset ℕ
  lost : Metrics

variable (config : BackendConfig) (pid : ℕ)

/-- The fate of record `k` when the sampler goes from one place to the next. -/
def Fates.follow (f : Fates) (k : ℕ) : Sampler → Sampler → Fates
  | .resolving traces _ _ _, .draining traces' _ _ =>
    match traces'.drop traces.length with
    | trace :: _ => { f with held := f.held ++ [(k, trace)] }
    | [] => { f with
        settled := f.settled ++ [(k, droppedTrace config pid .resolveError)]
        failed := insert k f.failed }
  | .recording (_ :: _), .recording _ =>
    { f with held := f.held.tail, settled := f.settled ++ f.held.take 1 }
  | _, _ => f

def ticket (published : ℕ) : Option (List Frame) → ℕ → Option ℕ → Option ℕ
  | some _, _, _ => some published
  | none, 0, ticket => ticket
  | none, _ + 1, _ => none

/-- A run that returns completes the record it published. -/
def completes (completed : Finset ℕ) : ℕ → Option ℕ → Finset ℕ
  | _ + 1, some k => insert k completed
  | _, _ => completed

variable {ι : Type} [DecidableEq ι]

inductive Runs (running : Bool) : State ι → State ι → Prop where
  | handler {s : State ι} (i : ι) {event finished rb m h}
      (hs : HandlerStep s.session.rb s.session.metrics (s.session.handlers i) event finished rb m h) :
    Runs running s { s with
      session := { s.session with
        rb := rb
        metrics := m
        handlers := Function.update s.session.handlers i h
        completed := s.session.completed + finished
        published := logged s.session.published event }
      tickets := Function.update s.tickets i
        (ticket s.session.published.length event finished (s.tickets i))
      completed := completes s.completed finished (s.tickets i)
      lost := fun r => s.lost r + (m r - s.session.metrics r) }
  /-- `while running.load(..)`, then the sleep -/
  | enterLoop {s : State ι} (h : s.session.sampler = .sleeping) (on : running = true) :
    Runs running s { s with awake := true }
  | sampler {s : State ι} {event rb m b l t}
      (hs : SamplerStep config pid s.session.rb s.session.metrics s.session.buffer
        s.session.bufferLocked s.session.sampler event rb m b l t)
      (entered : s.session.sampler = .sleeping → s.awake = true) (ht : t ≠ .ended) :
    Runs running s { s with
      session := { s.session with
        rb := rb
        metrics := m
        buffer := b
        bufferLocked := l
        sampler := t
        popped := logged s.session.popped event }
      awake := match t with
        | .sleeping => false
        | _ => s.awake
      fates := s.fates.follow config pid (s.session.popped.length - 1) s.session.sampler t }
  | leaveLoop {s : State ι} (h : s.session.sampler = .sleeping) (off : running = false)
      (looked : s.awake = false) :
    Runs running s { s with session := { s.session with sampler := .ended } }

/-- A step of the report that the snapshot thread makes. -/
def reportStep (s : State ι) (finished : Option StackBuffer) (s' : State ι) : Prop :=
  ∃ m b l r, ReporterStep config pid s.session.metrics s.session.buffer s.session.bufferLocked
    (s.session.reporters ()) finished m b l r ∧
    s' = { s with session := { s.session with
      metrics := m
      buffer := b
      bufferLocked := l
      reporters := Function.update s.session.reporters () r
      reports := s.session.reports ++ finished.toList } }

section Report
variable {Id : Type} [DecidableEq Id] (getId : Metadata → Id) (counter : Usize) (sampleRate : UInt32)

/-- The data of the batch: nothing for no stacks, else the profile. -/
def payload (timeRange : TimeRange) (report : StackBuffer) (r : Except Panic Payload) : Prop :=
  if report.data.toList = [] then r = .ok (.pprof none)
  else ∃ (ordBuffer ordData : IterOrder (StackTrace × ℕ)) (ordReports : IterOrder (Id × Report))
      (ordStrings : IterOrder (String × StringID)),
    r = (encode ordData ordStrings (reportsOfBuffer getId ordBuffer ordReports report) sampleRate
      timeRange).map fun profile => .pprof (some profile)

/-- The profiler for the agent, started with the ring buffer at `counter`. -/
def source : Source (State ι) Captured where
  initial s := Signal.Initial counter s.session ∧ s.awake = false ∧ (∀ i, s.tickets i = none) ∧
    s.completed = ∅ ∧ s.lost = Metrics.zero ∧ s.fates = ⟨[], [], ∅⟩
  runs := Runs config pid
  lock s s' := s.session.reporters () = .idle ∧ reportStep config pid s none s'
  take s s' := s.session.reporters () = .locked ∧ reportStep config pid s none s'
  swap s s' := (∃ report counts rest, s.session.reporters () = .swapping report counts rest) ∧
    reportStep config pid s none s'
  finish s b s' := reportStep config pid s (some b) s'
  payload := payload getId sampleRate
  capture s := ⟨s.completed ∪ s.fates.failed, s.lost⟩
  ended s := s.session.sampler = .ended

/- Each move is a step of the session or leaves it as it is. -/
theorem moves_session {s s' : State ι}
    (h : (source config pid getId counter sampleRate).Moves s s') :
    s'.session = s.session ∨ Signal.Step config pid s.session s'.session := by
  have hreport : ∀ {finished}, reportStep config pid s finished s' →
      Signal.Step config pid s.session s'.session := by
    rintro finished ⟨m, b, l, r, hs, rfl⟩
    exact .reporter () hs
  cases h with
  | runs r h =>
    cases h with
    | handler i hs => exact Or.inr (.handler i hs)
    | enterLoop h on => exact Or.inl rfl
    | sampler hs entered ht => exact Or.inr (.sampler hs)
    | leaveLoop h off looked =>
      have hs : SamplerStep config pid s.session.rb s.session.metrics s.session.buffer
          s.session.bufferLocked s.session.sampler none s.session.rb s.session.metrics
          s.session.buffer s.session.bufferLocked .ended := by
        rw [h]
        exact .stop
      exact Or.inr (.sampler hs)
  | lock h => exact Or.inr (hreport h.2)
  | take h => exact Or.inr (hreport h.2)
  | swap h => exact Or.inr (hreport h.2)
  | finish b h => exact Or.inr (hreport h)

end Report

/-! ### The records that were popped -/

def traces : Sampler → List StackTrace
  | .draining traces _ _ => traces
  | .resolving traces _ _ _ => traces
  | .finishing traces _ _ => traces
  | .drained traces => traces
  | .recording traces => traces
  | _ => []

/-- The record being resolved has been popped and has no fate yet. -/
def unresolved : Sampler → ℕ
  | .resolving _ _ _ _ => 1
  | _ => 0

def Fates.keys (f : Fates) : List ℕ := (f.settled ++ f.held).map Prod.fst

/-- The sampler thread and what is written down about it, after `popped` pops. -/
structure Followed (f : Fates) (t : Sampler) (popped : ℕ) : Prop where
  held : t ≠ .panicked → f.held.map Prod.snd = traces t
  nodup : f.keys.Nodup
  bound : ∀ k ∈ f.keys, k + unresolved t < popped
  popped : unresolved t ≤ popped

/-- What one step of the sampler thread settles: nothing, or one record that had no fate. -/
inductive Settles (f f' : Fates) (b b' : StackBuffer) (m m' : Metrics) : Prop where
  | nothing (hf : f'.settled = f.settled) (hb : b' = b) (hm : m' = m)
  | recorded (k : ℕ) (trace : StackTrace) (hf : f'.settled = f.settled ++ [(k, trace)])
      (new : k ∉ f.settled.map Prod.fst) (hb : b' = b.record trace) (hm : m' = m)
  | failed (k : ℕ) (hf : f'.settled = f.settled ++ [(k, droppedTrace config pid .resolveError)])
      (new : k ∉ f.settled.map Prod.fst) (hb : b' = b) (hm : m' = m.fetchAdd .resolveError)

section Follow
variable {config pid}

theorem follow_resolved (f : Fates) (k : ℕ) (traces : List StackTrace) (trace : StackTrace) (n n' : ℕ)
    (head tail : Usize) (c : Consumer Frame) :
    f.follow config pid k (.resolving traces n head tail) (.draining (traces ++ [trace]) n' c) =
      { f with held := f.held ++ [(k, trace)] } := by
  simp only [Fates.follow, List.drop_left]

theorem follow_failed (f : Fates) (k : ℕ) (traces : List StackTrace) (n n' : ℕ) (head tail : Usize)
    (c : Consumer Frame) :
    f.follow config pid k (.resolving traces n head tail) (.draining traces n' c) =
      { f with
        settled := f.settled ++ [(k, droppedTrace config pid .resolveError)]
        failed := insert k f.failed } := by
  simp only [Fates.follow, List.drop_length]

/- One more record gets a fate. -/
theorem Followed.add {f f' : Fates} {t t' : Sampler} {popped : ℕ} {x : StackTrace}
    (h : Followed f t popped) (hu : unresolved t = 1) (hu' : unresolved t' = 0)
    (hkeys : (f'.settled ++ f'.held).Perm ((popped - 1, x) :: (f.settled ++ f.held)))
    (hheld : t' ≠ .panicked → f'.held.map Prod.snd = traces t') :
    Followed f' t' popped ∧ popped - 1 ∉ f.settled.map Prod.fst := by
  have hperm : f'.keys.Perm ((popped - 1) :: f.keys) := hkeys.map Prod.fst
  have hpos := h.popped
  have hnew : popped - 1 ∉ f.keys := fun hk => by
    have hlt := h.bound _ hk
    omega
  refine ⟨⟨hheld, ?_, fun k hk => ?_, by omega⟩, fun hk => ?_⟩
  · exact hperm.nodup_iff.mpr (List.nodup_cons.mpr ⟨hnew, h.nodup⟩)
  · rcases List.mem_cons.mp (hperm.mem_iff.mp hk) with rfl | hk
    · omega
    · have hlt := h.bound k hk
      omega
  · rw [Fates.keys, List.map_append] at hnew
    exact hnew (List.mem_append_left _ hk)

theorem samplerStep_followed {rb rb' : RingBuffer Frame} {m m' : Metrics} {b b' : StackBuffer}
    {l l' : Bool} {t t' : Sampler} {event : Option (List Frame)} {f : Fates}
    {popped : List (List Frame)}
    (hs : SamplerStep config pid rb m b l t event rb' m' b' l' t')
    (h : Followed f t popped.length) :
    Followed (f.follow config pid (popped.length - 1) t t') t' (logged popped event).length ∧
      Settles config pid f (f.follow config pid (popped.length - 1) t t') b b' m m' := by
  cases hs with
  | resolved frames =>
    rename_i traces n head tail
    rw [follow_resolved]
    have hnext : Followed { f with
        held := f.held ++ [(popped.length - 1, toStackTrace frames config pid)] }
        (.draining (traces ++ [toStackTrace frames config pid]) (n + 1) (.held head tail))
        popped.length ∧ popped.length - 1 ∉ f.settled.map Prod.fst := by
      refine h.add (x := toStackTrace frames config pid) rfl rfl ?_ fun _ => ?_
      · rw [← List.append_assoc]
        exact List.perm_append_singleton ..
      · rw [List.map_append, h.held nofun]
        rfl
    exact ⟨hnext.1, .nothing rfl rfl rfl⟩
  | resolveFailed =>
    rename_i traces n head tail
    rw [follow_failed]
    have hnext : Followed { f with
        settled := f.settled ++ [(popped.length - 1, droppedTrace config pid .resolveError)]
        failed := insert (popped.length - 1) f.failed }
        (.draining traces (n + 1) (.held head tail)) popped.length ∧
        popped.length - 1 ∉ f.settled.map Prod.fst := by
      refine h.add (x := droppedTrace config pid .resolveError) rfl rfl ?_ fun _ => h.held nofun
      rw [List.append_assoc]
      exact List.perm_middle
    exact ⟨hnext.1, .failed _ rfl hnext.2 rfl rfl⟩
  | record =>
    rename_i trace rest
    have hheld := h.held nofun
    cases hf : f.held with
    | nil =>
      rw [hf] at hheld
      cases hheld
    | cons e held =>
      obtain ⟨k, trace'⟩ := e
      rw [hf] at hheld
      obtain ⟨rfl, hrest⟩ := List.cons.inj hheld
      have hfollow : f.follow config pid (popped.length - 1) (.recording (trace' :: rest))
          (.recording rest) = { f with held := held, settled := f.settled ++ [(k, trace')] } := by
        simp only [Fates.follow, hf, List.tail_cons, List.take_succ_cons, List.take_zero]
      have hkeys : (f.settled ++ [(k, trace')] ++ held).map Prod.fst = f.keys := by
        rw [List.append_assoc, Fates.keys, hf]
        rfl
      rw [hfollow]
      refine ⟨⟨fun _ => hrest, ?_, fun k' hk' => h.bound k' ?_, Nat.zero_le _⟩,
        .recorded k trace' rfl ?_ rfl rfl⟩
      · rw [Fates.keys, hkeys]
        exact h.nodup
      · rwa [Fates.keys, hkeys] at hk'
      · have hn := h.nodup
        rw [Fates.keys, hf, List.map_append] at hn
        exact fun hk => (List.nodup_append.mp hn).2.2 k hk k List.mem_cons_self rfl
  | store =>
    refine ⟨⟨fun _ => h.held nofun, h.nodup, fun k hk => ?_, ?_⟩, .nothing rfl rfl rfl⟩
    · have hlt := h.bound k hk
      simp only [logged, unresolved, List.length_append, List.length_singleton] at hlt ⊢
      omega
    · simp only [logged, unresolved, List.length_append, List.length_singleton]
      omega
  | readLenSmall => exact ⟨⟨fun hp => (hp rfl).elim, h.nodup, h.bound, h.popped⟩, .nothing rfl rfl rfl⟩
  | readLenBad => exact ⟨⟨fun hp => (hp rfl).elim, h.nodup, h.bound, h.popped⟩, .nothing rfl rfl rfl⟩
  | readValueBad => exact ⟨⟨fun hp => (hp rfl).elim, h.nodup, h.bound, h.popped⟩, .nothing rfl rfl rfl⟩
  | _ => exact ⟨⟨fun _ => h.held nofun, h.nodup, h.bound, h.popped⟩, .nothing rfl rfl rfl⟩

end Follow

/-! ### The ledger -/

section Ledger
variable {config pid}

theorem handlerStep_metrics {rb rb' : RingBuffer Frame} {m m' : Metrics} {h h' : Handler}
    {event : Option (List Frame)} {finished : ℕ} (hs : HandlerStep rb m h event finished rb' m' h') :
    m' = m ∨ ∃ r, m' = m.fetchAdd r := by
  cases hs with
  | countError => exact Or.inr ⟨_, rfl⟩
  | countContention => exact Or.inr ⟨_, rfl⟩
  | countFull => exact Or.inr ⟨_, rfl⟩
  | _ => exact Or.inl rfl

theorem samplerStep_metrics {rb rb' : RingBuffer Frame} {m m' : Metrics} {b b' : StackBuffer}
    {l l' : Bool} {t t' : Sampler} {event : Option (List Frame)}
    (hs : SamplerStep config pid rb m b l t event rb' m' b' l' t') :
    m' = m ∨ ∃ r, m' = m.fetchAdd r := by
  cases hs with
  | resolveFailed => exact Or.inr ⟨_, rfl⟩
  | _ => exact Or.inl rfl

/- The same reason is added to what the handlers have counted. -/
theorem lost_fetchAdd (lost m : Metrics) (r : Reason) :
    (fun r' => lost r' + (m.fetchAdd r r' - m r')) = lost.fetchAdd r := by
  funext r'
  simp only [Metrics.fetchAdd, Function.update_apply]
  split
  · rename_i he
    subst he
    omega
  · omega

theorem lost_same (lost m : Metrics) : (fun r => lost r + (m r - m r)) = lost := by
  funext r
  omega

/-- What the fates that are settled amount to for one stack. -/
def Fates.shown (f : Fates) (t : StackTrace) : ℕ := f.settled.countP fun e => e.2 = t

def Fates.shownOf (f : Fates) (records : Finset ℕ) (t : StackTrace) : ℕ :=
  f.settled.countP fun e => e.1 ∈ records ∧ e.2 = t

theorem Settles.shown {f f' : Fates} {b b' : StackBuffer} {m m' : Metrics}
    (h : Settles config pid f f' b b' m m') (t : StackTrace) :
    f'.shown t + (b.count t + m.shown config pid Reason.all t) =
      f.shown t + (b'.count t + m'.shown config pid Reason.all t) := by
  cases h with
  | nothing hf hb hm => rw [Fates.shown, Fates.shown, hf, hb, hm]
  | recorded k trace hf new hb hm =>
    rw [Fates.shown, Fates.shown, hf, hb, hm, List.countP_append, List.countP_singleton,
      StackBuffer.count_record]
    simp only [decide_eq_true_eq]
    omega
  | failed k hf new hb hm =>
    rw [Fates.shown, Fates.shown, hf, hb, hm, List.countP_append, List.countP_singleton,
      Metrics.shown_fetchAdd]
    simp only [decide_eq_true_eq]
    omega

/- Once all of some records are settled, what they amount to stays as it is. -/
theorem Settles.whole {f f' : Fates} {b b' : StackBuffer} {m m' : Metrics}
    (h : Settles config pid f f' b b' m m') {records : Finset ℕ}
    (hw : ∀ k ∈ records, k ∈ f.settled.map Prod.fst) :
    (∀ k ∈ records, k ∈ f'.settled.map Prod.fst) ∧
      ∀ t, f'.shownOf records t = f.shownOf records t := by
  have hmore : ∀ {k : ℕ} {trace : StackTrace}, f'.settled = f.settled ++ [(k, trace)] →
      k ∉ f.settled.map Prod.fst → (∀ k ∈ records, k ∈ f'.settled.map Prod.fst) ∧
        ∀ t, f'.shownOf records t = f.shownOf records t := by
    intro k trace hf hnew
    have hk : k ∉ records := fun hk => hnew (hw k hk)
    refine ⟨fun k' hk' => ?_, fun t => ?_⟩
    · rw [hf, List.map_append]
      exact List.mem_append_left _ (hw k' hk')
    · rw [Fates.shownOf, Fates.shownOf, hf, List.countP_append, List.countP_singleton]
      simp [hk]
  cases h with
  | nothing hf hb hm =>
    rw [hf]
    exact ⟨hw, fun t => by rw [Fates.shownOf, Fates.shownOf, hf]⟩
  | recorded k trace hf new hb hm => exact hmore hf new
  | failed k hf new hb hm => exact hmore hf new

def taken (config : BackendConfig) (pid : ℕ) (r : Reporter) (t : StackTrace) : ℕ :=
  match r with
  | .swapping report counts _ => report.count t + shownCounts config pid counts t
  | _ => 0

/-- What the counters that a report under way still has to swap amount to. -/
def left (config : BackendConfig) (pid : ℕ) (m : Metrics) (r : Reporter) (t : StackTrace) : ℕ :=
  match r with
  | .swapping _ _ rest => m.shown config pid rest t
  | _ => 0

/-- The reasons that a report still has to visit are different ones. -/
def Distinct : Reporter → Prop
  | .swapping _ _ rest => rest.Nodup
  | _ => True

variable {Id : Type} [DecidableEq Id] (getId : Metadata → Id) (counter : Usize) (sampleRate : UInt32)

structure Inv (s : State ι) : Prop where
  followed : Followed s.fates s.session.sampler s.session.popped.length
  distinct : Distinct (s.session.reporters ())

theorem reporterStep_distinct {m m' : Metrics} {b b' : StackBuffer} {l l' : Bool} {r r' : Reporter}
    {finished : Option StackBuffer} (hs : ReporterStep config pid m b l r finished m' b' l' r')
    (h : Distinct r) : Distinct r' := by
  cases hs with
  | lock => trivial
  | take => exact (by decide : Reason.all.Nodup)
  | swap => exact (List.nodup_cons.mp h).2
  | finish => trivial

omit [DecidableEq ι] in
theorem reportStep_reporter {s s' : State ι} {finished : Option StackBuffer}
    (h : reportStep config pid s finished s') :
    ∃ l l', ReporterStep config pid s.session.metrics s.session.buffer l (s.session.reporters ())
      finished s'.session.metrics s'.session.buffer l' (s'.session.reporters ()) := by
  obtain ⟨m, b, l, r, hs, rfl⟩ := h
  have hr : Function.update s.session.reporters () r () = r := Function.update_self ..
  refine ⟨s.session.bufferLocked, l, ?_⟩
  simp only [hr]
  exact hs

omit [DecidableEq ι] in
/- A report keeps away from what the handlers and the sampler thread have written down. -/
theorem reportStep_frame {s s' : State ι} {finished : Option StackBuffer}
    (h : reportStep config pid s finished s') : s'.fates = s.fates ∧ s'.lost = s.lost := by
  obtain ⟨m, b, l, r, -, rfl⟩ := h
  exact ⟨rfl, rfl⟩

theorem moves_inv {s s' : State ι} (h : Inv s)
    (hs : (source config pid getId counter sampleRate).Moves s s') : Inv s' := by
  have hreport : ∀ {finished}, reportStep config pid s finished s' → Inv s' := by
    intro finished hr
    obtain ⟨l, l', hstep⟩ := reportStep_reporter hr
    obtain ⟨m, b, l, r, -, rfl⟩ := hr
    exact ⟨h.followed, reporterStep_distinct hstep h.distinct⟩
  cases hs with
  | runs r hr =>
    cases hr with
    | handler i hs => exact ⟨h.followed, h.distinct⟩
    | enterLoop hs on => exact ⟨h.followed, h.distinct⟩
    | sampler hs entered ht => exact ⟨(samplerStep_followed hs h.followed).1, h.distinct⟩
    | leaveLoop hs off looked =>
      have hf := h.followed
      rw [hs] at hf
      exact ⟨⟨fun _ => hf.held nofun, hf.nodup, hf.bound, hf.popped⟩, h.distinct⟩
  | lock hl => exact hreport hl.2
  | take ht => exact hreport ht.2
  | swap hw => exact hreport hw.2
  | finish b hf => exact hreport hf

def entered (config : BackendConfig) (pid : ℕ) (s : State ι) (t : StackTrace) : ℕ :=
  s.fates.shown t + s.lost.shown config pid Reason.all t

def pending (config : BackendConfig) (pid : ℕ) (s : State ι) (t : StackTrace) : ℕ :=
  s.session.buffer.count t + s.session.metrics.shown config pid Reason.all t

theorem runs_balance {running : Bool} {s s' : State ι} (h : Inv s)
    (hs : Runs config pid running s s') (t : StackTrace) :
    entered config pid s' t + pending config pid s t =
      entered config pid s t + pending config pid s' t := by
  cases hs with
  | handler i hs =>
    rcases handlerStep_metrics hs with rfl | ⟨r, rfl⟩
    · simp only [entered, pending, lost_same]
    · simp only [entered, pending, lost_fetchAdd, Metrics.shown_fetchAdd]
      omega
  | enterLoop hs on => rfl
  | sampler hs hloop ht =>
    have hbalance := (samplerStep_followed hs h.followed).2.shown t
    simp only [entered, pending]
    omega
  | leaveLoop hs off looked => rfl

/- The four parts of a report, by what they take and leave. -/

theorem lock_same {m m' : Metrics} {b b' : StackBuffer} {l l' : Bool} {r' : Reporter}
    {finished : Option StackBuffer}
    (hs : ReporterStep config pid m b l .idle finished m' b' l' r') :
    m' = m ∧ b' = b ∧ r' = .locked := by
  cases hs
  exact ⟨rfl, rfl, rfl⟩

theorem take_swapping {m m' : Metrics} {b b' : StackBuffer} {l l' : Bool} {r' : Reporter}
    {finished : Option StackBuffer}
    (hs : ReporterStep config pid m b l .locked finished m' b' l' r') :
    m' = m ∧ b' = .default ∧ r' = .swapping b [] Reason.all := by
  cases hs
  exact ⟨rfl, rfl, rfl⟩

theorem swap_cleared {m m' : Metrics} {b b' : StackBuffer} {l l' : Bool} {r' : Reporter}
    {report : StackBuffer} {counts : List (Reason × ℕ)} {rest : List Reason}
    (hs : ReporterStep config pid m b l (.swapping report counts rest) none m' b' l' r') :
    ∃ r tail, rest = r :: tail ∧ m' = m.clear r ∧ b' = b ∧
      r' = .swapping report (counts ++ [(r, m r)]) tail := by
  cases hs
  exact ⟨_, _, rfl, rfl, rfl, rfl⟩

theorem finish_report {m m' : Metrics} {b b' report : StackBuffer} {l l' : Bool} {r r' : Reporter}
    (hs : ReporterStep config pid m b l r (some report) m' b' l' r') :
    m' = m ∧ b' = b ∧ r' = .idle ∧ (∀ t, report.count t = taken config pid r t) ∧
      ∀ t, left config pid m r t = 0 := by
  cases hs
  exact ⟨rfl, rfl, rfl, fun t => recordDroppedStacks_count .., fun t => rfl⟩

theorem swap_taken (m : Metrics) (report : StackBuffer) (counts : List (Reason × ℕ)) (r : Reason)
    (tail : List Reason) (t : StackTrace) :
    taken config pid (.swapping report (counts ++ [(r, m r)]) tail) t =
      taken config pid (.swapping report counts (r :: tail)) t +
        if droppedTrace config pid r = t then m r else 0 := by
  simp only [taken, shownCounts_append, shownCounts_cons, shownCounts_nil]
  omega

variable (config pid) in
theorem swap_shown (m : Metrics) (r : Reason) (t : StackTrace) :
    (m.clear r).shown config pid Reason.all t + (if droppedTrace config pid r = t then m r else 0) =
      m.shown config pid Reason.all t := by
  have h := Metrics.shown_update config pid m (by decide) r.mem_all 0 t
  rw [ite_self, Nat.add_zero] at h
  exact h

variable (config pid) in
theorem swap_left (m : Metrics) (report report' : StackBuffer) (counts counts' : List (Reason × ℕ))
    (r : Reason) (tail : List Reason) (h : (r :: tail).Nodup) (t : StackTrace) :
    left config pid (m.clear r) (.swapping report counts tail) t +
        (if droppedTrace config pid r = t then m r else 0) =
      left config pid m (.swapping report' counts' (r :: tail)) t := by
  have hother : (m.clear r).shown config pid tail t = m.shown config pid tail t :=
    Metrics.shown_update_other config pid m (List.nodup_cons.mp h).1 0 t
  simp only [left, hother, Metrics.shown_cons]
  omega

omit [DecidableEq ι] in
theorem reportStep_entered {s s' : State ι} {finished : Option StackBuffer}
    (h : reportStep config pid s finished s') (t : StackTrace) :
    entered config pid s' t = entered config pid s t := by
  obtain ⟨hfates, hlost⟩ := reportStep_frame h
  rw [entered, entered, hfates, hlost]

section Moves
variable {getId : Metadata → Id} {counter : Usize} {sampleRate : UInt32} {s s' : State ι}

/- Settled fates and counted drops stay. -/
theorem moves_settles (h : Inv s)
    (hs : (source config pid getId counter sampleRate).Moves s s') :
    ∃ b b' m m', Settles config pid s.fates s'.fates b b' m m' := by
  have hreport : ∀ {finished}, reportStep config pid s finished s' →
      ∃ b b' m m', Settles config pid s.fates s'.fates b b' m m' := fun hr =>
    ⟨s.session.buffer, _, s.session.metrics, _,
      .nothing (congrArg Fates.settled (reportStep_frame hr).1) rfl rfl⟩
  cases hs with
  | runs r hr =>
    cases hr with
    | sampler hs hloop ht => exact ⟨_, _, _, _, (samplerStep_followed hs h.followed).2⟩
    | _ => exact ⟨s.session.buffer, _, s.session.metrics, _, .nothing rfl rfl rfl⟩
  | lock hl => exact hreport hl.2
  | take ht => exact hreport ht.2
  | swap hw => exact hreport hw.2
  | finish b hf => exact hreport hf

theorem moves_lost (hs : (source config pid getId counter sampleRate).Moves s s')
    (r : Reason) : s.lost r ≤ s'.lost r := by
  have hreport : ∀ {finished}, reportStep config pid s finished s' → s.lost r ≤ s'.lost r :=
    fun hr => by rw [(reportStep_frame hr).2]
  cases hs with
  | runs r' hr =>
    cases hr with
    | handler i hs => exact Nat.le_add_right ..
    | _ => exact le_rfl
  | lock hl => exact hreport hl.2
  | take ht => exact hreport ht.2
  | swap hw => exact hreport hw.2
  | finish b hf => exact hreport hf

theorem runs_reporter {running : Bool} (hs : Runs config pid running s s') :
    s'.session.reporters = s.session.reporters := by
  cases hs <;> rfl

theorem runs_metrics {running : Bool} (hs : Runs config pid running s s') (r : Reason) :
    s.session.metrics r ≤ s'.session.metrics r := by
  have hcounted : ∀ {m : Metrics}, (m = s.session.metrics ∨ ∃ r, m = s.session.metrics.fetchAdd r) →
      s.session.metrics r ≤ m r := by
    rintro m (rfl | ⟨r', rfl⟩)
    · exact le_rfl
    · exact Metrics.le_fetchAdd ..
  cases hs with
  | handler i hs => exact hcounted (handlerStep_metrics hs)
  | sampler hs hloop ht => exact hcounted (samplerStep_metrics hs)
  | _ => exact le_rfl

theorem runs_left {running : Bool} (hs : Runs config pid running s s') (t : StackTrace) :
    left config pid s.session.metrics (s.session.reporters ()) t ≤
      left config pid s'.session.metrics (s'.session.reporters ()) t := by
  rw [runs_reporter hs]
  cases s.session.reporters () with
  | swapping report counts rest => exact Metrics.shown_mono config pid (runs_metrics hs) rest t
  | _ => exact le_rfl

end Moves

/-- Records are whole once they are settled; drops are entered when they are counted. -/
def ledger : Ledger (source config pid getId counter sampleRate : Source (State ι) Captured)
    sampleRate where
  Inv := Inv
  entered := entered config pid
  pending := pending config pid
  taken s := taken config pid (s.session.reporters ())
  left s := left config pid s.session.metrics (s.session.reporters ())
  Kept c s := ∀ r, c.lost r ≤ s.lost r
  Whole c s := ∀ k ∈ c.records, k ∈ s.fates.settled.map Prod.fst
  need c s t := s.fates.shownOf c.records t + c.lost.shown config pid Reason.all t
  Fits b := 0 < sampleRate.toNat ∧
    ("" :: "cpu" :: "nanoseconds" :: entryRequests b.data.toList).toFinset.card < u32Max ∧
    ∀ e ∈ b.data.toList, (e.2 : ℤ) * (1000000000 / (sampleRate.toNat : ℤ)) ≤ i64Max
  inv_initial h := by
    obtain ⟨⟨slots, hs⟩, -, -, -, -, hf⟩ := h
    refine ⟨?_, ?_⟩
    · rw [hs, hf]
      exact ⟨fun _ => rfl, List.nodup_nil, nofun, le_rfl⟩
    · rw [hs]
      trivial
  inv_moves := moves_inv getId counter sampleRate
  entered_initial h t := by
    obtain ⟨-, -, -, -, hl, hf⟩ := h
    rw [entered, hl, hf, Metrics.shown_zero]
    exact Nat.zero_le _
  taken_initial h t := by
    obtain ⟨⟨slots, hs⟩, -⟩ := h
    rw [hs]
    rfl
  runs_balance := runs_balance
  runs_taken h t := by simp only [runs_reporter h]
  runs_left := runs_left
  lock_same h t := by
    obtain ⟨hidle, hr⟩ := h
    obtain ⟨l, l', hs⟩ := reportStep_reporter hr
    rw [hidle] at hs
    obtain ⟨hm, hb, hr'⟩ := lock_same hs
    refine ⟨reportStep_entered hr t, ?_, ?_⟩
    · rw [pending, pending, hm, hb]
    · rw [hidle, hr']
      rfl
  take_balance h t _ := by
    obtain ⟨hlocked, hr⟩ := h
    obtain ⟨l, l', hs⟩ := reportStep_reporter hr
    rw [hlocked] at hs
    obtain ⟨hm, hb, hr'⟩ := take_swapping hs
    refine ⟨reportStep_entered hr t, ?_⟩
    simp only [pending, taken, hm, hb, hr', shownCounts_nil, StackBuffer.count_default]
    omega
  take_finds h t := by
    obtain ⟨hlocked, hr⟩ := h
    obtain ⟨l, l', hs⟩ := reportStep_reporter hr
    rw [hlocked] at hs
    obtain ⟨hm, hb, hr'⟩ := take_swapping hs
    simp only [pending, taken, left, hm, hr', shownCounts_nil]
    omega
  swap_balance {s _} h t := by
    obtain ⟨⟨report, counts, rest, hw⟩, hr⟩ := h
    obtain ⟨l, l', hs⟩ := reportStep_reporter hr
    rw [hw] at hs
    obtain ⟨r, tail, rfl, hm, hb, hr'⟩ := swap_cleared hs
    refine ⟨reportStep_entered hr t, ?_⟩
    have hshown := swap_shown config pid s.session.metrics r t
    rw [pending, pending, hm, hb, hr', hw, swap_taken]
    omega
  swap_finds {s _} hinv h t := by
    obtain ⟨⟨report, counts, rest, hw⟩, hr⟩ := h
    obtain ⟨l, l', hs⟩ := reportStep_reporter hr
    rw [hw] at hs
    obtain ⟨r, tail, rfl, hm, hb, hr'⟩ := swap_cleared hs
    have hn := hinv.distinct
    rw [hw] at hn
    have hleft := swap_left config pid s.session.metrics report report
      (counts ++ [(r, s.session.metrics r)]) counts r tail hn t
    rw [hm, hr', hw, swap_taken]
    omega
  finish_balance h t := by
    obtain ⟨l, l', hs⟩ := reportStep_reporter h
    obtain ⟨hm, hb, hr', hcount, -⟩ := finish_report hs
    refine ⟨reportStep_entered h t, ?_, ?_⟩
    · rw [pending, pending, hm, hb, hcount]
    · rw [hr']
      rfl
  finish_finds h t := by
    obtain ⟨l, l', hs⟩ := reportStep_reporter h
    obtain ⟨-, -, -, hcount, hleft⟩ := finish_report hs
    rw [hcount, hleft]
    exact le_rfl
  kept_capture _ _ := le_rfl
  kept_moves _ hs hk r := (hk r).trans (moves_lost hs r)
  whole_moves h hs hw := by
    obtain ⟨b, b', m, m', hset⟩ := moves_settles h hs
    exact (hset.whole hw).1
  need_moves h hs hw t := by
    obtain ⟨b, b', m, m', hset⟩ := moves_settles h hs
    rw [(hset.whole hw).2 t]
  need_le hk _ t := by
    refine Nat.add_le_add (List.countP_mono_left fun e _ he => ?_) (Metrics.shown_mono config pid hk _ t)
    simp only [decide_eq_true_eq] at he ⊢
    exact he.2
  shows {timeRange b r} hfits h := by
    obtain ⟨hrate, hstrings, hfit⟩ := hfits
    have h' : payload getId sampleRate timeRange b r := h
    rw [payload] at h'
    split at h'
    · rename_i hnil
      exact ⟨_, h', hnil⟩
    · obtain ⟨ordBuffer, ordData, ordReports, ordStrings, rfl⟩ := h'
      have hperm := reportEntries_perm getId ordBuffer ordData ordReports b
      obtain ⟨p, hp, -, -, hdecoded⟩ := (encode_outcome ordData ordStrings _ sampleRate timeRange
        hrate.ne').ok (room_of_perm hperm hstrings)
      refine ⟨_, congrArg _ hp, _, hdecoded, ?_⟩
      rw [← entriesDecoded_exact hfit]
      exact hperm.map _

end Ledger

end Pyroscope.Signal.Backlog
