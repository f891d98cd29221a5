import Pyroscope.Upload.Shutdown
import Pyroscope.Encode.RoundTrip

/-!
# The last snapshot (pyroscope.rs)

The threads of `PyroscopeAgent` with what `Self::snapshot` does between two waits. The
profiler is a `Source`: its own threads record into a buffer, `Reporter::report` takes
the buffer. What the memory and Stack profilers add to a batch is left open.
-/

namespace Pyroscope.Upload.Flush
open Pyroscope.Lib Pyroscope.Backend Pyroscope.Encode

/-- The data of a `process_cpu` batch; `none` stands for no bytes, and the bytes of a
profile are never none. -/
inductive Payload where
  | reports (reports : List Report)
  | pprof (profile : Option Profile)

namespace Payload

def data (crates : Crates) : Payload → ReportData
  | .reports rs => .reports rs
  | .pprof none => .rawPprof []
  | .pprof (some profile) => .rawPprof (crates.encodeProfile profile)

def isEmpty : Payload → Bool
  | .reports rs => rs.all fun report => report.data.toList.isEmpty
  | .pprof profile => profile.isNone

/-- The stacks of the buffer with their counts, and nothing else. -/
def Shows (sampleRate : UInt32) (b : StackBuffer) : Payload → Prop
  | .reports rs =>
    ∀ ordData : IterOrder (StackTrace × ℕ), (reportEntries ordData rs).Perm b.data.toList
  | .pprof none => b.data.toList = []
  | .pprof (some profile) => ∃ decoded, profile.decoded = some decoded ∧
      decoded.Perm (b.data.toList.map (exactEntry (1000000000 / (sampleRate.toNat : ℤ))))

theorem Shows.nil_of_isEmpty {sampleRate : UInt32} {b : StackBuffer} {payload : Payload}
    (h : payload.Shows sampleRate b) (he : payload.isEmpty = true) : b.data.toList = [] := by
  cases payload with
  | reports rs =>
    have hnil : reportEntries (IterOrder.stored _) rs = [] := by
      refine List.flatMap_eq_nil_iff.mpr fun r hr => ?_
      exact List.isEmpty_iff.mp (List.all_eq_true.mp he r hr)
    have hperm := h (IterOrder.stored _)
    rw [hnil] at hperm
    exact hperm.nil_eq.symm
  | pprof profile =>
    cases profile with
    | none => exact h
    | some profile => cases he

end Payload

/-- What is sent for the stacks of a report, after what the other profilers gave. -/
def batch (crates : Crates) (others : List ReportBatch) (payload : Payload) : List ReportBatch :=
  others ++ if payload.isEmpty then [] else [⟨"process_cpu", payload.data crates⟩]

/-- The session hands over the stacks of the buffer. -/
def Hands (crates : Crates) (session : Session) (b : StackBuffer) : Prop :=
  ∃ others payload, session.batch = batch crates others payload ∧
    payload.Shows session.config.sampleRate b

/-! ### The profiler -/

/-- A profiler backend: its threads, given `running`, and the four parts of
`Reporter::report`. `capture` is what the profiler has recorded so far. -/
structure Source (σ κ : Type) where
  initial : σ → Prop
  runs : Bool → σ → σ → Prop
  lock : σ → σ → Prop
  take : σ → σ → Prop
  swap : σ → σ → Prop
  finish : σ → StackBuffer → σ → Prop
  payload : TimeRange → StackBuffer → Except Panic Payload → Prop
  capture : σ → κ
  ended : σ → Prop

inductive Source.Moves {σ κ : Type} (S : Source σ κ) : σ → σ → Prop where
  | runs {a a' : σ} (r : Bool) (h : S.runs r a a') : Moves S a a'
  | lock {a a' : σ} (h : S.lock a a') : Moves S a a'
  | take {a a' : σ} (h : S.take a a') : Moves S a a'
  | swap {a a' : σ} (h : S.swap a a') : Moves S a a'
  | finish {a a' : σ} (b : StackBuffer) (h : S.finish a b a') : Moves S a a'

/-! ### The threads -/

inductive Stage where
  | idle
  | lapping
  | dumping (timeRange : TimeRange)
  | reporting (timeRange : TimeRange) (others : List ReportBatch) (taken : Bool)
  | reported (timeRange : TimeRange) (others : List ReportBatch) (report : StackBuffer)
  | sending (report : StackBuffer)

/-- `watch` is the start of the stop watch, relative to the epoch; `captured` is what the
profiler had recorded when `stop` was called, `handed` are the buffers behind the sent
sessions. -/
structure State (σ κ : Type) where
  agent : Shutdown.State
  stage : Stage
  watch : ℤ
  running : Bool
  source : σ
  captured : Option κ
  handed : List StackBuffer

section Steps
variable {σ κ : Type} (S : Source σ κ) (crates : Crates) (config : PyroscopeConfig)

def Initial (s : State σ κ) : Prop :=
  ∃ watch source, S.initial source ∧
    s = ⟨Shutdown.State.initial, .idle, watch, true, source, none, []⟩

inductive Step : State σ κ → State σ κ → Prop where
  | runs {s source} (h : S.runs s.running s.source source) : Step s { s with source := source }
  /-- a timeout, or the terminate channel is disconnected -/
  | wakes {s final} (h : s.agent.snapshot = .waiting) (hf : s.agent.terminated = final) :
    Step s { s with agent := { s.agent with snapshot := .snapping final }, stage := .lapping }
  | lap {s} (now : ℤ) (h : s.stage = .lapping) (epoch : 0 ≤ s.watch) :
    Step s { s with
      stage := .dumping ⟨s.watch.toNat, (now - s.watch).toNat⟩
      watch := now }
  /-- `from.duration_since(UNIX_EPOCH)?` -/
  | lapFails {s final} (h : s.stage = .lapping) (epoch : s.watch < 0)
      (hf : s.agent.snapshot = .snapping final) :
    Step s { s with agent := { s.agent with snapshot := .exited }, stage := .idle }
  | dump {s timeRange} (others : List ReportBatch) (h : s.stage = .dumping timeRange) :
    Step s { s with stage := .reporting timeRange others false }
  | lock {s timeRange others source} (h : s.stage = .reporting timeRange others false)
      (hs : S.lock s.source source) : Step s { s with source := source }
  | take {s timeRange others source} (h : s.stage = .reporting timeRange others false)
      (hs : S.take s.source source) :
    Step s { s with source := source, stage := .reporting timeRange others true }
  | swap {s timeRange others source} (h : s.stage = .reporting timeRange others true)
      (hs : S.swap s.source source) : Step s { s with source := source }
  | finish {s timeRange others source b} (h : s.stage = .reporting timeRange others true)
      (hs : S.finish s.source b source) :
    Step s { s with source := source, stage := .reported timeRange others b }
  /-- the encoder panics, and the snapshot thread with it -/
  | panics {s timeRange others b p final} (h : s.stage = .reported timeRange others b)
      (hp : S.payload timeRange b (.error p)) (hf : s.agent.snapshot = .snapping final) :
    Step s { s with agent := { s.agent with snapshot := .exited }, stage := .idle }
  | empty {s timeRange others b payload final} (h : s.stage = .reported timeRange others b)
      (hp : S.payload timeRange b (.ok payload)) (hf : s.agent.snapshot = .snapping final)
      (hb : batch crates others payload = []) :
    Step s { s with agent := { s.agent with snapshot := .after final }, stage := .idle }
  | session {s timeRange others b payload final} (h : s.stage = .reported timeRange others b)
      (hp : S.payload timeRange b (.ok payload)) (hf : s.agent.snapshot = .snapping final)
      (hb : batch crates others payload ≠ []) :
    Step s { s with
      agent := { s.agent with
        snapshot := .sending final ⟨config, batch crates others payload, timeRange⟩ }
      stage := .sending b }
  | send {s final session b c} (h : s.stage = .sending b)
      (hf : s.agent.snapshot = .sending final session) (alive : s.agent.manager ≠ .exited)
      (hc : s.agent.channel.send (.session session) = some c) :
    Step s { s with
      agent := { s.agent with
        snapshot := .after final, channel := c, sent := s.agent.sent ++ [session] }
      stage := .idle
      handed := s.handed ++ [b] }
  | sendFails {s final session} (hf : s.agent.snapshot = .sending final session)
      (gone : s.agent.manager = .exited) :
    Step s { s with agent := { s.agent with snapshot := .exited }, stage := .idle }
  | manager {s agent} (h : Shutdown.Step .manager s.agent agent) : Step s { s with agent := agent }
  | stop {s} (h : s.agent.stopper = .running) :
    Step s { s with
      agent := { s.agent with stopper := .joining, terminated := true }
      captured := some (S.capture s.source) }
  | joinSnapshot {s} (h : s.agent.stopper = .joining) (exited : s.agent.snapshot = .exited) :
    Step s { s with agent := { s.agent with stopper := .joined } }
  /-- `shutdown_thread` -/
  | clearRunning {s} (h : s.agent.stopper = .joined) : Step s { s with running := false }
  | joinSampler {s} (h : s.agent.stopper = .joined) (stopped : s.running = false)
      (ended : S.ended s.source) : Step s { s with agent := { s.agent with stopper := .killing } }
  | kill {s agent} (h : s.agent.stopper = .killing) (hs : Shutdown.Step .stopper s.agent agent) :
    Step s { s with agent := agent }
  | joinManager {s agent} (h : s.agent.stopper = .joiningManager)
      (hs : Shutdown.Step .stopper s.agent agent) : Step s { s with agent := agent }

/- The threads of the agent, seen without what a snapshot does, are those of `Shutdown`. -/
theorem step_agent {s s' : State σ κ} (h : Step S crates config s s') :
    s'.agent = s.agent ∨ Shutdown.Run s.agent s'.agent := by
  cases h with
  | wakes h hf =>
    refine Or.inr ⟨.snapshot, ?_⟩
    subst hf
    cases ht : s.agent.terminated with
    | false => exact .timeout h ht
    | true => exact .disconnected h ht
  | lapFails _ _ hf => exact Or.inr ⟨.snapshot, .snapshotFails hf⟩
  | panics _ _ hf => exact Or.inr ⟨.snapshot, .snapshotFails hf⟩
  | empty _ _ hf _ => exact Or.inr ⟨.snapshot, .emptyBatch hf⟩
  | session _ _ hf _ => exact Or.inr ⟨.snapshot, .batch hf _⟩
  | send _ hf alive hc => exact Or.inr ⟨.snapshot, .send hf alive hc⟩
  | sendFails hf gone => exact Or.inr ⟨.snapshot, .sendFails hf gone⟩
  | manager h => exact Or.inr ⟨.manager, h⟩
  | stop h => exact Or.inr ⟨.stopper, .stop h⟩
  | joinSnapshot h exited => exact Or.inr ⟨.stopper, .joinSnapshot h exited⟩
  | joinSampler h _ _ => exact Or.inr ⟨.stopper, .shutdownBackend h⟩
  | kill _ hs => exact Or.inr ⟨.stopper, hs⟩
  | joinManager _ hs => exact Or.inr ⟨.stopper, hs⟩
  | _ => exact Or.inl rfl

theorem agent_reachable {s : State σ κ} (h : Reachable (Initial S) (Step S crates config) s) :
    Reachable (· = Shutdown.State.initial) Shutdown.Run s.agent := by
  refine h.simulation State.agent (fun s hs => ?_) fun s s' _ hs => step_agent S crates config hs
  obtain ⟨watch, source, -, rfl⟩ := hs
  rfl

end Steps

/-! ### What the counts of a profiler have to satisfy -/

/-- `entered` counts all that was ever recorded, `pending` what a report starting now
would find, `taken` what the report under way has and `left` what it will still look at.
`need` is what has to be handed over on account of a capture, once the capture is
`Whole`: all of it has been recorded. -/
structure Ledger {σ κ : Type} (S : Source σ κ) (sampleRate : UInt32) where
  Inv : σ → Prop
  entered : σ → StackTrace → ℕ
  pending : σ → StackTrace → ℕ
  taken : σ → StackTrace → ℕ
  left : σ → StackTrace → ℕ
  Kept : κ → σ → Prop
  Whole : κ → σ → Prop
  need : κ → σ → StackTrace → ℕ
  Fits : StackBuffer → Prop
  inv_initial : ∀ {a}, S.initial a → Inv a
  inv_moves : ∀ {a a'}, Inv a → S.Moves a a' → Inv a'
  entered_initial : ∀ {a}, S.initial a → ∀ t, entered a t ≤ pending a t
  taken_initial : ∀ {a}, S.initial a → ∀ t, taken a t = 0
  runs_balance : ∀ {r a a'}, Inv a → S.runs r a a' → ∀ t,
    entered a' t + pending a t = entered a t + pending a' t
  runs_taken : ∀ {r a a'}, S.runs r a a' → ∀ t, taken a' t = taken a t
  runs_left : ∀ {r a a'}, S.runs r a a' → ∀ t, left a t ≤ left a' t
  lock_same : ∀ {a a'}, S.lock a a' → ∀ t,
    entered a' t = entered a t ∧ pending a' t = pending a t ∧ taken a' t = taken a t
  take_balance : ∀ {a a'}, S.take a a' → ∀ t, taken a t = 0 →
    entered a' t = entered a t ∧ taken a' t + pending a' t = pending a t
  take_finds : ∀ {a a'}, S.take a a' → ∀ t, pending a t ≤ taken a' t + left a' t
  swap_balance : ∀ {a a'}, S.swap a a' → ∀ t,
    entered a' t = entered a t ∧ taken a' t + pending a' t = taken a t + pending a t
  swap_finds : ∀ {a a'}, Inv a → S.swap a a' → ∀ t, taken a t + left a t ≤ taken a' t + left a' t
  finish_balance : ∀ {a b a'}, S.finish a b a' → ∀ t,
    entered a' t = entered a t ∧ b.count t + pending a' t = taken a t + pending a t ∧ taken a' t = 0
  finish_finds : ∀ {a b a'}, S.finish a b a' → ∀ t, taken a t + left a t ≤ b.count t
  kept_capture : ∀ {a}, Inv a → Kept (S.capture a) a
  kept_moves : ∀ {c a a'}, Inv a → S.Moves a a' → Kept c a → Kept c a'
  whole_moves : ∀ {c a a'}, Inv a → S.Moves a a' → Whole c a → Whole c a'
  need_moves : ∀ {c a a'}, Inv a → S.Moves a a' → Whole c a → ∀ t, need c a' t = need c a t
  need_le : ∀ {c a}, Kept c a → Whole c a → ∀ t, need c a t ≤ entered a t
  shows : ∀ {timeRange b r}, Fits b → S.payload timeRange b r →
    ∃ payload, r = .ok payload ∧ payload.Shows sampleRate b

namespace Stage

def carried : Stage → StackBuffer
  | .reported _ _ report => report
  | .sending report => report
  | _ => .default

def taken : Stage → Bool
  | .reporting _ _ taken => taken
  | _ => false

/-- The report of this snapshot has taken the buffer. -/
def past : Stage → Bool
  | .reporting _ _ taken => taken
  | .reported _ _ _ => true
  | .sending _ => true
  | _ => false

end Stage

/-- The stage that the snapshot thread can be in. -/
def Linked (crates : Crates) : Shutdown.Snapshot → Stage → Prop
  | .waiting, .idle => True
  | .exited, .idle => True
  | .snapping _, .lapping => True
  | .snapping _, .dumping _ => True
  | .snapping _, .reporting _ _ _ => True
  | .snapping _, .reported _ _ _ => True
  | .sending _ session, .sending b => Hands crates session b
  | _, _ => False

/-- The snapshot of a thread that has seen the terminate channel disconnected. -/
def isFinal : Shutdown.Snapshot → Bool
  | .snapping final => final
  | .sending final _ => final
  | .exited => true
  | .waiting => false

section
variable {σ κ : Type}

/-- The stacks handed over, with those on their way. -/
def State.out (s : State σ κ) (t : StackTrace) : ℕ :=
  (s.handed.map (·.count t)).sum + s.stage.carried.count t

/-- The step takes the buffer. -/
def Takes (s s' : State σ κ) : Prop := s.stage.taken = false ∧ s'.stage.taken = true

variable {S : Source σ κ} {crates : Crates} {config : PyroscopeConfig}
  (L : Ledger S config.sampleRate)

/-- What the report under way has taken or will find. -/
def State.due (s : State σ κ) (t : StackTrace) : ℕ :=
  if s.stage.taken then L.taken s.source t + L.left s.source t else 0

/-- The conditions on a step: the stop watch was not started before the epoch, the
encoder can show the report, and the last report takes the buffer only when what was
captured has reached it. -/
structure Meets (s s' : State σ κ) : Prop where
  clock : s.stage = .lapping → 0 ≤ s.watch
  fits : ∀ timeRange others b, s.stage = .reported timeRange others b → L.Fits b
  drained : Takes s s' → isFinal s.agent.snapshot = true →
    ∀ c, s.captured = some c → L.Whole c s.source

variable (crates) in
structure Inv (s : State σ κ) : Prop where
  source : L.Inv s.source
  linked : Linked crates s.agent.snapshot s.stage
  balance : ∀ t, L.entered s.source t ≤ s.out t + L.taken s.source t + L.pending s.source t
  untaken : s.stage.taken = false → ∀ t, L.taken s.source t = 0
  captured : s.agent.terminated = s.captured.isSome
  final : isFinal s.agent.snapshot = true → s.agent.terminated = true
  kept : ∀ c, s.captured = some c → L.Kept c s.source
  hands : List.Forall₂ (Hands crates) s.agent.sent s.handed
  whole : isFinal s.agent.snapshot = true → s.stage.past = true ∨ s.agent.snapshot = .exited →
    ∀ c, s.captured = some c →
      L.Whole c s.source ∧ ∀ t, L.need c s.source t ≤ s.out t + s.due L t

theorem initial_inv {s : State σ κ} (h : Initial S s) : Inv crates L s := by
  obtain ⟨watch, source, hsource, rfl⟩ := h
  refine ⟨L.inv_initial hsource, trivial, fun t => ?_, fun _ => L.taken_initial hsource, rfl, nofun,
    nofun, .nil, nofun⟩
  have hentered := L.entered_initial hsource t
  simp only [State.out, Stage.carried, StackBuffer.count_default, List.map_nil, List.sum_nil]
  omega

omit L in
theorem carried_of_empty {others : List ReportBatch} {payload : Payload} {b : StackBuffer}
    (hshows : payload.Shows config.sampleRate b) (hb : batch crates others payload = [])
    (t : StackTrace) : b.count t = 0 := by
  have he : payload.isEmpty = true := by
    by_contra hne
    rw [batch, if_neg hne] at hb
    exact List.cons_ne_nil _ _ (List.append_eq_nil_iff.mp hb).2
  exact HashMap.count_of_toList_nil (hshows.nil_of_isEmpty he) t

omit L in
theorem not_exited {s : State σ κ} (h : Linked crates s.agent.snapshot s.stage)
    (hs : s.stage ≠ .idle) : s.agent.snapshot ≠ .exited := by
  intro he
  rw [he] at h
  cases hst : s.stage with
  | idle => exact hs hst
  | _ =>
    rw [hst] at h
    exact h

namespace Inv
variable {L} {s : State σ κ}

/- Only the snapshot thread, what it sent and the terminate channel matter here. -/
theorem agent (h : Inv crates L s) {agent : Shutdown.State}
    (hsnapshot : agent.snapshot = s.agent.snapshot) (hterminated : agent.terminated = s.agent.terminated)
    (hsent : agent.sent = s.agent.sent) : Inv crates L { s with agent := agent } := by
  refine ⟨h.source, ?_, h.balance, h.untaken, ?_, ?_, h.kept, ?_, ?_⟩
  · rw [hsnapshot]
    exact h.linked
  · rw [hterminated]
    exact h.captured
  · rw [hsnapshot, hterminated]
    exact h.final
  · rw [hsent]
    exact h.hands
  · rw [hsnapshot]
    exact h.whole

end Inv

omit L in
theorem manager_quiet {a a' : Shutdown.State} (h : Shutdown.Step .manager a a') :
    a'.snapshot = a.snapshot ∧ a'.terminated = a.terminated ∧ a'.sent = a.sent := by
  cases h <;> exact ⟨rfl, rfl, rfl⟩

omit L in
theorem stopper_quiet {a a' : Shutdown.State} (h : Shutdown.Step .stopper a a')
    (hs : a.stopper ≠ .running) :
    a'.snapshot = a.snapshot ∧ a'.terminated = a.terminated ∧ a'.sent = a.sent := by
  cases h with
  | stop h => exact (hs h).elim
  | _ => exact ⟨rfl, rfl, rfl⟩

/- A step of the profiler that the report under way does not lose sight of. -/
theorem moves_inv {s : State σ κ} {source : σ} (h : Inv crates L s)
    (hs : S.Moves s.source source)
    (hbalance : ∀ t, L.entered source t + (L.taken s.source t + L.pending s.source t) ≤
      L.entered s.source t + (L.taken source t + L.pending source t))
    (huntaken : s.stage.taken = false → ∀ t, L.taken source t = L.taken s.source t)
    (hfinds : s.stage.taken = true → ∀ t, L.taken s.source t + L.left s.source t ≤
      L.taken source t + L.left source t) :
    Inv crates L { s with source := source } := by
  refine ⟨L.inv_moves h.source hs, h.linked, fun t => ?_, fun hst t => ?_, h.captured, h.final,
    fun c hc => L.kept_moves h.source hs (h.kept c hc), h.hands, fun hfinal hpast c hc => ?_⟩
  · have hold := h.balance t
    have hnew := hbalance t
    simp only [State.out] at hold ⊢
    omega
  · rw [huntaken hst t]
    exact h.untaken hst t
  · obtain ⟨hwhole, hneed⟩ := h.whole hfinal hpast c hc
    refine ⟨L.whole_moves h.source hs hwhole, fun t => ?_⟩
    rw [L.need_moves h.source hs hwhole]
    have hold := hneed t
    simp only [State.out, State.due] at hold ⊢
    cases hst : s.stage.taken with
    | false => simpa only [hst, Bool.false_eq_true, if_false] using hold
    | true =>
      have hmore := hfinds hst t
      simp only [hst, if_true] at hold ⊢
      omega

omit L in
theorem idle_of_waiting {s : State σ κ} (h : Linked crates s.agent.snapshot s.stage)
    (hw : s.agent.snapshot = .waiting) : s.stage = .idle := by
  rw [hw] at h
  cases hst : s.stage with
  | idle => rfl
  | _ =>
    rw [hst] at h
    exact h.elim

omit L in
/-- The stages of one snapshot before it is handed over. -/
def Stage.snapping : Stage → Bool
  | .idle => false
  | .sending _ => false
  | _ => true

/- Any stage of the snapshot may follow any other. -/
theorem Linked.next {phase : Shutdown.Snapshot} {stage stage' : Stage} (h : Linked crates phase stage)
    (hstage : stage.snapping = true) (hstage' : stage'.snapping = true) : Linked crates phase stage' := by
  cases stage with
  | idle => cases hstage
  | sending b => cases hstage
  | _ =>
    cases phase with
    | snapping final =>
      cases stage' with
      | idle => cases hstage'
      | sending b => cases hstage'
      | _ => trivial
    | _ => exact h.elim

theorem linked_after (final : Bool) : Linked crates (Shutdown.Snapshot.after final) .idle := by
  cases final <;> exact trivial

omit L in
theorem isFinal_after {final : Bool} (h : isFinal (Shutdown.Snapshot.after final) = true) :
    final = true := by
  cases final with
  | false => cases h
  | true => rfl

/- A new snapshot, or the next part of one that has not taken the buffer yet. -/
theorem early_inv {s : State σ κ} (h : Inv crates L s) {agent : Shutdown.State}
    {stage : Stage} {watch : ℤ} (hold : s.stage.past = false) (hnew : stage.past = false)
    (hlinked : Linked crates agent.snapshot stage) (hexited : agent.snapshot ≠ .exited)
    (hfinal : isFinal agent.snapshot = true → agent.terminated = true)
    (hterminated : agent.terminated = s.agent.terminated) (hsent : agent.sent = s.agent.sent) :
    Inv crates L { s with agent := agent, stage := stage, watch := watch } := by
  have hcarried : ∀ {stage : Stage}, stage.past = false → stage.carried = .default := by
    intro stage hs
    cases stage <;> first | rfl | cases hs
  have htaken : ∀ {stage : Stage}, stage.past = false → stage.taken = false := by
    intro stage hs
    cases stage <;> first | rfl | exact hs
  refine ⟨h.source, hlinked, fun t => ?_, fun _ => h.untaken (htaken hold), ?_, hfinal, h.kept, ?_, ?_⟩
  · have hb := h.balance t
    simp only [State.out, hcarried hold, hcarried hnew] at hb ⊢
    exact hb
  · rw [hterminated]
    exact h.captured
  · rw [hsent]
    exact h.hands
  · rintro - (hp | hp)
    · rw [hnew] at hp
      cases hp
    · exact (hexited hp).elim

/- The report takes the buffer, and the last one finds all that was captured in it. -/
theorem take_inv {s : State σ κ} {timeRange : TimeRange} {others : List ReportBatch} {source : σ}
    (h : Inv crates L s) (hst : s.stage = .reporting timeRange others false) (ht : S.take s.source source)
    (hdrained : isFinal s.agent.snapshot = true → ∀ c, s.captured = some c → L.Whole c s.source) :
    Inv crates L { s with source := source, stage := .reporting timeRange others true } := by
  have hmoves : S.Moves s.source source := .take ht
  have hzero := h.untaken (by rw [hst]; rfl)
  refine ⟨L.inv_moves h.source hmoves, h.linked.next (by rw [hst]; rfl) rfl, fun t => ?_, nofun, h.captured, h.final,
    fun c hc => L.kept_moves h.source hmoves (h.kept c hc), h.hands, fun hfinal _ c hc => ?_⟩
  · have hb := h.balance t
    have ht0 := hzero t
    have htake := L.take_balance ht t ht0
    simp only [State.out, hst, Stage.carried] at hb ⊢
    omega
  · have hwhole := hdrained hfinal c hc
    refine ⟨L.whole_moves h.source hmoves hwhole, fun t => ?_⟩
    have hb := h.balance t
    have hle := L.need_le (h.kept c hc) hwhole t
    have hfinds := L.take_finds ht t
    have ht0 := hzero t
    rw [L.need_moves h.source hmoves hwhole]
    simp only [State.out, State.due, hst, Stage.carried, Stage.taken, if_true] at hb ⊢
    omega

theorem finish_inv {s : State σ κ} {timeRange : TimeRange} {others : List ReportBatch} {source : σ} {b : StackBuffer}
    (h : Inv crates L s) (hst : s.stage = .reporting timeRange others true) (hf : S.finish s.source b source) :
    Inv crates L { s with source := source, stage := .reported timeRange others b } := by
  have hmoves : S.Moves s.source source := .finish b hf
  refine ⟨L.inv_moves h.source hmoves, h.linked.next (by rw [hst]; rfl) rfl, fun t => ?_, fun _ t => (L.finish_balance hf t).2.2,
    h.captured, h.final, fun c hc => L.kept_moves h.source hmoves (h.kept c hc), h.hands,
    fun hfinal _ c hc => ?_⟩
  · have hb := h.balance t
    obtain ⟨hentered, hbalance, htaken⟩ := L.finish_balance hf t
    simp only [State.out, hst, Stage.carried, StackBuffer.count_default] at hb ⊢
    omega
  · obtain ⟨hwhole, hneed⟩ := h.whole hfinal (Or.inl (by rw [hst]; rfl)) c hc
    refine ⟨L.whole_moves h.source hmoves hwhole, fun t => ?_⟩
    have hold := hneed t
    have hfinds := L.finish_finds hf t
    rw [L.need_moves h.source hmoves hwhole]
    simp only [State.out, State.due, hst, Stage.carried, Stage.taken, StackBuffer.count_default,
      if_true, Bool.false_eq_true, if_false] at hold ⊢
    omega

/- A report on its way to the SessionManager, or sent: the stacks that are out stay the same. -/
theorem late_inv {s : State σ κ} (h : Inv crates L s) {agent : Shutdown.State} {stage : Stage}
    {handed : List StackBuffer} (hpast : s.stage.past = true) (hold : s.stage.taken = false)
    (hnew : stage.taken = false) (hlinked : Linked crates agent.snapshot stage)
    (hout : ∀ t, (handed.map (·.count t)).sum + stage.carried.count t = s.out t)
    (hfinal : isFinal agent.snapshot = true → isFinal s.agent.snapshot = true)
    (hterminated : agent.terminated = s.agent.terminated)
    (hhands : List.Forall₂ (Hands crates) agent.sent handed) :
    Inv crates L { s with agent := agent, stage := stage, handed := handed } := by
  refine ⟨h.source, hlinked, fun t => ?_, fun _ => h.untaken hold, ?_, fun hf => ?_, h.kept, hhands,
    fun hf _ c hc => ?_⟩
  · have hb := h.balance t
    rw [← hout t] at hb
    exact hb
  · rw [hterminated]
    exact h.captured
  · rw [hterminated]
    exact h.final (hfinal hf)
  · obtain ⟨hwhole, hneed⟩ := h.whole (hfinal hf) (Or.inl hpast) c hc
    refine ⟨hwhole, fun t => ?_⟩
    have hn := hneed t
    rw [← hout t] at hn
    simp only [State.out, State.due, hold, hnew, Bool.false_eq_true, if_false] at hn ⊢
    exact hn

theorem step_inv {s s' : State σ κ} (hagent : Shutdown.Inv s.agent)
    (h : Inv crates L s) (hm : Meets L s s') (hs : Step S crates config s s') :
    Inv crates L s' := by
  cases hs with
  | runs hr =>
    refine moves_inv L h (.runs _ hr) (fun t => ?_) (fun _ => L.runs_taken hr) fun _ t => ?_
    · have hbalance := L.runs_balance h.source hr t
      have htaken := L.runs_taken hr t
      omega
    · have hleft := L.runs_left hr t
      have htaken := L.runs_taken hr t
      omega
  | wakes hw hf =>
    subst hf
    refine early_inv L h ?_ rfl trivial nofun id rfl rfl
    rw [idle_of_waiting h.linked hw]
    rfl
  | lap now hst epoch =>
    have hne := not_exited h.linked (by rw [hst]; exact nofun)
    exact early_inv L h (by rw [hst]; rfl) rfl (h.linked.next (by rw [hst]; rfl) rfl) hne h.final rfl rfl
  | lapFails hst epoch hf => exact absurd (hm.clock hst) (Int.not_le.mpr epoch)
  | dump others hst =>
    have hne := not_exited h.linked (by rw [hst]; exact nofun)
    exact early_inv L h (by rw [hst]; rfl) rfl (h.linked.next (by rw [hst]; rfl) rfl) hne h.final rfl rfl
  | lock hst hl =>
    refine moves_inv L h (.lock hl) (fun t => ?_) (fun _ t => (L.lock_same hl t).2.2) fun ht => ?_
    · obtain ⟨hentered, hpending, htaken⟩ := L.lock_same hl t
      omega
    · rw [hst] at ht
      cases ht
  | take hst ht => exact take_inv L h hst ht (hm.drained ⟨by rw [hst]; rfl, rfl⟩)
  | swap hst hw =>
    refine moves_inv L h (.swap hw) (fun t => ?_) (fun ht => ?_) fun _ => L.swap_finds h.source hw
    · have hbalance := L.swap_balance hw t
      omega
    · rw [hst] at ht
      cases ht
  | finish hst hf => exact finish_inv L h hst hf
  | panics hst hp hf =>
    obtain ⟨payload, hok, -⟩ := L.shows (hm.fits _ _ _ hst) hp
    cases hok
  | empty hst hp hf hb =>
    obtain ⟨payload', hok, hshows⟩ := L.shows (hm.fits _ _ _ hst) hp
    cases hok
    refine late_inv L h (by rw [hst]; rfl) (by rw [hst]; rfl) rfl (linked_after _) (fun t => ?_) (fun hfinal => ?_)
      rfl h.hands
    · have hzero := carried_of_empty hshows hb t
      simp only [State.out, hst, Stage.carried, StackBuffer.count_default]
      omega
    · rw [hf]
      exact isFinal_after hfinal
  | session hst hp hf hb =>
    obtain ⟨payload', hok, hshows⟩ := L.shows (hm.fits _ _ _ hst) hp
    cases hok
    refine late_inv L h (by rw [hst]; rfl) (by rw [hst]; rfl) rfl ⟨_, _, rfl, hshows⟩ (fun t => ?_)
      (fun hfinal => ?_) rfl h.hands
    · rw [State.out, hst]
      rfl
    · rw [hf]
      exact hfinal
  | send hst hf alive hc =>
    have hhands := h.linked
    rw [hst, hf] at hhands
    refine late_inv L h (by rw [hst]; rfl) (by rw [hst]; rfl) rfl (linked_after _) (fun t => ?_) (fun hfinal => ?_)
      rfl (List.rel_append h.hands (.cons hhands .nil))
    · rw [State.out, hst]
      simp only [Stage.carried, List.map_append, List.map_cons, List.map_nil, List.sum_append, List.sum_cons,
        List.sum_nil, StackBuffer.count_default]
      omega
    · rw [hf]
      exact isFinal_after hfinal
  | sendFails hf gone =>
    have hkills := hagent.kills_of_exited gone
    have hjoined : s.agent.stopper.hasJoined = true := by
      by_contra hj
      rw [Bool.not_eq_true] at hj
      rw [Shutdown.Stopper.kills_of_not_joined hj] at hkills
      cases hkills
    cases hf.symm.trans (hagent.joined hjoined)
  | manager hman =>
    obtain ⟨hsnapshot, hterminated, hsent⟩ := manager_quiet hman
    exact h.agent hsnapshot hterminated hsent
  | stop hst =>
    have hopen : s.agent.terminated = false := by
      rw [← Bool.not_eq_true]
      exact fun ht => hagent.terminated.mp ht hst
    refine ⟨h.source, h.linked, h.balance, h.untaken, rfl, fun _ => rfl, fun c hc => ?_, h.hands,
      fun hfinal _ => ?_⟩
    · cases hc
      exact L.kept_capture h.source
    · cases hopen.symm.trans (h.final hfinal)
  | joinSnapshot hst exited => exact h.agent rfl rfl rfl
  | clearRunning hst =>
    exact ⟨h.source, h.linked, h.balance, h.untaken, h.captured, h.final, h.kept, h.hands, h.whole⟩
  | joinSampler hst stopped ended => exact h.agent rfl rfl rfl
  | kill hst hk =>
    obtain ⟨hsnapshot, hterminated, hsent⟩ := stopper_quiet hk (by rw [hst]; exact nofun)
    exact h.agent hsnapshot hterminated hsent
  | joinManager hst hk =>
    obtain ⟨hsnapshot, hterminated, hsent⟩ := stopper_quiet hk (by rw [hst]; exact nofun)
    exact h.agent hsnapshot hterminated hsent

variable (crates) in
def SoundStep (s s' : State σ κ) : Prop := Step S crates config s s' ∧ Meets L s s'

theorem reachable_inv {s : State σ κ}
    (h : Reachable (Initial S) (SoundStep crates L) s) : Inv crates L s := by
  have hagent : ∀ s, Reachable (Initial S) (SoundStep crates L) s → Shutdown.Inv s.agent := by
    intro s hs
    have hplain : Reachable (Initial S) (Step S crates config) s := hs.mono fun _ _ hs => hs.1
    exact Shutdown.reachable_inv (agent_reachable S crates config hplain)
  exact h.invariant_with hagent (fun s hs => initial_inv L hs)
    fun s s' ha hinv hs => step_inv L ha hinv hs.2 hs.1

/- When `stop` has returned, what had been captured is in the sessions that were sent. -/
theorem handed_of_done {s : State σ κ}
    (h : Reachable (Initial S) (SoundStep crates L) s)
    (hdone : s.agent.stopper = .done) :
    ∃ c, s.captured = some c ∧ L.Whole c s.source ∧
      List.Forall₂ (Hands crates) s.agent.sent s.handed ∧
      ∀ t, L.need c s.source t ≤ (s.handed.map (·.count t)).sum := by
  have hinv := reachable_inv L h
  have hplain : Reachable (Initial S) (Step S crates config) s := h.mono fun _ _ hs => hs.1
  have hagent := Shutdown.reachable_inv (agent_reachable S crates config hplain)
  have hexited : s.agent.snapshot = .exited := hagent.joined (by rw [hdone]; rfl)
  have hterminated : s.agent.terminated = true := hinv.final (by rw [hexited]; rfl)
  obtain ⟨c, hc⟩ : ∃ c, s.captured = some c :=
    Option.isSome_iff_exists.mp (hinv.captured.symm.trans hterminated)
  obtain ⟨hwhole, hneed⟩ := hinv.whole (by rw [hexited]; rfl) (Or.inr hexited) c hc
  refine ⟨c, hc, hwhole, hinv.hands, fun t => ?_⟩
  have hidle : s.stage = .idle := by
    by_contra hne
    exact not_exited hinv.linked hne hexited
  have hn := hneed t
  simpa only [State.out, State.due, hidle, Stage.carried, Stage.taken, StackBuffer.count_default,
    Bool.false_eq_true, if_false, Nat.add_zero] using hn

end

end Pyroscope.Upload.Flush
