import Pyroscope.Upload.Delivery
import Pyroscope.Agent.Windows

/-!
# The dumps of a snapshot (pyroscope.rs, memory.rs, stack/mod.rs)

The agent together with the memory and Stack profilers, which its last stage left open:
`Self::snapshot` dumps them before it asks the reporter. Beside the batch under way and
beside each sent session stand the dumps in it, with the windows they were made of.
-/

namespace Pyroscope.Upload.Flush
open Pyroscope.Lib Pyroscope.Backend Pyroscope.Encode
open Pyroscope.Agent (Logged LoggedStep WindowLog DumpKind LogsTrack Tracks Push Closing)

/-- `memory::Config`, without what only `start` reads. -/
structure MemConfig where
  enabled : Bool
  heapSampleSize : UInt64

/-- `stack::Config` -/
structure StackConfig where
  enabled : Bool
  oncpu : Bool

/-- `period_ns`; the interval is that of the C++ sampler. -/
def periodNs (intervalUs : UInt64) (sampleRate : UInt32) : Int64 :=
  if intervalUs = 0 then Int64.ofInt (1000000000 / (max sampleRate.toNat 1 : ℤ))
  else Int64.ofInt (min i64Max (min i64Max intervalUs.toNat * 1000))

def profileType : DumpKind → String
  | .memory => "memory"
  | .wall => "process_cpu"
  | .oncpu => "process_cpu"

/-- The strings of the types of a profile. -/
def requests : DumpKind → List String
  | .memory => ProfileKind.requests MemoryProfile
  | .wall => ProfileKind.requests CpuWallProfile
  | .oncpu => ProfileKind.requests CpuProfile

/-- A profile that a dump gave, with the window it was made of. -/
structure Dump where
  kind : DumpKind
  pushes : List Push
  profile : Profile

namespace Dump

def batch (crates : Crates) (d : Dump) : ReportBatch :=
  ⟨profileType d.kind, .rawPprof (crates.encodeProfile d.profile)⟩

def Shows (d : Dump) : Prop :=
  match d.kind with
  | .memory => Agent.Shows MemoryProfile d.pushes d.profile
  | .wall => Agent.Shows CpuWallProfile d.pushes d.profile
  | .oncpu => Agent.Shows CpuProfile d.pushes d.profile

end Dump

/-- The dump, unless there was nothing to dump. -/
def dumpOf (kind : DumpKind) (log : WindowLog) (profile : Option Profile) : List Dump :=
  profile.toList.map fun p => ⟨kind, log.opened, p⟩

/-- How far a snapshot is with its dumps. -/
inductive Dumping where
  | memory
  | stack
  | done

/-- `attached`: Python lets threads attach; `carried` are the dumps in the batch under way,
`handed` those in each sent session; `atStop` is what had been pushed when `stop` was called. -/
structure Joint (σ κ : Type) where
  upload : State σ κ
  logged : Logged
  dumping : Dumping
  attached : Bool
  carried : List Dump
  handed : List (List Dump)
  atStop : DumpKind → List Push

def Stage.isIdle : Stage → Bool
  | .idle => true
  | _ => false

def Stage.isDumping : Stage → Bool
  | .dumping _ => true
  | _ => false

/-- The agent is about to be stored, or it is stored. -/
def isUp : Agent.Control → Bool
  | .build => true
  | .running => true
  | _ => false

/-- The agent goes on: an idle snapshot carries nothing, and a session takes the dumps with it. -/
def Joint.next {σ κ : Type} (j : Joint σ κ) (u : State σ κ) : Joint σ κ :=
  { j with
    upload := u
    carried := if u.stage.isIdle then [] else j.carried
    handed := if u.agent.sent.length = j.upload.agent.sent.length then j.handed
      else j.handed ++ [j.carried]
    atStop := if u.agent.terminated = j.upload.agent.terminated then j.atStop
      else fun k => (j.logged.log k).pushed }

/-- A lock of the dump could not be entered. -/
def refuses {K : Type} [FfiProfileKind K] (i : Agent.Interner) (b : Agent.LockedBuilder K) : Bool :=
  i.poisoned || b.poisoned

section Steps
variable {σ κ : Type} (S : Source σ κ) (crates : Crates) (config : PyroscopeConfig)
  (mem : MemConfig) (stack : StackConfig)

/-- The profilers have been started, and perhaps sampled. -/
def Joint.Initial (j : Joint σ κ) : Prop :=
  ∃ l, Reachable (· = Logged.initial) LoggedStep l ∧ l.process.control = .build ∧
    Flush.Initial S j.upload ∧ j.logged = l.restart ∧ j.dumping = .memory ∧ j.carried = [] ∧
    j.handed = []

/-- The dump under way panics, which poisons its locks. -/
inductive DumpPanics : Dumping → Logged → Logged → Prop where
  | memory {l b i} (ordSamples ordStrings timeRange)
      (entered : refuses l.process.interner l.process.memory = false)
      (hp : l.process.memory.dump mem.heapSampleSize ordSamples ordStrings timeRange
        l.process.interner = (none, b, i)) (poisoned : refuses i b = true) :
    DumpPanics .memory l (l.dumpMemory none b i)
  | wall {l b i} (intervalUs : UInt64) (ordSamples ordStrings timeRange)
      (entered : refuses l.process.interner l.process.wall = false)
      (hp : l.process.wall.dump (periodNs intervalUs config.sampleRate) ordSamples ordStrings timeRange
        l.process.interner = (none, b, i)) (poisoned : refuses i b = true) :
    DumpPanics .stack l (l.dumpWall none b i)
  | oncpu {l b i} (intervalUs : UInt64) (ordSamples ordStrings timeRange)
      (entered : refuses l.process.interner l.process.oncpu = false)
      (hp : l.process.oncpu.dump (periodNs intervalUs config.sampleRate) ordSamples ordStrings timeRange
        l.process.interner = (none, b, i)) (poisoned : refuses i b = true) :
    DumpPanics .stack l (l.dumpOncpu none b i)

inductive JointStep : Joint σ κ → Joint σ κ → Prop where
  /-- the threads of the agent, except for the end of the dumps -/
  | upload {j u} (h : Step S crates config j.upload u)
      (dumping : j.upload.stage.isDumping = true → u.stage.isDumping = true) :
    JointStep j (j.next u)
  /-- the profilers, and the thread in `run` -/
  | process {j l} (h : LoggedStep j.logged l) (up : isUp l.process.control = true)
      (closed : ∀ k, (l.log k).closed = (j.logged.log k).closed) :
    JointStep j { j with logged := l }
  /-- the interpreter is finalizing -/
  | finalize {j} : JointStep j { j with attached := false }
  | memoryOff {j timeRange} (h : j.upload.stage = .dumping timeRange) (hd : j.dumping = .memory)
      (off : mem.enabled = false) : JointStep j { j with dumping := .stack }
  /-- `Python::try_attach` -/
  | notAttached {j timeRange} (h : j.upload.stage = .dumping timeRange) (hd : j.dumping = .memory)
      (on : mem.enabled = true) (detached : j.attached = false) : JointStep j { j with dumping := .stack }
  | dumpMemory {j timeRange p b i} (ordSamples ordStrings) (h : j.upload.stage = .dumping timeRange)
      (hd : j.dumping = .memory) (on : mem.enabled = true)
      (hp : j.logged.process.memory.dump mem.heapSampleSize ordSamples ordStrings timeRange
        j.logged.process.interner = (p, b, i))
      (fine : refuses i b = refuses j.logged.process.interner j.logged.process.memory) :
    JointStep j { j with
      logged := j.logged.dumpMemory p b i
      dumping := .stack
      carried := j.carried ++ dumpOf .memory j.logged.memory p }
  | stackOff {j timeRange} (h : j.upload.stage = .dumping timeRange) (hd : j.dumping = .stack)
      (off : stack.enabled = false) : JointStep j { j with dumping := .done }
  | dumpWall {j timeRange p b i} (intervalUs : UInt64) (ordSamples ordStrings)
      (h : j.upload.stage = .dumping timeRange) (hd : j.dumping = .stack) (on : stack.enabled = true)
      (wall : stack.oncpu = false)
      (hp : j.logged.process.wall.dump (periodNs intervalUs config.sampleRate) ordSamples ordStrings
        timeRange j.logged.process.interner = (p, b, i))
      (fine : refuses i b = refuses j.logged.process.interner j.logged.process.wall) :
    JointStep j { j with
      logged := j.logged.dumpWall p b i
      dumping := .done
      carried := j.carried ++ dumpOf .wall j.logged.wall p }
  | dumpOncpu {j timeRange p b i} (intervalUs : UInt64) (ordSamples ordStrings)
      (h : j.upload.stage = .dumping timeRange) (hd : j.dumping = .stack) (on : stack.enabled = true)
      (oncpu : stack.oncpu = true)
      (hp : j.logged.process.oncpu.dump (periodNs intervalUs config.sampleRate) ordSamples ordStrings
        timeRange j.logged.process.interner = (p, b, i))
      (fine : refuses i b = refuses j.logged.process.interner j.logged.process.oncpu) :
    JointStep j { j with
      logged := j.logged.dumpOncpu p b i
      dumping := .done
      carried := j.carried ++ dumpOf .oncpu j.logged.oncpu p }
  /-- the snapshot thread ends, and its batch with it -/
  | dumpPanics {j timeRange final l} (h : j.upload.stage = .dumping timeRange)
      (hf : j.upload.agent.snapshot = .snapping final)
      (hl : DumpPanics config mem j.dumping j.logged l) :
    JointStep j { j with
      upload := { j.upload with
        agent := { j.upload.agent with snapshot := .exited }
        stage := .idle }
      logged := l
      dumping := .memory
      carried := [] }
  | report {j timeRange} (h : j.upload.stage = .dumping timeRange) (hd : j.dumping = .done) :
    JointStep j { j with
      upload := { j.upload with
        stage := .reporting timeRange (j.carried.map (Dump.batch crates)) false }
      dumping := .memory }

end Steps

/-! ### The window of a dump -/

section
variable {K : Type} [FfiProfileKind K]

theorem take_covers {b b' : PProfBuilder K} {st : StringTable} {p : Profile}
    {ordSamples : IterOrder (List ℕ × Values K)} {ordStrings : IterOrder (String × StringID)}
    {timeRange : TimeRange}
    (h : b.takeProfileAndReset ordSamples ordStrings st timeRange = .ok (some p, b')) :
    p.Covers timeRange := by
  rw [PProfBuilder.takeProfileAndReset] at h
  split at h
  · cases h
  · simp only [bind, Except.bind] at h
    split at h
    · cases h
    · simp only [Except.ok.injEq, Prod.mk.injEq, Option.some.injEq] at h
      rw [← h.1]
      constructor
      · simp only [PProfBuilder.setTimeRange]
      · simp only [PProfBuilder.setTimeRange]

theorem dump_covers {b b' : Agent.LockedBuilder K} {i i' : Agent.Interner} {p : Profile}
    {periodConfig : ProfileKind.PeriodConfig K} {ordSamples : IterOrder (List ℕ × Values K)}
    {ordStrings : IterOrder (String × StringID)} {timeRange : TimeRange}
    (h : b.dump periodConfig ordSamples ordStrings timeRange i = (some p, b', i')) :
    p.Covers timeRange := by
  rw [Agent.LockedBuilder.dump] at h
  generalize b.setProfileType i periodConfig = r at h
  obtain ⟨b₁, i₁⟩ := r
  dsimp only at h
  rw [Agent.LockedBuilder.takeProfile] at h
  split at h
  · cases h
  · split at h
    · rename_i htake
      cases h
      exact take_covers htake
    · cases h

end

/-! ### A dump that does not panic -/

section
variable {K : Type} [FfiProfileKind K]

theorem dump_open {b b' : Agent.LockedBuilder K} {i i' : Agent.Interner} {log : WindowLog}
    {strings : List String} {p : Option Profile} {periodConfig : ProfileKind.PeriodConfig K}
    {ordSamples : IterOrder (List ℕ × Values K)} {ordStrings : IterOrder (String × StringID)}
    {timeRange : TimeRange} (h : Tracks K b log) (ht : i.table.Repr strings)
    (hroom : StringTable.Room strings (ProfileKind.requests K)) (hopen : refuses i b = false)
    (hd : b.dump periodConfig ordSamples ordStrings timeRange i = (p, b', i')) :
    refuses i' b' = false := by
  obtain ⟨t, hacc⟩ := h.builder
  obtain ⟨⟨builder, table⟩, hset, hacc', hrepr, -⟩ :=
    (setProfileType_accumulated hacc ht periodConfig).ok hroom
  obtain ⟨out, builder', htake, -⟩ :=
    takeProfileAndReset_accumulated hacc' hrepr ordSamples ordStrings timeRange
  rw [refuses] at hopen
  simp only [Agent.LockedBuilder.dump, Agent.LockedBuilder.setProfileType, hopen, hset,
    Agent.LockedBuilder.takeProfile, htake, Bool.false_eq_true, if_false, Prod.mk.injEq] at hd
  obtain ⟨-, rfl, rfl⟩ := hd
  exact hopen

end

/-! ### What a snapshot carries -/

def dumpIn (kind : DumpKind) : List Push × Closing → Option Dump
  | (pushes, .dumped (some p)) => some ⟨kind, pushes, p⟩
  | _ => none

/-- The dumps in a log, of one kind. -/
def dumpsIn (kind : DumpKind) (log : WindowLog) : List Dump := log.closed.filterMap (dumpIn kind)

theorem dumpsIn_dump {kind : DumpKind} {log : WindowLog} {refused : Bool} {profile : Option Profile}
    (h : refused = true → profile = none) :
    dumpsIn kind (log.dump refused profile) = dumpsIn kind log ++ dumpOf kind log profile := by
  cases refused with
  | true =>
    obtain rfl := h rfl
    exact (List.append_nil _).symm
  | false =>
    show dumpsIn kind (log.close (.dumped profile)) = _
    rw [dumpsIn, WindowLog.close, List.filterMap_append]
    cases profile <;> rfl

/-- The batch of the session begins with the dumps, over the session's window; the reporter
adds at most one. -/
structure Carries (crates : Crates) (config : PyroscopeConfig) (session : Session) (dumps : List Dump) :
    Prop where
  config : session.config = config
  batch : ∃ rest, session.batch = dumps.map (Dump.batch crates) ++ rest ∧ rest.length ≤ 1
  covers : ∀ d ∈ dumps, d.profile.Covers session.timeRange

/-- Where the dumps under way are. -/
def HoldsDumps (crates : Crates) (config : PyroscopeConfig) (carried : List Dump) : Shutdown.Snapshot → Stage → Prop
  | .snapping _, .lapping => carried = []
  | .snapping _, .dumping timeRange => ∀ d ∈ carried, d.profile.Covers timeRange
  | .snapping _, .reporting timeRange others _ =>
    others = carried.map (Dump.batch crates) ∧ ∀ d ∈ carried, d.profile.Covers timeRange
  | .snapping _, .reported timeRange others _ =>
    others = carried.map (Dump.batch crates) ∧ ∀ d ∈ carried, d.profile.Covers timeRange
  | .sending _ session, .sending _ => Carries crates config session carried
  | .waiting, .idle => carried = []
  | .exited, .idle => carried = []
  | _, _ => False

section
variable {crates : Crates} {config : PyroscopeConfig} {carried : List Dump} {phase : Shutdown.Snapshot}
  {stage : Stage}

theorem HoldsDumps.of_idle (h : HoldsDumps crates config carried phase .idle) : carried = [] := by
  cases phase with
  | waiting => exact h
  | exited => exact h
  | _ => exact h.elim

theorem HoldsDumps.idle (h : HoldsDumps crates config carried phase stage)
    (hw : phase = .waiting ∨ phase = .exited) : stage = .idle ∧ carried = [] := by
  rcases hw with rfl | rfl <;>
  · cases stage with
    | idle => exact ⟨rfl, h⟩
    | _ => exact h.elim

theorem HoldsDumps.snapping (h : HoldsDumps crates config carried phase stage) (hs : stage.snapping = true) :
    ∃ final, phase = .snapping final := by
  cases phase with
  | snapping final => exact ⟨final, rfl⟩
  | _ =>
    cases stage with
    | idle => cases hs
    | sending b => cases hs
    | _ => exact h.elim

theorem holds_after (final : Bool) : HoldsDumps crates config [] (Shutdown.Snapshot.after final) .idle := by
  cases final <;> rfl

end

section
variable {σ κ : Type} {S : Source σ κ} {crates : Crates} {config : PyroscopeConfig}
  {mem : MemConfig} {stack : StackConfig}

/-- The snapshot under way does not panic: its report can be encoded, and the types of its
dumps have numbers in the string table. -/
structure Fine (S : Source σ κ) (j : Joint σ κ) : Prop where
  encodes : ∀ timeRange others b p, j.upload.stage = .reported timeRange others b →
    ¬S.payload timeRange b (.error p)
  room : j.upload.stage.isDumping = true → ∀ strings, j.logged.process.interner.table.Repr strings →
    ∀ k, StringTable.Room strings (requests k)

variable (S crates config) in
structure Joint.Inv (j : Joint σ κ) : Prop where
  upload : Reachable (Flush.Initial S) (Step S crates config) j.upload
  process : Agent.Inv j.logged.process
  tracks : LogsTrack j.logged
  holds : HoldsDumps crates config j.carried j.upload.agent.snapshot j.upload.stage
  handed : List.Forall₂ (Carries crates config) j.upload.agent.sent j.handed
  dumps : ∀ k, (j.handed.flatten ++ j.carried).filter (fun d => d.kind = k) = dumpsIn k (j.logged.log k)
  dumped : ∀ k, ∀ e ∈ (j.logged.log k).closed, ∃ p, e.2 = .dumped p

theorem joint_initial {j : Joint σ κ} (h : j.Initial S) : j.Inv S crates config := by
  obtain ⟨l, hl, -, ⟨watch, source, hsource, hupload⟩, hlogged, -, hcarried, hhanded⟩ := h
  have hprocess := Agent.reachable_inv (Agent.logged_process hl)
  have htracks := Agent.logged_tracks hl
  obtain ⟨upload, logged, dumping, carried, handed⟩ := j
  subst hupload hlogged hcarried hhanded
  refine ⟨.init ⟨watch, source, hsource, rfl⟩, hprocess,
    ⟨htracks.memory.restart, htracks.wall.restart, htracks.oncpu.restart⟩, rfl, .nil, fun k => ?_, fun k => ?_⟩
  · cases k <;> rfl
  · cases k <;> exact fun e he => absurd he List.not_mem_nil

namespace Joint.Inv
variable {j : Joint σ κ} {u : State σ κ}

theorem agent (h : j.Inv S crates config) : Shutdown.Inv j.upload.agent :=
  Shutdown.reachable_inv (agent_reachable S crates config h.upload)

/- The `SessionManager` is there as long as the snapshot thread can send. -/
theorem sends (h : j.Inv S crates config) (gone : j.upload.agent.manager = .exited) {final : Bool}
    {session : Session} (hf : j.upload.agent.snapshot = .sending final session) : False := by
  have hkills := h.agent.kills_of_exited gone
  have hjoined : j.upload.agent.stopper.hasJoined = true := by
    by_contra hj
    rw [Bool.not_eq_true] at hj
    rw [Shutdown.Stopper.kills_of_not_joined hj] at hkills
    cases hkills
  cases hf.symm.trans (h.agent.joined hjoined)

theorem move (h : j.Inv S crates config) (hu : Step S crates config j.upload u) {carried : List Dump}
    {handed : List (List Dump)} {atStop : DumpKind → List Push} (hholds : HoldsDumps crates config carried u.agent.snapshot u.stage)
    (hhanded : List.Forall₂ (Carries crates config) u.agent.sent handed)
    (hdumps : handed.flatten ++ carried = j.handed.flatten ++ j.carried) :
    Joint.Inv S crates config { j with upload := u, carried, handed, atStop } := by
  refine ⟨h.upload.step hu, h.process, h.tracks, hholds, hhanded, fun k => ?_, h.dumped⟩
  rw [hdumps]
  exact h.dumps k

/- Nothing is sent: the dumps stay where they are. -/
theorem stay (h : j.Inv S crates config) (hu : Step S crates config j.upload u)
    (hholds : HoldsDumps crates config j.carried u.agent.snapshot u.stage)
    (hsent : u.agent.sent = j.upload.agent.sent) :
    (j.next u).Inv S crates config := by
  have hcarried : (if u.stage.isIdle then [] else j.carried) = j.carried := by
    cases hst : u.stage with
    | idle =>
      rw [hst] at hholds
      exact hholds.of_idle.symm
    | _ => rfl
  rw [Joint.next, hcarried, if_pos (congrArg List.length hsent)]
  refine h.move hu hholds ?_ rfl
  rw [hsent]
  exact h.handed

end Joint.Inv

theorem upload_inv {j : Joint σ κ} {u : State σ κ} (h : j.Inv S crates config) (hfine : Fine S j)
    (hs : Step S crates config j.upload u)
    (hd : j.upload.stage.isDumping = true → u.stage.isDumping = true) :
    (j.next u).Inv S crates config := by
  have hholds := h.holds
  have hu := hs
  cases hs with
  | runs hr => exact h.stay hu hholds rfl
  | wakes hw hf =>
    obtain ⟨-, hcarried⟩ := hholds.idle (Or.inl hw)
    exact h.stay hu hcarried rfl
  | lap now hst epoch =>
    obtain ⟨final, hphase⟩ := hholds.snapping (by rw [hst]; rfl)
    rw [hst, hphase] at hholds
    have hnone : j.carried = [] := hholds
    refine h.stay hu ?_ rfl
    rw [hphase, hnone]
    exact fun d hd => absurd hd List.not_mem_nil
  | lapFails hst epoch hf =>
    rw [hst, hf] at hholds
    exact h.stay hu hholds rfl
  | dump others hst =>
    rw [hst] at hd
    cases hd rfl
  | lock hst hl => exact h.stay hu hholds rfl
  | take hst ht =>
    obtain ⟨final, hphase⟩ := hholds.snapping (by rw [hst]; rfl)
    rw [hst, hphase] at hholds
    refine h.stay hu ?_ rfl
    rw [hphase]
    exact hholds
  | swap hst hw => exact h.stay hu hholds rfl
  | finish hst hf =>
    obtain ⟨final, hphase⟩ := hholds.snapping (by rw [hst]; rfl)
    rw [hst, hphase] at hholds
    refine h.stay hu ?_ rfl
    rw [hphase]
    exact hholds
  | @panics timeRange others b p final hst hp hf => exact (hfine.encodes _ _ _ _ hst hp).elim
  | @empty timeRange others b payload final hst hp hf hb =>
    rw [hst, hf] at hholds
    rw [batch, hholds.1] at hb
    have hnone : j.carried = [] := List.map_eq_nil_iff.mp (List.append_eq_nil_iff.mp hb).1
    refine h.stay hu ?_ rfl
    rw [hnone]
    exact holds_after final
  | session hst hp hf hb =>
    rw [hst, hf] at hholds
    refine h.stay hu ?_ rfl
    refine ⟨rfl, ⟨_, by rw [← hholds.1]; rfl, ?_⟩, hholds.2⟩
    split
    · exact Nat.zero_le 1
    · exact le_rfl
  | @send final session b c hst hf alive hc =>
    rw [hst, hf] at hholds
    have hlonger : (j.upload.agent.sent ++ [session]).length ≠ j.upload.agent.sent.length := by simp
    rw [Joint.next, if_neg hlonger]
    refine h.move hu (holds_after final) (List.rel_append h.handed (.cons hholds .nil)) ?_
    rw [List.flatten_append, List.flatten_singleton]
    exact List.append_nil _
  | sendFails hf gone => exact (h.sends gone hf).elim
  | manager hman =>
    obtain ⟨hsnapshot, -, hsent⟩ := manager_quiet hman
    refine h.stay hu ?_ hsent
    rw [hsnapshot]
    exact hholds
  | stop hst => exact h.stay hu hholds rfl
  | joinSnapshot hst exited => exact h.stay hu hholds rfl
  | clearRunning hst => exact h.stay hu hholds rfl
  | joinSampler hst stopped ended => exact h.stay hu hholds rfl
  | kill hst hk =>
    obtain ⟨hsnapshot, -, hsent⟩ := stopper_quiet hk (by simp [hst])
    refine h.stay hu ?_ hsent
    rw [hsnapshot]
    exact hholds
  | joinManager hst hk =>
    obtain ⟨hsnapshot, -, hsent⟩ := stopper_quiet hk (by simp [hst])
    refine h.stay hu ?_ hsent
    rw [hsnapshot]
    exact hholds

/- A dump puts its window on the batch. -/
theorem dump_inv {j : Joint σ κ} (h : j.Inv S crates config) {timeRange : TimeRange}
    (hst : j.upload.stage = .dumping timeRange) {c : DumpKind} {l : Logged} {refused : Bool}
    {profile : Option Profile} (hs : LoggedStep j.logged l)
    (hlog : l.log c = (j.logged.log c).dump refused profile)
    (hothers : ∀ k, k ≠ c → l.log k = j.logged.log k) (hrefused : refused = true → profile = none)
    (hcovers : ∀ p, profile = some p → p.Covers timeRange) (dumping : Dumping) :
    Joint.Inv S crates config { j with
      logged := l
      dumping := dumping
      carried := j.carried ++ dumpOf c (j.logged.log c) profile } := by
  have hholds := h.holds
  obtain ⟨final, hphase⟩ := hholds.snapping (by rw [hst]; rfl)
  rw [hst, hphase] at hholds
  refine ⟨h.upload, Agent.step_inv h.process (Agent.loggedStep_step hs),
    Agent.loggedStep_tracks h.process h.tracks hs, ?_, h.handed, fun k => ?_, fun k e he => ?_⟩
  · show HoldsDumps crates config _ j.upload.agent.snapshot j.upload.stage
    rw [hst, hphase]
    intro d hd
    rcases List.mem_append.mp hd with hd | hd
    · exact hholds d hd
    · obtain ⟨p, hp, rfl⟩ := List.mem_map.mp hd
      exact hcovers p (Option.mem_toList.mp hp)
  · show (j.handed.flatten ++ (j.carried ++ dumpOf c (j.logged.log c) profile)).filter _ =
      dumpsIn k (l.log k)
    rw [← List.append_assoc, List.filter_append, h.dumps k]
    by_cases hk : k = c
    · subst hk
      rw [hlog, dumpsIn_dump hrefused]
      refine congrArg _ (List.filter_eq_self.mpr fun d hd => ?_)
      obtain ⟨p, -, rfl⟩ := List.mem_map.mp hd
      exact decide_eq_true rfl
    · rw [hothers k hk]
      have hnone : (dumpOf c (j.logged.log c) profile).filter (fun d => d.kind = k) = [] := by
        refine List.filter_eq_nil_iff.mpr fun d hd => ?_
        obtain ⟨p, -, rfl⟩ := List.mem_map.mp hd
        exact fun he => hk (of_decide_eq_true he).symm
      rw [hnone, List.append_nil]
  · by_cases hk : k = c
    · subst hk
      replace he : e ∈ (l.log k).closed := he
      rw [hlog] at he
      cases refused with
      | true => exact h.dumped k e he
      | false =>
        rcases List.mem_append.mp he with he | he
        · exact h.dumped k e he
        · obtain rfl := List.mem_singleton.mp he
          exact ⟨profile, rfl⟩
    · refine h.dumped k e ?_
      rw [← hothers k hk]
      exact he

/- With room for its types no dump panics. -/
theorem dump_fine {j : Joint σ κ} (h : j.Inv S crates config) {l : Logged}
    (hroom : ∀ strings, j.logged.process.interner.table.Repr strings → ∀ k, StringTable.Room strings (requests k))
    (hl : DumpPanics config mem j.dumping j.logged l) : False := by
  obtain ⟨strings, hrepr, -⟩ := h.process.table
  generalize j.dumping = d at hl
  cases hl with
  | memory ordSamples ordStrings timeRange entered hp poisoned =>
    have hopen := dump_open h.tracks.memory hrepr (hroom strings hrepr .memory) entered hp
    cases hopen.symm.trans poisoned
  | wall intervalUs ordSamples ordStrings timeRange entered hp poisoned =>
    have hopen := dump_open h.tracks.wall hrepr (hroom strings hrepr .wall) entered hp
    cases hopen.symm.trans poisoned
  | oncpu intervalUs ordSamples ordStrings timeRange entered hp poisoned =>
    have hopen := dump_open h.tracks.oncpu hrepr (hroom strings hrepr .oncpu) entered hp
    cases hopen.symm.trans poisoned

theorem jointStep_inv {j j' : Joint σ κ} (h : j.Inv S crates config) (hfine : Fine S j)
    (hs : JointStep S crates config mem stack j j') : j'.Inv S crates config := by
  cases hs with
  | upload hu hd => exact upload_inv h hfine hu hd
  | process hl up closed =>
    refine ⟨h.upload, Agent.step_inv h.process (Agent.loggedStep_step hl),
      Agent.loggedStep_tracks h.process h.tracks hl, h.holds, h.handed, fun k => ?_, fun k e he => ?_⟩
    · rw [dumpsIn, closed k]
      exact h.dumps k
    · refine h.dumped k e ?_
      rw [← closed k]
      exact he
  | finalize => exact ⟨h.upload, h.process, h.tracks, h.holds, h.handed, h.dumps, h.dumped⟩
  | memoryOff hst hd off => exact ⟨h.upload, h.process, h.tracks, h.holds, h.handed, h.dumps, h.dumped⟩
  | notAttached hst hd on detached => exact ⟨h.upload, h.process, h.tracks, h.holds, h.handed, h.dumps, h.dumped⟩
  | stackOff hst hd off => exact ⟨h.upload, h.process, h.tracks, h.holds, h.handed, h.dumps, h.dumped⟩
  | dumpMemory ordSamples ordStrings hst hd on hp fine =>
    refine dump_inv h hst (c := .memory) (.dumpMemory _ _ _ _ hp) rfl (fun k hk => ?_)
      (Agent.dump_refused hp) (fun p he => ?_) _
    · cases k with
      | memory => exact (hk rfl).elim
      | _ => rfl
    · subst he
      exact dump_covers hp
  | dumpWall intervalUs ordSamples ordStrings hst hd on wall hp fine =>
    refine dump_inv h hst (c := .wall) (.dumpWall _ _ _ _ hp) rfl (fun k hk => ?_)
      (Agent.dump_refused hp) (fun p he => ?_) _
    · cases k with
      | wall => exact (hk rfl).elim
      | _ => rfl
    · subst he
      exact dump_covers hp
  | dumpOncpu intervalUs ordSamples ordStrings hst hd on oncpu hp fine =>
    refine dump_inv h hst (c := .oncpu) (.dumpOncpu _ _ _ _ hp) rfl (fun k hk => ?_)
      (Agent.dump_refused hp) (fun p he => ?_) _
    · cases k with
      | oncpu => exact (hk rfl).elim
      | _ => rfl
    · subst he
      exact dump_covers hp
  | dumpPanics hst hf hl => exact (dump_fine h (hfine.room (by rw [hst]; rfl)) hl).elim
  | report hst hd =>
    have hholds := h.holds
    obtain ⟨final, hphase⟩ := hholds.snapping (by rw [hst]; rfl)
    rw [hst, hphase] at hholds
    refine ⟨h.upload.step (.dump _ hst), h.process, h.tracks, ?_, h.handed, h.dumps, h.dumped⟩
    show HoldsDumps crates config j.carried j.upload.agent.snapshot _
    rw [hphase]
    exact ⟨rfl, hholds⟩

theorem reachable_joint {j : Joint σ κ} (h : Reachable (Joint.Initial S)
    (fun j j' => JointStep S crates config mem stack j j' ∧ Fine S j) j) : j.Inv S crates config :=
  h.invariant (fun _ hj => joint_initial hj) fun _ _ hi hs => jointStep_inv hi hs.2 hs.1

/-! ### What was dumped -/

/- A dump without a profile had nothing in its window. -/
theorem flatMap_dumps (kind : DumpKind) {closed : List (List Push × Closing)}
    (hdumped : ∀ e ∈ closed, ∃ p, e.2 = .dumped p) (hnothing : ∀ e ∈ closed, e.2 = .dumped none → e.1 = []) :
    (closed.filterMap (dumpIn kind)).flatMap Dump.pushes = closed.flatMap Prod.fst := by
  induction closed with
  | nil => rfl
  | cons e closed ih =>
    have hrest := ih (fun e he => hdumped e (List.mem_cons_of_mem _ he))
      fun e he => hnothing e (List.mem_cons_of_mem _ he)
    obtain ⟨p, hp⟩ := hdumped e (List.mem_cons_self ..)
    have hnone := hnothing e (List.mem_cons_self ..)
    obtain ⟨pushes, closing⟩ := e
    obtain rfl : closing = .dumped p := hp
    cases p with
    | none =>
      obtain rfl : pushes = [] := hnone rfl
      exact hrest
    | some p => exact congrArg (pushes ++ ·) hrest

namespace Joint.Inv
variable {j : Joint σ κ}

theorem log_pushed (h : j.Inv S crates config) (k : DumpKind) :
    (j.logged.log k).pushed = (j.logged.log k).closed.flatMap Prod.fst ++ (j.logged.log k).opened := by
  cases k with
  | memory => exact h.tracks.memory.pushed
  | wall => exact h.tracks.wall.pushed
  | oncpu => exact h.tracks.oncpu.pushed

theorem log_nothing (h : j.Inv S crates config) (k : DumpKind) :
    ∀ e ∈ (j.logged.log k).closed, e.2 = .dumped none → e.1 = [] := by
  cases k with
  | memory => exact h.tracks.memory.nothing
  | wall => exact h.tracks.wall.nothing
  | oncpu => exact h.tracks.oncpu.nothing

theorem dumpsIn_shows (h : j.Inv S crates config) {k : DumpKind} {d : Dump}
    (hd : d ∈ dumpsIn k (j.logged.log k)) : d.Shows := by
  obtain ⟨⟨pushes, closing⟩, he, hin⟩ := List.mem_filterMap.mp hd
  cases closing with
  | cleared => cases hin
  | dumped p =>
    cases p with
    | none => cases hin
    | some p =>
      cases hin
      cases k with
      | memory => exact h.tracks.memory.shown _ he p rfl
      | wall => exact h.tracks.wall.shown _ he p rfl
      | oncpu => exact h.tracks.oncpu.shown _ he p rfl

/- The dumps of one kind are made of all that was pushed but for the window under way. -/
theorem closed_pushes (h : j.Inv S crates config) (k : DumpKind) :
    ((j.handed.flatten ++ j.carried).filter fun d => d.kind = k).flatMap Dump.pushes =
      (j.logged.log k).closed.flatMap Prod.fst := by
  rw [h.dumps k, dumpsIn]
  exact flatMap_dumps k (h.dumped k) (h.log_nothing k)

theorem shows (h : j.Inv S crates config) {d : Dump} (hd : d ∈ j.handed.flatten ++ j.carried) : d.Shows := by
  have hin : d ∈ (j.handed.flatten ++ j.carried).filter fun d' => d'.kind = d.kind :=
    List.mem_filter.mpr ⟨hd, decide_eq_true rfl⟩
  rw [h.dumps] at hin
  exact h.dumpsIn_shows hin

end Joint.Inv

end

end Pyroscope.Upload.Flush
