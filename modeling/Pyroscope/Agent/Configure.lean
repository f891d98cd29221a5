import Pyroscope.Lib.Call
import Pyroscope.Agent.Process

/-!
# Starting, failing to start, and stopping (ffikit.rs, memory.rs, stack/mod.rs)

`run` and `stop` are calls on the process. Whatever the calls out of the program answer
is in a `World`, with the acts of the others at the points where they can interfere;
`memalloc_start` installs its hooks exactly when its status is zero, and a sampler that
reports failure does not run. A `run` that fails goes back to a process in which
nothing is running.
-/

namespace Pyroscope.Agent.Configure
open Pyroscope.Lib Pyroscope.Encode Pyroscope.Backend
open Pyroscope.Signal (Frame Metrics Reason ResolvedFrame)

inductive PyroscopeError where
  | adHoc (msg : String)
  | reqwest (msg : String)
  | state (err : Lifecycle.PyroscopeError)
  deriving DecidableEq

/-- `cpuTimerEnabled` is the option of the Stack sampler, fixed by its first start. -/
structure Platform where
  signal : Signal.Calls.Platform
  cpuTimerEnabled : Bool

/-- Where the others may act during `run` and `stop`. -/
inductive Point where
  | memoryStarted
  | stackStarted
  | clientCreated
  | agentStarted
  | stopping
  | snapshotsJoined
  | memoryStopped
  | samplerStopped
  | cleared

/-- Python exceptions and errors of the client are their texts. -/
structure World where
  pendingError : Option String
  memallocStart : ℤ × Option String
  safeCopyFailed : Bool
  samplerStarts : Bool
  stackThreads : Except String Unit
  httpClient : Except String Unit
  ctimerThreads : Except String Unit
  signal : Signal.Calls.Externals
  acts : Point → List Act

abbrev ProcessCall := Call Process

/-! ### The pieces -/

def memoryStart (w : World) (config : Config) : ProcessCall String Unit :=
  if config.memEnabled = false then pure ()
  else match w.pendingError with
    | some err => Call.fail err
    | none => do
      Call.modify fun s => { s with profilers :=
        { s.profilers with memoryRunning := s.profilers.memoryRunning || w.memallocStart.1 == 0 } }
      match w.memallocStart.1 == 0, w.memallocStart.2 with
      | true, none => pure ()
      | true, some err => do
        Call.modify fun s => { s with profilers := s.profilers.memoryStop }
        Call.fail err
      | false, some err => Call.fail err
      | false, none => Call.fail "memory profiler failed to start without setting a Python exception"

def memoryStop (s : Process) : Process := { s with profilers := s.profilers.memoryStop }

/-- `threads::install` of stack/threads.rs -/
def stackThreadsInstall (w : World) : ProcessCall String Unit := do
  let s ← Call.get
  if s.stackThreadsInstalled = true then pure ()
  else do
    Call.returned w.stackThreads
    Call.modify fun s => { s with stackThreadsInstalled := true }

/-- `sampler_start`: the CPU timer engine does not start again once it was stopped. -/
def samplerStart (p : Platform) (w : World) (s : Process) : Bool :=
  w.samplerStarts && !(p.cpuTimerEnabled && s.stoppedOnce)

def stackStart (p : Platform) (w : World) (config : Config) : ProcessCall String Unit :=
  if config.stackEnabled = false then pure ()
  else do
    Call.failIf (w.safeCopyFailed = true) "failed to install the CPU stack sampler's SIGSEGV/SIGBUS handlers"
    let s ← Call.get
    Call.failIf (samplerStart p w s = false)
      (if s.stoppedOnce then
        "the CPU timer stack profiler cannot be restarted in this process: it was stopped " ++
          "by an earlier shutdown() or by fork(), and the CPU timer engine does not support restarting"
      else "failed to start the CPU stack sampler's sampling thread or CPU timer")
    Call.modify fun s => { s with profilers := { s.profilers with stackRunning := true }, started := true }
    stackThreadsInstall w

def stackClearSamples (s : Process) : Process := { s with profilers := { s.profilers with
  wall := s.profilers.wall.clearSamples, oncpu := s.profilers.oncpu.clearSamples } }

def stackStop (w : World) (s : Process) : Process :=
  if s.started = true then
    let s := { s with started := false, profilers := s.profilers.samplerStop }
    let s := s.acts (w.acts .samplerStopped)
    stackClearSamples { s with stoppedOnce := true }
  else stackClearSamples s

def internerClear (s : Process) : Process := { s with profilers := s.profilers.internerClear }

def stopProfilers (w : World) (s : Process) : Process :=
  let s := (memoryStop s).acts (w.acts .memoryStopped)
  let s := internerClear (stackStop w s)
  s.acts (w.acts .cleared)

/-- `Pyspy::new`, and py-spy's sampler thread -/
def pyspyNew (pid : Option ℕ) : ProcessCall PyroscopeError Unit := do
  Call.failIf (pid = none) (.adHoc "Pyspy: No Process ID Specified")
  Call.modify fun s => { s with pyspyThread := true, buffer := .default }

/-- `Signal::new`, and a fresh buffer -/
def signalNew (p : Platform) (w : World) (config : Signal.Calls.Config) : ProcessCall PyroscopeError Unit := do
  Call.mapError .adHoc
    ((Signal.Calls.new p.signal w.signal config).on Process.signal fun s signal => { s with signal })
  Call.modify fun s => { s with buffer := .default }

def build (p : Platform) (w : World) (config : Config) : ProcessCall PyroscopeError Unit :=
  match config.cpuConfig with
  | some (.pySpy pid) => pyspyNew pid
  | some (.signal c) => signalNew p w c
  | none => pure ()

def agentStart (config : Config) (s : Process) : Process :=
  { s with agent := some config, backendConfig := config.backendConfig }

/-! ### `run`, `stop` and the configure call -/

/-- The closure of `run`. -/
def startAll (p : Platform) (w : World) (config : Config) : ProcessCall PyroscopeError Unit := do
  (memoryStart w config).mapError fun err => .adHoc s!"failed to start memory profiler: {err}"
  Call.modify fun s => s.acts (w.acts .memoryStarted)
  (stackStart p w config).mapError fun err => .adHoc s!"failed to start CPU stack sampler: {err}"
  Call.modify fun s => s.acts (w.acts .stackStarted)
  (Call.returned w.httpClient).mapError .reqwest
  Call.modify fun s => s.acts (w.acts .clientCreated)
  build p w config
  Call.modify fun s => (agentStart config s).acts (w.acts .agentStarted)

def claim : ProcessCall PyroscopeError Unit := fun s =>
  ((Lifecycle.claimForRun s.state).1.mapError .state, { s with state := (Lifecycle.claimForRun s.state).2 })

def run (p : Platform) (w : World) (config : Config) : ProcessCall PyroscopeError Unit := do
  claim
  Call.guarded (fun s => { stopProfilers w s with state := .idle }) (startAll p w config)
  Call.modify fun s => { s with state := .running s.nextAgent, nextAgent := s.nextAgent + 1 }

/-- `PyroscopeAgent::stop`: the snapshot thread is joined first, then the backend's thread. -/
def agentStop (w : World) (s : Process) : Process :=
  let s := s.acts (w.acts .stopping)
  let s := { s with agent := none }
  let s := s.acts (w.acts .snapshotsJoined)
  { s with pyspyThread := false, signal := Signal.Calls.samplerThreadEnds w.signal s.signal }

def stop (w : World) : ProcessCall PyroscopeError Unit := fun s =>
  let (r, state) := Lifecycle.claimForStop s.state
  let s := { s with state }
  match r with
  | .error err => (.error (.state err), s)
  | .ok _ => (.ok (), { stopProfilers w (agentStop w s) with state := .idle })

/-- The hooks of the `CTimer`, before `run`. -/
def ctimerThreadsInstall (w : World) (config : Config) : ProcessCall PyroscopeError Unit :=
  match config.cpuConfig with
  | some (.signal c) =>
    if c.signalTimer = .cTimer then Call.mapError .adHoc
      ((Signal.Calls.Threads.install w.ctimerThreads).on Process.signal fun s signal => { s with signal })
    else pure ()
  | _ => pure ()

/-- `initialize_agent`, once it has accepted its arguments -/
def initializeAgent (p : Platform) (w : World) (config : Config) : ProcessCall PyroscopeError Unit := do
  ctimerThreadsInstall w config
  run p w config

inductive Op where
  | configure (w : World) (config : Config)
  | shutdown (w : World)
  | act (a : Act)

def Op.apply (p : Platform) (s : Process) : Op → Process
  | .configure w config => (initializeAgent p w config s).2
  | .shutdown w => (stop w s).2
  | .act a => s.act a

def after (p : Platform) (action : Signal.Timers.Action) (history : List Op) : Process :=
  history.foldl (Op.apply p) (.initial action)

/-! ### What the acts leave alone -/

namespace Process

/-- The fields that no act writes. -/
structure Frame (s s' : Process) : Prop where
  state : s'.state = s.state
  nextAgent : s'.nextAgent = s.nextAgent
  agent : s'.agent = s.agent
  memoryRunning : s'.profilers.memoryRunning = s.profilers.memoryRunning
  stackRunning : s'.profilers.stackRunning = s.profilers.stackRunning
  started : s'.started = s.started
  stoppedOnce : s'.stoppedOnce = s.stoppedOnce
  installed : s'.signal.installed = s.signal.installed
  pyspyThread : s'.pyspyThread = s.pyspyThread
  backendConfig : s'.backendConfig = s.backendConfig

theorem Frame.refl (s : Process) : Frame s s := ⟨rfl, rfl, rfl, rfl, rfl, rfl, rfl, rfl, rfl, rfl⟩

theorem Frame.trans {s s' s'' : Process} (h : Frame s s') (h' : Frame s' s'') : Frame s s'' :=
  ⟨h'.state.trans h.state, h'.nextAgent.trans h.nextAgent, h'.agent.trans h.agent,
    h'.memoryRunning.trans h.memoryRunning, h'.stackRunning.trans h.stackRunning,
    h'.started.trans h.started, h'.stoppedOnce.trans h.stoppedOnce, h'.installed.trans h.installed,
    h'.pyspyThread.trans h.pyspyThread, h'.backendConfig.trans h.backendConfig⟩

theorem perform_frame (s : Process) (a : Act) : Frame s (s.perform a) := by
  cases a with
  | internMemory decode view =>
    show Frame s (s.internMemory decode view)
    unfold internMemory
    split <;> exact ⟨rfl, rfl, rfl, rfl, rfl, rfl, rfl, rfl, rfl, rfl⟩
  | internStack decode view =>
    show Frame s (s.internStack decode view)
    unfold internStack
    split <;> exact ⟨rfl, rfl, rfl, rfl, rfl, rfl, rfl, rfl, rfl, rfl⟩
  | pushMemory frames values =>
    show Frame s (s.pushMemory frames values)
    unfold pushMemory
    split <;> exact ⟨rfl, rfl, rfl, rfl, rfl, rfl, rfl, rfl, rfl, rfl⟩
  | pushWall frames values =>
    show Frame s (s.pushWall frames values)
    unfold pushWall
    split <;> exact ⟨rfl, rfl, rfl, rfl, rfl, rfl, rfl, rfl, rfl, rfl⟩
  | pushOncpu frames values =>
    show Frame s (s.pushOncpu frames values)
    unfold pushOncpu
    split <;> exact ⟨rfl, rfl, rfl, rfl, rfl, rfl, rfl, rfl, rfl, rfl⟩
  | registerThread w id tid =>
    have hinstalled := Signal.Calls.registerThread_installed w id tid s.signal
    exact ⟨rfl, rfl, rfl, rfl, rfl, rfl, rfl, hinstalled, rfl, rfl⟩
  | unregisterThread id =>
    have hinstalled := Signal.Calls.unregisterThread_installed id s.signal
    exact ⟨rfl, rfl, rfl, rfl, rfl, rfl, rfl, hinstalled, rfl, rfl⟩
  | drain pid resolve =>
    show Frame s (s.drain pid resolve)
    unfold drain
    split
    · exact Frame.refl s
    · split <;> exact ⟨rfl, rfl, rfl, rfl, rfl, rfl, rfl, rfl, rfl, rfl⟩
  | samplerThreadEnds w =>
    have hinstalled := Signal.Calls.samplerThreadEnds_installed w s.signal
    exact ⟨rfl, rfl, rfl, rfl, rfl, rfl, rfl, hinstalled, rfl, rfl⟩
  | _ => exact ⟨rfl, rfl, rfl, rfl, rfl, rfl, rfl, rfl, rfl, rfl⟩

theorem act_frame (s : Process) (a : Act) : Frame s (s.act a) := by
  unfold act
  split
  · exact perform_frame s a
  · exact Frame.refl s

/- What every act preserves, a list of acts preserves. -/
theorem acts_induction {P : Process → Prop} (h : ∀ s a, P s → P (s.act a)) {s : Process} (hs : P s)
    (as : List Act) : P (s.acts as) := by
  induction as generalizing s with
  | nil => exact hs
  | cons a as ih => exact ih (h s a hs)

theorem acts_frame (s : Process) (as : List Act) : Frame s (s.acts as) :=
  acts_induction (P := Frame s) (fun s' a h => h.trans (act_frame s' a)) (Frame.refl s) as

/- Nobody is there who could push into the memory builder. -/
theorem act_memory {s : Process} (hm : s.profilers.memoryRunning = false) (ha : s.agent = none) (a : Act) :
    (s.act a).profilers.memory = s.profilers.memory := by
  unfold act
  split
  · next he =>
    cases a with
    | pushMemory frames values => exact (Bool.false_ne_true (hm.symm.trans he)).elim
    | internMemory decode view => exact (Bool.false_ne_true (hm.symm.trans he)).elim
    | dumpMemory config ordSamples ordStrings timeRange =>
      rw [enables, ha] at he
      cases he
    | internStack decode view =>
      show (s.internStack decode view).profilers.memory = _
      unfold internStack
      split <;> rfl
    | pushWall frames values =>
      show (s.pushWall frames values).profilers.memory = _
      unfold pushWall
      split <;> rfl
    | pushOncpu frames values =>
      show (s.pushOncpu frames values).profilers.memory = _
      unfold pushOncpu
      split <;> rfl
    | drain pid resolve =>
      obtain ⟨records, metrics, buffer, hdrain⟩ := drain_eq pid resolve s
      show (s.drain pid resolve).profilers.memory = _
      rw [hdrain]
    | _ => rfl
  · rfl

/- Nobody is there who could touch a builder or the string table. -/
theorem act_profilers {s : Process} (hm : s.profilers.memoryRunning = false)
    (hs : s.profilers.stackRunning = false) (ha : s.agent = none) (a : Act) :
    (s.act a).profilers = s.profilers := by
  unfold act
  split
  · next he =>
    cases a with
    | pushMemory frames values => exact (Bool.false_ne_true (hm.symm.trans he)).elim
    | internMemory decode view => exact (Bool.false_ne_true (hm.symm.trans he)).elim
    | pushWall frames values => exact (Bool.false_ne_true (hs.symm.trans he)).elim
    | pushOncpu frames values => exact (Bool.false_ne_true (hs.symm.trans he)).elim
    | internStack decode view => exact (Bool.false_ne_true (hs.symm.trans he)).elim
    | dumpMemory config ordSamples ordStrings timeRange =>
      rw [enables, ha] at he
      cases he
    | dumpWall config ordSamples ordStrings timeRange =>
      rw [enables, ha] at he
      cases he
    | dumpOncpu config ordSamples ordStrings timeRange =>
      rw [enables, ha] at he
      cases he
    | drain pid resolve =>
      obtain ⟨records, metrics, buffer, hdrain⟩ := drain_eq pid resolve s
      show (s.drain pid resolve).profilers = _
      rw [hdrain]
    | _ => rfl
  · rfl

inductive SignalWrite (w : Signal.Calls.Statics) : Signal.Calls.Statics → Prop where
  | records (records : List (List Signal.Frame)) (metrics : Signal.Metrics) : SignalWrite w { w with records, metrics }
  | registerThread (world id tid) : SignalWrite w (Signal.Calls.Threads.registerThread world id tid w)
  | unregisterThread (id) : SignalWrite w (Signal.Calls.Threads.unregisterThread id w)
  | samplerThreadEnds (world) : SignalWrite w (Signal.Calls.samplerThreadEnds world w)

theorem act_signal (s : Process) (a : Act) : SignalWrite s.signal (s.act a).signal := by
  have hsame : SignalWrite s.signal s.signal := .records s.signal.records s.signal.metrics
  unfold act
  split
  · cases a with
    | registerThread w id tid => exact .registerThread w id tid
    | unregisterThread id => exact .unregisterThread id
    | samplerThreadEnds w => exact .samplerThreadEnds w
    | internMemory decode view =>
      rw [perform, internMemory_eq]
      exact hsame
    | internStack decode view =>
      rw [perform, internStack_eq]
      exact hsame
    | pushMemory frames values =>
      rw [perform, pushMemory_eq]
      exact hsame
    | pushWall frames values =>
      rw [perform, pushWall_eq]
      exact hsame
    | pushOncpu frames values =>
      rw [perform, pushOncpu_eq]
      exact hsame
    | drain pid resolve =>
      obtain ⟨records, metrics, buffer, hdrain⟩ := drain_eq pid resolve s
      rw [perform, hdrain]
      exact .records records metrics
    | _ => exact .records _ _
  · exact hsame

theorem act_steady {s : Process} (h : Signal.Calls.Steady s.signal) (a : Act) :
    Signal.Calls.Steady (s.act a).signal := by
  have hwrite := act_signal s a
  revert hwrite
  generalize (s.act a).signal = w
  intro hwrite
  cases hwrite with
  | records => exact ⟨h.reached, h.timer⟩
  | registerThread w id tid => exact Signal.Calls.registerThread_steady w id tid h
  | unregisterThread id => exact Signal.Calls.unregisterThread_steady id h
  | samplerThreadEnds w => exact (Signal.Calls.samplerThreadEnds_off w h).steady

theorem act_samplerThread (s : Process) (a : Act) :
    (s.act a).signal.samplerThread = s.signal.samplerThread ∨ (s.act a).signal.samplerThread = none := by
  have hwrite := act_signal s a
  revert hwrite
  generalize (s.act a).signal = w
  intro hwrite
  cases hwrite with
  | records => exact .inl rfl
  | registerThread w id tid => exact .inl (Signal.Calls.registerThread_samplerThread w id tid s.signal)
  | unregisterThread id => exact .inl (Signal.Calls.unregisterThread_samplerThread id s.signal)
  | samplerThreadEnds w => exact .inr (Signal.Calls.samplerThreadEnds_samplerThread w s.signal)

theorem act_off {s : Process} (h : Signal.Calls.Off s.signal) (a : Act) :
    Signal.Calls.Off (s.act a).signal := by
  refine (act_steady h.steady a).off ?_
  rcases act_samplerThread s a with ht | ht
  · exact ht.trans h.noThread
  · exact ht

end Process

/-! ### Starting -/

/-- A process in which no agent is there yet, or any more. -/
structure Starting (s : Process) : Prop where
  agent : s.agent = none
  stack : s.profilers.stackRunning = true → s.started = true
  signal : Signal.Calls.Off s.signal

structure Up (s : Process) : Prop where
  stack : s.profilers.stackRunning = true → s.started = true
  signal : Signal.Calls.Steady s.signal

theorem Starting.up {s : Process} (h : Starting s) : Up s := ⟨h.stack, h.signal.steady⟩

theorem Starting.acts {s : Process} (h : Starting s) (as : List Act) : Starting (s.acts as) := by
  refine Process.acts_induction (fun s a h => ?_) h as
  have hframe := s.act_frame a
  refine ⟨hframe.agent.trans h.agent, fun hr => ?_, Process.act_off h.signal a⟩
  rw [hframe.started]
  exact h.stack (hframe.stackRunning.symm.trans hr)

theorem Up.acts {s : Process} (h : Up s) (as : List Act) : Up (s.acts as) := by
  refine Process.acts_induction (fun s a h => ?_) h as
  have hframe := s.act_frame a
  refine ⟨fun hr => ?_, Process.act_steady h.signal a⟩
  rw [hframe.started]
  exact h.stack (hframe.stackRunning.symm.trans hr)

theorem memoryStart_starting (w : World) (config : Config) :
    (memoryStart w config).Ensures Starting (fun _ => Starting) fun _ => Starting := by
  unfold memoryStart
  split
  · exact .pure fun _ h => h
  · split
    · exact .fail fun _ h => h
    · refine .bind (Q := fun _ => Starting) (.modify fun s h => ⟨h.agent, h.stack, h.signal⟩) fun _ => ?_
      split
      · exact .pure fun _ h => h
      · refine .bind (Q := fun _ => Starting) (.modify fun s h => ?_) fun _ => .fail fun _ h => h
        exact ⟨h.agent, h.stack, h.signal⟩
      · exact .fail fun _ h => h
      · exact .fail fun _ h => h

theorem stackThreadsInstall_starting (w : World) :
    (stackThreadsInstall w).Ensures Starting (fun _ => Starting) fun _ => Starting := by
  refine .bind (Q := fun _ => Starting) (.get fun _ h => h) fun s₀ => ?_
  split
  · exact .pure fun _ h => h
  · refine .bind (Q := fun _ => Starting) (.returned (fun _ _ _ h => h) fun _ _ _ h => h) fun _ => ?_
    exact .modify fun s h => ⟨h.agent, h.stack, h.signal⟩

theorem stackStart_starting (p : Platform) (w : World) (config : Config) :
    (stackStart p w config).Ensures Starting (fun _ => Starting) fun _ => Starting := by
  unfold stackStart
  split
  · exact .pure fun _ h => h
  · refine .bind (Q := fun _ => Starting) (.failIf (fun _ _ h => h) fun _ _ h => h) fun _ => ?_
    refine .bind (Q := fun _ => Starting) (.get fun _ h => h) fun s₀ => ?_
    refine .bind (Q := fun _ => Starting) (.failIf (fun _ _ h => h) fun _ _ h => h) fun _ => ?_
    refine .bind (Q := fun _ => Starting) (.modify fun s h => ?_) fun _ => stackThreadsInstall_starting w
    exact ⟨h.agent, fun _ => rfl, h.signal⟩

theorem build_up (p : Platform) (w : World) (config : Config) :
    (build p w config).Ensures Starting (fun _ => Up) fun _ => Starting := by
  unfold build
  split
  · refine .bind (Q := fun _ => Starting) (.failIf (fun _ _ h => h) fun _ _ h => h) fun _ => ?_
    exact .modify fun s h => ⟨h.stack, h.signal.steady⟩
  · next c _ =>
    refine .bind (Q := fun _ => Up) (.mapError (.on fun s h => ?_)) fun _ => ?_
    · exact (Signal.Calls.new_steady p.signal w.signal c s.signal h.signal).imp
        (fun _ _ hx => ⟨h.stack, hx⟩) fun _ _ hx => ⟨h.agent, h.stack, hx⟩
    · exact .modify fun s h => ⟨h.stack, h.signal⟩
  · exact .pure fun _ h => h.up

theorem startAll_up (p : Platform) (w : World) (config : Config) :
    (startAll p w config).Ensures Starting (fun _ => Up) fun _ => Starting := by
  refine .bind (.mapError (memoryStart_starting w config)) fun _ => ?_
  refine .bind (Q := fun _ => Starting) (.modify fun s h => h.acts _) fun _ => ?_
  refine .bind (.mapError (stackStart_starting p w config)) fun _ => ?_
  refine .bind (Q := fun _ => Starting) (.modify fun s h => h.acts _) fun _ => ?_
  refine .bind (Q := fun _ => Starting) (.mapError (.returned (fun _ _ _ h => h) fun _ _ _ h => h)) fun _ => ?_
  refine .bind (Q := fun _ => Starting) (.modify fun s h => h.acts _) fun _ => ?_
  refine .bind (build_up p w config) fun _ => .modify fun s h => ?_
  exact Up.acts (s := agentStart config s) ⟨h.stack, h.signal⟩ _

/-! ### Tearing down -/

/-- Nothing but the sample types, the period and the poison of an earlier use is left. -/
structure Emptied {K : Type} [FfiProfileKind K] (b : LockedBuilder K) : Prop where
  sample : b.builder.profile.sample = []
  function : b.builder.profile.function = []
  location : b.builder.profile.location = []
  stringTable : b.builder.profile.stringTable = []
  functions : b.builder.functions = HashMap.empty
  locations : b.builder.locations = HashMap.empty
  ffiSamples : b.builder.ffiSamples = HashMap.empty
  ffiLocationsScratch : b.builder.ffiLocationsScratch = []

theorem clearSamples_emptied {K : Type} [FfiProfileKind K] (b : LockedBuilder K) : Emptied b.clearSamples :=
  ⟨rfl, rfl, rfl, rfl, rfl, rfl, rfl, rfl⟩

/-- The profilers are stopped and forgotten. -/
structure Torn (s : Process) : Prop extends Starting s where
  memoryRunning : s.profilers.memoryRunning = false
  stackRunning : s.profilers.stackRunning = false
  started : s.started = false
  memory : Emptied s.profilers.memory
  wall : Emptied s.profilers.wall
  oncpu : Emptied s.profilers.oncpu
  strings : s.profilers.interner.table = StringTable.new

/- With the profilers off, what acts there still are leave them alone. -/
theorem acts_profilers {s : Process} (ha : s.agent = none) (hm : s.profilers.memoryRunning = false)
    (hs : s.profilers.stackRunning = false) (as : List Act) : (s.acts as).profilers = s.profilers := by
  have h := Process.acts_induction (P := fun s' => s'.agent = none ∧ s'.profilers = s.profilers)
    (fun s' a h => ?_) ⟨ha, rfl⟩ as
  · exact h.2
  · have hm' : s'.profilers.memoryRunning = false := by rw [h.2, hm]
    have hs' : s'.profilers.stackRunning = false := by rw [h.2, hs]
    exact ⟨(s'.act_frame a).agent.trans h.1, (Process.act_profilers hm' hs' h.1 a).trans h.2⟩

theorem acts_memory {s : Process} (ha : s.agent = none) (hm : s.profilers.memoryRunning = false)
    (as : List Act) : (s.acts as).profilers.memory = s.profilers.memory := by
  have h := Process.acts_induction (P := fun s' => s'.agent = none ∧
    s'.profilers.memoryRunning = false ∧ s'.profilers.memory = s.profilers.memory)
    (fun s' a h => ?_) ⟨ha, hm, rfl⟩ as
  · exact h.2.2
  · have hframe := s'.act_frame a
    exact ⟨hframe.agent.trans h.1, hframe.memoryRunning.trans h.2.1,
      (Process.act_memory h.2.1 h.1 a).trans h.2.2⟩

theorem stackStop_torn (w : World) {s : Process} (h : Starting s) (hm : s.profilers.memoryRunning = false)
    (he : Emptied s.profilers.memory) : Torn (internerClear (stackStop w s)) := by
  unfold stackStop
  split
  · next hstarted =>
    have hoff : Starting { s with started := false, profilers := s.profilers.samplerStop } :=
      ⟨h.agent, nofun, h.signal⟩
    have hacts := hoff.acts (w.acts .samplerStopped)
    have hprof := acts_profilers (s := { s with
      started := false, profilers := s.profilers.samplerStop }) h.agent hm rfl (w.acts .samplerStopped)
    have hframe := Process.acts_frame { s with started := false, profilers := s.profilers.samplerStop }
      (w.acts .samplerStopped)
    refine ⟨⟨hacts.agent, fun hr => ?_, hacts.signal⟩, hframe.memoryRunning.trans hm, hframe.stackRunning,
      hframe.started, ?_, clearSamples_emptied _, clearSamples_emptied _, rfl⟩
    · exact (Bool.false_ne_true (hframe.stackRunning.symm.trans hr)).elim
    · show Emptied (Process.acts _ _).profilers.memory
      rw [hprof]
      exact he
  · next hstarted =>
    have hstopped : s.profilers.stackRunning = false :=
      Bool.eq_false_iff.mpr fun hr => hstarted (h.stack hr)
    exact ⟨⟨h.agent, h.stack, h.signal⟩, hm, hstopped, Bool.eq_false_iff.mpr hstarted, he,
      clearSamples_emptied _, clearSamples_emptied _, rfl⟩

theorem Torn.acts {s : Process} (h : Torn s) (as : List Act) : Torn (s.acts as) := by
  have hprof := acts_profilers h.agent h.memoryRunning h.stackRunning as
  have hframe := s.acts_frame as
  refine ⟨h.toStarting.acts as, hframe.memoryRunning.trans h.memoryRunning,
    hframe.stackRunning.trans h.stackRunning, hframe.started.trans h.started, ?_, ?_, ?_, ?_⟩ <;> rw [hprof]
  · exact h.memory
  · exact h.wall
  · exact h.oncpu
  · exact h.strings

theorem stopProfilers_torn (w : World) {s : Process} (h : Starting s) : Torn (stopProfilers w s) := by
  have hstop : Starting (memoryStop s) := ⟨h.agent, h.stack, h.signal⟩
  have hframe := (memoryStop s).acts_frame (w.acts .memoryStopped)
  have hmem := acts_memory (s := memoryStop s) h.agent rfl (w.acts .memoryStopped)
  refine (stackStop_torn w (hstop.acts (w.acts .memoryStopped)) hframe.memoryRunning ?_).acts _
  rw [hmem]
  exact clearSamples_emptied _

/-! ### Whole calls -/

/-- After a `run` that failed, or a `stop`. -/
structure RolledBack (s : Process) : Prop where
  state : s.state = .idle
  memoryRunning : s.profilers.memoryRunning = false
  stackRunning : s.profilers.stackRunning = false
  started : s.started = false
  signal : Signal.Calls.Disarmed s.signal
  memory : Emptied s.profilers.memory
  wall : Emptied s.profilers.wall
  oncpu : Emptied s.profilers.oncpu
  strings : s.profilers.interner.table = StringTable.new

theorem Torn.rolledBack {s : Process} (h : Torn s) (hs : s.state = .idle) : RolledBack s :=
  ⟨hs, h.memoryRunning, h.stackRunning, h.started, h.signal.disarmed, h.memory, h.wall, h.oncpu, h.strings⟩

/-- Between the calls. -/
structure Inv (s : Process) : Prop extends Up s where
  state : s.state ≠ .busy
  idle : s.state = .idle → Starting s

theorem run_idle (p : Platform) (w : World) (config : Config) :
    (run p w config).Ensures (fun s => s.state = .idle ∧ Starting s)
      (fun _ s => (∃ agent, s.state = .running agent) ∧ Up s) fun _ s => s.state = .idle ∧ Torn s := by
  refine .bind (Q := fun _ => Starting) (fun s h => ?_) fun _ => ?_
  · unfold claim
    rw [h.1]
    exact ⟨h.2.agent, h.2.stack, h.2.signal⟩
  · refine .bind (Q := fun _ => Up) (.guarded ?_) fun _ => .modify fun s h => ⟨⟨_, rfl⟩, h.stack, h.signal⟩
    refine (startAll_up p w config).conseq (fun _ h => h) (fun _ _ h => h) fun _ s h => ⟨rfl, ?_⟩
    have htorn := stopProfilers_torn w h
    exact ⟨⟨htorn.agent, htorn.stack, htorn.signal⟩, htorn.memoryRunning, htorn.stackRunning, htorn.started,
      htorn.memory, htorn.wall, htorn.oncpu, htorn.strings⟩

theorem claim_refused {s : Process} (h : s.state ≠ .idle) : ∃ err, claim s = (.error err, s) := by
  rcases s with ⟨_ | _ | agent⟩
  · exact (h rfl).elim
  · exact ⟨.state .concurrentOperation, rfl⟩
  · exact ⟨.state .agentAlreadyRunning, rfl⟩

theorem run_refused (p : Platform) (w : World) (config : Config) {s : Process} (h : s.state ≠ .idle) :
    (run p w config s).2 = s := by
  obtain ⟨err, hclaim⟩ := claim_refused h
  rw [run, Call.bind_of_error hclaim]

theorem run_inv (p : Platform) (w : World) (config : Config) {s : Process} (h : Inv s) :
    Inv (run p w config s).2 := by
  by_cases hs : s.state = .idle
  · have hpost := run_idle p w config s ⟨hs, h.idle hs⟩
    revert hpost
    rcases run p w config s with ⟨e | u, s'⟩
    · rintro ⟨hidle, htorn⟩
      exact ⟨htorn.toStarting.up, by rw [hidle]; exact nofun, fun _ => htorn.toStarting⟩
    · rintro ⟨⟨agent, hrunning⟩, hup⟩
      exact ⟨hup, by rw [hrunning]; exact nofun, fun hidle => nomatch hrunning.symm.trans hidle⟩
  · rw [run_refused p w config hs]
    exact h

/-- The hooks of the `CTimer` are installed or not; nothing else changes. -/
theorem ctimerThreadsInstall_inv (w : World) (config : Config) :
    (ctimerThreadsInstall w config).Ensures Inv (fun _ => Inv) fun _ => Inv := by
  have hset : ∀ (s : Process) (b : Bool), Inv s → Inv { s with signal := { s.signal with installed := b } } :=
    fun s b h => ⟨⟨h.stack, h.signal.reached, h.signal.timer⟩, h.state, fun hs =>
      ⟨(h.idle hs).agent, h.stack, (h.idle hs).signal.reached, (h.idle hs).signal.timer,
        (h.idle hs).signal.noThread⟩⟩
  have hkeep : ∀ s, Inv s → Inv { s with signal := s.signal } := fun s h => h
  unfold ctimerThreadsInstall
  split
  · split
    · refine .mapError (.on fun s h => ?_)
      refine Call.Ensures.bind (P := (· = s.signal)) (Q := fun _ => (· = s.signal))
        (S := fun _ x => Inv { s with signal := x }) (R := fun _ x => Inv { s with signal := x })
        (.get fun x hx => hx) (fun x₀ => ?_) s.signal rfl
      split
      · exact .pure fun x hx => hx ▸ h
      · refine .bind (Q := fun _ => (· = s.signal)) (.returned (fun _ _ _ hx => hx) fun _ _ x hx => hx ▸ h)
          fun _ => .modify fun x hx => hx ▸ hset s true h
    · exact .pure fun _ h => h
  · exact .pure fun _ h => h

theorem initializeAgent_inv (p : Platform) (w : World) (config : Config) {s : Process} (h : Inv s) :
    Inv (initializeAgent p w config s).2 := by
  have hpost := ctimerThreadsInstall_inv w config s h
  rw [initializeAgent]
  rcases hc : ctimerThreadsInstall w config s with ⟨e | u, s'⟩
  · rw [hc] at hpost
    rw [Call.bind_of_error hc]
    exact hpost
  · rw [hc] at hpost
    rw [Call.bind_of_ok hc]
    exact run_inv p w config hpost

theorem agentStop_starting (w : World) {s : Process} (h : Up s) : Starting (agentStop w s) := by
  have hstopping := h.acts (w.acts .stopping)
  have hjoined : Up (Process.acts { s.acts (w.acts .stopping) with agent := none } (w.acts .snapshotsJoined)) :=
    Up.acts (s := { s.acts (w.acts .stopping) with agent := none })
      ⟨hstopping.stack, hstopping.signal⟩ _
  have hframe := Process.acts_frame { s.acts (w.acts .stopping) with agent := none }
    (w.acts .snapshotsJoined)
  exact ⟨hframe.agent, hjoined.stack, Signal.Calls.samplerThreadEnds_off w.signal hjoined.signal⟩

theorem stop_inv (w : World) {s : Process} (h : Inv s) : Inv (stop w s).2 := by
  unfold stop
  cases hs : s.state with
  | idle => exact ⟨⟨h.stack, h.signal⟩, nofun, fun _ => ⟨(h.idle hs).agent, h.stack, (h.idle hs).signal⟩⟩
  | busy => exact (h.state hs).elim
  | running agent =>
    have htorn := stopProfilers_torn w
      (agentStop_starting w (s := { s with state := .busy }) ⟨h.stack, h.signal⟩)
    exact ⟨⟨htorn.stack, htorn.signal.steady⟩, nofun, fun _ => ⟨htorn.agent, htorn.stack, htorn.signal⟩⟩

theorem act_inv (a : Act) {s : Process} (h : Inv s) : Inv (s.act a) := by
  have hframe := s.act_frame a
  refine ⟨h.toUp.acts [a], fun hb => h.state (hframe.state.symm.trans hb), fun hi => ?_⟩
  exact (h.idle (hframe.state.symm.trans hi)).acts [a]

theorem initial_inv (action : Signal.Timers.Action) : Inv (.initial action) := by
  have hreached : Signal.Calls.Reached [] .idle (Process.initial action).signal.timers :=
    ⟨.init ⟨action, rfl⟩, rfl⟩
  exact ⟨⟨nofun, hreached, rfl⟩, nofun, fun _ => ⟨rfl, nofun, hreached, rfl, rfl⟩⟩

theorem after_inv (p : Platform) (action : Signal.Timers.Action) (history : List Op) :
    Inv (after p action history) := by
  refine List.foldlRecOn history (Op.apply p) (initial_inv action) fun s h op _ => ?_
  cases op with
  | configure w config => exact initializeAgent_inv p w config h
  | shutdown w => exact stop_inv w h
  | act a => exact act_inv a h

/-! ### A `run` in which nothing fails -/

/-- Every call out of the program succeeds. -/
structure World.NoFailure (w : World) : Prop where
  pendingError : w.pendingError = none
  memallocStart : w.memallocStart = (0, none)
  safeCopyFailed : w.safeCopyFailed = false
  samplerStarts : w.samplerStarts = true
  stackThreads : w.stackThreads = .ok ()
  httpClient : w.httpClient = .ok ()
  ctimerThreads : w.ctimerThreads = .ok ()
  signal : w.signal.NoFailure

/-- Nothing fails and nobody else acts. -/
def World.smooth : World where
  pendingError := none
  memallocStart := (0, none)
  safeCopyFailed := false
  samplerStarts := true
  stackThreads := .ok ()
  httpClient := .ok ()
  ctimerThreads := .ok ()
  signal := ⟨.ok (), .ok (), true, .ok (), fun _ _ => .ok (), fun _ _ => .ok (), .stored _, 0, 1⟩
  acts := fun _ => []

theorem World.smooth_noFailure : smooth.NoFailure :=
  ⟨rfl, rfl, rfl, rfl, rfl, rfl, rfl, rfl, rfl, rfl, rfl, fun _ _ => rfl, fun _ _ => rfl⟩

/-- What the backends check of their own configuration. -/
structure Config.Accepted (p : Platform) (config : Config) : Prop where
  pid : config.cpuConfig ≠ some (.pySpy none)
  signal : ∀ c, config.cpuConfig = some (.signal c) → c.Accepted p.signal

section NoFailure
variable {p : Platform} {w : World} {config : Config}
open Signal.Calls (returned_succeeds)

/-- `installed` is whether the hooks of the `CTimer` are there, `stopped` whether the Stack
sampler has been stopped before. -/
structure Ready (installed stopped : Bool) (s : Process) : Prop extends Starting s where
  installed : s.signal.installed = installed
  stopped : s.stoppedOnce = stopped

theorem Ready.acts {i b : Bool} {s : Process} (h : Ready i b s) (as : List Act) : Ready i b (s.acts as) :=
  ⟨h.toStarting.acts as, (s.acts_frame as).installed.trans h.installed,
    (s.acts_frame as).stoppedOnce.trans h.stopped⟩

theorem memoryStart_succeeds (hw : w.NoFailure) (i b : Bool) :
    (memoryStart w config).Ensures (Ready i b) (fun _ => Ready i b) fun _ _ => False := by
  unfold memoryStart
  split
  · exact .pure fun _ h => h
  · rw [hw.pendingError, hw.memallocStart]
    refine .bind (Q := fun _ => Ready i b) (.modify fun s h => ?_) fun _ => .pure fun _ h => h
    exact ⟨⟨h.agent, h.stack, h.signal⟩, h.installed, h.stopped⟩

theorem stackThreadsInstall_succeeds (hw : w.NoFailure) (i b : Bool) :
    (stackThreadsInstall w).Ensures (Ready i b) (fun _ => Ready i b) fun _ _ => False := by
  refine .bind (Q := fun _ => Ready i b) (.get fun _ h => h) fun s₀ => ?_
  split
  · exact .pure fun _ h => h
  · refine .bind (returned_succeeds hw.stackThreads) fun _ => .modify fun s h => ?_
    exact ⟨⟨h.agent, h.stack, h.signal⟩, h.installed, h.stopped⟩

theorem stackStart_succeeds (hw : w.NoFailure) (i : Bool) {b : Bool}
    (hb : config.stackEnabled = true → p.cpuTimerEnabled = true → b = false) :
    (stackStart p w config).Ensures (Ready i b) (fun _ => Ready i b) fun _ _ => False := by
  unfold stackStart
  split
  · exact .pure fun _ h => h
  · next henabled =>
    refine .bind (Q := fun _ => Ready i b) (.failIf (fun hfailed _ _ => ?_) fun _ _ h => h) fun _ => ?_
    · exact Bool.false_ne_true (hw.safeCopyFailed.symm.trans hfailed)
    · refine .bind (Q := fun s₀ s => s₀.stoppedOnce = b ∧ Ready i b s) (.get fun _ h => ⟨h.stopped, h⟩)
        fun s₀ => ?_
      refine .bind (Q := fun _ => Ready i b) (.failIf (fun hfailed s h => ?_) fun _ _ h => h.2) fun _ => ?_
      · rw [samplerStart, hw.samplerStarts, h.1, Bool.true_and, Bool.not_eq_false', Bool.and_eq_true] at hfailed
        rw [hb (Bool.eq_true_of_not_eq_false henabled) hfailed.1] at hfailed
        exact Bool.false_ne_true hfailed.2
      · refine .bind (Q := fun _ => Ready i b) (.modify fun s h => ?_)
          fun _ => stackThreadsInstall_succeeds hw i b
        exact ⟨⟨h.agent, fun _ => rfl, h.signal⟩, h.installed, h.stopped⟩

theorem build_succeeds (hw : w.NoFailure) (hc : config.Accepted p) {i : Bool} (b : Bool)
    (hi : ∀ c, config.cpuConfig = some (.signal c) → c.signalTimer = .cTimer → i = true) :
    (build p w config).Ensures (Ready i b) (fun _ _ => True) fun _ _ => False := by
  unfold build
  split
  · next pid hpid =>
    refine .bind (Q := fun _ _ => True) (.failIf (fun hnone => ?_) fun _ _ _ => trivial) fun _ =>
      .modify fun _ h => h
    rw [hnone] at hpid
    exact (hc.pid hpid).elim
  · next c hsignal =>
    refine .bind (Q := fun _ _ => True) (.mapError (.on fun s h => ?_)) fun _ => .modify fun _ h => h
    exact (Signal.Calls.new_succeeds hw.signal (hc.signal c hsignal) (hi c hsignal) s.signal
      ⟨h.signal.disarmed, h.installed⟩).imp (fun _ _ h => h) fun _ _ h => h
  · exact .pure fun _ _ => trivial

theorem run_succeeds (hw : w.NoFailure) (hc : config.Accepted p) {i b : Bool}
    (hi : ∀ c, config.cpuConfig = some (.signal c) → c.signalTimer = .cTimer → i = true)
    (hb : config.stackEnabled = true → p.cpuTimerEnabled = true → b = false) :
    (run p w config).Ensures (fun s => s.state = .idle ∧ Ready i b s) (fun _ _ => True)
      fun _ _ => False := by
  refine .bind (Q := fun _ => Ready i b) (fun s h => ?_) fun _ =>
    .bind (Q := fun _ _ => True) (.guarded ?_) fun _ => .modify fun _ h => h
  · unfold claim
    rw [h.1]
    exact ⟨⟨h.2.agent, h.2.stack, h.2.signal⟩, h.2.installed, h.2.stopped⟩
  · refine .bind (.mapError (memoryStart_succeeds hw i b)) fun _ => ?_
    refine .bind (Q := fun _ => Ready i b) (.modify fun s h => h.acts _) fun _ => ?_
    refine .bind (.mapError (stackStart_succeeds hw i hb)) fun _ => ?_
    refine .bind (Q := fun _ => Ready i b) (.modify fun s h => h.acts _) fun _ => ?_
    refine .bind (.mapError (returned_succeeds hw.httpClient)) fun _ => ?_
    refine .bind (Q := fun _ => Ready i b) (.modify fun s h => h.acts _) fun _ => ?_
    exact .bind (build_succeeds hw hc b hi) fun _ => .modify fun _ h => h

/- The hooks of the `CTimer` are there when they are needed. -/
theorem ctimerThreadsInstall_succeeds (hw : w.NoFailure) (b : Bool) :
    (ctimerThreadsInstall w config).Ensures
      (fun s => s.state = .idle ∧ Starting s ∧ s.stoppedOnce = b)
      (fun _ s => s.state = .idle ∧ ∃ i, Ready i b s ∧
        ∀ c, config.cpuConfig = some (.signal c) → c.signalTimer = .cTimer → i = true)
      fun _ _ => False := by
  unfold ctimerThreadsInstall
  split
  · next c hsignal =>
    split
    · next hmode =>
      refine .mapError (.on fun s h => ?_)
      refine Call.Ensures.bind (P := (· = s.signal)) (Q := fun x₀ x => x₀ = s.signal ∧ x = s.signal)
        (.get fun x hx => ⟨hx, hx⟩) (fun x₀ => ?_) s.signal rfl
      split
      · next hinstalled =>
        refine .pure fun x hx => ?_
        obtain ⟨rfl, rfl⟩ := hx
        exact ⟨h.1, true, ⟨⟨h.2.1.agent, h.2.1.stack, h.2.1.signal⟩, hinstalled, h.2.2⟩, fun _ _ _ => rfl⟩
      · refine .bind (returned_succeeds hw.ctimerThreads) fun _ => .modify fun x hx => ?_
        obtain ⟨-, rfl⟩ := hx
        have hoff := h.2.1.signal
        exact ⟨h.1, true, ⟨⟨h.2.1.agent, h.2.1.stack, hoff.reached, hoff.timer, hoff.noThread⟩, rfl, h.2.2⟩,
          fun _ _ _ => rfl⟩
    · next hmode =>
      refine .pure fun s h => ⟨h.1, s.signal.installed, ⟨h.2.1, rfl, h.2.2⟩, fun c' hc' ht => ?_⟩
      rw [hsignal] at hc'
      cases hc'
      exact (hmode ht).elim
  · next hother =>
    exact .pure fun s h => ⟨h.1, s.signal.installed, ⟨h.2.1, rfl, h.2.2⟩, fun c hc _ => (hother c hc).elim⟩

theorem initializeAgent_succeeds (hw : w.NoFailure) (hc : config.Accepted p) {s : Process}
    (hs : s.state = .idle) (h : Starting s)
    (hb : config.stackEnabled = true → p.cpuTimerEnabled = true → s.stoppedOnce = false) :
    (initializeAgent p w config s).1 = .ok () := by
  obtain ⟨u, s', hinstall, hidle, i, hready, hi⟩ :=
    (ctimerThreadsInstall_succeeds hw s.stoppedOnce).succeeds ⟨hs, h, rfl⟩
  obtain ⟨u', s'', hrun, -⟩ := (run_succeeds hw hc hi hb).succeeds ⟨hidle, hready⟩
  rw [initializeAgent, Call.bind_of_ok hinstall, hrun]

end NoFailure

/-! ### The rollback -/

/-- Wherever a `run` from an idle process fails, after any history, nothing of it is left;
and a configure in which no call fails, of a configuration that its backend accepts,
succeeds afterwards, unless it is to restart the CPU timer engine. -/
theorem failed_run_rolls_back (p : Platform) (action : Signal.Timers.Action) (history : List Op)
    (w : World) (config : Config) (err : PyroscopeError) (s : Process)
    (hidle : (after p action history).state = .idle)
    (hrun : run p w config (after p action history) = (.error err, s)) :
    RolledBack s ∧ ∀ (as : List Act) (w' : World) (config' : Config), w'.NoFailure → config'.Accepted p →
      ¬(config'.stackEnabled = true ∧ p.cpuTimerEnabled = true ∧ s.stoppedOnce = true) →
      (initializeAgent p w' config' (s.acts as)).1 = .ok () := by
  have hpost := run_idle p w config _ ⟨hidle, (after_inv p action history).idle hidle⟩
  rw [hrun] at hpost
  obtain ⟨hstate, htorn⟩ := hpost
  refine ⟨htorn.rolledBack hstate, fun as w' config' hw hc hrestart => ?_⟩
  have hframe := s.acts_frame as
  refine initializeAgent_succeeds hw hc (hframe.state.trans hstate) (htorn.toStarting.acts as) ?_
  intro hstack htimer
  rw [hframe.stoppedOnce]
  exact Bool.eq_false_iff.mpr fun hs => hrestart ⟨hstack, htimer, hs⟩

/-- A build for Python 3.12 on Linux, at 100 ticks a second. -/
def Platform.linux : Platform := ⟨⟨true, (3, 12), fun _ => 10000000⟩, true⟩

/-- The hooks of Python's threads cannot be installed; the memory profiler has interned a
string by then. -/
def World.hooksFail : World := { World.smooth with
  stackThreads := .error "ImportError"
  acts := fun | .memoryStarted => [.internMemory fromAscii ⟨some [102]⟩] | _ => [] }

theorem failed_run_rolls_back_hooks : ∃ (err : PyroscopeError) (s : Process),
    run .linux .hooksFail ⟨true, true, none, ⟨false, false, false⟩⟩ (after .linux .dfl []) = (.error err, s) ∧
      s.stoppedOnce = true ∧ RolledBack s ∧ (initializeAgent .linux .smooth
        ⟨true, false, some (.signal ⟨(3, 12), 100, .cTimer⟩), ⟨false, false, false⟩⟩ s).1 = .ok () := by
  have hrun : run .linux .hooksFail ⟨true, true, none, ⟨false, false, false⟩⟩ (after .linux .dfl []) =
      (.error (.adHoc "failed to start CPU stack sampler: ImportError"), _) := rfl
  have haccepted : Config.Accepted .linux
      ⟨true, false, some (.signal ⟨(3, 12), 100, .cTimer⟩), ⟨false, false, false⟩⟩ := by
    refine ⟨nofun, fun c hc => ?_⟩
    cases hc
    exact ⟨rfl, by decide, by decide, fun _ => rfl⟩
  obtain ⟨hback, hnext⟩ := failed_run_rolls_back _ _ _ _ _ _ _ rfl hrun
  exact ⟨_, _, hrun, rfl, hback, hnext [] .smooth _ World.smooth_noFailure haccepted nofun⟩

/- A rate of zero is refused by Signal itself, also when no call fails. -/
theorem rate_zero_refused : ∃ (err : PyroscopeError) (s : Process),
    run .linux .hooksFail ⟨true, true, none, ⟨false, false, false⟩⟩ (after .linux .dfl []) = (.error err, s) ∧
      World.smooth.NoFailure ∧
      (initializeAgent .linux .smooth
        ⟨false, false, some (.signal ⟨(3, 12), 0, .iTimer⟩), ⟨false, false, false⟩⟩ s).1 =
          .error (.adHoc "Signal: the sampling rate must be greater than zero") :=
  ⟨.adHoc "failed to start CPU stack sampler: ImportError", _, rfl, World.smooth_noFailure, rfl⟩

end Pyroscope.Agent.Configure
