import Pyroscope.Agent.Lifecycle
import Pyroscope.Lib.Locking
import Pyroscope.Signal.Timers

/-!
# The locks of the lifecycle (ffikit.rs, pyroscope.rs, memory.rs, stack/mod.rs, signal_backend.rs)

What each thread locks, joins and starts, in the order of the source; the GIL is a lock like
the others and `py.detach` gives it back for a while. Python threads call the agent and run
the hooks; an agent has a snapshot thread, a session manager and perhaps a sampler, and the
Stack profiler a thread of its own in C++. Of the data only what decides the next lock is
kept; what else a branch depends on comes from `answer`. The C++ side holds no lock of its
own while it is in Rust, and stopping it is to wait for its thread. Locks are not poisoned.
-/

namespace Pyroscope.Agent.Locks
open Pyroscope.Lib Pyroscope.Lib.Locking Pyroscope.Agent.Lifecycle Pyroscope.Signal.Timers

/-- The number of an agent, or of a run of the C++ sampler. -/
inductive Thread where
  | python (i : ℕ)
  | stopper (n : ℕ)
  | snapshot (n : ℕ)
  | sessionManager (n : ℕ)
  | sampler (n : ℕ)
  | stackSampler (n : ℕ)
  | httpClient (n : ℕ)
  deriving DecidableEq

inductive Lock where
  | gil
  | state
  | rules (n : ℕ)
  | stringTable
  | memoryBuilder
  | stackBuilder
  | oncpuBuilder
  | stackBuffer (n : ℕ)
  | handledSignals
  | timer
  | live
  | sharedTimer (n : ℕ)
  deriving DecidableEq

inductive Backend where
  | pySpy
  | signal (mode : Mode)
  deriving DecidableEq

structure Config where
  memory : Bool
  stack : Bool
  oncpu : Bool
  backend : Option Backend

/-- `started` is the C++ sampler while `STARTED` is set, `timer` the session in `TIMER`.
`stopped` and `terminated` are what stops the threads of an agent, `dropped` that its Signal
session is gone. -/
structure Shared where
  state : AgentState
  agents : ℕ
  samplers : ℕ
  configs : ℕ → Config
  started : Option ℕ
  timer : Option ℕ
  terminated : ℕ → Bool
  stopped : ℕ → Bool
  dropped : ℕ → Bool

/-- What a Python thread does between two native instructions of a call into Python. -/
inductive Event where
  | yield
  | memoryHook (strings : ℕ)
  | registerThread
  | unregisterThread

structure Answer where
  ok : Bool
  count : ℕ
  events : List Event

abbrev Prog := Locking.Prog Thread Lock Shared Answer

open Locking.Prog

def take (l : Lock) : Prog Unit := locked l (pure ())

/-! ### Hooks -/

/-- `pyroscope_string_table_intern_utf8` and `_ascii` -/
def intern : Prog Unit := take .stringTable

/-- A memory hook interns the strings of its frames and pushes the sample. -/
def memoryHook (strings : ℕ) : Prog Unit := do
  times strings intern
  take .memoryBuilder

/-- `thread_created` and `thread_removed` on the timer of session `n` -/
def withTimer (n : ℕ) : Prog Unit := take (.sharedTimer n)

def registerThread : Prog Unit := do
  take .live
  locked .timer do
    let x ← get
    each (fun n => do
      let replaced ← answer
      when replaced.ok (withTimer n)
      withTimer n) x.timer.toList

def unregisterThread : Prog Unit := do
  take .live
  let known ← answer
  when known.ok do
    locked .timer do
      let x ← get
      each withTimer x.timer.toList

def event : Event → Prog Unit
  | .yield => unlocked .gil (pure ())
  | .memoryHook strings => memoryHook strings
  | .registerThread => registerThread
  | .unregisterThread => unregisterThread

def pythonCode : Prog Unit := do
  let w ← answer
  each event w.events

/-! ### Stopping the profilers -/

def memoryClearSamples : Prog Unit := take .memoryBuilder

/-- `memory::stop`; `memalloc_stop` is C++ under the GIL, which may run Python code. -/
def memoryStop : Prog Unit := do
  pythonCode
  memoryClearSamples

def stackClearSamples : Prog Unit := do
  take .stackBuilder
  take .oncpuBuilder

def stackStop : Prog Unit := do
  let x ← get
  modify fun x => { x with started := none }
  each (fun n => unlocked .gil (join (.stackSampler n))) x.started.toList
  stackClearSamples

def stopProfilers : Prog Unit := do
  memoryStop
  stackStop
  take .stringTable

/-! ### Starting -/

/-- `memory::start`; an error that Python raises after the start rolls it back. -/
def memoryStart (config : Config) : Prog Bool := do
  if config.memory = false then pure true
  else do
    pythonCode
    let status ← answer
    let err ← answer
    when (status.ok && !err.ok) memoryStop
    pure (status.ok && err.ok)

def stackStart (config : Config) : Prog Bool := do
  if config.stack = false then pure true
  else do
    let w ← answer
    if w.ok then do
      let x ← get
      modify fun x => { x with samplers := x.samplers + 1, started := some x.samplers }
      spawn (.stackSampler x.samplers) .done
      pythonCode
      let installed ← answer
      pure installed.ok
    else pure false

/-- `create_http_client`; on macOS a thread of its own builds it. -/
def createHttpClient (macos : Bool) (n : ℕ) : Prog Bool := do
  when macos do
    spawn (.httpClient n) .done
    join (.httpClient n)
  let w ← answer
  pure w.ok

/-- The session's timer, then its handler. -/
def sessionDrop (n : ℕ) : Prog Unit := do
  take (.sharedTimer n)
  take .handledSignals

/-- `SignalHandlerSession::start`: the handler is dropped again if the timer does not start. -/
def sessionStart : Prog Bool := do
  let checked ← answer
  if checked.ok then do
    take .handledSignals
    let installed ← answer
    if installed.ok then do
      let w ← answer
      if w.ok then pure true
      else do
        take .handledSignals
        pure false
    else pure false
  else pure false

def attach (n : ℕ) : Prog Bool :=
  locked .timer do
    locked .live do
      withTimer n
      let w ← answer
      if w.ok then do
        times w.count (withTimer n)
        modify fun x => { x with timer := some n }
        pure true
      else pure false

/-- `Signal::new` -/
def signalNew (n : ℕ) (mode : Mode) : Prog Bool := do
  let started ← sessionStart
  if started then do
    let attached ← (match mode with
      | .cTimer => attach n
      | .iTimer => pure true)
    if attached then do
      spawn (.sampler n) .done
      pure true
    else do
      sessionDrop n
      pure false
  else pure false

/-- `PyroscopeAgentBuilder::build` and `PyroscopeAgent::start` -/
def build (n : ℕ) (config : Config) : Prog Bool := do
  let built ← (match config.backend with
    | some (.signal mode) => signalNew n mode
    | some .pySpy => do
      spawn (.sampler n) .done
      pure true
    | none => pure true)
  when built do
    spawn (.sessionManager n) .done
    spawn (.snapshot n) .done
  pure built

/-- The closure in `run`, which ends at the first `?`. -/
def start (macos : Bool) (n : ℕ) (config : Config) : Prog Bool := do
  let memory ← memoryStart config
  if memory then do
    let stack ← stackStart config
    if stack then do
      let client ← createHttpClient macos n
      if client then build n config else pure false
    else pure false
  else pure false

/-- `run`. The agent has its number from here on. -/
def run (macos : Bool) (config : Config) : Prog Unit := do
  let claim ← locked .state do
    let x ← get
    modify fun x => { x with state := (claimForRun x.state).2 }
    pure (claimForRun x.state).1
  match claim with
  | .error _ => pure ()
  | .ok () => do
    let x ← get
    modify fun x => { x with
      agents := x.agents + 1, configs := Function.update x.configs x.agents config }
    let started ← start macos x.agents config
    if started then locked .state (modify fun s => { s with state := .running x.agents })
    else do
      stopProfilers
      locked .state (modify fun s => { s with state := .idle })

/-! ### The functions that Python calls -/

def initializeAgent (macos : Bool) (config : Config) : Prog Unit := locked .gil do
  let accepted ← answer
  when accepted.ok do
    let hooks ← (if config.backend = some (.signal .cTimer) then do
        pythonCode
        let w ← answer
        pure w.ok
      else pure true)
    when hooks (run macos config)

def agentStop (n : ℕ) : Prog Unit := do
  modify fun x => { x with terminated := Function.update x.terminated n true }
  join (.snapshot n)
  let x ← get
  when (x.configs n).backend.isSome do
    modify fun x => { x with stopped := Function.update x.stopped n true }
    join (.sampler n)
  join (.sessionManager n)

def dropAgent (macos : Bool) : Prog Unit := locked .gil do
  let claim ← locked .state do
    let x ← get
    modify fun x => { x with state := (claimForStop x.state).2 }
    pure (claimForStop x.state).1
  match claim with
  | .error _ => pure ()
  | .ok n => do
    unlocked .gil do
      if macos then do
        spawn (.stopper n) (agentStop n).code
        join (.stopper n)
      else agentStop n
    stopProfilers
    locked .state (modify fun s => { s with state := .idle })

/-- `add_thread_tag` and `remove_thread_tag`, which differ in what they do to the rules. -/
def threadTag : Prog Unit := locked .gil do
  locked .state do
    let x ← get
    match x.state with
    | .running n => take (.rules n)
    | _ => pure ()

/-! ### The threads of an agent -/

/-- `memory::implementation::dump_pprof`, whose flush runs C++ under the GIL. -/
def memoryDump : Prog Unit := do
  let attached ← answer
  when attached.ok do
    locked .gil do
      pythonCode
      locked .stringTable (take .memoryBuilder)

def stackDump (oncpu : Bool) : Prog Unit :=
  locked .stringTable (take (if oncpu then .oncpuBuilder else .stackBuilder))

def snapshot (n : ℕ) (config : Config) : Prog Unit := do
  when config.memory memoryDump
  when config.stack (stackDump config.oncpu)
  when config.backend.isSome (take (.stackBuffer n))

/-- One trace of the PySpy sampler. -/
def pySpySample (n : ℕ) : Prog Unit := do
  take (.rules n)
  take (.stackBuffer n)

/-- What the Signal sampler does once it is told to stop. -/
def signalEnd (n : ℕ) (mode : Mode) : Prog Unit := do
  when (mode = .cTimer) (locked .timer (modify fun x => { x with timer := none }))
  sessionDrop n
  modify fun x => { x with dropped := Function.update x.dropped n true }

/-- What a thread may begin when it has nothing left to do. -/
inductive Begins (macos : Bool) : Thread → Shared → Code Thread Lock Shared Answer → Prop where
  | initializeAgent {i x} (config : Config) :
    Begins macos (.python i) x (Locks.initializeAgent macos config).code
  | dropAgent {i x} : Begins macos (.python i) x (Locks.dropAgent macos).code
  | threadTag {i x} : Begins macos (.python i) x Locks.threadTag.code
  | hook {i x} (e : Event) : Begins macos (.python i) x (locked .gil (event e)).code
  | snapshot {n x} : Begins macos (.snapshot n) x (Locks.snapshot n (x.configs n)).code
  | pySpySample {n x} (h : (x.configs n).backend = some .pySpy) :
    Begins macos (.sampler n) x (Locks.pySpySample n).code
  | signalSample {n x mode} (h : (x.configs n).backend = some (.signal mode)) :
    Begins macos (.sampler n) x (take (.stackBuffer n)).code
  | signalEnd {n x mode} (h : (x.configs n).backend = some (.signal mode))
    (told : x.stopped n = true) (once : x.dropped n = false) :
    Begins macos (.sampler n) x (Locks.signalEnd n mode).code
  | stackIntern {n x} : Begins macos (.stackSampler n) x intern.code
  | stackPush {n x} (oncpu : Bool) :
    Begins macos (.stackSampler n) x (take (if oncpu then .oncpuBuilder else .stackBuilder)).code

/-- Threads end when they are told to, or after an error. A Signal sampler drops its session first. -/
def Ends : Thread → Shared → Prop
  | .python _, _ => False
  | .sampler n, x => match (x.configs n).backend with
    | some (.signal _) => x.dropped n = true
    | _ => True
  | _, _ => True

/-- No agent, and any number of Python threads. -/
structure Initial (s : Locking.State Thread Lock Shared Answer) : Prop where
  unlocked : ∀ l, s.owner l = none
  python : ∀ i, s.threads (.python i) = .running .done
  others : ∀ t, (∀ i, t ≠ .python i) → s.threads t = .absent
  idle : s.shared.state = .idle

/-! ### The order -/

def rank : Lock → ℕ
  | .gil => 3
  | .state | .stringTable | .stackBuffer _ | .handledSignals | .timer => 4
  | .rules _ | .memoryBuilder | .stackBuilder | .oncpuBuilder | .live => 5
  | .sharedTimer _ => 6

/-- Below the GIL are the threads that may wait for it, below them those that join them. -/
def level : Thread → ℕ
  | .python _ => 0
  | .stopper _ => 1
  | .snapshot _ | .sessionManager _ | .sampler _ | .stackSampler _ => 2
  | .httpClient _ => 4

abbrev Keeps {α : Type} (me : ℕ) (held : List Lock) (p : Prog α) : Prop :=
  Prog.Keeps rank level me held p held

section Keeps
variable {me : ℕ} {held : List Lock}

theorem take_keeps {l : Lock} (h : Above rank me held (rank l)) : Keeps me held (take l) := .locked h .pure

/- The GIL comes first. -/
theorem above_gil {l : Lock} (hme : me < 3) (hl : 3 < rank l) : Above rank me [.gil] (rank l) := by
  refine ⟨by omega, fun l' hl' => ?_⟩
  rw [List.mem_singleton.mp hl']
  exact hl

theorem memoryHook_keeps (hme : me < 3) (strings : ℕ) : Keeps me [.gil] (memoryHook strings) :=
  .bind (.times (take_keeps (above_gil hme (by decide))) strings) fun _ =>
    take_keeps (above_gil hme (by decide))

theorem registerThread_keeps (hme : me < 3) : Keeps me [.gil] registerThread := by
  have htimer : ∀ n, Keeps me [.timer, .gil] (withTimer n) := fun n => take_keeps (by simp [Above, rank]; omega)
  refine .bind (take_keeps (above_gil hme (by decide))) fun _ => .locked (above_gil hme (by decide)) ?_
  refine .bind .get fun x => .each (fun n => ?_) _
  exact .bind .answer fun replaced => .bind (.when (htimer n) replaced.ok) fun _ => htimer n

theorem unregisterThread_keeps (hme : me < 3) : Keeps me [.gil] unregisterThread := by
  have htimer : ∀ n, Keeps me [.timer, .gil] (withTimer n) := fun n => take_keeps (by simp [Above, rank]; omega)
  refine .bind (take_keeps (above_gil hme (by decide))) fun _ => .bind .answer fun known => .when ?_ known.ok
  exact .locked (above_gil hme (by decide)) (.bind .get fun x => .each htimer _)

theorem event_keeps (hme : me < 3) (e : Event) : Keeps me [.gil] (event e) := by
  cases e with
  | yield => exact .unlocked ⟨hme, nofun⟩ .pure
  | memoryHook strings => exact memoryHook_keeps hme strings
  | registerThread => exact registerThread_keeps hme
  | unregisterThread => exact unregisterThread_keeps hme

theorem pythonCode_keeps (hme : me < 3) : Keeps me [.gil] pythonCode :=
  .bind .answer fun w => .each (event_keeps hme) w.events

/-! ### Python threads -/

theorem memoryStop_keeps : Keeps 0 [.gil] memoryStop :=
  .bind (pythonCode_keeps (by decide)) fun _ => take_keeps (above_gil (by decide) (by decide))

theorem stopProfilers_keeps : Keeps 0 [.gil] stopProfilers := by
  have htake : ∀ {l : Lock}, 3 < rank l → Keeps 0 [.gil] (take l) :=
    fun hl => take_keeps (above_gil (by decide) hl)
  have hstop : Keeps 0 [.gil] stackStop := by
    refine .bind .get fun x => .bind .modify fun _ => .bind (.each (fun n => ?_) _) fun _ => ?_
    · exact .unlocked (by simp [Above, rank]) (.join (by simp [Above, level]))
    · exact .bind (htake (by decide)) fun _ => htake (by decide)
  exact .bind memoryStop_keeps fun _ => .bind hstop fun _ => htake (by decide)

theorem memoryStart_keeps (config : Config) : Keeps 0 [.gil] (memoryStart config) := by
  unfold memoryStart
  split
  · exact .pure
  · refine .bind (pythonCode_keeps (by decide)) fun _ => ?_
    exact .bind .answer fun status => .bind .answer fun err => .bind (.when memoryStop_keeps _) fun _ => .pure

theorem stackStart_keeps (config : Config) : Keeps 0 [.gil] (stackStart config) := by
  unfold stackStart
  split
  · exact .pure
  · refine .bind .answer fun w => ?_
    split
    · refine .bind .get fun x => .bind .modify fun _ => .bind (.spawn rfl) fun _ => ?_
      exact .bind (pythonCode_keeps (by decide)) fun _ => .bind .answer fun _ => .pure
    · exact .pure

theorem createHttpClient_keeps (macos : Bool) (n : ℕ) : Keeps 0 [.gil] (createHttpClient macos n) := by
  refine .bind (.when ?_ macos) fun _ => .bind .answer fun _ => .pure
  exact .bind (.spawn rfl) fun _ => .join (by simp [Above, rank, level])

theorem sessionDrop_keeps (n : ℕ) (h : Above rank me held 4) (h' : Above rank me held 6) :
    Keeps me held (sessionDrop n) :=
  .bind (take_keeps h') fun _ => take_keeps h

theorem attach_keeps (n : ℕ) : Keeps 0 [.gil] (attach n) := by
  have htimer : Keeps 0 [.live, .timer, .gil] (withTimer n) := take_keeps (by simp [Above, rank])
  refine .locked (by simp [Above, rank]) (.locked (by simp [Above, rank]) ?_)
  refine .bind htimer fun _ => .bind .answer fun w => ?_
  split
  · exact .bind (.times htimer w.count) fun _ => .bind .modify fun _ => .pure
  · exact .pure

theorem sessionStart_keeps : Keeps 0 [.gil] sessionStart := by
  have htake : Keeps 0 [.gil] (take .handledSignals) := take_keeps (above_gil (by decide) (by decide))
  refine .bind .answer fun checked => ?_
  split
  · refine .bind htake fun _ => .bind .answer fun installed => ?_
    split
    · refine .bind .answer fun w => ?_
      split
      · exact .pure
      · exact .bind htake fun _ => .pure
    · exact .pure
  · exact .pure

theorem signalNew_keeps (n : ℕ) (mode : Mode) : Keeps 0 [.gil] (signalNew n mode) := by
  have hattached : Keeps 0 [.gil] (match mode with
      | .cTimer => attach n
      | .iTimer => pure true) := by
    cases mode with
    | cTimer => exact attach_keeps n
    | iTimer => exact .pure
  refine .bind sessionStart_keeps fun started => ?_
  split
  · refine .bind hattached fun attached => ?_
    split
    · exact .bind (.spawn rfl) fun _ => .pure
    · exact .bind (sessionDrop_keeps n (by simp [Above, rank]) (by simp [Above, rank])) fun _ => .pure
  · exact .pure

theorem build_keeps (n : ℕ) (config : Config) : Keeps 0 [.gil] (build n config) := by
  have hbackend : Keeps 0 [.gil] (match config.backend with
      | some (.signal mode) => signalNew n mode
      | some .pySpy => do
        spawn (.sampler n) .done
        pure true
      | none => pure true) := by
    split
    · next mode _ => exact signalNew_keeps n mode
    · exact .bind (.spawn rfl) fun _ => .pure
    · exact .pure
  refine .bind hbackend fun built => .bind (.when ?_ built) fun _ => .pure
  exact .bind (.spawn rfl) fun _ => .spawn rfl

theorem start_keeps (macos : Bool) (n : ℕ) (config : Config) : Keeps 0 [.gil] (start macos n config) := by
  refine .bind (memoryStart_keeps config) fun memory => ?_
  split
  · refine .bind (stackStart_keeps config) fun stack => ?_
    split
    · refine .bind (createHttpClient_keeps macos n) fun client => ?_
      split
      · exact build_keeps n config
      · exact .pure
    · exact .pure
  · exact .pure

/- A critical section on `STATE`, which only Python threads enter, with the GIL. -/
theorem state_keeps {α : Type} {p : Prog α} (hp : Keeps 0 [.state, .gil] p) :
    Keeps 0 [.gil] (locked .state p) := .locked (by simp [Above, rank]) hp

theorem run_keeps (macos : Bool) (config : Config) : Keeps 0 [.gil] (run macos config) := by
  refine .bind (state_keeps (.bind .get fun x => .bind .modify fun _ => .pure)) fun claim => ?_
  cases claim with
  | error e => exact .pure
  | ok _ =>
    refine .bind .get fun x => .bind .modify fun _ => .bind (start_keeps macos x.agents config) fun started => ?_
    split
    · exact state_keeps .modify
    · exact .bind stopProfilers_keeps fun _ => state_keeps .modify

theorem initializeAgent_keeps (macos : Bool) (config : Config) :
    Keeps 0 [] (initializeAgent macos config) := by
  have hinstall : Keeps 0 [.gil] (if config.backend = some (.signal .cTimer) then do
        pythonCode
        let w ← answer
        pure w.ok
      else pure true) := by
    split
    · exact .bind (pythonCode_keeps (by decide)) fun _ => .bind .answer fun _ => .pure
    · exact .pure
  refine .locked (by simp [Above, rank]) (.bind .answer fun accepted => .when ?_ accepted.ok)
  exact .bind hinstall fun hooks => .when (run_keeps macos config) hooks

/- The one that stops an agent has no lock, whichever thread it is. -/
theorem agentStop_keeps (n : ℕ) (hme : me < 2) : Keeps me [] (agentStop n) := by
  have hjoin : ∀ {t : Thread}, level t = 2 → Keeps me [] (join t) :=
    fun ht => .join ⟨by omega, nofun⟩
  refine .bind .modify fun _ => .bind (hjoin rfl) fun _ => .bind .get fun x => ?_
  exact .bind (.when (.bind .modify fun _ => hjoin rfl) _) fun _ => hjoin rfl

theorem dropAgent_keeps (macos : Bool) : Keeps 0 [] (dropAgent macos) := by
  have hstop : ∀ n, Keeps 0 [] (if macos then do
        spawn (.stopper n) (agentStop n).code
        join (.stopper n)
      else agentStop n) := by
    intro n
    split
    · exact .bind (.spawn (agentStop_keeps n (by simp [level])).code) fun _ => .join (by simp [Above, level])
    · exact agentStop_keeps n (by decide)
  refine .locked (by simp [Above, rank]) ?_
  refine .bind (state_keeps (.bind .get fun x => .bind .modify fun _ => .pure)) fun claim => ?_
  cases claim with
  | error e => exact .pure
  | ok n =>
    refine .bind (.unlocked (by simp [Above, rank]) (hstop n)) fun _ => ?_
    exact .bind stopProfilers_keeps fun _ => state_keeps .modify

theorem threadTag_keeps : Keeps 0 [] threadTag := by
  refine .locked (by simp [Above, rank]) (state_keeps (.bind .get fun x => ?_))
  split
  · exact take_keeps (by simp [Above, rank])
  · exact .pure

/-! ### The other threads -/

theorem snapshot_keeps (n : ℕ) (config : Config) : Keeps 2 [] (snapshot n config) := by
  have hmemory : Keeps 2 [] memoryDump := by
    refine .bind .answer fun attached => .when (.locked (by simp [Above, rank]) ?_) attached.ok
    refine .bind (pythonCode_keeps (by decide)) fun _ => .locked (by simp [Above, rank]) ?_
    exact take_keeps (by simp [Above, rank])
  have hstack : Keeps 2 [] (stackDump config.oncpu) := by
    refine .locked (by simp [Above, rank]) (take_keeps ?_)
    cases config.oncpu <;> simp [Above, rank]
  refine .bind (.when hmemory _) fun _ => .bind (.when hstack _) fun _ => .when ?_ _
  exact take_keeps (by simp [Above, rank])

theorem pySpySample_keeps (n : ℕ) : Keeps 2 [] (pySpySample n) :=
  .bind (take_keeps (by simp [Above, rank])) fun _ => take_keeps (by simp [Above, rank])

theorem signalEnd_keeps (n : ℕ) (mode : Mode) : Keeps 2 [] (signalEnd n mode) := by
  refine .bind (.when (.locked (by simp [Above, rank]) .modify) _) fun _ => ?_
  exact .bind (sessionDrop_keeps n (by simp [Above]) (by simp [Above])) fun _ => .modify

theorem begins_ordered {macos : Bool} {t : Thread} {x : Shared} {code : Code Thread Lock Shared Answer}
    (h : Begins macos t x code) : code.Ordered rank level (level t) [] := by
  cases h with
  | initializeAgent config => exact (initializeAgent_keeps macos config).code
  | dropAgent => exact (dropAgent_keeps macos).code
  | threadTag => exact threadTag_keeps.code
  | hook e => exact (Keeps.locked (by simp [Above, rank, level]) (event_keeps (by simp [level]) e)).code
  | snapshot => exact (snapshot_keeps _ _).code
  | pySpySample h => exact (pySpySample_keeps _).code
  | signalSample h => exact (take_keeps (by simp [Above, rank, level])).code
  | signalEnd h told once => exact (signalEnd_keeps _ _).code
  | stackIntern => exact (take_keeps (by simp [Above, rank, level])).code
  | stackPush oncpu => exact (take_keeps (by cases oncpu <;> simp [Above, rank, level])).code

end Keeps

theorem Initial.still {s : Locking.State Thread Lock Shared Answer} (h : Initial s) : Still s := by
  refine ⟨h.unlocked, fun t => ?_⟩
  by_cases ht : ∃ i, t = .python i
  · obtain ⟨i, rfl⟩ := ht
    exact .inr (h.python i)
  · exact .inl (h.others t fun i hi => ht ⟨i, hi⟩)

/-- However the threads interleave, and however many Python threads there are. -/
theorem lifecycle_no_deadlock (macos : Bool) {s : Locking.State Thread Lock Shared Answer}
    (h : Reachable Initial (Run (Begins macos) Ends) s) : ¬Deadlock s :=
  reachable_no_deadlock (fun _ _ _ hb => begins_ordered hb) (fun _ hs => hs.still) h

/- The one who stops the agent waits for the snapshot thread, which waits for the GIL of a
thread that sets a tag. -/
theorem lifecycle_no_deadlock_waiting : ∃ s : Locking.State Thread Lock Shared Answer,
    Waits s (.python 0) (.snapshot 0) ∧ Waits s (.snapshot 0) (.python 1) ∧ ¬Deadlock s := by
  have h : Reachable Initial (Run (Begins false) Ends) ⟨fun | .python _ => .running .done | _ => .absent,
      fun _ => none, ⟨.idle, 0, 0, fun _ => ⟨false, false, false, none⟩, none, none, fun _ => false,
        fun _ => false, fun _ => false⟩⟩ := by
    refine .init ⟨fun _ => rfl, fun _ => rfl, fun t ht => ?_, rfl⟩
    cases t with
    | python i => exact (ht i rfl).elim
    | _ => rfl
  have h := h.step ⟨.python 0, .start rfl (.initializeAgent ⟨true, false, false, none⟩)⟩
  have h := h.step ⟨.python 0, .acquire rfl rfl⟩
  have h := h.step ⟨.python 0, .answer rfl ⟨true, 0, []⟩⟩
  have h := h.step ⟨.python 0, .acquire rfl rfl⟩
  have h := h.step ⟨.python 0, .act rfl⟩
  have h := h.step ⟨.python 0, .act rfl⟩
  have h := h.step ⟨.python 0, .release rfl⟩
  have h := h.step ⟨.python 0, .act rfl⟩
  have h := h.step ⟨.python 0, .act rfl⟩
  have h := h.step ⟨.python 0, .answer rfl ⟨true, 0, []⟩⟩
  have h := h.step ⟨.python 0, .answer rfl ⟨true, 0, []⟩⟩
  have h := h.step ⟨.python 0, .answer rfl ⟨true, 0, []⟩⟩
  have h := h.step ⟨.python 0, .answer rfl ⟨true, 0, []⟩⟩
  have h := h.step ⟨.python 0, .spawn rfl rfl⟩
  have h := h.step ⟨.python 0, .spawn rfl rfl⟩
  have h := h.step ⟨.python 0, .acquire rfl rfl⟩
  have h := h.step ⟨.python 0, .act rfl⟩
  have h := h.step ⟨.python 0, .release rfl⟩
  have h := h.step ⟨.python 0, .release rfl⟩
  -- `drop_agent` up to the join
  have h := h.step ⟨.python 0, .start rfl .dropAgent⟩
  have h := h.step ⟨.python 0, .acquire rfl rfl⟩
  have h := h.step ⟨.python 0, .acquire rfl rfl⟩
  have h := h.step ⟨.python 0, .act rfl⟩
  have h := h.step ⟨.python 0, .act rfl⟩
  have h := h.step ⟨.python 0, .release rfl⟩
  have h := h.step ⟨.python 0, .release rfl⟩
  have h := h.step ⟨.python 0, .act rfl⟩
  have h := h.step ⟨.python 1, .start rfl .threadTag⟩
  have h := h.step ⟨.python 1, .acquire rfl rfl⟩
  have h := h.step ⟨.snapshot 0, .start rfl .snapshot⟩
  have h := h.step ⟨.snapshot 0, .answer rfl ⟨true, 0, []⟩⟩
  exact ⟨_, .thread rfl (by nofun), .lock rfl rfl, lifecycle_no_deadlock false h⟩

end Pyroscope.Agent.Locks
