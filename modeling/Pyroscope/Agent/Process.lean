import Pyroscope.Agent.Profilers
import Pyroscope.Agent.Lifecycle
import Pyroscope.Signal.Registry

/-!
# The process around a session (ffikit.rs, memory.rs, stack/mod.rs, signal_backend.rs)

All that `run` and `stop` start and stop, in one state, and what the profilers, the
sampler threads, the snapshot thread and the hooks of Python's threads do to it in the
meantime. An act is enabled only while the party that performs it is there; it is one
critical section, or a run of the signal handler.
-/

namespace Pyroscope.Agent.Configure
open Pyroscope.Lib Pyroscope.Encode Pyroscope.Backend
open Pyroscope.Signal (Frame Metrics Reason ResolvedFrame)

inductive CpuConfig where
  | pySpy (pid : Option ℕ)
  | signal (config : Signal.Calls.Config)

structure Config where
  memEnabled : Bool
  stackEnabled : Bool
  cpuConfig : Option CpuConfig
  backendConfig : BackendConfig

def Config.hasPySpy (config : Config) : Bool :=
  match config.cpuConfig with
  | some (.pySpy _) => true
  | _ => false

def Config.hasSignal (config : Config) : Bool :=
  match config.cpuConfig with
  | some (.signal _) => true
  | _ => false

/-- What an upload contains: a dump, or the `StackBuffer` behind a report. -/
inductive Upload where
  | dump (profile : Option Profile)
  | report (report : StackBuffer)

/-- `profilers` has the builders and the string table; the control point in it is not used.
`agent` is there while the snapshot thread runs, `pyspyThread` while py-spy's sampler
does. `buffer` is the `StackBuffer` of the last backend. -/
structure Process where
  state : Lifecycle.AgentState
  nextAgent : ℕ
  agent : Option Config
  profilers : Agent.State
  started : Bool
  stoppedOnce : Bool
  stackThreadsInstalled : Bool
  signal : Signal.Calls.Statics
  pyspyThread : Bool
  backendConfig : BackendConfig
  buffer : StackBuffer
  uploads : List Upload

/-- `action` is what SIGPROF did before. -/
def Process.initial (action : Signal.Timers.Action) : Process where
  state := .idle
  nextAgent := 0
  agent := none
  profilers := .initial
  started := false
  stoppedOnce := false
  stackThreadsInstalled := false
  signal := ⟨⟨[], action, false, false, false, [], 0, fun _ => none, fun _ => none, 0, [], fun _ => .idle⟩,
    [], Metrics.zero, false, HashMap.empty, none, none⟩
  pyspyThread := false
  backendConfig := ⟨false, false, false⟩
  buffer := .default
  uploads := []

/-! ### Acts -/

/-- A frame by the positions of its name and file among the held indices, with its line. -/
abbrev HeldFrame : Type := ℕ × ℕ × ℤ

def heldFrame (held : List (StringID × String)) (f : HeldFrame) : Option PushedFrame :=
  match held[f.1]?, held[f.2.1]? with
  | some name, some file => some ⟨⟨name.1, file.1, f.2.2⟩, name.2, file.2⟩
  | _, _ => none

inductive Act where
  | internMemory (decode : List UInt8 → String) (view : FFIStringView)
  | internStack (decode : List UInt8 → String) (view : FFIStringView)
  | pushMemory (frames : List HeldFrame) (values : FFISampleValues)
  | pushWall (frames : List HeldFrame) (values : FFISampleValues)
  | pushOncpu (frames : List HeldFrame) (values : FFISampleValues)
  | dumpMemory (config : UInt64) (ordSamples : IterOrder (List ℕ × Values MemoryProfile))
      (ordStrings : IterOrder (String × StringID)) (timeRange : TimeRange)
  | dumpWall (config : Int64) (ordSamples : IterOrder (List ℕ × Values CpuWallProfile))
      (ordStrings : IterOrder (String × StringID)) (timeRange : TimeRange)
  | dumpOncpu (config : Int64) (ordSamples : IterOrder (List ℕ × Values CpuProfile))
      (ordStrings : IterOrder (String × StringID)) (timeRange : TimeRange)
  | registerThread (w : Signal.Calls.Externals) (id tid : ℕ)
  | unregisterThread (id : ℕ)
  /-- the handler publishes a record -/
  | tick (frames : List Frame)
  /-- the handler or the drain counts a drop -/
  | lost (r : Reason)
  /-- the sampler thread pops a record and resolves it; `pid` is the process -/
  | drain (pid : ℕ) (resolve : List Frame → Option (List ResolvedFrame))
  /-- py-spy's sampler thread records -/
  | sample (trace : StackTrace)
  | reportPySpy
  | reportSignal (pid : ℕ)
  | samplerThreadEnds (w : Signal.Calls.Externals)

namespace Process

def internMemory (decode : List UInt8 → String) (view : FFIStringView) (s : Process) : Process :=
  match s.profilers.interner.intern decode view with
  | .ok (id, i) => { s with profilers := { s.profilers with
      interner := i, memoryHeld := s.profilers.memoryHeld ++ [(id, view.str decode)] } }
  | .error _ => s

def internStack (decode : List UInt8 → String) (view : FFIStringView) (s : Process) : Process :=
  match s.profilers.interner.intern decode view with
  | .ok (id, i) => { s with profilers := { s.profilers with
      interner := i, stackHeld := s.profilers.stackHeld ++ [(id, view.str decode)] } }
  | .error _ => s

def pushMemory (frames : List HeldFrame) (values : FFISampleValues) (s : Process) : Process :=
  match s.profilers.memory.pushSample (frames.filterMap (heldFrame s.profilers.memoryHeld)) values with
  | .ok b => { s with profilers := { s.profilers with memory := b } }
  | .error _ => s

def pushWall (frames : List HeldFrame) (values : FFISampleValues) (s : Process) : Process :=
  match s.profilers.wall.pushSample (frames.filterMap (heldFrame s.profilers.stackHeld)) values with
  | .ok b => { s with profilers := { s.profilers with wall := b } }
  | .error _ => s

def pushOncpu (frames : List HeldFrame) (values : FFISampleValues) (s : Process) : Process :=
  match s.profilers.oncpu.pushSample (frames.filterMap (heldFrame s.profilers.stackHeld)) values with
  | .ok b => { s with profilers := { s.profilers with oncpu := b } }
  | .error _ => s

def upload (s : Process) (u : Upload) : Process := { s with uploads := s.uploads ++ [u] }

def dumpMemory (config : UInt64) (ordSamples : IterOrder (List ℕ × Values MemoryProfile))
    (ordStrings : IterOrder (String × StringID)) (timeRange : TimeRange) (s : Process) : Process :=
  let (p, b, i) := s.profilers.memory.dump config ordSamples ordStrings timeRange s.profilers.interner
  { s with profilers := { s.profilers with interner := i, memory := b } }.upload (.dump p)

def dumpWall (config : Int64) (ordSamples : IterOrder (List ℕ × Values CpuWallProfile))
    (ordStrings : IterOrder (String × StringID)) (timeRange : TimeRange) (s : Process) : Process :=
  let (p, b, i) := s.profilers.wall.dump config ordSamples ordStrings timeRange s.profilers.interner
  { s with profilers := { s.profilers with interner := i, wall := b } }.upload (.dump p)

def dumpOncpu (config : Int64) (ordSamples : IterOrder (List ℕ × Values CpuProfile))
    (ordStrings : IterOrder (String × StringID)) (timeRange : TimeRange) (s : Process) : Process :=
  let (p, b, i) := s.profilers.oncpu.dump config ordSamples ordStrings timeRange s.profilers.interner
  { s with profilers := { s.profilers with interner := i, oncpu := b } }.upload (.dump p)

def tick (frames : List Frame) (s : Process) : Process :=
  { s with signal := { s.signal with records := s.signal.records ++ [frames] } }

def lost (r : Reason) (s : Process) : Process :=
  { s with signal := { s.signal with metrics := s.signal.metrics.fetchAdd r } }

def drain (pid : ℕ) (resolve : List Frame → Option (List ResolvedFrame)) (s : Process) : Process :=
  match s.signal.records with
  | [] => s
  | frames :: records =>
    let s := { s with signal := { s.signal with records } }
    match resolve frames with
    | some resolved =>
      { s with buffer := s.buffer.record (Signal.toStackTrace resolved s.backendConfig pid) }
    | none => s.lost .resolveError

def reportPySpy (s : Process) : Process := { s with buffer := .default }.upload (.report s.buffer)

/-- `report` of a Signal backend, with the counters it swaps out. -/
def reportSignal (pid : ℕ) (s : Process) : Process :=
  let report := Signal.recordDroppedStacks s.backendConfig pid s.buffer
    (Reason.all.map fun r => (r, s.signal.metrics r))
  { s with buffer := .default, signal := { s.signal with metrics := Metrics.zero } }.upload (.report report)

/-- Whether the party that performs the act is there. -/
def enables (s : Process) : Act → Bool
  | .internMemory _ _ | .pushMemory _ _ => s.profilers.memoryRunning
  | .internStack _ _ | .pushWall _ _ | .pushOncpu _ _ => s.profilers.stackRunning
  | .dumpMemory _ _ _ _ => s.agent.any Config.memEnabled
  | .dumpWall _ _ _ _ | .dumpOncpu _ _ _ _ => s.agent.any Config.stackEnabled
  | .reportPySpy => s.agent.any Config.hasPySpy
  | .reportSignal _ => s.agent.any Config.hasSignal
  | .registerThread _ _ _ | .unregisterThread _ => s.signal.installed
  | .tick _ | .lost _ | .drain _ _ | .samplerThreadEnds _ => s.signal.samplerThread.isSome
  | .sample _ => s.pyspyThread

def perform (s : Process) : Act → Process
  | .internMemory decode view => s.internMemory decode view
  | .internStack decode view => s.internStack decode view
  | .pushMemory frames values => s.pushMemory frames values
  | .pushWall frames values => s.pushWall frames values
  | .pushOncpu frames values => s.pushOncpu frames values
  | .dumpMemory config ordSamples ordStrings timeRange => s.dumpMemory config ordSamples ordStrings timeRange
  | .dumpWall config ordSamples ordStrings timeRange => s.dumpWall config ordSamples ordStrings timeRange
  | .dumpOncpu config ordSamples ordStrings timeRange => s.dumpOncpu config ordSamples ordStrings timeRange
  | .registerThread w id tid => { s with signal := Signal.Calls.Threads.registerThread w id tid s.signal }
  | .unregisterThread id => { s with signal := Signal.Calls.Threads.unregisterThread id s.signal }
  | .tick frames => s.tick frames
  | .lost r => s.lost r
  | .drain pid resolve => s.drain pid resolve
  | .sample trace => { s with buffer := s.buffer.record trace }
  | .reportPySpy => s.reportPySpy
  | .reportSignal pid => s.reportSignal pid
  | .samplerThreadEnds w => { s with signal := Signal.Calls.samplerThreadEnds w s.signal }

def act (s : Process) (a : Act) : Process := if s.enables a then s.perform a else s

def acts (s : Process) (as : List Act) : Process := as.foldl act s

/-! ### What an act writes -/

theorem internMemory_eq (decode : List UInt8 → String) (view : FFIStringView) (s : Process) :
    s.internMemory decode view = { s with profilers := (s.internMemory decode view).profilers } := by
  unfold internMemory
  split <;> rfl

theorem internStack_eq (decode : List UInt8 → String) (view : FFIStringView) (s : Process) :
    s.internStack decode view = { s with profilers := (s.internStack decode view).profilers } := by
  unfold internStack
  split <;> rfl

theorem pushMemory_eq (frames : List HeldFrame) (values : FFISampleValues) (s : Process) :
    s.pushMemory frames values = { s with profilers := (s.pushMemory frames values).profilers } := by
  unfold pushMemory
  split <;> rfl

theorem pushWall_eq (frames : List HeldFrame) (values : FFISampleValues) (s : Process) :
    s.pushWall frames values = { s with profilers := (s.pushWall frames values).profilers } := by
  unfold pushWall
  split <;> rfl

theorem pushOncpu_eq (frames : List HeldFrame) (values : FFISampleValues) (s : Process) :
    s.pushOncpu frames values = { s with profilers := (s.pushOncpu frames values).profilers } := by
  unfold pushOncpu
  split <;> rfl

theorem drain_eq (pid : ℕ) (resolve : List Frame → Option (List ResolvedFrame)) (s : Process) :
    ∃ records metrics buffer,
      s.drain pid resolve = { s with signal := { s.signal with records, metrics }, buffer } := by
  unfold drain
  split
  · exact ⟨_, _, _, rfl⟩
  · split <;> exact ⟨_, _, _, rfl⟩

end Process

end Pyroscope.Agent.Configure
