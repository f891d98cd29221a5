import Pyroscope.Encode.Windows
import Pyroscope.Lib.Transition

/-!
# The interner and the three profile builders (interner.rs, memory.rs, stack/mod.rs, ffikit.rs)

One string table is shared by the memory builder and the two builders of the Stack
sampler. The C++ profilers intern strings, keep the indices and push frames made of
them; dumps take the builders apart one at a time; starting, rolling back, stopping
and the fork hook stop the profilers, empty the builders and replace the table.
-/

namespace Pyroscope.Agent
open Pyroscope.Lib Pyroscope.Encode

/-! ### The string table behind its lock -/

/-- `STRING_TABLE`: a panic while the lock is held poisons it. -/
structure Interner where
  table : StringTable
  poisoned : Bool

/-- A pointer and a length; `none` is the null pointer. -/
structure FFIStringView where
  data : Option (List UInt8)

/-- `std::str::from_utf8(bytes).unwrap_or("<non-utf8>")` -/
def fromUtf8 (bytes : List UInt8) : String :=
  (String.fromUTF8? ⟨bytes.toArray⟩).getD "<non-utf8>"

/-- `from_utf8_unchecked`, for callers that pass ASCII. -/
def fromAscii (bytes : List UInt8) : String := String.ofList (bytes.map fun b => Char.ofNat b.toNat)

def FFIStringView.str (decode : List UInt8 → String) (s : FFIStringView) : String :=
  match s.data with
  | none => ""
  | some [] => ""
  | some bytes => decode bytes

namespace Interner

/-- The common body of `pyroscope_string_table_intern_utf8` and `_ascii`. -/
def intern (decode : List UInt8 → String) (i : Interner) (s : FFIStringView) :
    Except Panic (StringID × Interner) :=
  match s.data with
  | none => .ok (⟨0⟩, i)
  | some [] => .ok (⟨0⟩, i)
  | some bytes =>
    if i.poisoned then .ok (⟨0⟩, i)
    else
      match i.table.add (decode bytes) with
      | .ok (id, table) => .ok (id, { i with table })
      | .error p => .error p

def internUtf8 : Interner → FFIStringView → Except Panic (StringID × Interner) := intern fromUtf8

def internAscii : Interner → FFIStringView → Except Panic (StringID × Interner) := intern fromAscii

/-- `clear`: a poisoned lock is entered all the same, and stays poisoned. -/
def clear (i : Interner) : Interner := { i with table := StringTable.new }

/-- `leak_and_reset` -/
def fresh : Interner := ⟨StringTable.new, false⟩

end Interner

/-! ### A profile builder behind its lock -/

/-- A frame with the strings whose interning gave its two indices. -/
structure PushedFrame where
  frame : FFIFrame
  name : String
  file : String

/-- `PROFILE_BUILDER` and its like; `pushed` remembers the frames of the window. -/
structure LockedBuilder (K : Type) [FfiProfileKind K] where
  builder : PProfBuilder K
  poisoned : Bool
  pushed : List PushedFrame

namespace LockedBuilder
variable {K : Type} [FfiProfileKind K]

def fresh : LockedBuilder K := ⟨PProfBuilder.new, false, []⟩

def pushSample (b : LockedBuilder K) (frames : List PushedFrame) (values : FFISampleValues) :
    Except Panic (LockedBuilder K) :=
  if b.poisoned then .ok b
  else
    match b.builder.addFfiSample (frames.map PushedFrame.frame) values with
    | .ok builder => .ok { b with builder, pushed := b.pushed ++ frames }
    | .error p => .error p

/-- `clear_samples`, also of a poisoned lock. -/
def clearSamples (b : LockedBuilder K) : LockedBuilder K :=
  { b with builder := b.builder.reset, pushed := [] }

/-- `set_profile_type` under both locks; a panic poisons them. -/
def setProfileType (b : LockedBuilder K) (i : Interner) (config : ProfileKind.PeriodConfig K) :
    LockedBuilder K × Interner :=
  if i.poisoned || b.poisoned then (b, i)
  else
    match b.builder.setProfileType i.table config with
    | .ok (builder, table) => ({ b with builder }, { i with table })
    | .error _ => ({ b with poisoned := true }, { i with poisoned := true })

/-- The rest of a dump: nothing unless both locks can be entered. -/
def takeProfile (ordSamples : IterOrder (List ℕ × Values K)) (ordStrings : IterOrder (String × StringID))
    (timeRange : TimeRange) (b : LockedBuilder K) (i : Interner) :
    Option Profile × LockedBuilder K × Interner :=
  if i.poisoned || b.poisoned then (none, b, i)
  else
    match b.builder.takeProfileAndReset ordSamples ordStrings i.table timeRange with
    | .ok (profile, builder) => (profile, { b with builder, pushed := [] }, i)
    | .error _ => (none, { b with poisoned := true }, { i with poisoned := true })

/-- `dump_pprof` and `dump_from`: both locks are held throughout. -/
def dump (config : ProfileKind.PeriodConfig K) (ordSamples : IterOrder (List ℕ × Values K))
    (ordStrings : IterOrder (String × StringID)) (timeRange : TimeRange) (b : LockedBuilder K)
    (i : Interner) : Option Profile × LockedBuilder K × Interner :=
  let (b, i) := b.setProfileType i config
  b.takeProfile ordSamples ordStrings timeRange i

end LockedBuilder

/-! ### The process -/

structure Enabled where
  memory : Bool
  stack : Bool

/-- Where the one `run` or `stop` that holds `State::Busy` is. -/
inductive Control where
  | idle
  | startMemory (config : Enabled)
  | undoMemory
  | undoMemoryClear
  | startStack (config : Enabled)
  | build
  | running
  | stopMemory
  | clearMemory
  | stopStack
  | clearWall
  | clearOncpu
  | clearStrings

/-- An emitted profile, with the frames pushed in its window. -/
structure Emission where
  profile : Profile
  pushed : List PushedFrame

/-- `memoryHeld` and `stackHeld` are the indices that the C++ side keeps, each with the
string it was given for. -/
structure State where
  interner : Interner
  memory : LockedBuilder MemoryProfile
  wall : LockedBuilder CpuWallProfile
  oncpu : LockedBuilder CpuProfile
  memoryRunning : Bool
  stackRunning : Bool
  memoryHeld : List (StringID × String)
  stackHeld : List (StringID × String)
  control : Control
  emitted : List Emission

def State.initial : State :=
  ⟨.fresh, .fresh, .fresh, .fresh, false, false, [], [], .idle, []⟩

def emission (profile : Option Profile) (pushed : List PushedFrame) : List Emission :=
  profile.toList.map fun p => ⟨p, pushed⟩

namespace State

/-- `memalloc_stop`: the hooks are gone and forget their indices. -/
def memallocStop (s : State) : State := { s with memoryRunning := false, memoryHeld := [] }

def memoryStop (s : State) : State :=
  let s := s.memallocStop
  { s with memory := s.memory.clearSamples }

def samplerStop (s : State) : State := { s with stackRunning := false, stackHeld := [] }

def stackStop (s : State) : State :=
  let s := s.samplerStop
  let s := { s with wall := s.wall.clearSamples }
  { s with oncpu := s.oncpu.clearSamples }

def internerClear (s : State) : State := { s with interner := s.interner.clear }

def stopProfilers (s : State) : State := s.memoryStop.stackStop.internerClear

/-- The fork hook, in the only thread of the child. -/
def atForkAfterInChild (s : State) : State :=
  let s := { s with memory := .fresh }
  let s := { s with wall := .fresh, oncpu := .fresh }
  let s := { s with interner := .fresh }
  let s := s.stopProfilers
  { s with control := .idle }

end State

/-- The indices of a frame are held for the strings it is said to come from. -/
def HeldFrom (held : List (StringID × String)) (frames : List PushedFrame) : Prop :=
  ∀ f ∈ frames, (f.frame.functionName, f.name) ∈ held ∧ (f.frame.fileName, f.file) ∈ held

/-- One action of a profiler, a dump, or the thread in `run` or `stop`. An `extern "C"`
call that panics aborts the process, so it has no step. -/
inductive Step : State → State → Prop where
  | internMemory {s id i} (running : s.memoryRunning = true) (decode : List UInt8 → String)
      (view : FFIStringView) (h : s.interner.intern decode view = .ok (id, i)) :
    Step s { s with interner := i, memoryHeld := (id, view.str decode) :: s.memoryHeld }
  | internStack {s id i} (running : s.stackRunning = true) (decode : List UInt8 → String)
      (view : FFIStringView) (h : s.interner.intern decode view = .ok (id, i)) :
    Step s { s with interner := i, stackHeld := (id, view.str decode) :: s.stackHeld }
  | pushMemory {s b} (running : s.memoryRunning = true) (frames : List PushedFrame)
      (values : FFISampleValues) (held : HeldFrom s.memoryHeld frames)
      (h : s.memory.pushSample frames values = .ok b) : Step s { s with memory := b }
  | pushWall {s b} (running : s.stackRunning = true) (frames : List PushedFrame)
      (values : FFISampleValues) (held : HeldFrom s.stackHeld frames)
      (h : s.wall.pushSample frames values = .ok b) : Step s { s with wall := b }
  | pushOncpu {s b} (running : s.stackRunning = true) (frames : List PushedFrame)
      (values : FFISampleValues) (held : HeldFrom s.stackHeld frames)
      (h : s.oncpu.pushSample frames values = .ok b) : Step s { s with oncpu := b }
  | dumpMemory {s p b i} (config ordSamples ordStrings timeRange)
      (h : s.memory.dump config ordSamples ordStrings timeRange s.interner = (p, b, i)) :
    Step s { s with interner := i, memory := b, emitted := s.emitted ++ emission p s.memory.pushed }
  | dumpWall {s p b i} (config ordSamples ordStrings timeRange)
      (h : s.wall.dump config ordSamples ordStrings timeRange s.interner = (p, b, i)) :
    Step s { s with interner := i, wall := b, emitted := s.emitted ++ emission p s.wall.pushed }
  | dumpOncpu {s p b i} (config ordSamples ordStrings timeRange)
      (h : s.oncpu.dump config ordSamples ordStrings timeRange s.interner = (p, b, i)) :
    Step s { s with interner := i, oncpu := b, emitted := s.emitted ++ emission p s.oncpu.pushed }
  | setTypeMemory {s b i} (config) (h : s.memory.setProfileType s.interner config = (b, i)) :
    Step s { s with interner := i, memory := b }
  | setTypeWall {s b i} (config) (h : s.wall.setProfileType s.interner config = (b, i)) :
    Step s { s with interner := i, wall := b }
  | setTypeOncpu {s b i} (config) (h : s.oncpu.setProfileType s.interner config = (b, i)) :
    Step s { s with interner := i, oncpu := b }
  | run {s} (config : Enabled) (h : s.control = .idle) : Step s { s with control := .startMemory config }
  | memoryOff {s config} (h : s.control = .startMemory config) (off : config.memory = false) :
    Step s { s with control := .startStack config }
  /-- a pending exception, or `memalloc_start` fails -/
  | memoryFails {s config} (h : s.control = .startMemory config) (on : config.memory = true) :
    Step s { s with control := .stopMemory }
  | memoryStarts {s config} (h : s.control = .startMemory config) (on : config.memory = true) :
    Step s { s with control := .startStack config, memoryRunning := true }
  /-- status 0 with an exception set -/
  | memoryStartsWithError {s config} (h : s.control = .startMemory config) (on : config.memory = true) :
    Step s { s with control := .undoMemory, memoryRunning := true }
  | undoMemory {s} (h : s.control = .undoMemory) :
    Step s { s.memallocStop with control := .undoMemoryClear }
  | undoMemoryClear {s} (h : s.control = .undoMemoryClear) :
    Step s { s with control := .stopMemory, memory := s.memory.clearSamples }
  | stackOff {s config} (h : s.control = .startStack config) (off : config.stack = false) :
    Step s { s with control := .build }
  | stackFails {s config} (h : s.control = .startStack config) (on : config.stack = true) :
    Step s { s with control := .stopMemory }
  | stackStarts {s config} (h : s.control = .startStack config) (on : config.stack = true) :
    Step s { s with control := .build, stackRunning := true }
  /-- `threads::install` fails after the sampler has started -/
  | stackInstallFails {s config} (h : s.control = .startStack config) (on : config.stack = true) :
    Step s { s with control := .stopMemory, stackRunning := true }
  | buildFails {s} (h : s.control = .build) : Step s { s with control := .stopMemory }
  | buildOk {s} (h : s.control = .build) : Step s { s with control := .running }
  | stop {s} (h : s.control = .running) : Step s { s with control := .stopMemory }
  | stopMemory {s} (h : s.control = .stopMemory) : Step s { s.memallocStop with control := .clearMemory }
  | clearMemory {s} (h : s.control = .clearMemory) :
    Step s { s with control := .stopStack, memory := s.memory.clearSamples }
  | stopStack {s} (h : s.control = .stopStack) : Step s { s.samplerStop with control := .clearWall }
  | clearWall {s} (h : s.control = .clearWall) :
    Step s { s with control := .clearOncpu, wall := s.wall.clearSamples }
  | clearOncpu {s} (h : s.control = .clearOncpu) :
    Step s { s with control := .clearStrings, oncpu := s.oncpu.clearSamples }
  | clearStrings {s} (h : s.control = .clearStrings) : Step s { s.internerClear with control := .idle }
  | fork {s} : Step s s.atForkAfterInChild

end Pyroscope.Agent
