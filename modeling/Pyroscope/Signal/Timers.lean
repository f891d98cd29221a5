import Pyroscope.Lib.HashMap
import Pyroscope.Lib.Lock
import Pyroscope.Lib.Transition

/-!
# The SIGPROF handler and the CPU timers (signal_sampler.rs, crates/signal-timer)

Any number of threads start sessions, drop them and report their own threads to the
timer of a session. A step is one action on shared memory or one system call. Mutexes
are explicit; the map of a `CTimer` backend has one of its own, which is only ever
locked under that of the `SharedTimer` and is left out. Disarming and deleting a timer
succeed.
-/

namespace Pyroscope.Signal.Timers
open Pyroscope.Lib

/-- `libc::SIGPROF` -/
def sigprof : ℤ := 27

inductive Mode where
  | iTimer
  | cTimer
  deriving DecidableEq

inductive Action where
  | dfl
  | ign
  | signalHandler
  | other
  deriving DecidableEq

/-- `Timer`: `threads` maps a tid to the number of its kernel timer. -/
structure Timer where
  mode : Mode
  threads : HashMap ℕ ℕ

inductive Mutex where
  | handledSignals
  | slot (k : ℕ)
  deriving DecidableEq

/-- Where a thread is. A `k` is the number of a session and its `SharedTimer`. -/
inductive Pc where
  | idle
  /- `SignalHandlerSession::start` -/
  | starting (mode : Mode)
  | installLocked (mode : Mode)
  | installPush (mode : Mode)
  | installed (mode : Mode)
  | acquired (mode : Mode)
  | abandoned
  | timerStarted (mode : Mode)
  /- `Drop for SignalHandlerSession`, down to the fields of `Timer` -/
  | dropping (k : ℕ)
  | dropLocked (k : ℕ)
  | dropBackend (k : ℕ) (mode : Mode) (ids : List ℕ)
  | dropActive (k : ℕ)
  | dropUnlock (k : ℕ)
  /- `Drop for SignalHandler` -/
  | handlerDrop
  | handlerDropLocked
  | handlerForget
  /- `thread_created` -/
  | created (k tid : ℕ)
  | createdLocked (k tid : ℕ)
  | timerCreated (k tid id : ℕ)
  | timerArmed (k tid id : ℕ)
  | timerFailed (k id : ℕ)
  /- `thread_removed` -/
  | removed (k tid : ℕ)
  | removedLocked (k tid : ℕ)
  | removedDelete (k id : ℕ)
  | hookUnlock (k : ℕ)

/-- `sessions` are the live `SignalHandlerSession`s, `armed` the kernel's per-thread timers
that are set, `installedOnce` remembers that a handler was installed. -/
structure State (ι : Type) where
  handledSignals : List ℤ
  action : Action
  installedOnce : Bool
  active : Bool
  itimer : Bool
  armed : List ℕ
  nextTimer : ℕ
  slots : ℕ → Option Timer
  locks : Mutex → Option ι
  nextSession : ℕ
  sessions : List ℕ
  pcs : ι → Pc

def Initial {ι : Type} (s : State ι) : Prop :=
  ∃ action, s = ⟨[], action, false, false, false, [], 0, fun _ => none, fun _ => none, 0, [],
    fun _ => .idle⟩

variable {ι : Type} [DecidableEq ι]

/-- `timer_delete` -/
def delete (armed : List ℕ) (id : ℕ) : List ℕ := armed.filter (· ≠ id)

/-- Whether `Timer::thread_created` has a timer to make. -/
def Timer.Vacant (timer : Timer) (tid : ℕ) : Prop := timer.mode = .cTimer ∧ timer.threads.get tid = none

inductive Step (t : ι) : State ι → State ι → Prop where
  | start {s} (h : s.pcs t = .idle) (mode : Mode) :
    Step t s { s with pcs := Function.update s.pcs t (.starting mode) }
  /-- the version, the rate or the memory fault handlers -/
  | startFails {s mode} (h : s.pcs t = .starting mode) :
    Step t s { s with pcs := Function.update s.pcs t .idle }
  | installLock {s mode} (h : s.pcs t = .starting mode) (free : s.locks .handledSignals = none) :
    Step t s { s with
      locks := Function.update s.locks .handledSignals (some t)
      pcs := Function.update s.pcs t (.installLocked mode) }
  | installRefused {s mode} (h : s.pcs t = .installLocked mode) (listed : sigprof ∈ s.handledSignals) :
    Step t s { s with
      locks := Function.update s.locks .handledSignals none
      pcs := Function.update s.pcs t .idle }
  | sigactionFails {s mode} (h : s.pcs t = .installLocked mode) (unlisted : sigprof ∉ s.handledSignals) :
    Step t s { s with
      locks := Function.update s.locks .handledSignals none
      pcs := Function.update s.pcs t .idle }
  | sigaction {s mode} (h : s.pcs t = .installLocked mode) (unlisted : sigprof ∉ s.handledSignals) :
    Step t s { s with
      action := .signalHandler, installedOnce := true
      pcs := Function.update s.pcs t (.installPush mode) }
  | installPush {s mode} (h : s.pcs t = .installPush mode) :
    Step t s { s with
      locks := Function.update s.locks .handledSignals none
      handledSignals := s.handledSignals ++ [sigprof]
      pcs := Function.update s.pcs t (.installed mode) }
  /-- a `CTimer` off Linux, or an interval that rounds to zero -/
  | modeRefused {s mode} (h : s.pcs t = .installed mode) :
    Step t s { s with pcs := Function.update s.pcs t .handlerDrop }
  | activeRefused {s mode} (h : s.pcs t = .installed mode) (taken : s.active = true) :
    Step t s { s with pcs := Function.update s.pcs t .handlerDrop }
  | acquire {s mode} (h : s.pcs t = .installed mode) (free : s.active = false) :
    Step t s { s with active := true, pcs := Function.update s.pcs t (.acquired mode) }
  | setitimer {s} (h : s.pcs t = .acquired .iTimer) :
    Step t s { s with itimer := true, pcs := Function.update s.pcs t (.timerStarted .iTimer) }
  | setitimerFails {s} (h : s.pcs t = .acquired .iTimer) :
    Step t s { s with pcs := Function.update s.pcs t .abandoned }
  | noThreads {s} (h : s.pcs t = .acquired .cTimer) :
    Step t s { s with pcs := Function.update s.pcs t (.timerStarted .cTimer) }
  | releaseActive {s} (h : s.pcs t = .abandoned) :
    Step t s { s with active := false, pcs := Function.update s.pcs t .handlerDrop }
  | sessionStarts {s mode} (h : s.pcs t = .timerStarted mode) :
    Step t s { s with
      slots := Function.update s.slots s.nextSession (some ⟨mode, HashMap.empty⟩)
      sessions := s.nextSession :: s.sessions, nextSession := s.nextSession + 1
      pcs := Function.update s.pcs t .idle }
  | dropSession {s k} (h : s.pcs t = .idle) (live : k ∈ s.sessions) :
    Step t s { s with sessions := s.sessions.erase k, pcs := Function.update s.pcs t (.dropping k) }
  | dropLock {s k} (h : s.pcs t = .dropping k) (free : s.locks (.slot k) = none) :
    Step t s { s with
      locks := Function.update s.locks (.slot k) (some t)
      pcs := Function.update s.pcs t (.dropLocked k) }
  | dropNone {s k} (h : s.pcs t = .dropLocked k) (none' : s.slots k = none) :
    Step t s { s with pcs := Function.update s.pcs t (.dropUnlock k) }
  | dropTimer {s k timer ids} (h : s.pcs t = .dropLocked k) (some' : s.slots k = some timer)
      (all : ids.Perm (timer.threads.toList.map Prod.snd)) :
    Step t s { s with pcs := Function.update s.pcs t (.dropBackend k timer.mode ids) }
  | deleteThread {s k mode id ids} (h : s.pcs t = .dropBackend k mode (id :: ids)) :
    Step t s { s with
      armed := delete s.armed id, pcs := Function.update s.pcs t (.dropBackend k mode ids) }
  | disarm {s k mode} (h : s.pcs t = .dropBackend k mode []) :
    Step t s { s with
      itimer := if mode = .iTimer then false else s.itimer
      pcs := Function.update s.pcs t (.dropActive k) }
  | dropActive {s k} (h : s.pcs t = .dropActive k) :
    Step t s { s with
      active := false, slots := Function.update s.slots k none
      pcs := Function.update s.pcs t (.dropUnlock k) }
  | dropUnlock {s k} (h : s.pcs t = .dropUnlock k) :
    Step t s { s with
      locks := Function.update s.locks (.slot k) none
      pcs := Function.update s.pcs t .handlerDrop }
  | handlerDropLock {s} (h : s.pcs t = .handlerDrop) (free : s.locks .handledSignals = none) :
    Step t s { s with
      locks := Function.update s.locks .handledSignals (some t)
      pcs := Function.update s.pcs t .handlerDropLocked }
  | ignore {s} (h : s.pcs t = .handlerDropLocked) :
    Step t s { s with
      action := if s.action = .signalHandler then .ign else s.action
      pcs := Function.update s.pcs t .handlerForget }
  /-- `sigaction` cannot be asked -/
  | queryFails {s} (h : s.pcs t = .handlerDropLocked) :
    Step t s { s with pcs := Function.update s.pcs t .handlerForget }
  | forget {s} (h : s.pcs t = .handlerForget) :
    Step t s { s with
      locks := Function.update s.locks .handledSignals none
      handledSignals := s.handledSignals.filter (· ≠ sigprof)
      pcs := Function.update s.pcs t .idle }
  | threadCreated {s k} (h : s.pcs t = .idle) (shared : k < s.nextSession) (tid : ℕ) :
    Step t s { s with pcs := Function.update s.pcs t (.created k tid) }
  | createdLock {s k tid} (h : s.pcs t = .created k tid) (free : s.locks (.slot k) = none) :
    Step t s { s with
      locks := Function.update s.locks (.slot k) (some t)
      pcs := Function.update s.pcs t (.createdLocked k tid) }
  /-- no timer, one for the process, or the thread has one already -/
  | createdNothing {s k tid} (h : s.pcs t = .createdLocked k tid)
      (nothing : ∀ timer, s.slots k = some timer → ¬timer.Vacant tid) :
    Step t s { s with pcs := Function.update s.pcs t (.hookUnlock k) }
  | timerCreateFails {s k tid timer} (h : s.pcs t = .createdLocked k tid)
      (some' : s.slots k = some timer) (vacant : timer.Vacant tid) :
    Step t s { s with pcs := Function.update s.pcs t (.hookUnlock k) }
  | timerCreate {s k tid timer} (h : s.pcs t = .createdLocked k tid) (some' : s.slots k = some timer)
      (vacant : timer.Vacant tid) :
    Step t s { s with
      nextTimer := s.nextTimer + 1
      pcs := Function.update s.pcs t (.timerCreated k tid s.nextTimer) }
  | settime {s k tid id} (h : s.pcs t = .timerCreated k tid id) :
    Step t s { s with armed := id :: s.armed, pcs := Function.update s.pcs t (.timerArmed k tid id) }
  | settimeFails {s k tid id} (h : s.pcs t = .timerCreated k tid id) :
    Step t s { s with pcs := Function.update s.pcs t (.timerFailed k id) }
  | deleteFailed {s k id} (h : s.pcs t = .timerFailed k id) :
    Step t s { s with
      armed := delete s.armed id, pcs := Function.update s.pcs t (.hookUnlock k) }
  | insertTimer {s k tid id timer} (h : s.pcs t = .timerArmed k tid id)
      (some' : s.slots k = some timer) :
    Step t s { s with
      slots := Function.update s.slots k (some { timer with threads := timer.threads.insert tid id })
      pcs := Function.update s.pcs t (.hookUnlock k) }
  | threadRemoved {s k} (h : s.pcs t = .idle) (shared : k < s.nextSession) (tid : ℕ) :
    Step t s { s with pcs := Function.update s.pcs t (.removed k tid) }
  | removedLock {s k tid} (h : s.pcs t = .removed k tid) (free : s.locks (.slot k) = none) :
    Step t s { s with
      locks := Function.update s.locks (.slot k) (some t)
      pcs := Function.update s.pcs t (.removedLocked k tid) }
  | removedNothing {s k tid} (h : s.pcs t = .removedLocked k tid)
      (nothing : ∀ timer, s.slots k = some timer → timer.mode = .iTimer ∨ timer.threads.get tid = none) :
    Step t s { s with pcs := Function.update s.pcs t (.hookUnlock k) }
  | removeTimer {s k tid id timer} (h : s.pcs t = .removedLocked k tid)
      (some' : s.slots k = some timer) (mode : timer.mode = .cTimer)
      (present : timer.threads.get tid = some id) :
    Step t s { s with
      slots := Function.update s.slots k (some { timer with threads := timer.threads.erase tid })
      pcs := Function.update s.pcs t (.removedDelete k id) }
  | deleteRemoved {s k id} (h : s.pcs t = .removedDelete k id) :
    Step t s { s with
      armed := delete s.armed id, pcs := Function.update s.pcs t (.hookUnlock k) }
  | hookUnlock {s k} (h : s.pcs t = .hookUnlock k) :
    Step t s { s with
      locks := Function.update s.locks (.slot k) none
      pcs := Function.update s.pcs t .idle }

def Run (s s' : State ι) : Prop := ∃ t, Step t s s'

end Pyroscope.Signal.Timers
