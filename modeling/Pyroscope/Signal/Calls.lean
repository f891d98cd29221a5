import Pyroscope.Lib.Call
import Pyroscope.Signal.Armed

/-!
# The Signal backend, call by call (signal_sampler.rs, signal_backend.rs, crates/signal-timer)

The calls that start and stop a session and tell it of threads, as one thread makes
them while it holds the GIL. Each is a run of the steps of `Timers`. What the operating
system and the memory fault handlers answer is in `Externals`.
-/

namespace Pyroscope.Signal.Calls
open Pyroscope.Lib Pyroscope.Signal.Timers

/-- `signal_sampler::Config`; the lines are left out. -/
structure Config where
  pythonVersion : ℕ × ℕ
  samplingRate : UInt32
  signalTimer : Mode

/-- The machine and the build. `interval` is `Duration::from_secs_f64(1.0 / rate)` in nanoseconds. -/
structure Platform where
  linux : Bool
  pyVersion : ℕ × ℕ
  interval : UInt32 → ℕ

/-- Answers from outside. Those of the timers are by Python's thread identifier and the tid. -/
structure Externals where
  faultHandlers : Except String Unit
  sigaction : Except String Unit
  query : Bool
  setitimer : Except String Unit
  timerCreate : ℕ → ℕ → Except String Unit
  timerSettime : ℕ → ℕ → Except String Unit
  order : IterOrder (ℕ × ℕ)
  threadIdent : ℕ
  gettid : ℕ

def checkVersion (p : Platform) (version : ℕ × ℕ) : Except String Unit :=
  let (major, minor) := version
  if ¬(major = 3 ∧ 10 ≤ minor ∧ minor ≤ 14) then
    .error s!"unwinding in the signal handler supports only Python 3.10 to 3.14, found {major}.{minor}"
  else if version ≠ p.pyVersion then
    let (builtMajor, builtMinor) := p.pyVersion
    .error s!"running on Python {major}.{minor}, but built against Python {builtMajor}.{builtMinor}"
  else .ok ()

/-! ### The handler and the timer -/

abbrev TimerCall := Call (Timers.State Unit)

def SignalHandler.install (w : Externals) : TimerCall String Unit := do
  let s ← Call.get
  Call.failIf (sigprof ∈ s.handledSignals) "entity already exists"
  Call.returned w.sigaction
  Call.modify fun s => { s with
    action := .signalHandler, installedOnce := true, handledSignals := s.handledSignals ++ [sigprof] }

/-- `Drop for SignalHandler` -/
def SignalHandler.drop (w : Externals) (s : Timers.State Unit) : Timers.State Unit := { s with
  action := if w.query ∧ s.action = .signalHandler then .ign else s.action
  handledSignals := s.handledSignals.filter (· ≠ sigprof) }

def Active.acquire : TimerCall String Unit := do
  let s ← Call.get
  Call.failIf (s.active = true) "entity already exists"
  Call.modify fun s => { s with active := true }

/-- `Drop for Active` -/
def Active.drop (s : Timers.State Unit) : Timers.State Unit := { s with active := false }

def Backend.start (w : Externals) : Mode → TimerCall String Unit
  | .iTimer => do
    Call.returned w.setitimer
    Call.modify fun s => { s with itimer := true }
  | .cTimer => pure ()

def Timer.start (w : Externals) (mode : Mode) (interval : ℕ) : TimerCall String Unit := do
  Call.failIf (interval = 0) "interval must not be zero"
  Active.acquire
  (Backend.start w mode).guarded Active.drop

/-- The fields of the dropped `Timer`, in their order. -/
def Timer.drop (timer : Timer) (s : Timers.State Unit) : Timers.State Unit :=
  let s := { s with armed := (timer.threads.toList.map Prod.snd).foldl delete s.armed }
  let s := { s with itimer := if timer.mode = .iTimer then false else s.itimer }
  Active.drop s

/-! ### Sessions -/

/-- The value that `SignalHandlerSession::start` returns. -/
def newSession (mode : Mode) : TimerCall String ℕ := fun s =>
  (.ok s.nextSession, { s with
    slots := Function.update s.slots s.nextSession (some ⟨mode, HashMap.empty⟩)
    sessions := s.nextSession :: s.sessions, nextSession := s.nextSession + 1 })

/-- `SignalHandlerSession::start` down to the fault handlers. -/
def SignalHandlerSession.check (p : Platform) (w : Externals) (config : Config) : TimerCall String Unit := do
  Call.returned (checkVersion p config.pythonVersion)
  Call.failIf (config.samplingRate = 0) "the sampling rate must be greater than zero"
  (Call.returned w.faultHandlers).mapError fun e => s!"failed to install memory fault handlers: {e}"

/-- The rest of `start` once the handler is installed; the handler is dropped if it fails. -/
def SignalHandlerSession.arm (p : Platform) (w : Externals) (config : Config) : TimerCall String ℕ := do
  Call.guarded (SignalHandler.drop w) do
    Call.failIf (config.signalTimer = .cTimer ∧ p.linux = false) "CTimer works only on Linux"
    (Timer.start w config.signalTimer (p.interval config.samplingRate)).mapError
      fun e => s!"failed to start the timer: {e}"
  newSession config.signalTimer

/-- `Drop for SignalHandlerSession`, then its fields. -/
def SignalHandlerSession.drop (w : Externals) (k : ℕ) (s : Timers.State Unit) : Timers.State Unit :=
  let s := { s with sessions := s.sessions.erase k }
  let s := match s.slots k with
    | none => s
    | some timer => { Timer.drop timer s with slots := Function.update s.slots k none }
  SignalHandler.drop w s

/-- `CTimer::start`; a timer that cannot be set is deleted again. -/
def CTimer.start (w : Externals) (ident tid : ℕ) : TimerCall String ℕ := do
  Call.returned (w.timerCreate ident tid)
  let s ← Call.get
  Call.modify fun s => { s with nextTimer := s.nextTimer + 1 }
  Call.guarded (fun t => { t with armed := delete t.armed s.nextTimer }) do
    Call.returned (w.timerSettime ident tid)
    Call.modify fun t => { t with armed := s.nextTimer :: t.armed }
  pure s.nextTimer

def threadCreated (w : Externals) (k ident tid : ℕ) : TimerCall String Unit := do
  let s ← Call.get
  match s.slots k with
  | none => pure ()
  | some timer =>
    if timer.mode = .cTimer ∧ timer.threads.get tid = none then
      Call.mapError (fun e => s!"failed to start the timer of thread {tid}: {e}") do
        let id ← CTimer.start w ident tid
        Call.modify fun s => { s with
          slots := Function.update s.slots k (some { timer with threads := timer.threads.insert tid id }) }
    else pure ()

def threadRemoved (k tid : ℕ) (s : Timers.State Unit) : Timers.State Unit :=
  match s.slots k with
  | none => s
  | some timer =>
    match timer.mode, timer.threads.get tid with
    | .cTimer, some id => { s with
        slots := Function.update s.slots k (some { timer with threads := timer.threads.erase tid })
        armed := delete s.armed id }
    | _, _ => s

/-! ### The calls are runs of the steps -/

/-- The state while the thread is at `pc` and holds nothing. -/
def at' (s : Timers.State Unit) (pc : Pc) : Timers.State Unit :=
  { s with pcs := fun _ => pc, locks := fun _ => none }

structure Reached (sessions : List ℕ) (pc : Pc) (s : Timers.State Unit) : Prop where
  run : Reachable Timers.Initial Timers.Run (at' s pc)
  sessions : s.sessions = sessions

/- What is left of the locks when a mutex has been taken and given back. -/
theorem settle {r s : Timers.State Unit} {l : List ℕ} {pc : Pc} {k : Mutex} {a : Option Unit}
    (h : Reachable Timers.Initial Timers.Run r) (hl : s.sessions = l)
    (hlocks : r.locks = Function.update (Function.update (fun _ => none) k a) k none)
    (hs : r = { at' s pc with locks := r.locks }) : Reached l pc s := by
  have hnone : r.locks = fun _ => none := by
    rw [hlocks, Function.update_idem]
    exact Function.update_eq_self k _
  rw [hnone] at hs
  rw [hs] at h
  exact ⟨h, hl⟩

theorem install_reached (w : Externals) (l : List ℕ) (mode : Mode) :
    (SignalHandler.install w).Ensures (Reached l (.starting mode)) (fun _ => Reached l (.installed mode))
      fun _ => Reached l .idle := by
  refine .bind (Q := fun s₀ s => s₀ = s ∧ Reached l (.starting mode) s) (.get fun s h => ⟨rfl, h⟩) ?_
  intro s₀
  refine .bind (Q := fun _ s => sigprof ∉ s.handledSignals ∧ Reached l (.starting mode) s)
    (.failIf ?_ ?_) fun _ => .bind (Q := fun _ s => sigprof ∉ s.handledSignals ∧ Reached l (.starting mode) s)
      (.returned (fun _ _ _ h => h) ?_) fun _ => .modify ?_
  · rintro listed s ⟨rfl, h⟩
    have run := h.run.step ⟨(), .installLock rfl rfl⟩
    exact settle (run.step ⟨(), .installRefused rfl listed⟩) h.sessions rfl rfl
  · rintro unlisted s ⟨rfl, h⟩
    exact ⟨unlisted, h⟩
  · rintro e - s ⟨unlisted, h⟩
    have run := h.run.step ⟨(), .installLock rfl rfl⟩
    exact settle (run.step ⟨(), .sigactionFails rfl unlisted⟩) h.sessions rfl rfl
  · rintro s ⟨unlisted, h⟩
    have run := h.run.step ⟨(), .installLock rfl rfl⟩
    have run := run.step ⟨(), .sigaction rfl unlisted⟩
    exact settle (run.step ⟨(), .installPush rfl⟩) h.sessions rfl rfl

theorem handlerDrop_reached (w : Externals) {l : List ℕ} {s : Timers.State Unit}
    (h : Reached l .handlerDrop s) : Reached l .idle (SignalHandler.drop w s) := by
  have run := h.run.step ⟨(), .handlerDropLock rfl rfl⟩
  cases hq : w.query with
  | true =>
    have run := run.step ⟨(), .ignore rfl⟩
    refine settle (run.step ⟨(), .forget rfl⟩) h.sessions rfl ?_
    simp only [SignalHandler.drop, hq, true_and]
    rfl
  | false =>
    have run := run.step ⟨(), .queryFails rfl⟩
    refine settle (run.step ⟨(), .forget rfl⟩) h.sessions rfl ?_
    simp only [SignalHandler.drop, hq, Bool.false_eq_true, false_and, if_false]
    rfl

theorem acquire_reached (l : List ℕ) (mode : Mode) :
    Active.acquire.Ensures (Reached l (.installed mode)) (fun _ => Reached l (.acquired mode))
      fun _ => Reached l .handlerDrop := by
  refine .bind (Q := fun s₀ s => s₀ = s ∧ Reached l (.installed mode) s) (.get fun s h => ⟨rfl, h⟩) ?_
  intro s₀
  refine .bind (Q := fun _ s => s.active = false ∧ Reached l (.installed mode) s) (.failIf ?_ ?_)
    fun _ => .modify ?_
  · rintro taken s ⟨rfl, h⟩
    exact ⟨h.run.step ⟨(), .activeRefused rfl taken⟩, h.sessions⟩
  · rintro free s ⟨rfl, h⟩
    exact ⟨Bool.eq_false_iff.mpr free, h⟩
  · rintro s ⟨free, h⟩
    exact ⟨h.run.step ⟨(), .acquire rfl free⟩, h.sessions⟩

theorem backendStart_reached (w : Externals) (l : List ℕ) (mode : Mode) :
    (Backend.start w mode).Ensures (Reached l (.acquired mode)) (fun _ => Reached l (.timerStarted mode))
      fun _ => Reached l .abandoned := by
  cases mode with
  | iTimer =>
    refine .bind (Q := fun _ => Reached l (.acquired .iTimer)) (.returned (fun _ _ _ h => h) ?_)
      fun _ => .modify ?_
    · exact fun _ _ s h => ⟨h.run.step ⟨(), .setitimerFails rfl⟩, h.sessions⟩
    · exact fun s h => ⟨h.run.step ⟨(), .setitimer rfl⟩, h.sessions⟩
  | cTimer => exact .pure fun s h => ⟨h.run.step ⟨(), .noThreads rfl⟩, h.sessions⟩

theorem timerStart_reached (w : Externals) (l : List ℕ) (mode : Mode) (interval : ℕ) :
    (Timer.start w mode interval).Ensures (Reached l (.installed mode))
      (fun _ => Reached l (.timerStarted mode)) fun _ => Reached l .handlerDrop := by
  refine .bind (Q := fun _ => Reached l (.installed mode)) (.failIf ?_ fun _ _ h => h) fun _ =>
    .bind (acquire_reached l mode) fun _ => .guarded ?_
  · exact fun _ s h => ⟨h.run.step ⟨(), .modeRefused rfl⟩, h.sessions⟩
  · refine (backendStart_reached w l mode).conseq (fun _ h => h) (fun _ _ h => h) fun _ s h => ?_
    exact ⟨h.run.step ⟨(), .releaseActive rfl⟩, h.sessions⟩

theorem newSession_reached (l : List ℕ) (mode : Mode) :
    (newSession mode).Ensures (Reached l (.timerStarted mode)) (fun k => Reached (k :: l) .idle)
      fun _ => Reached l .idle := by
  intro s h
  exact ⟨h.run.step ⟨(), .sessionStarts rfl⟩, congrArg (List.cons s.nextSession) h.sessions⟩

theorem check_reached (p : Platform) (w : Externals) (config : Config) (l : List ℕ) (mode : Mode) :
    (SignalHandlerSession.check p w config).Ensures (Reached l .idle) (fun _ => Reached l (.starting mode))
      fun _ => Reached l .idle := by
  refine .bind (Q := fun _ => Reached l .idle) (.returned (fun _ _ _ h => h) fun _ _ _ h => h) fun _ => ?_
  refine .bind (Q := fun _ => Reached l .idle) (.failIf (fun _ _ h => h) fun _ _ h => h) fun _ => ?_
  refine .mapError (.returned (fun _ _ s h => ?_) fun _ _ _ h => h)
  exact ⟨h.run.step ⟨(), .start rfl mode⟩, h.sessions⟩

theorem arm_reached (p : Platform) (w : Externals) (config : Config) (l : List ℕ) :
    (SignalHandlerSession.arm p w config).Ensures (Reached l (.installed config.signalTimer))
      (fun k => Reached (k :: l) .idle) fun _ => Reached l .idle := by
  refine .bind (.guarded ?_) fun _ => newSession_reached l config.signalTimer
  refine .bind (Q := fun _ => Reached l (.installed config.signalTimer)) (.failIf ?_ fun _ _ h => h)
    fun _ => .mapError ?_
  · exact fun _ s h => handlerDrop_reached w ⟨h.run.step ⟨(), .modeRefused rfl⟩, h.sessions⟩
  · exact (timerStart_reached w l config.signalTimer _).conseq (fun _ h => h) (fun _ _ h => h)
      fun _ _ h => handlerDrop_reached w h

/- The loop over the timers of the threads. -/
theorem deleteThreads_run {k : ℕ} {mode : Mode} {ids : List ℕ} {r : Timers.State Unit}
    (h : Reachable Timers.Initial Timers.Run r) (hpc : r.pcs = fun _ => .dropBackend k mode ids) :
    Reachable Timers.Initial Timers.Run
      { r with armed := ids.foldl delete r.armed, pcs := fun _ => .dropBackend k mode [] } := by
  induction ids generalizing r with
  | nil =>
    rw [← hpc]
    exact h
  | cons id ids ih => exact ih (h.step ⟨(), .deleteThread (congrFun hpc ())⟩) rfl

theorem sessionDrop_reached (w : Externals) {l : List ℕ} {k : ℕ} {s : Timers.State Unit}
    (h : Reached l .idle s) (hk : k ∈ l) : Reached (l.erase k) .idle (SignalHandlerSession.drop w k s) := by
  have hsessions : s.sessions.erase k = l.erase k := congrArg (List.erase · k) h.sessions
  have live : k ∈ (at' s .idle).sessions := h.sessions.symm ▸ hk
  have run := h.run.step ⟨(), .dropSession rfl live⟩
  have run := run.step ⟨(), .dropLock rfl rfl⟩
  refine handlerDrop_reached w ?_
  cases hslot : s.slots k with
  | none =>
    have run := run.step ⟨(), .dropNone rfl hslot⟩
    exact settle (run.step ⟨(), .dropUnlock rfl⟩) hsessions rfl rfl
  | some timer =>
    have run := run.step ⟨(), .dropTimer rfl hslot (List.Perm.refl _)⟩
    have run := deleteThreads_run run rfl
    have run := run.step ⟨(), .disarm rfl⟩
    have run := run.step ⟨(), .dropActive rfl⟩
    exact settle (run.step ⟨(), .dropUnlock rfl⟩) hsessions rfl rfl

/-! ### Threads -/

/-- A hook is at `pc` with the mutex of session `k`, whose timer it has seen. -/
structure Hooked (sessions : List ℕ) (k : ℕ) (timer : Timer) (pc : Pc) (s : Timers.State Unit) :
    Prop where
  run : Reachable Timers.Initial Timers.Run
    { at' s pc with locks := Function.update (fun _ => none) (.slot k) (some ()) }
  sessions : s.sessions = sessions
  slot : s.slots k = some timer
  shared : k < s.nextSession

/-- Between the hooks, with a session that has been started. -/
structure Shared (sessions : List ℕ) (k : ℕ) (s : Timers.State Unit) : Prop
    extends Reached sessions .idle s where
  shared : k < s.nextSession

theorem Hooked.unlock {l : List ℕ} {k : ℕ} {timer : Timer} {s : Timers.State Unit}
    (h : Hooked l k timer (.hookUnlock k) s) : Shared l k s :=
  ⟨settle (h.run.step ⟨(), .hookUnlock rfl⟩) h.sessions rfl rfl, h.shared⟩

theorem timerStart_hooked (w : Externals) (l : List ℕ) {k tid : ℕ} {timer : Timer} (ident : ℕ)
    (vacant : timer.Vacant tid) :
    (CTimer.start w ident tid).Ensures (Hooked l k timer (.createdLocked k tid))
      (fun id => Hooked l k timer (.timerArmed k tid id)) fun _ => Hooked l k timer (.hookUnlock k) := by
  refine .bind (Q := fun _ => Hooked l k timer (.createdLocked k tid)) (.returned (fun _ _ _ h => h) ?_)
    fun _ => .bind (Q := fun s₀ s => s₀ = s ∧ Hooked l k timer (.createdLocked k tid) s)
      (.get fun s h => ⟨rfl, h⟩) fun s₀ =>
        .bind (Q := fun _ => Hooked l k timer (.timerCreated k tid s₀.nextTimer)) (.modify ?_) fun _ =>
          .bind (Q := fun _ => Hooked l k timer (.timerArmed k tid s₀.nextTimer)) (.guarded ?_) fun _ =>
            .pure fun _ h => h
  · exact fun _ _ s h =>
      ⟨h.run.step ⟨(), .timerCreateFails rfl h.slot vacant⟩, h.sessions, h.slot, h.shared⟩
  · rintro s ⟨rfl, h⟩
    exact ⟨h.run.step ⟨(), .timerCreate rfl h.slot vacant⟩, h.sessions, h.slot, h.shared⟩
  · refine .bind (Q := fun _ => Hooked l k timer (.timerCreated k tid s₀.nextTimer))
      (.returned (fun _ _ _ h => h) ?_) fun _ => .modify ?_
    · intro _ _ s h
      have run := h.run.step ⟨(), .settimeFails rfl⟩
      exact ⟨run.step ⟨(), .deleteFailed rfl⟩, h.sessions, h.slot, h.shared⟩
    · exact fun s h => ⟨h.run.step ⟨(), .settime rfl⟩, h.sessions, h.slot, h.shared⟩

theorem threadCreated_reached (w : Externals) (l : List ℕ) (k ident tid : ℕ) :
    (threadCreated w k ident tid).Ensures (Shared l k) (fun _ => Shared l k) fun _ => Shared l k := by
  have hlock : ∀ s, Shared l k s → Reachable Timers.Initial Timers.Run { at' s (.createdLocked k tid) with
      locks := Function.update (fun _ => none) (.slot k) (some ()) } := by
    intro s h
    have run := h.run.step ⟨(), .threadCreated (s := at' s .idle) rfl h.shared tid⟩
    exact run.step ⟨(), .createdLock rfl rfl⟩
  refine .bind (Q := fun s₀ s => s₀ = s ∧ Shared l k s) (.get fun s h => ⟨rfl, h⟩) fun s₀ => ?_
  cases hslot : s₀.slots k with
  | none =>
    refine .pure ?_
    rintro s ⟨rfl, h⟩
    have run := (hlock _ h).step ⟨(), .createdNothing rfl fun timer ht => nomatch hslot.symm.trans ht⟩
    exact ⟨settle (run.step ⟨(), .hookUnlock rfl⟩) h.sessions rfl rfl, h.shared⟩
  | some timer =>
    by_cases vacant : timer.mode = .cTimer ∧ timer.threads.get tid = none
    · simp only [if_pos vacant]
      refine .mapError (.bind ((timerStart_hooked w l ident vacant).conseq ?_ (fun _ _ h => h)
        fun _ _ h => h.unlock) fun id => .modify fun s h => ?_)
      · rintro s ⟨rfl, h⟩
        exact ⟨hlock _ h, h.sessions, hslot, h.shared⟩
      · have run := h.run.step ⟨(), .insertTimer rfl h.slot⟩
        exact ⟨settle (run.step ⟨(), .hookUnlock rfl⟩) h.sessions rfl rfl, h.shared⟩
    · simp only [if_neg vacant]
      refine .pure ?_
      rintro s ⟨rfl, h⟩
      have nothing : ∀ timer', s₀.slots k = some timer' → ¬timer'.Vacant tid := by
        intro timer' ht
        rw [hslot] at ht
        cases ht
        exact vacant
      have run := (hlock _ h).step ⟨(), .createdNothing rfl nothing⟩
      exact ⟨settle (run.step ⟨(), .hookUnlock rfl⟩) h.sessions rfl rfl, h.shared⟩

theorem threadRemoved_reached (l : List ℕ) (k tid : ℕ) {s : Timers.State Unit} (h : Shared l k s) :
    Shared l k (threadRemoved k tid s) := by
  have run := h.run.step ⟨(), .threadRemoved (s := at' s .idle) rfl h.shared tid⟩
  have run := run.step ⟨(), .removedLock rfl rfl⟩
  have hnothing : (∀ timer, s.slots k = some timer →
      timer.mode = .iTimer ∨ timer.threads.get tid = none) → Shared l k s := by
    intro nothing
    have run := run.step ⟨(), .removedNothing rfl nothing⟩
    exact ⟨settle (run.step ⟨(), .hookUnlock rfl⟩) h.sessions rfl rfl, h.shared⟩
  unfold threadRemoved
  split
  · next hslot => exact hnothing fun timer ht => nomatch hslot.symm.trans ht
  · next timer hslot =>
    split
    · next id hmode hid =>
      have run := run.step ⟨(), .removeTimer rfl hslot hmode hid⟩
      have run := run.step ⟨(), .deleteRemoved rfl⟩
      exact ⟨settle (run.step ⟨(), .hookUnlock rfl⟩) h.sessions rfl rfl, h.shared⟩
    · next hne =>
      refine hnothing fun timer' ht => ?_
      rw [hslot] at ht
      cases ht
      cases hmode : timer.mode with
      | iTimer => exact .inl rfl
      | cTimer =>
        cases hid : timer.threads.get tid with
        | none => exact .inr rfl
        | some id => exact (hne id hmode hid).elim

end Pyroscope.Signal.Calls
