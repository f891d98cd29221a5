import Pyroscope.Signal.Calls
import Pyroscope.Signal.Session

/-!
# The thread registry and the Signal backend (signal_backend.rs)

The hooks of Python's threads keep `LIVE` and pass the threads on to the session in
`TIMER`. `Signal::new` starts a session, attaches the registry to it and hands it to a
sampler thread, which owns it from then on. A start empties `RECORDS` and the counters.
The process does not fork, and nobody else is a consumer of `RECORDS` during a start.
-/

namespace Pyroscope.Signal.Calls
open Pyroscope.Lib Pyroscope.Signal.Timers

/-- `samplerThread` is the session of the sampler thread, while that runs, and its timer. -/
structure Statics where
  timers : Timers.State Unit
  records : List (List Frame)
  metrics : Metrics
  installed : Bool
  live : HashMap ℕ ℕ
  timer : Option ℕ
  samplerThread : Option (ℕ × Mode)

abbrev StaticsCall := Call Statics

def onTimers {α : Type} (c : TimerCall String α) : StaticsCall String α :=
  c.on Statics.timers fun x timers => { x with timers }

def SignalHandlerSession.start (p : Platform) (w : Externals) (config : Config) : StaticsCall String ℕ := do
  onTimers (SignalHandlerSession.check p w config)
  Call.modify fun x => { x with records := [] }
  onTimers ((SignalHandler.install w).mapError fun e => s!"failed to install the signal handler: {e}")
  Call.modify fun x => { x with metrics := Metrics.zero }
  onTimers (SignalHandlerSession.arm p w config)

namespace Threads

/-- `threads::install`, with the answer of Python -/
def install (hooks : Except String Unit) : StaticsCall String Unit := do
  let x ← Call.get
  if x.installed = true then pure ()
  else do
    Call.returned hooks
    Call.modify fun x => { x with installed := true }

/-- The loop of `attach`, which skips the caller. -/
def attachLive (w : Externals) (k : ℕ) : List (ℕ × ℕ) → Timers.State Unit → Timers.State Unit
  | [], s => s
  | (id, tid) :: live, s =>
    attachLive w k live (if tid ≠ w.gettid then (threadCreated w k id tid).ignore s else s)

def attach (p : Platform) (w : Externals) (k : ℕ) : StaticsCall String Unit :=
  if p.linux = true then do
    let x ← Call.get
    Call.failIf (x.installed = false) "Signal: the thread hooks of the CTimer are not installed"
    Call.modify fun x => { x with live := x.live.insert w.threadIdent w.gettid }
    (onTimers (threadCreated w k w.threadIdent w.gettid)).mapError
      fun e => s!"Signal: failed to arm the configure caller's CPU timer: {e}"
    Call.modify fun x => { x with timers := attachLive w k (w.order.visit x.live.toList) x.timers }
    Call.modify fun x => { x with timer := some k }
  else Call.fail "Signal: CTimer works only on Linux"

def detach (x : Statics) : Statics := { x with timer := none }

/-- `tid` is `native_id as libc::pid_t`, which keeps every native id that Linux gives out. -/
def registerThread (w : Externals) (id tid : ℕ) (x : Statics) : Statics :=
  let previous := x.live.get id
  let x := { x with live := x.live.insert id tid }
  match x.timer with
  | none => x
  | some k =>
    let s := match previous with
      | some previous => if previous ≠ tid then threadRemoved k previous x.timers else x.timers
      | none => x.timers
    { x with timers := (threadCreated w k id tid).ignore s }

def unregisterThread (id : ℕ) (x : Statics) : Statics :=
  match x.live.get id with
  | none => x
  | some tid =>
    let x := { x with live := x.live.erase id }
    match x.timer with
    | none => x
    | some k => { x with timers := threadRemoved k tid x.timers }

end Threads

def dropSession (w : Externals) (k : ℕ) (x : Statics) : Statics :=
  { x with timers := SignalHandlerSession.drop w k x.timers }

def new (p : Platform) (w : Externals) (config : Config) : StaticsCall String Unit := do
  let k ← (SignalHandlerSession.start p w config).mapError fun e => s!"Signal: {e}"
  (if config.signalTimer = .cTimer then Call.guarded (dropSession w k) (Threads.attach p w k)
    else pure () : StaticsCall String Unit)
  Call.modify fun x => { x with samplerThread := some (k, config.signalTimer) }

/-- The end of the sampler thread, on its own or joined by `shutdown_thread`. -/
def samplerThreadEnds (w : Externals) (x : Statics) : Statics :=
  match x.samplerThread with
  | none => x
  | some (k, mode) =>
    let x := if mode = .cTimer then Threads.detach x else x
    { dropSession w k x with samplerThread := none }

/-! ### Between the calls -/

/-- The session that `TIMER` must hold. -/
def attached : Option (ℕ × Mode) → Option ℕ
  | some (k, .cTimer) => some k
  | _ => none

/-- No session but that of the sampler thread. -/
structure Steady (x : Statics) : Prop where
  reached : Reached (x.samplerThread.toList.map Prod.fst) .idle x.timers
  timer : x.timer = attached x.samplerThread

structure Off (x : Statics) : Prop where
  reached : Reached [] .idle x.timers
  timer : x.timer = none
  noThread : x.samplerThread = none

/-- `Signal::new` has session `k`, which no thread owns yet. -/
structure Holding (k : ℕ) (timer : Option ℕ) (x : Statics) : Prop where
  shared : Shared [k] k x.timers
  timer : x.timer = timer
  noThread : x.samplerThread = none

theorem Off.steady {x : Statics} (h : Off x) : Steady x := by
  refine ⟨?_, ?_⟩
  · rw [h.noThread]
    exact h.reached
  · rw [h.noThread]
    exact h.timer

theorem Steady.off {x : Statics} (h : Steady x) (hx : x.samplerThread = none) : Off x := by
  have hreached := h.reached
  have htimer := h.timer
  rw [hx] at hreached htimer
  exact ⟨hreached, htimer, hx⟩

theorem Reached.shared {l : List ℕ} {k : ℕ} {s : Timers.State Unit} (h : Reached l .idle s) (hk : k ∈ l) :
    Shared l k s := by
  obtain ⟨p, hp⟩ := Timers.reachable_inv h.run
  have hlive : k ∈ p.live := by
    rw [← hp.live]
    exact h.sessions.symm ▸ hk
  cases p with
  | session k' mode =>
    obtain rfl := List.mem_singleton.mp hlive
    obtain ⟨timer, htimer, -⟩ := hp.slot_some k mode rfl
    exact ⟨h, hp.fresh k (Option.isSome_of_eq_some htimer)⟩
  | _ => cases hlive

theorem attachLive_shared (w : Externals) {l : List ℕ} {k : ℕ} (live : List (ℕ × ℕ)) {s : Timers.State Unit}
    (h : Shared l k s) : Shared l k (Threads.attachLive w k live s) := by
  induction live generalizing s with
  | nil => exact h
  | cons entry live ih =>
    refine ih ?_
    split
    · exact (threadCreated_reached w l k entry.1 entry.2).ignore h
    · exact h

theorem attach_holding (p : Platform) (w : Externals) (k : ℕ) :
    (Threads.attach p w k).Ensures (Holding k none) (fun _ => Holding k (some k))
      fun _ => Holding k none := by
  have harm : (onTimers (threadCreated w k w.threadIdent w.gettid)).Ensures (Holding k none)
      (fun _ => Holding k none) fun _ => Holding k none :=
    .on fun x h => (threadCreated_reached w [k] k _ _ x.timers h.shared).imp
      (fun _ _ hs => ⟨hs, h.timer, h.noThread⟩) fun _ _ hs => ⟨hs, h.timer, h.noThread⟩
  unfold Threads.attach
  split
  · refine .bind (Q := fun _ => Holding k none) (.get fun x h => h) fun x₀ => ?_
    refine .bind (Q := fun _ => Holding k none) (.failIf (fun _ _ h => h) fun _ _ h => h) fun _ => ?_
    refine .bind (Q := fun _ => Holding k none)
      (.modify fun x h => ⟨h.shared, h.timer, h.noThread⟩) fun _ => ?_
    refine .bind (Q := fun _ => Holding k none) (.mapError harm) fun _ => ?_
    refine .bind (Q := fun _ => Holding k none) (.modify fun x h => ?_) fun _ => .modify fun x h => ?_
    · exact ⟨attachLive_shared w _ h.shared, h.timer, h.noThread⟩
    · exact ⟨h.shared, rfl, h.noThread⟩
  · exact .fail fun _ h => h

theorem dropSession_off (w : Externals) {k : ℕ} {x : Statics} (h : Holding k none x) :
    Off (dropSession w k x) := by
  have hdrop := sessionDrop_reached w h.shared.toReached (List.mem_singleton_self k)
  rw [List.erase_cons_head] at hdrop
  exact ⟨hdrop, h.timer, h.noThread⟩

/-- A start that has come to `pc`. -/
structure Starting (pc : Pc) (x : Statics) : Prop where
  reached : Reached [] pc x.timers
  timer : x.timer = none
  noThread : x.samplerThread = none

theorem Starting.off {x : Statics} (h : Starting .idle x) : Off x := ⟨h.reached, h.timer, h.noThread⟩

theorem onTimers_starting {α : Type} {c : TimerCall String α} {pc : Pc} {pc' : α → Pc}
    (h : c.Ensures (Reached [] pc) (fun a => Reached [] (pc' a)) fun _ => Reached [] .idle) :
    (onTimers c).Ensures (Starting pc) (fun a => Starting (pc' a)) fun _ => Off :=
  .on fun x hx => (h x.timers hx.reached).imp (fun _ _ hs => ⟨hs, hx.timer, hx.noThread⟩)
    fun _ _ hs => ⟨hs, hx.timer, hx.noThread⟩

/- A start that fails leaves no trace of itself; one that does not returns its session. -/
theorem start_holding (p : Platform) (w : Externals) (config : Config) :
    (SignalHandlerSession.start p w config).Ensures Off (fun k => Holding k none) fun _ => Off := by
  refine .bind ((onTimers_starting (check_reached p w config [] config.signalTimer)).conseq
    (fun x h => ⟨h.reached, h.timer, h.noThread⟩) (fun _ _ h => h) fun _ _ h => h) fun _ => ?_
  refine .bind (Q := fun _ => Starting (.starting config.signalTimer))
    (.modify fun x h => ⟨h.reached, h.timer, h.noThread⟩) fun _ => ?_
  refine .bind (onTimers_starting (.mapError (install_reached w [] config.signalTimer))) fun _ => ?_
  refine .bind (Q := fun _ => Starting (.installed config.signalTimer))
    (.modify fun x h => ⟨h.reached, h.timer, h.noThread⟩) fun _ => .on fun x hx => ?_
  exact (arm_reached p w config [] x.timers hx.reached).imp
    (fun k s hs => ⟨hs.shared (List.mem_singleton_self k), hx.timer, hx.noThread⟩)
    fun _ s hs => ⟨hs, hx.timer, hx.noThread⟩

/- A backend that does not come up leaves no session and an empty `TIMER`. -/
theorem new_steady (p : Platform) (w : Externals) (config : Config) :
    (new p w config).Ensures Off (fun _ => Steady) fun _ => Off := by
  refine .bind (.mapError (start_holding p w config)) fun k => ?_
  refine .bind (Q := fun _ => Holding k (attached (some (k, config.signalTimer)))) ?_
    fun _ => .modify fun x h => ⟨h.shared.toReached, h.timer⟩
  cases config.signalTimer with
  | iTimer => exact .pure fun x h => h
  | cTimer =>
    exact .guarded ((attach_holding p w k).conseq (fun _ h => h) (fun _ _ h => h)
      fun _ _ h => dropSession_off w h)

theorem samplerThreadEnds_off (w : Externals) {x : Statics} (h : Steady x) :
    Off (samplerThreadEnds w x) := by
  unfold samplerThreadEnds
  split
  · next hx => exact h.off hx
  · next k mode hx =>
    have hreached := h.reached
    have htimer := h.timer
    rw [hx] at hreached htimer
    have hdrop := sessionDrop_reached w hreached (List.mem_singleton_self k)
    simp only [Option.toList, List.map_cons, List.map_nil, List.erase_cons_head] at hdrop
    cases mode with
    | iTimer => exact ⟨hdrop, htimer, rfl⟩
    | cTimer => exact ⟨hdrop, rfl, rfl⟩

/-! ### The hooks at work -/

/- A session in `TIMER` is the sampler thread's. -/
theorem Steady.shared {x : Statics} (h : Steady x) {k : ℕ} (hk : x.timer = some k) :
    Shared (x.samplerThread.toList.map Prod.fst) k x.timers := by
  refine h.reached.shared ?_
  have ht := h.timer.symm.trans hk
  cases hx : x.samplerThread with
  | none =>
    rw [hx] at ht
    cases ht
  | some thread =>
    rw [hx] at ht
    rcases thread with ⟨k', mode⟩
    cases mode with
    | iTimer => cases ht
    | cTimer =>
      cases ht
      exact List.mem_singleton_self k

theorem registerThread_steady (w : Externals) (id tid : ℕ) {x : Statics} (h : Steady x) :
    Steady (Threads.registerThread w id tid x) := by
  unfold Threads.registerThread
  cases hk : x.timer with
  | none => exact ⟨h.reached, hk.symm.trans h.timer⟩
  | some k =>
    refine ⟨((threadCreated_reached w _ k id tid).ignore ?_).toReached, hk.symm.trans h.timer⟩
    split
    · split
      · exact threadRemoved_reached _ k _ (h.shared hk)
      · exact h.shared hk
    · exact h.shared hk

theorem unregisterThread_steady (id : ℕ) {x : Statics} (h : Steady x) :
    Steady (Threads.unregisterThread id x) := by
  unfold Threads.unregisterThread
  split
  · exact h
  · next tid _ =>
    cases hk : x.timer with
    | none => exact ⟨h.reached, hk.symm.trans h.timer⟩
    | some k => exact ⟨(threadRemoved_reached _ k tid (h.shared hk)).toReached, hk.symm.trans h.timer⟩

theorem registerThread_installed (w : Externals) (id tid : ℕ) (x : Statics) :
    (Threads.registerThread w id tid x).installed = x.installed := by
  unfold Threads.registerThread
  cases x.timer <;> rfl

theorem unregisterThread_installed (id : ℕ) (x : Statics) :
    (Threads.unregisterThread id x).installed = x.installed := by
  unfold Threads.unregisterThread
  cases x.live.get id with
  | none => rfl
  | some tid => cases x.timer <;> rfl

theorem registerThread_samplerThread (w : Externals) (id tid : ℕ) (x : Statics) :
    (Threads.registerThread w id tid x).samplerThread = x.samplerThread := by
  unfold Threads.registerThread
  cases x.timer <;> rfl

theorem unregisterThread_samplerThread (id : ℕ) (x : Statics) :
    (Threads.unregisterThread id x).samplerThread = x.samplerThread := by
  unfold Threads.unregisterThread
  cases x.live.get id with
  | none => rfl
  | some tid => cases x.timer <;> rfl

theorem samplerThreadEnds_samplerThread (w : Externals) (x : Statics) :
    (samplerThreadEnds w x).samplerThread = none := by
  unfold samplerThreadEnds
  split
  · next hx => exact hx
  · rfl

theorem samplerThreadEnds_installed (w : Externals) (x : Statics) :
    (samplerThreadEnds w x).installed = x.installed := by
  unfold samplerThreadEnds
  split
  · rfl
  · split <;> rfl

/-! ### What is left behind -/

/-- Neither a timer nor a handler nor an entry in `TIMER`. -/
structure Disarmed (x : Statics) : Prop where
  itimer : x.timers.itimer = false
  armed : x.timers.armed = []
  active : x.timers.active = false
  handledSignals : sigprof ∉ x.timers.handledSignals
  timer : x.timer = none

theorem Off.disarmed {x : Statics} (h : Off x) : Disarmed x := by
  have hquiet : Quiet (at' x.timers .idle) := ⟨h.reached.sessions, fun _ => .idle⟩
  obtain ⟨p, hp⟩ := Timers.reachable_inv h.reached.run
  obtain ⟨hitimer, harmed, hactive, hhandled⟩ := hp.clean hquiet
  exact ⟨hitimer, harmed, hactive, hhandled, h.timer⟩

/-! ### Starting without a failure -/

/-- Every call out of the backend succeeds. -/
structure Externals.NoFailure (w : Externals) : Prop where
  faultHandlers : w.faultHandlers = .ok ()
  sigaction : w.sigaction = .ok ()
  query : w.query = true
  setitimer : w.setitimer = .ok ()
  timerCreate : ∀ ident tid, w.timerCreate ident tid = .ok ()
  timerSettime : ∀ ident tid, w.timerSettime ident tid = .ok ()

structure Config.Accepted (p : Platform) (config : Config) : Prop where
  version : checkVersion p config.pythonVersion = .ok ()
  rate : config.samplingRate ≠ 0
  interval : p.interval config.samplingRate ≠ 0
  linux : config.signalTimer = .cTimer → p.linux = true

section NoFailure
variable {p : Platform} {w : Externals} {config : Config}

theorem returned_succeeds {σ ε α : Type} {P : σ → Prop} {r : Except ε α} {a : α} (hr : r = .ok a) :
    (Call.returned r).Ensures P (fun _ => P) fun _ _ => False :=
  .returned (fun _ _ _ h => h) fun _ he => nomatch hr.symm.trans he

theorem check_succeeds (hw : w.NoFailure) (hc : config.Accepted p) {P : Timers.State Unit → Prop} :
    (SignalHandlerSession.check p w config).Ensures P (fun _ => P) fun _ _ => False := by
  refine .bind (returned_succeeds hc.version) fun _ => ?_
  refine .bind (Q := fun _ => P) (.failIf (fun h => (hc.rate h).elim) fun _ _ h => h) fun _ => ?_
  exact .mapError (returned_succeeds hw.faultHandlers)

theorem install_succeeds (hw : w.NoFailure) : (SignalHandler.install w).Ensures
    (fun s => sigprof ∉ s.handledSignals ∧ s.active = false) (fun _ s => s.active = false)
    fun _ _ => False := by
  refine .bind (Q := fun s₀ s => sigprof ∉ s₀.handledSignals ∧ s.active = false)
    (.get fun s h => h) fun s₀ => ?_
  refine .bind (Q := fun _ s => s.active = false)
    (.failIf (fun listed _ h => h.1 listed) fun _ _ h => h.2) fun _ => ?_
  exact .bind (returned_succeeds hw.sigaction) fun _ => .modify fun s h => h

theorem timerStart_succeeds (hw : w.NoFailure) (mode : Mode) {interval : ℕ} (hi : interval ≠ 0) :
    (Timer.start w mode interval).Ensures (fun s => s.active = false) (fun _ _ => True)
      fun _ _ => False := by
  refine .bind (Q := fun _ s => s.active = false) (.failIf (fun h => (hi h).elim) fun _ _ h => h) fun _ => ?_
  refine .bind (Q := fun _ _ => True) ?_ fun _ => .guarded ?_
  · refine .bind (Q := fun s₀ _ => s₀.active = false) (.get fun s h => h) fun s₀ => ?_
    refine .bind (Q := fun _ _ => True) (.failIf (fun taken s h => ?_) fun _ _ _ => trivial)
      fun _ => .modify fun _ _ => trivial
    exact Bool.false_ne_true (h.symm.trans taken)
  · cases mode with
    | iTimer => exact .bind (returned_succeeds hw.setitimer) fun _ => .modify fun _ h => h
    | cTimer => exact .pure fun _ h => h

theorem arm_succeeds (hw : w.NoFailure) (hc : config.Accepted p) :
    (SignalHandlerSession.arm p w config).Ensures (fun s => s.active = false) (fun _ _ => True)
      fun _ _ => False := by
  refine .bind (Q := fun _ _ => True) (.guarded ?_) fun _ _ _ => trivial
  refine .bind (Q := fun _ s => s.active = false) (.failIf (fun h => ?_) fun _ _ h => h) fun _ => .mapError ?_
  · exact (Bool.false_ne_true (h.2.symm.trans (hc.linux h.1))).elim
  · exact timerStart_succeeds hw config.signalTimer hc.interval

theorem threadCreated_succeeds (hw : w.NoFailure) (k ident tid : ℕ) :
    (threadCreated w k ident tid).Ensures (fun _ => True) (fun _ _ => True) fun _ _ => False := by
  refine .bind (Q := fun _ _ => True) (.get fun _ _ => trivial) fun s₀ => ?_
  split
  · exact .pure fun _ h => h
  · split
    · refine .mapError (.bind (Q := fun _ _ => True) ?_ fun _ => .modify fun _ h => h)
      refine .bind (returned_succeeds (hw.timerCreate ident tid)) fun _ => ?_
      refine .bind (Q := fun _ _ => True) (.get fun _ h => h) fun s => ?_
      refine .bind (Q := fun _ _ => True) (.modify fun _ h => h) fun _ => ?_
      refine .bind (Q := fun _ _ => True) (.guarded ?_) fun _ => .pure fun _ h => h
      exact .bind (returned_succeeds (hw.timerSettime ident tid)) fun _ => .modify fun _ h => h
    · exact .pure fun _ h => h

theorem attach_succeeds (hw : w.NoFailure) (hlinux : p.linux = true) (k : ℕ) :
    (Threads.attach p w k).Ensures (fun x => x.installed = true) (fun _ _ => True) fun _ _ => False := by
  unfold Threads.attach
  rw [if_pos hlinux]
  refine .bind (Q := fun x₀ _ => x₀.installed = true) (.get fun _ h => h) fun x₀ => ?_
  refine .bind (Q := fun _ _ => True) (.failIf (fun off _ h => ?_) fun _ _ _ => trivial) fun _ => ?_
  · exact Bool.false_ne_true (off.symm.trans h)
  · refine .bind (Q := fun _ _ => True) (.modify fun _ h => h) fun _ => ?_
    refine .bind (Q := fun _ _ => True)
      (.mapError (.on fun x h => (threadCreated_succeeds hw k _ _ x.timers h).imp (fun _ _ h => h)
        fun _ _ h => h)) fun _ => ?_
    exact .bind (Q := fun _ _ => True) (.modify fun _ h => h) fun _ => .modify fun _ h => h

theorem onTimers_succeeds {α : Type} {c : TimerCall String α} {P : Timers.State Unit → Prop}
    {Q : α → Timers.State Unit → Prop} (h : c.Ensures P Q fun _ _ => False) (b : Bool) :
    (onTimers c).Ensures (fun x => P x.timers ∧ x.installed = b) (fun a x => Q a x.timers ∧ x.installed = b)
      fun _ _ => False :=
  .on fun x hx => (h x.timers hx.1).imp (fun _ _ hs => ⟨hs, hx.2⟩) fun _ _ hs => hs

theorem start_succeeds (hw : w.NoFailure) (hc : config.Accepted p) (b : Bool) :
    (SignalHandlerSession.start p w config).Ensures
      (fun x => (sigprof ∉ x.timers.handledSignals ∧ x.timers.active = false) ∧ x.installed = b)
      (fun _ x => x.installed = b) fun _ _ => False := by
  have hcheck := check_succeeds (P := fun s => sigprof ∉ s.handledSignals ∧ s.active = false) hw hc
  refine .bind (onTimers_succeeds hcheck b) fun _ => ?_
  refine .bind (Q := fun _ x => (sigprof ∉ x.timers.handledSignals ∧ x.timers.active = false) ∧
    x.installed = b) (.modify fun _ h => h) fun _ => ?_
  refine .bind (onTimers_succeeds (.mapError (install_succeeds hw)) b) fun _ => ?_
  refine .bind (Q := fun _ x => x.timers.active = false ∧ x.installed = b) (.modify fun _ h => h) fun _ => ?_
  exact (onTimers_succeeds (arm_succeeds hw hc) b).conseq (fun _ h => h) (fun _ _ h => h.2) fun _ _ h => h

/- From nothing left behind, an accepted backend comes up. -/
theorem new_succeeds (hw : w.NoFailure) (hc : config.Accepted p) {b : Bool}
    (hooks : config.signalTimer = .cTimer → b = true) :
    (new p w config).Ensures (fun x => Disarmed x ∧ x.installed = b) (fun _ _ => True)
      fun _ _ => False := by
  have hstart : (SignalHandlerSession.start p w config).Ensures
      (fun x => Disarmed x ∧ x.installed = b) (fun _ x => x.installed = b) fun _ _ => False :=
    (start_succeeds hw hc b).conseq (fun x h => ⟨⟨h.1.handledSignals, h.1.active⟩, h.2⟩) (fun _ _ h => h) fun _ _ h => h
  refine .bind (.mapError hstart) fun k => .bind (Q := fun _ _ => True) ?_ fun _ => .modify fun _ h => h
  split
  · next hmode =>
    exact .guarded ((attach_succeeds hw (hc.linux hmode) k).conseq (fun x h => h.trans (hooks hmode))
      (fun _ _ h => h) fun _ _ h => h)
  · exact .pure fun _ _ => trivial

end NoFailure

end Pyroscope.Signal.Calls
