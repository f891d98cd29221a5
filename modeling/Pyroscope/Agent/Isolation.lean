import Pyroscope.Agent.Alike

/-!
# Sessions do not see each other (ffikit.rs, memory.rs, stack/mod.rs, signal_sampler.rs)

The statics that a session fills are emptied at different moments: the builders and the string
table when it ends or fails to start, the ring buffer and the counters when the next Signal
session starts, the stack buffer with its backend. Two processes that were started and stopped
in the same way therefore go through the next session alike.
-/

namespace Pyroscope.Agent.Isolation
open Pyroscope.Lib Pyroscope.Encode Pyroscope.Backend Pyroscope.Agent.Configure

/-! ### Single writes -/

section Writes
variable {c : Comparison} {s s' : Process}

structure Untouched (s t : Process) : Prop where
  profilers : t.profilers = s.profilers
  signal : t.signal = s.signal
  agent : t.agent = s.agent
  pyspyThread : t.pyspyThread = s.pyspyThread
  buffer : t.buffer = s.buffer
  uploads : t.uploads = s.uploads

theorem Untouched.hasSignal {s t : Process} (h : Untouched s t) : hasSignal t ↔ hasSignal s := by
  rw [Isolation.hasSignal, Isolation.hasSignal, h.signal, h.agent]

theorem Untouched.hasBackend {s t : Process} (h : Untouched s t) : hasBackend t ↔ hasBackend s := by
  rw [Isolation.hasBackend, Isolation.hasBackend, h.hasSignal, h.pyspyThread, h.agent]

theorem Alike.untouched (h : Alike c s s') {t t' : Process} (hc : Control t t')
    (hr : t.state = .idle → s.pyspyThread = false) (ht : Untouched s t) (ht' : Untouched s' t') : Alike c t t' := by
  refine ⟨hc, by rw [ht.profilers]; exact h.kept, by rw [ht'.profilers]; exact h.kept',
    fun hi => ht.pyspyThread.trans (hr hi), fun hct => ?_⟩
  have hcap := h.captured hct
  refine ⟨?_, fun hb => ?_, fun hs => ?_, ?_⟩
  · rw [Poisoned, Poisoned, ht.profilers, ht'.profilers]
    exact hcap.profilers
  · rw [ht.buffer, ht'.buffer]
    exact hcap.buffer (ht.hasBackend.mp hb)
  · rw [ht.signal, ht'.signal]
    exact hcap.signal (ht.hasSignal.mp hs)
  · rw [ht.uploads, ht'.uploads]
    exact hcap.uploads

theorem Alike.putProfilers (h : Alike c s s') {p p' : Agent.State} (hm : p'.memoryRunning = p.memoryRunning)
    (hs : p'.stackRunning = p.stackRunning) (hk : Kept p) (hk' : Kept p')
    (hp : p.interner.poisoned = s.profilers.interner.poisoned)
    (hp' : p'.interner.poisoned = s'.profilers.interner.poisoned)
    (hsame : SameCaptured s.profilers s'.profilers → SameCaptured p p') :
    Alike c { s with profilers := p } { s' with profilers := p' } := by
  refine ⟨?_, hk, hk', h.rested, fun hct => (h.captured hct).putProfilers hp.trans hp'.trans hsame⟩
  exact ⟨h.control.state, h.control.nextAgent, h.control.agent, hm, hs, h.control.started, h.control.stoppedOnce,
    h.control.stackThreadsInstalled, h.control.signal, h.control.pyspyThread, h.control.backendConfig⟩

theorem Alike.memoryStop (h : Alike c s s') : Alike c (memoryStop s) (memoryStop s') :=
  h.putProfilers rfl h.control.stackRunning h.kept.memoryStop h.kept'.memoryStop rfl rfl SameCaptured.memoryStop

theorem Alike.samplerStop (h : Alike c s s') : Alike c { s with profilers := s.profilers.samplerStop }
    { s' with profilers := s'.profilers.samplerStop } :=
  h.putProfilers h.control.memoryRunning rfl h.kept.samplerStop h.kept'.samplerStop rfl rfl SameCaptured.samplerStop

theorem Alike.stackClearSamples (h : Alike c s s') : Alike c (stackClearSamples s) (stackClearSamples s') :=
  h.putProfilers h.control.memoryRunning h.control.stackRunning h.kept.stackClear h.kept'.stackClear rfl rfl
    SameCaptured.stackClear

theorem Alike.internerClear (h : Alike c s s') : Alike c (internerClear s) (internerClear s') :=
  h.putProfilers h.control.memoryRunning h.control.stackRunning h.kept.internerClear h.kept'.internerClear rfl rfl
    SameCaptured.internerClear

theorem Alike.setState (h : Alike c s s') (state : Lifecycle.AgentState)
    (hr : state = .idle → s.pyspyThread = false) : Alike c { s with state } { s' with state } :=
  h.untouched ⟨rfl, h.control.nextAgent, h.control.agent, h.control.memoryRunning, h.control.stackRunning,
    h.control.started, h.control.stoppedOnce, h.control.stackThreadsInstalled, h.control.signal,
    h.control.pyspyThread, h.control.backendConfig⟩ hr ⟨rfl, rfl, rfl, rfl, rfl, rfl⟩ ⟨rfl, rfl, rfl, rfl, rfl, rfl⟩

theorem Alike.setRunning (h : Alike c s s') :
    Alike c { s with state := .running s.nextAgent, nextAgent := s.nextAgent + 1 }
      { s' with state := .running s'.nextAgent, nextAgent := s'.nextAgent + 1 } := by
  have hnext := h.control.nextAgent
  exact h.untouched ⟨congrArg Lifecycle.AgentState.running hnext, congrArg Nat.succ hnext, h.control.agent, h.control.memoryRunning,
    h.control.stackRunning, h.control.started, h.control.stoppedOnce, h.control.stackThreadsInstalled,
    h.control.signal, h.control.pyspyThread, h.control.backendConfig⟩ nofun ⟨rfl, rfl, rfl, rfl, rfl, rfl⟩
    ⟨rfl, rfl, rfl, rfl, rfl, rfl⟩

theorem Alike.setStarted (h : Alike c s s') (started : Bool) : Alike c { s with started } { s' with started } :=
  h.untouched ⟨h.control.state, h.control.nextAgent, h.control.agent, h.control.memoryRunning,
    h.control.stackRunning, rfl, h.control.stoppedOnce, h.control.stackThreadsInstalled, h.control.signal,
    h.control.pyspyThread, h.control.backendConfig⟩ h.rested ⟨rfl, rfl, rfl, rfl, rfl, rfl⟩
    ⟨rfl, rfl, rfl, rfl, rfl, rfl⟩

theorem Alike.setStoppedOnce (h : Alike c s s') : Alike c { s with stoppedOnce := true }
    { s' with stoppedOnce := true } :=
  h.untouched ⟨h.control.state, h.control.nextAgent, h.control.agent, h.control.memoryRunning,
    h.control.stackRunning, h.control.started, rfl, h.control.stackThreadsInstalled, h.control.signal,
    h.control.pyspyThread, h.control.backendConfig⟩ h.rested ⟨rfl, rfl, rfl, rfl, rfl, rfl⟩
    ⟨rfl, rfl, rfl, rfl, rfl, rfl⟩

theorem Alike.setStackThreadsInstalled (h : Alike c s s') : Alike c { s with stackThreadsInstalled := true }
    { s' with stackThreadsInstalled := true } :=
  h.untouched ⟨h.control.state, h.control.nextAgent, h.control.agent, h.control.memoryRunning,
    h.control.stackRunning, h.control.started, h.control.stoppedOnce, rfl, h.control.signal,
    h.control.pyspyThread, h.control.backendConfig⟩ h.rested ⟨rfl, rfl, rfl, rfl, rfl, rfl⟩
    ⟨rfl, rfl, rfl, rfl, rfl, rfl⟩

/- The statics of Signal, still told apart by at most what was captured. -/
theorem Alike.putSignal (h : Alike c s s') {x x' : Signal.Calls.Statics}
    (hx : Signal.Calls.Alike (c.tracked ∧ hasSignal s) s.signal.samplerThread x x') :
    Alike c { s with signal := x } { s' with signal := x' } := by
  obtain ⟨records, metrics, rfl, hknown, hthread⟩ := hx
  refine ⟨⟨h.control.state, h.control.nextAgent, h.control.agent, h.control.memoryRunning, h.control.stackRunning,
    h.control.started, h.control.stoppedOnce, h.control.stackThreadsInstalled, ⟨_, _, rfl⟩,
    h.control.pyspyThread, h.control.backendConfig⟩, h.kept, h.kept', h.rested, fun hct => ?_⟩
  have hcap := h.captured hct
  have hold : hasSignal { s with signal := x } → hasSignal s := fun hs => by
    rw [hasSignal, hthread] at hs
    exact hs
  exact ⟨hcap.profilers, fun hb => hcap.buffer (hb.imp_left hold), fun hs => hknown ⟨hct, hold hs⟩, hcap.uploads⟩

theorem Alike.signal (h : Alike c s s') :
    Signal.Calls.Alike (c.tracked ∧ hasSignal s) s.signal.samplerThread s.signal s'.signal := by
  obtain ⟨records, metrics, hsignal⟩ := h.control.signal
  rw [hsignal]
  refine ⟨records, metrics, rfl, fun hk => ?_, rfl⟩
  have hcap := (h.captured hk.1).signal hk.2
  rw [hsignal] at hcap
  exact hcap

end Writes

/-! ### Starting -/

/-- A start under way, with no sampler of PySpy yet. -/
structure Unbuilt (c : Comparison) (s s' : Process) : Prop extends Alike c s s' where
  pyspyThread : s.pyspyThread = false
  state : s.state ≠ .idle

section Start
variable {c : Comparison} {s s' : Process}

theorem Unbuilt.putProfilers (h : Unbuilt c s s') {p p' : Agent.State}
    (hput : Alike c { s with profilers := p } { s' with profilers := p' }) :
    Unbuilt c { s with profilers := p } { s' with profilers := p' } := ⟨hput, h.pyspyThread, h.state⟩

theorem Unbuilt.memoryStarted (h : Unbuilt c s s') (b : Bool) :
    Unbuilt c
      { s with profilers := { s.profilers with memoryRunning := s.profilers.memoryRunning || b } }
      { s' with profilers := { s'.profilers with memoryRunning := s'.profilers.memoryRunning || b } } := by
  have hheld : ∀ p : Agent.State, Kept p → Kept { p with memoryRunning := p.memoryRunning || b } := fun p hk =>
    ⟨hk.table, hk.memory, hk.wall, hk.oncpu, fun hoff => hk.memoryHeld (Bool.or_eq_false_iff.mp hoff).1, hk.stackHeld⟩
  refine h.putProfilers (h.toAlike.putProfilers ?_ h.control.stackRunning (hheld _ h.kept) (hheld _ h.kept') rfl rfl
    fun hs => ⟨hs.interner, hs.memory, hs.wall, hs.oncpu, hs.memoryHeld, hs.stackHeld⟩)
  exact congrArg (· || b) h.control.memoryRunning

theorem Unbuilt.stackStarted (h : Unbuilt c s s') :
    Unbuilt c { s with profilers := { s.profilers with stackRunning := true }, started := true }
      { s' with profilers := { s'.profilers with stackRunning := true }, started := true } := by
  have hheld : ∀ p : Agent.State, Kept p → Kept { p with stackRunning := true } := fun p hk =>
    ⟨hk.table, hk.memory, hk.wall, hk.oncpu, hk.memoryHeld, nofun⟩
  have hput : Alike c { s with profilers := { s.profilers with stackRunning := true } }
      { s' with profilers := { s'.profilers with stackRunning := true } } :=
    h.toAlike.putProfilers h.control.memoryRunning rfl (hheld _ h.kept) (hheld _ h.kept') rfl rfl
      fun hs => ⟨hs.interner, hs.memory, hs.wall, hs.oncpu, hs.memoryHeld, hs.stackHeld⟩
  exact ⟨hput.setStarted true, h.pyspyThread, h.state⟩

theorem memoryStart_alike (w : World) (config : Config) :
    (memoryStart w config).Relates (Unbuilt c) (memoryStart w config) (fun _ _ => Unbuilt c)
      fun e e' s s' => e' = e ∧ Unbuilt c s s' := by
  unfold memoryStart
  split
  · exact .pure fun _ _ h => h
  · split
    · exact .fail fun _ _ h => ⟨rfl, h⟩
    · refine .bind (Q := fun _ _ => Unbuilt c) (.modify fun s s' h => h.memoryStarted _) fun _ _ => ?_
      split
      · exact .pure fun _ _ h => h
      · refine .bind (Q := fun _ _ => Unbuilt c) (.modify fun s s' h => ?_) fun _ _ => .fail fun _ _ h => ⟨rfl, h⟩
        exact h.putProfilers h.toAlike.memoryStop
      · exact .fail fun _ _ h => ⟨rfl, h⟩
      · exact .fail fun _ _ h => ⟨rfl, h⟩

theorem stackThreadsInstall_alike (w : World) :
    (stackThreadsInstall w).Relates (Unbuilt c) (stackThreadsInstall w) (fun _ _ => Unbuilt c)
      fun e e' s s' => e' = e ∧ Unbuilt c s s' := by
  refine .bind (Q := fun s₀ s₀' s s' => s₀'.stackThreadsInstalled = s₀.stackThreadsInstalled ∧ Unbuilt c s s')
    (.get fun s s' h => ⟨h.control.stackThreadsInstalled, h⟩) fun s₀ s₀' => ?_
  refine .given (fun _ _ h => h.1) fun hsame => ?_
  rw [hsame]
  split
  · exact .pure fun _ _ h => h.2
  · refine .bind (Q := fun _ _ => Unbuilt c) (.returned (fun _ _ _ h => h.2) fun _ _ _ h => ⟨rfl, h.2⟩) fun _ _ => ?_
    exact .modify fun s s' h => ⟨h.toAlike.setStackThreadsInstalled, h.pyspyThread, h.state⟩

theorem stackStart_alike (p : Platform) (w : World) (config : Config) :
    (stackStart p w config).Relates (Unbuilt c) (stackStart p w config) (fun _ _ => Unbuilt c)
      fun e e' s s' => e' = e ∧ Unbuilt c s s' := by
  unfold stackStart
  split
  · exact .pure fun _ _ h => h
  · refine .bind (Q := fun _ _ => Unbuilt c) (.failIf Iff.rfl (fun _ _ _ h => ⟨rfl, h⟩) fun _ _ _ h => h) fun _ _ => ?_
    refine .bind (Q := fun s₀ s₀' s s' => s₀'.stoppedOnce = s₀.stoppedOnce ∧ Unbuilt c s s')
      (.get fun s s' h => ⟨h.control.stoppedOnce, h⟩) fun s₀ s₀' => ?_
    refine .given (fun _ _ h => h.1) fun hsame => ?_
    rw [samplerStart, samplerStart, hsame]
    refine .bind (Q := fun _ _ => Unbuilt c) (.failIf Iff.rfl (fun _ _ _ h => ⟨rfl, h.2⟩) fun _ _ _ h => h.2) fun _ _ => ?_
    exact .bind (Q := fun _ _ => Unbuilt c) (.modify fun s s' h => h.stackStarted) fun _ _ => stackThreadsInstall_alike w

/-! ### The backend -/

/- An agent whose backend has started afresh, or that has none. -/
theorem Alike.agentStart (h : Alike c s s') (config : Config) (b b' : Bool) (x x' : Signal.Calls.Statics)
    (buffer buffer' : StackBuffer) (hidle : s.state ≠ .idle) (hb : b' = b)
    (hx : ∃ records metrics, x' = { x with records, metrics })
    (hsignal : c.tracked → x.samplerThread.isSome = true ∨ config.hasSignal = true →
      x'.records = x.records ∧ x'.metrics = x.metrics)
    (hbuffer : c.tracked → x.samplerThread.isSome = true ∨ config.hasSignal = true ∨ b = true ∨
      config.hasPySpy = true → buffer' = buffer) :
    Alike c (agentStart config { s with pyspyThread := b, signal := x, buffer })
      (agentStart config { s' with pyspyThread := b', signal := x', buffer := buffer' }) := by
  refine ⟨⟨h.control.state, h.control.nextAgent, rfl, h.control.memoryRunning, h.control.stackRunning,
    h.control.started, h.control.stoppedOnce, h.control.stackThreadsInstalled, hx, hb, rfl⟩, h.kept, h.kept',
    fun hi => (hidle hi).elim, fun hct => ?_⟩
  have hcap := h.captured hct
  refine ⟨hcap.profilers, fun hs => hbuffer hct ?_, fun hs => hsignal hct hs, hcap.uploads⟩
  rcases hs with (hs | hs) | hs | hs
  · exact .inl hs
  · exact .inr (.inl hs)
  · exact .inr (.inr (.inl hs))
  · exact .inr (.inr (.inr hs))

theorem pyspyNew_alike {config : Config} {pid : Option ℕ} (hconfig : config.cpuConfig = some (.pySpy pid)) :
    (pyspyNew pid).Relates (Unbuilt c) (pyspyNew pid)
      (fun _ _ s s' => Alike c (agentStart config s) (agentStart config s'))
      fun e e' s s' => e' = e ∧ Unbuilt c s s' := by
  have hnoSignal : ¬config.hasSignal = true := by rw [Config.hasSignal, hconfig]; exact Bool.false_ne_true
  refine .bind (Q := fun _ _ => Unbuilt c) (.failIf Iff.rfl (fun _ _ _ h => ⟨rfl, h⟩) fun _ _ _ h => h) fun _ _ => ?_
  refine .modify fun s s' h => h.toAlike.agentStart config true true s.signal s'.signal .default .default h.state rfl
    h.control.signal (fun hct hs => ?_) fun _ _ => rfl
  exact (h.captured hct).signal (.inl (hs.resolve_right hnoSignal))

/- The statics that `Signal::new` leaves are the same in both; the buffer comes last. -/
theorem signalNew_alike (p : Platform) (w : World) (config : Config) (signal : Signal.Calls.Config) :
    (signalNew p w signal).Relates (Unbuilt c) (signalNew p w signal)
      (fun _ _ s s' => Alike c (agentStart config s) (agentStart config s'))
      fun e e' s s' => e' = e ∧ Unbuilt c s s' := by
  refine .bind (Q := fun _ _ s s' => ∃ t t' x, Unbuilt c t t' ∧
    s = { t with signal := x } ∧ s' = { t' with signal := x }) (.mapError (.on fun s s' h => ?_)) fun _ _ => .modify ?_
  · refine (Signal.Calls.new_alike p.signal w.signal signal _ _ h.toAlike.signal).imp ?_ ?_
    · rintro a b x x' rfl
      exact ⟨s, s', x', h, rfl, rfl⟩
    · rintro e e' x x' ⟨rfl, hx⟩
      exact ⟨rfl, h.toAlike.putSignal hx, h.pyspyThread, h.state⟩
  · rintro s s' ⟨t, t', x, h, rfl, rfl⟩
    exact h.toAlike.agentStart config t.pyspyThread t'.pyspyThread x x .default .default h.state
      h.control.pyspyThread ⟨_, _, rfl⟩ (fun _ _ => ⟨rfl, rfl⟩) fun _ _ => rfl

theorem build_alike (p : Platform) (w : World) (config : Config) :
    (build p w config).Relates (Unbuilt c) (build p w config)
      (fun _ _ s s' => Alike c (agentStart config s) (agentStart config s'))
      fun e e' s s' => e' = e ∧ Unbuilt c s s' := by
  unfold build
  split
  · next hconfig => exact pyspyNew_alike hconfig
  · next signal _ => exact signalNew_alike p w config signal
  · next hconfig =>
    have hnoSignal : ¬config.hasSignal = true := by rw [Config.hasSignal, hconfig]; exact Bool.false_ne_true
    have hnoPySpy : ¬config.hasPySpy = true := by rw [Config.hasPySpy, hconfig]; exact Bool.false_ne_true
    refine .pure fun s s' h => h.toAlike.agentStart config s.pyspyThread s'.pyspyThread s.signal s'.signal s.buffer
      s'.buffer h.state h.control.pyspyThread h.control.signal (fun hct hs => ?_) fun hct hs => ?_
    · exact (h.captured hct).signal (.inl (hs.resolve_right hnoSignal))
    · refine (h.captured hct).buffer ?_
      rcases hs with hs | hs | hs | hs
      · exact .inl (.inl hs)
      · exact (hnoSignal hs).elim
      · exact .inr (.inl hs)
      · exact (hnoPySpy hs).elim

end Start

/-! ### Whole calls -/

section Calls
variable {c : Comparison} {s s' : Process} {w : World} {acts' : Point → List Act}
  (hacts : ∀ point s s', Alike c s s' → Alike c (s.acts (w.acts point)) (s'.acts (acts' point)))
include hacts

theorem Unbuilt.acts (point : Point) (h : Unbuilt c s s') :
    Unbuilt c (s.acts (w.acts point)) (s'.acts (acts' point)) := by
  have hframe := s.acts_frame (w.acts point)
  exact ⟨hacts point s s' h.toAlike, hframe.pyspyThread.trans h.pyspyThread,
    fun hi => h.state (hframe.state.symm.trans hi)⟩

theorem startAll_alike (p : Platform) (config : Config) :
    (startAll p w config).Relates (Unbuilt c) (startAll p { w with acts := acts' } config)
      (fun _ _ => Alike c) fun e e' s s' => e' = e ∧ Unbuilt c s s' := by
  have hmap : ∀ (f : String → PyroscopeError) (e e' : String) (s s' : Process), e' = e ∧ Unbuilt c s s' →
      f e' = f e ∧ Unbuilt c s s' := fun f e e' s s' h => ⟨congrArg f h.1, h.2⟩
  refine .bind (.mapError ((memoryStart_alike w config).conseq (fun _ _ h => h) (fun _ _ _ _ h => h) (hmap _)))
    fun _ _ => ?_
  refine .bind (Q := fun _ _ => Unbuilt c) (.modify fun s s' h => h.acts hacts .memoryStarted) fun _ _ => ?_
  refine .bind (.mapError ((stackStart_alike p w config).conseq (fun _ _ h => h) (fun _ _ _ _ h => h) (hmap _)))
    fun _ _ => ?_
  refine .bind (Q := fun _ _ => Unbuilt c) (.modify fun s s' h => h.acts hacts .stackStarted) fun _ _ => ?_
  refine .bind (Q := fun _ _ => Unbuilt c) (.mapError (.returned (fun _ _ _ h => h) fun _ _ _ h => ⟨rfl, h⟩))
    fun _ _ => ?_
  refine .bind (Q := fun _ _ => Unbuilt c) (.modify fun s s' h => h.acts hacts .clientCreated) fun _ _ => ?_
  exact .bind (build_alike p w config) fun _ _ => .modify fun s s' h => hacts .agentStarted _ _ h

theorem Alike.stackStop (h : Alike c s s') : Alike c (stackStop w s) (stackStop { w with acts := acts' } s') := by
  unfold Configure.stackStop
  rw [h.control.started]
  split
  · exact (hacts .samplerStopped _ _ (h.samplerStop.setStarted false)).setStoppedOnce.stackClearSamples
  · exact h.stackClearSamples

theorem Alike.stopProfilers (h : Alike c s s') :
    Alike c (stopProfilers w s) (stopProfilers { w with acts := acts' } s') :=
  hacts .cleared _ _ ((hacts .memoryStopped _ _ h.memoryStop).stackStop hacts).internerClear

omit hacts in
theorem stopProfilers_pyspyThread (w : World) (s : Process) : (stopProfilers w s).pyspyThread = s.pyspyThread := by
  have hstack : ∀ s : Process, (stackStop w s).pyspyThread = s.pyspyThread := by
    intro s
    unfold stackStop
    split
    · exact (Process.acts_frame _ (w.acts .samplerStopped)).pyspyThread
    · rfl
  calc (stopProfilers w s).pyspyThread
      = (internerClear (stackStop w ((memoryStop s).acts (w.acts .memoryStopped)))).pyspyThread :=
        (Process.acts_frame _ (w.acts .cleared)).pyspyThread
    _ = ((memoryStop s).acts (w.acts .memoryStopped)).pyspyThread := hstack _
    _ = s.pyspyThread := (Process.acts_frame _ (w.acts .memoryStopped)).pyspyThread

theorem run_alike (p : Platform) (config : Config) :
    (run p w config).Relates (Alike c) (run p { w with acts := acts' } config) (fun _ _ => Alike c)
      fun e e' s s' => e' = e ∧ Alike c s s' := by
  refine .bind (Q := fun _ _ => Unbuilt c) (fun s s' h => ?_) fun _ _ => .bind (Q := fun _ _ => Alike c)
    (.guarded ((startAll_alike hacts p config).conseq (fun _ _ h => h) (fun _ _ _ _ h => h) ?_)) fun _ _ =>
      .modify fun s s' h => h.setRunning
  · unfold claim
    rw [h.control.state]
    cases hs : s.state with
    | idle => exact ⟨h.setState .busy nofun, h.rested hs, nofun⟩
    | busy => exact ⟨rfl, h.setState .busy nofun⟩
    | running agent => exact ⟨rfl, h.setState (.running agent) nofun⟩
  · rintro e e' s s' ⟨he, h⟩
    refine ⟨he, (h.toAlike.stopProfilers hacts).setState .idle fun _ => ?_⟩
    exact (stopProfilers_pyspyThread w s).trans h.pyspyThread

omit hacts in
theorem ctimerThreadsInstall_alike (w : World) (config : Config) :
    (ctimerThreadsInstall w config).Relates (Alike c) (ctimerThreadsInstall w config) (fun _ _ => Alike c)
      fun e e' s s' => e' = e ∧ Alike c s s' := by
  unfold ctimerThreadsInstall
  split
  · split
    · refine .mapError (.on fun s s' h => ?_)
      refine (Signal.Calls.install_alike w.ctimerThreads _ _ h.signal).imp (fun _ _ _ _ hx => h.putSignal hx) ?_
      rintro e e' x x' ⟨rfl, hx⟩
      exact ⟨rfl, h.putSignal hx⟩
    · exact .pure fun _ _ h => h
  · exact .pure fun _ _ h => h

theorem initializeAgent_alike (p : Platform) (config : Config) (h : Alike c s s') :
    Alike c (initializeAgent p w config s).2 (initializeAgent p { w with acts := acts' } config s').2 := by
  have hcall : (initializeAgent p w config).Relates (Alike c) (initializeAgent p { w with acts := acts' } config)
      (fun _ _ => Alike c) fun e e' s s' => e' = e ∧ Alike c s s' :=
    .bind (ctimerThreadsInstall_alike w config) fun _ _ => run_alike hacts p config
  exact (hcall s s' h).states (fun _ _ _ _ h => h) fun _ _ _ _ h => h.2

theorem Alike.agentStop (h : Alike c s s') :
    Alike c (agentStop w s) (agentStop { w with acts := acts' } s') := by
  have hstopping := hacts .stopping _ _ h
  have hgone : Alike c { s.acts (w.acts .stopping) with agent := none }
      { s'.acts (acts' .stopping) with agent := none } := by
    have hc := hstopping.control
    refine ⟨⟨hc.state, hc.nextAgent, rfl, hc.memoryRunning, hc.stackRunning, hc.started, hc.stoppedOnce,
      hc.stackThreadsInstalled, hc.signal, hc.pyspyThread, hc.backendConfig⟩, hstopping.kept, hstopping.kept',
      hstopping.rested, fun hct => ?_⟩
    have hcap := hstopping.captured hct
    have hsignal : hasSignal { s.acts (w.acts .stopping) with agent := none } → hasSignal (s.acts (w.acts .stopping)) :=
      fun hs => .inl (hs.resolve_right Bool.false_ne_true)
    refine ⟨hcap.profilers, fun hs => hcap.buffer ?_, fun hs => hcap.signal (hsignal hs), hcap.uploads⟩
    exact hs.imp hsignal fun hy => .inl (hy.resolve_right Bool.false_ne_true)
  have hjoined := hacts .snapshotsJoined _ _ hgone
  have hc := hjoined.control
  obtain ⟨records, metrics, hx⟩ := hc.signal
  refine ⟨⟨hc.state, hc.nextAgent, hc.agent, hc.memoryRunning, hc.stackRunning, hc.started, hc.stoppedOnce,
    hc.stackThreadsInstalled, ⟨records, metrics, ?_⟩, rfl, hc.backendConfig⟩, hjoined.kept, hjoined.kept',
    fun _ => rfl, fun hct => ?_⟩
  · exact (congrArg (Signal.Calls.samplerThreadEnds w.signal) hx).trans
      (Signal.Calls.samplerThreadEnds_left _ records metrics w.signal)
  · have hcap := (hjoined.captured hct).putSignal hc
      (.inr (Signal.Calls.samplerThreadEnds_samplerThread w.signal _))
      (congrArg (Signal.Calls.samplerThreadEnds w.signal))
    exact ⟨hcap.profilers, fun hs => hcap.buffer (hs.imp_right fun hy => .inr (hy.resolve_left Bool.false_ne_true)),
      hcap.signal, hcap.uploads⟩

theorem stop_alike (h : Alike c s s') : Alike c (stop w s).2 (stop { w with acts := acts' } s').2 := by
  unfold stop
  rw [h.control.state]
  cases hs : s.state with
  | idle => exact h.setState .idle fun _ => h.rested hs
  | busy => exact h.setState .busy nofun
  | running agent =>
    have hclaimed := h.setState .busy nofun
    have hstop := hclaimed.agentStop hacts
    refine (hstop.stopProfilers hacts).setState .idle fun _ => ?_
    exact stopProfilers_pyspyThread w _

end Calls

/-! ### Histories -/

/-- The world without what the profilers capture. -/
def redactWorld (w : World) : World := { w with acts := fun point => redactActs (w.acts point) }

/-- What is left of an operation when the captured samples are taken out. -/
def redact : Op → Option Op
  | .configure w config => some (.configure (redactWorld w) config)
  | .shutdown w => some (.shutdown (redactWorld w))
  | .act a => if captures a then none else some (.act a)

/-- The same operations, up to the iteration orders of the dumps. -/
inductive SameOp : Op → Op → Prop where
  | configure {w acts' config} (h : ∀ point, List.Forall₂ SameAct (w.acts point) (acts' point)) :
    SameOp (.configure w config) (.configure { w with acts := acts' } config)
  | shutdown {w acts'} (h : ∀ point, List.Forall₂ SameAct (w.acts point) (acts' point)) :
    SameOp (.shutdown w) (.shutdown { w with acts := acts' })
  | act {a a'} (h : SameAct a a') : SameOp (.act a) (.act a')

theorem Alike.apply {c : Comparison} {s s' : Process} (h : Alike c s s') (p : Platform) {op op' : Op}
    (hop : SameOp op op') : Alike c (Op.apply p s op) (Op.apply p s' op') := by
  cases hop with
  | configure ha => exact initializeAgent_alike (fun point _ _ h => h.acts (ha point)) p _ h
  | shutdown ha => exact stop_alike (fun point _ _ h => h.acts (ha point)) h
  | act ha => exact h.act ha

theorem Alike.redactOps {c : Comparison} (hc : ¬c.tracked) (p : Platform) (ops : List Op) {s s' : Process}
    (h : Alike c s s') : Alike c (ops.foldl (Op.apply p) s) ((ops.filterMap redact).foldl (Op.apply p) s') := by
  have hacts : ∀ (w : World) point s s', Alike c s s' →
      Alike c (s.acts (w.acts point)) (s'.acts (redactActs (w.acts point))) := fun w point _ _ h =>
    h.redacted hc (w.acts point)
  induction ops generalizing s s' with
  | nil => exact h
  | cons op ops ih =>
    cases op with
    | configure w config => exact ih (initializeAgent_alike (hacts w) p config h)
    | shutdown w => exact ih (stop_alike (hacts w) h)
    | act a =>
      by_cases ha : captures a = true
      · have hskip : (Op.act a :: ops).filterMap redact = ops.filterMap redact :=
          List.filterMap_cons_none (if_pos ha)
        rw [hskip]
        exact ih (h.capture hc ha)
      · have hkeep : (Op.act a :: ops).filterMap redact = .act a :: ops.filterMap redact :=
          List.filterMap_cons_some (if_neg ha)
        rw [hkeep]
        exact ih (h.act (.same a))

theorem Alike.ops {c : Comparison} {s s' : Process} (h : Alike c s s') (p : Platform) {ops ops' : List Op}
    (hops : List.Forall₂ SameOp ops ops') :
    Alike c (ops.foldl (Op.apply p) s) (ops'.foldl (Op.apply p) s') := by
  induction hops generalizing s s' with
  | nil => exact h
  | cons hop _ ih => exact ih (h.apply p hop)

def Comparison.control : Comparison := ⟨False, False, False, [], []⟩

theorem initial_alike (action : Signal.Timers.Action) :
    Alike .control (.initial action) (.initial action) :=
  ⟨.refl _, initial_kept, initial_kept, fun _ => rfl, nofun⟩

theorem after_redacted (p : Platform) (action : Signal.Timers.Action) (history : List Op) :
    Alike .control (after p action history) (after p action (history.filterMap redact)) :=
  (initial_alike action).redactOps id p history

/-! ### Between sessions -/

theorem initial_torn (action : Signal.Timers.Action) : Torn (.initial action) := by
  have hinv := Configure.initial_inv action
  exact ⟨hinv.idle rfl, rfl, rfl, rfl, clearSamples_emptied .fresh, clearSamples_emptied .fresh,
    clearSamples_emptied .fresh, rfl⟩

/- The hooks of the `CTimer` are none of the profilers' business. -/
theorem ctimerThreadsInstall_frame (w : World) (config : Config) (s₀ : Process) :
    (ctimerThreadsInstall w config).Ensures
      (fun s => s.profilers = s₀.profilers ∧ s.started = s₀.started ∧ s.state = s₀.state)
      (fun _ s => s.profilers = s₀.profilers ∧ s.started = s₀.started ∧ s.state = s₀.state)
      fun _ s => s.profilers = s₀.profilers ∧ s.started = s₀.started ∧ s.state = s₀.state := by
  unfold ctimerThreadsInstall
  split
  · split
    · refine .mapError (.on fun s h => ?_)
      rcases Signal.Calls.Threads.install w.ctimerThreads s.signal with ⟨e | a, x⟩ <;> exact h
    · exact .pure fun _ h => h
  · exact .pure fun _ h => h

/-- Whenever no session is there, everything is torn down. -/
structure Quiet (s : Process) : Prop where
  inv : Configure.Inv s
  torn : s.state = .idle → Torn s

theorem ctimerThreadsInstall_quiet (w : World) (config : Config) {s : Process} (h : Quiet s) :
    Quiet (ctimerThreadsInstall w config s).2 := by
  have hpost := (ctimerThreadsInstall_inv w config).and (ctimerThreadsInstall_frame w config s) s
    ⟨h.inv, rfl, rfl, rfl⟩
  generalize ctimerThreadsInstall w config s = r at hpost
  obtain ⟨hinv, hprofilers, hstarted, hstate⟩ : Configure.Inv r.2 ∧ r.2.profilers = s.profilers ∧
      r.2.started = s.started ∧ r.2.state = s.state := by
    rcases r with ⟨e | a, s'⟩ <;> exact hpost
  refine ⟨hinv, fun hi => ?_⟩
  have htorn := h.torn (hstate.symm.trans hi)
  refine ⟨hinv.idle hi, ?_, ?_, hstarted.trans htorn.started, ?_, ?_, ?_, ?_⟩ <;> rw [hprofilers]
  · exact htorn.memoryRunning
  · exact htorn.stackRunning
  · exact htorn.memory
  · exact htorn.wall
  · exact htorn.oncpu
  · exact htorn.strings

theorem run_quiet (p : Platform) (w : World) (config : Config) {s : Process} (h : Quiet s) :
    Quiet (run p w config s).2 := by
  refine ⟨Configure.run_inv p w config h.inv, fun hi => ?_⟩
  by_cases hs : s.state = .idle
  · have hpost := run_idle p w config s ⟨hs, h.inv.idle hs⟩
    revert hpost hi
    rcases run p w config s with ⟨e | u, s'⟩
    · exact fun _ hpost => hpost.2
    · rintro hi ⟨⟨agent, hrunning⟩, -⟩
      exact nomatch hrunning.symm.trans hi
  · rw [run_refused p w config hs] at hi ⊢
    exact h.torn hi

theorem initializeAgent_quiet (p : Platform) (w : World) (config : Config) {s : Process} (h : Quiet s) :
    Quiet (initializeAgent p w config s).2 := by
  have hinstall := ctimerThreadsInstall_quiet w config h
  rw [initializeAgent]
  rcases hc : ctimerThreadsInstall w config s with ⟨e | u, s'⟩ <;> rw [hc] at hinstall
  · rw [Call.bind_of_error hc]
    exact hinstall
  · rw [Call.bind_of_ok hc]
    exact run_quiet p w config hinstall

theorem stop_quiet (w : World) {s : Process} (h : Quiet s) : Quiet (stop w s).2 := by
  refine ⟨Configure.stop_inv w h.inv, fun hi => ?_⟩
  unfold stop at hi ⊢
  cases hs : s.state with
  | idle =>
    have htorn := h.torn hs
    exact ⟨⟨htorn.agent, htorn.stack, htorn.signal⟩, htorn.memoryRunning, htorn.stackRunning, htorn.started,
      htorn.memory, htorn.wall, htorn.oncpu, htorn.strings⟩
  | busy => exact (h.inv.state hs).elim
  | running agent =>
    have htorn := stopProfilers_torn w
      (agentStop_starting w (s := { s with state := .busy }) ⟨h.inv.stack, h.inv.signal⟩)
    exact ⟨⟨htorn.agent, htorn.stack, htorn.signal⟩, htorn.memoryRunning, htorn.stackRunning, htorn.started,
      htorn.memory, htorn.wall, htorn.oncpu, htorn.strings⟩

theorem after_quiet (p : Platform) (action : Signal.Timers.Action) (history : List Op) :
    Quiet (after p action history) := by
  refine List.foldlRecOn history (Op.apply p) ⟨Configure.initial_inv action, fun _ => initial_torn action⟩
    fun s h op _ => ?_
  cases op with
  | configure w config => exact initializeAgent_quiet p w config h
  | shutdown w => exact stop_quiet w h
  | act a =>
    refine ⟨Configure.act_inv a h.inv, fun hi => ?_⟩
    exact (h.torn ((s.act_frame a).state.symm.trans hi)).acts [a]

/- An emptied builder in order is a fresh one, up to its header. -/
theorem emptied_header {K : Type} [FfiProfileKind K] {b b' : LockedBuilder K} {i i' : Interner}
    (h : KeptBuilder i b) (h' : KeptBuilder i' b') (he : Emptied b) (he' : Emptied b')
    (hi : i.poisoned = false) (hi' : i'.poisoned = false) : SameBuilder b b' := by
  have hunpoisoned : ∀ {i : Interner} {b : LockedBuilder K}, KeptBuilder i b → i.poisoned = false →
      b.poisoned = false := fun hk hi => Bool.eq_false_iff.mpr fun hp => Bool.false_ne_true (hi.symm.trans (hk.poisoned hp))
  obtain ⟨t, w, hb⟩ := h.buffered
  obtain ⟨t', w', hb'⟩ := h'.buffered
  have hp := hb.accumulated.plain
  have hp' := hb'.accumulated.plain
  have hprofile : b'.builder.profile = { b.builder.profile with
      sampleType := b'.builder.profile.sampleType, period := b'.builder.profile.period
      periodType := b'.builder.profile.periodType, timeNanos := b'.builder.profile.timeNanos
      durationNanos := b'.builder.profile.durationNanos } := by
    rw [Profile.mk.injEq, he.sample, he.function, he.location, he.stringTable, hp.mapping, hp.dropFrames,
      hp.keepFrames, hp.comment, hp.defaultSampleType]
    exact ⟨rfl, he'.sample, hp'.mapping, he'.location, he'.function, he'.stringTable, hp'.dropFrames,
      hp'.keepFrames, rfl, rfl, rfl, rfl, hp'.comment, hp'.defaultSampleType⟩
  exact ⟨(hunpoisoned h' hi').trans (hunpoisoned h hi).symm, _, PProfBuilder.eq_withHeader hprofile
    (he'.functions.trans he.functions.symm) (he'.locations.trans he.locations.symm)
    (he'.ffiSamples.trans he.ffiSamples.symm) (he'.ffiLocationsScratch.trans he.ffiLocationsScratch.symm)⟩

/-- What is captured and uploaded from here on is compared as well. -/
def Comparison.session (s s' : Process) : Comparison := ⟨True, Poisoned s, Poisoned s', s.uploads, s'.uploads⟩

/- Where no session is, nothing is left that the next one could upload. -/
theorem Alike.session {s s' : Process} (h : Alike .control s s') (hidle : s.state = .idle) (ht : Torn s)
    (ht' : Torn s') : Alike (.session s s') s s' := by
  have hspy := h.rested hidle
  have hnoSignal : ¬hasSignal s := by
    rw [hasSignal, ht.signal.noThread, ht.agent]
    exact fun hs => hs.elim Bool.false_ne_true Bool.false_ne_true
  have hnoBackend : ¬hasBackend s := by
    rw [hasBackend, hspy, ht.agent]
    exact fun hs => hs.elim hnoSignal fun hs => hs.elim Bool.false_ne_true Bool.false_ne_true
  refine ⟨h.control, h.kept, h.kept', h.rested, fun _ => ⟨?_, fun hb => (hnoBackend hb).elim,
    fun hs => (hnoSignal hs).elim, [], [], (List.append_nil _).symm, (List.append_nil _).symm, .nil⟩⟩
  by_cases hp : Poisoned s
  · exact .inl ⟨hp, hp⟩
  · by_cases hp' : Poisoned s'
    · exact .inr (.inl ⟨hp', hp'⟩)
    · have hopen : s.profilers.interner.poisoned = false := Bool.eq_false_iff.mpr hp
      have hopen' : s'.profilers.interner.poisoned = false := Bool.eq_false_iff.mpr hp'
      refine .inr (.inr ⟨?_, ?_, ?_, ?_, ?_, ?_⟩)
      · rw [Interner.mk.injEq]
        exact ⟨ht'.strings.trans ht.strings.symm, hopen'.trans hopen.symm⟩
      · exact emptied_header h.kept.memory h.kept'.memory ht.memory ht'.memory hopen hopen'
      · exact emptied_header h.kept.wall h.kept'.wall ht.wall ht'.wall hopen hopen'
      · exact emptied_header h.kept.oncpu h.kept'.oncpu ht.oncpu ht'.oncpu hopen hopen'
      · exact (h.kept'.memoryHeld ht'.memoryRunning).trans (h.kept.memoryHeld ht.memoryRunning).symm
      · exact (h.kept'.stackHeld ht'.stackRunning).trans (h.kept.stackHeld ht.stackRunning).symm

def uploadsOf (p : Platform) (s : Process) (session : List Op) : List Upload :=
  (session.foldl (Op.apply p) s).uploads.drop s.uploads.length

/-- Two histories that differ in what their sessions captured only. -/
def Recaptured (history history' : List Op) : Prop := history.filterMap redact = history'.filterMap redact

/-- After two histories that differ in what was captured only, the same events lead to the same
uploads, for any number of further sessions. Where a dump of an earlier session has panicked
under the lock of the string table, that lock is poisoned for good, and the memory and Stack
profiles stay empty from then on. -/
theorem session_isolation (p : Platform) (action : Signal.Timers.Action) {history history' : List Op}
    (recaptured : Recaptured history history') (idle : (after p action history).state = .idle)
    {session session' : List Op} (events : List.Forall₂ SameOp session session') :
    List.Forall₂ (fun u u' => received u = received u' ∨
        (Poisoned (after p action history) ∧ u = .dump none) ∨
        (Poisoned (after p action history') ∧ u' = .dump none))
      (uploadsOf p (after p action history) session) (uploadsOf p (after p action history') session') := by
  have hleft := after_redacted p action history
  have hright := after_redacted p action history'
  rw [← show history.filterMap redact = history'.filterMap redact from recaptured] at hright
  have hcontrol := hleft.control.trans hright.control.symm
  have halike : Alike .control (after p action history) (after p action history') :=
    ⟨hcontrol, hleft.kept, hright.kept, hleft.rested, nofun⟩
  have hstart := halike.session idle ((after_quiet p action history).torn idle)
    ((after_quiet p action history').torn (hcontrol.state.trans idle))
  obtain ⟨us, us', hus, hus', hall⟩ := ((hstart.ops p events).captured trivial).uploads
  rw [uploadsOf, uploadsOf, hus, hus']
  have hdrop : ∀ before us : List Upload, (before ++ us).drop before.length = us := fun before us =>
    List.drop_left
  rw [Comparison.session, hdrop, hdrop]
  exact hall

def memoryOnly : Config := ⟨true, false, none, ⟨false, false, false⟩⟩

def plainDump : Act := .dumpMemory 0 (.stored _) (.stored _) ⟨0, 0⟩

/-- What a session does until its end, once it is running. -/
def captureAndStop (names : List (List UInt8)) : List Op :=
  (names.map fun b => Op.act (.internMemory fromAscii ⟨some b⟩)) ++ [.act plainDump, .shutdown .smooth]

/-- A session that captures many names. -/
def capturing (names : List (List UInt8)) : List Op :=
  .configure .smooth memoryOnly :: captureAndStop names

def uneventful : List Op := [.configure .smooth memoryOnly, .shutdown .smooth]

/-- One sample of one frame, and a dump. -/
def oneSample (ordSamples : IterOrder (List ℕ × Values MemoryProfile)) (ordStrings : IterOrder (String × StringID)) :
    List Op :=
  [.configure .smooth memoryOnly, .act (.internMemory fromAscii ⟨some [102]⟩),
    .act (.pushMemory [(0, 0, 1)] ⟨0, 0, 1, 1, 1, 1⟩), .act (.dumpMemory 0 ordSamples ordStrings ⟨0, 0⟩)]

theorem oneSample_events (o o' : IterOrder (List ℕ × Values MemoryProfile)) (p p' : IterOrder (String × StringID)) :
    List.Forall₂ SameOp (oneSample o p) (oneSample o' p') :=
  have hconfigure : SameOp (.configure .smooth memoryOnly) (.configure .smooth memoryOnly) := .configure fun _ => .nil
  .cons hconfigure
    (.cons (.act (.same _)) (.cons (.act (.same _)) (.cons (.act .dumpMemory) .nil)))

theorem capturing_recaptured (names : List (List UInt8)) : Recaptured (capturing names) uneventful := by
  have hnames : (names.map fun b => Op.act (.internMemory fromAscii ⟨some b⟩)).filterMap redact = [] := by
    rw [List.filterMap_eq_nil_iff]
    intro op hop
    obtain ⟨b, -, rfl⟩ := List.mem_map.mp hop
    rfl
  have hfirst : redact (.configure .smooth memoryOnly) = some (.configure (redactWorld .smooth) memoryOnly) := rfl
  rw [Recaptured, capturing, captureAndStop, List.filterMap_cons_some hfirst, List.filterMap_append, hnames]
  rfl

/- An earlier session that captured a name and dumped it, and one that captured nothing; the
dumps after them walk their maps in different orders. -/
theorem session_isolation_one_name : Recaptured (capturing [[103]]) uneventful ∧
    (after .linux .dfl (capturing [[103]])).state = .idle ∧
    List.Forall₂ (fun u u' => received u = received u' ∨
        (Poisoned (after .linux .dfl (capturing [[103]])) ∧ u = .dump none) ∨
        (Poisoned (after .linux .dfl uneventful) ∧ u' = .dump none))
      (uploadsOf .linux (after .linux .dfl (capturing [[103]])) (oneSample (.stored _) (.stored _)))
      (uploadsOf .linux (after .linux .dfl uneventful) (oneSample (.reversed _) (.reversed _))) :=
  ⟨rfl, rfl, session_isolation .linux .dfl (capturing_recaptured [[103]]) rfl (oneSample_events ..)⟩

/-! ### A string table that an earlier session has filled -/

/-- Six digits in base 64. -/
def spelled (n : ℕ) : List UInt8 :=
  [n % 64, n / 64 % 64, n / 4096 % 64, n / 262144 % 64, n / 16777216 % 64, n / 1073741824 % 64].map
    fun digit => UInt8.ofNat (digit + 64)

theorem digit_inj {a b : ℕ} (ha : a < 64) (hb : b < 64)
    (h : Char.ofNat (UInt8.ofNat (a + 64)).toNat = Char.ofNat (UInt8.ofNat (b + 64)).toNat) : a = b := by
  have hvalid : ∀ n < 64, (Char.ofNat (UInt8.ofNat (n + 64)).toNat).toNat = n + 64 := by
    intro n hn
    have hmod : (UInt8.ofNat (n + 64)).toNat = n + 64 := by
      rw [UInt8.toNat_ofNat']
      omega
    have hchar : (n + 64).isValidChar := .inl (by omega)
    rw [hmod, Char.ofNat, dif_pos hchar]
    rfl
  have htoNat := congrArg Char.toNat h
  rw [hvalid a ha, hvalid b hb] at htoNat
  omega

theorem spelled_inj {m n : ℕ} (hm : m < 2 ^ 32) (hn : n < 2 ^ 32)
    (h : fromAscii (spelled m) = fromAscii (spelled n)) : m = n := by
  have hlists := String.ofList_injective h
  simp only [spelled, List.map_cons, List.map_nil, List.cons.injEq, and_true] at hlists
  obtain ⟨h₀, h₁, h₂, h₃, h₄, h₅⟩ := hlists
  have h₀ := digit_inj (by omega) (by omega) h₀
  have h₁ := digit_inj (by omega) (by omega) h₁
  have h₂ := digit_inj (by omega) (by omega) h₂
  have h₃ := digit_inj (by omega) (by omega) h₃
  have h₄ := digit_inj (by omega) (by omega) h₄
  have h₅ := digit_inj (by omega) (by omega) h₅
  omega

theorem internAll_fresh {strings ss : List String} (h : (strings ++ ss).Nodup) :
    StringTable.internAll strings ss = strings ++ ss := by
  induction ss generalizing strings with
  | nil => exact (List.append_nil _).symm
  | cons s ss ih =>
    have hnew : s ∉ strings := fun hs => (List.disjoint_of_nodup_append h) hs (List.mem_cons_self ..)
    have hkeys : internKeys strings s = strings ++ [s] := if_neg hnew
    have happend : strings ++ s :: ss = (strings ++ [s]) ++ ss := by rw [List.append_assoc]; rfl
    rw [StringTable.internAll, List.foldl_cons, ← StringTable.internAll, hkeys, happend]
    exact ih (happend ▸ h)

/- Interning strings one after the other while there is room. -/
theorem acts_intern {names : List (List UInt8)} {s : Process} {strings : List String}
    (hr : s.profilers.memoryRunning = true) (hp : s.profilers.interner.poisoned = false)
    (ht : s.profilers.interner.table.Repr strings) (hne : ∀ b ∈ names, b ≠ [])
    (room : StringTable.Room strings (names.map fromAscii)) :
    ∃ table held, s.acts (names.map fun b => .internMemory fromAscii ⟨some b⟩) =
        { s with profilers := { s.profilers with interner := ⟨table, false⟩, memoryHeld := held } } ∧
      table.Repr (StringTable.internAll strings (names.map fromAscii)) := by
  induction names generalizing s strings with
  | nil =>
    refine ⟨s.profilers.interner.table, s.profilers.memoryHeld, ?_, ht⟩
    rw [← hp]
    rfl
  | cons b names ih =>
    obtain ⟨hroom, hrest⟩ := room
    obtain ⟨r, hadd, -, hrepr⟩ := (StringTable.add_outcome ht (fromAscii b)).1 hroom
    obtain ⟨byte, bytes, rfl⟩ := List.exists_cons_of_ne_nil (hne b (List.mem_cons_self ..))
    have hintern : s.profilers.interner.intern fromAscii ⟨some (byte :: bytes)⟩ = .ok (r.1, ⟨r.2, false⟩) := by
      simp only [Interner.intern, hp, hadd, Bool.false_eq_true, if_false]
    have hact : s.act (.internMemory fromAscii ⟨some (byte :: bytes)⟩) = { s with profilers := { s.profilers with
        interner := ⟨r.2, false⟩
        memoryHeld := s.profilers.memoryHeld ++ [(r.1, fromAscii (byte :: bytes))] } } := by
      have he : s.enables (.internMemory fromAscii ⟨some (byte :: bytes)⟩) = true := hr
      rw [Process.act, if_pos he]
      show s.internMemory _ _ = _
      rw [Process.internMemory, hintern]
      rfl
    obtain ⟨table, held, hacts, htable⟩ := ih (s := s.act (.internMemory fromAscii ⟨some (byte :: bytes)⟩))
      (by rw [hact]; exact hr) (by rw [hact]) (by rw [hact]; exact hrepr)
      (fun b hb => hne b (List.mem_cons_of_mem _ hb)) hrest
    refine ⟨table, held, ?_, htable⟩
    rw [List.map_cons]
    show (s.act _).acts _ = _
    rw [hacts, hact]

def fillers (n : ℕ) : List (List UInt8) := (List.range n).map spelled

theorem fillers_nodup {n : ℕ} (hn : n ≤ 2 ^ 32) : ([""] ++ (fillers n).map fromAscii).Nodup := by
  have hinj : ∀ i ∈ List.range n, ∀ j ∈ List.range n,
      fromAscii (spelled i) = fromAscii (spelled j) → i = j := fun i hi j hj =>
    spelled_inj ((List.mem_range.mp hi).trans_le hn) ((List.mem_range.mp hj).trans_le hn)
  rw [fillers, List.map_map]
  refine List.nodup_cons.mpr ⟨fun hmem => ?_, List.Nodup.map_on hinj List.nodup_range⟩
  obtain ⟨i, -, hi⟩ := List.mem_map.mp hmem
  have hlists : fromAscii (spelled i) = String.ofList [] := hi
  exact List.cons_ne_nil _ _ (String.ofList_injective hlists)

theorem fillers_length (n : ℕ) : (fillers n).length = n := by
  rw [fillers, List.length_map, List.length_range]

/- A dump that meets a full table panics under both locks. -/
theorem dump_full {K : Type} [FfiProfileKind K] {b : LockedBuilder K} {t : StringTable} {strings : List String}
    (hb : b.poisoned = false) (ht : t.Repr strings) (hfull : strings.length = u32Max)
    (hreq : ProfileKind.requests K ≠ []) (config ordSamples ordStrings timeRange) :
    b.dump config ordSamples ordStrings timeRange ⟨t, false⟩ = (none, { b with poisoned := true }, ⟨t, true⟩) := by
  obtain ⟨period, hperiod⟩ := FfiProfileKind.period_ok (K := K) config
  have hroom : ¬StringTable.Room strings (ProfileKind.requests K) := by
    obtain ⟨s, ss, hs⟩ := List.exists_cons_of_ne_nil hreq
    rw [hs]
    exact fun h => absurd h.1 (by rw [hfull]; exact lt_irrefl _)
  have hpanic : b.builder.setProfileType t config = .error Panic.stringIds := by
    rw [PProfBuilder.setProfileType, (setProfileType_outcome ht b.builder.profile hperiod).panic hroom]
    rfl
  have hset : b.setProfileType ⟨t, false⟩ config = ({ b with poisoned := true }, ⟨t, true⟩) := by
    simp only [LockedBuilder.setProfileType, hb, hpanic, Bool.or_self, Bool.false_eq_true, if_false]
  rw [LockedBuilder.dump, hset]
  rfl

/- A poisoned string table stays poisoned over a `stop`. -/
theorem stop_poisoned {s : Process} {n : ℕ} (hs : s.state = .running n) (table : StringTable)
    (held : List (StringID × String)) (uploads : List Upload) :
    (stop .smooth { s with
      profilers := { s.profilers with
        interner := ⟨table, true⟩, memory := { s.profilers.memory with poisoned := true }, memoryHeld := held }
      uploads }).2 = { (stop .smooth s).2 with
        profilers := { (stop .smooth s).2.profilers with
          interner := ⟨.new, true⟩, memory := { (stop .smooth s).2.profilers.memory with poisoned := true } }
        uploads } := by
  obtain ⟨state, nextAgent, agent, profilers, started, stoppedOnce, rest⟩ := s
  obtain rfl : state = .running n := hs
  cases started with
  | false => rfl
  | true => rfl

/- The dump that meets the table full leaves it poisoned for good. -/
theorem captureAndStop_full {s : Process} {n : ℕ} {names : List (List UInt8)} (hs : s.state = .running n)
    (hagent : s.agent.any Config.memEnabled = true) (hrunning : s.profilers.memoryRunning = true)
    (hinterner : s.profilers.interner = .fresh) (hmemory : s.profilers.memory.poisoned = false)
    (hne : ∀ b ∈ names, b ≠ [])
    (hnodup : ([""] ++ names.map fromAscii).Nodup) (hlen : ([""] ++ names.map fromAscii).length = u32Max) :
    (captureAndStop names).foldl (Op.apply .linux) s = { (stop .smooth s).2 with
      profilers := { (stop .smooth s).2.profilers with
        interner := ⟨.new, true⟩, memory := { (stop .smooth s).2.profilers.memory with poisoned := true } }
      uploads := s.uploads ++ [.dump none] } := by
  have hroom : StringTable.Room [""] (names.map fromAscii) :=
    StringTable.room_of_length _ _ (by rw [← List.length_append, hlen])
  obtain ⟨table, held, hacts, htable⟩ := acts_intern hrunning (by rw [hinterner]; rfl)
    (by rw [hinterner]; exact StringTable.new_repr) hne hroom
  rw [internAll_fresh hnodup] at htable
  have hops : (names.map fun b => Op.act (.internMemory fromAscii ⟨some b⟩)).foldl
      (Op.apply .linux) s = s.acts (names.map fun b => .internMemory fromAscii ⟨some b⟩) := by
    rw [Process.acts, List.foldl_map, List.foldl_map]
    rfl
  have hdump := dump_full hmemory htable hlen (List.cons_ne_nil _ _) (0 : UInt64) (.stored _) (.stored _) ⟨0, 0⟩
  rw [captureAndStop, List.foldl_append, hops, hacts]
  have hact : Process.act { s with profilers := { s.profilers with interner := ⟨table, false⟩, memoryHeld := held } }
      plainDump = { s with
        profilers := { s.profilers with
          interner := ⟨table, true⟩, memory := { s.profilers.memory with poisoned := true }, memoryHeld := held }
        uploads := s.uploads ++ [.dump none] } := by
    have he : Process.enables { s with
        profilers := { s.profilers with interner := ⟨table, false⟩, memoryHeld := held } } plainDump = true := hagent
    rw [Process.act, if_pos he]
    show Process.dumpMemory _ _ _ _ _ = _
    rw [Process.dumpMemory, hdump]
    rfl
  show (stop .smooth (Process.act _ plainDump)).2 = _
  rw [hact]
  exact stop_poisoned hs table held (s.uploads ++ [.dump none])

theorem fillers_full : ∃ names : List (List UInt8), (∀ b ∈ names, b ≠ []) ∧
    ([""] ++ names.map fromAscii).Nodup ∧ ([""] ++ names.map fromAscii).length = u32Max := by
  refine ⟨fillers (2 ^ 32 - 2), fun b hb => ?_, fillers_nodup (Nat.sub_le _ _), ?_⟩
  · obtain ⟨n, -, rfl⟩ := List.mem_map.mp hb
    exact List.cons_ne_nil _ _
  · rw [List.length_append, List.length_map, fillers_length]
    rfl

theorem poison_outlives_session : ∃ history history' session : List Op, Recaptured history history' ∧
    (after .linux .dfl history).state = .idle ∧
    ¬List.Forall₂ (fun u u' => received u = received u')
      (uploadsOf .linux (after .linux .dfl history) session) (uploadsOf .linux (after .linux .dfl history') session) := by
  obtain ⟨names, hne, hnodup, hlen⟩ := fillers_full
  refine ⟨capturing names, uneventful, oneSample (.stored _) (.stored _), capturing_recaptured _, ?_⟩
  have hafter : after .linux .dfl (capturing names) = _ :=
    captureAndStop_full (s := after .linux .dfl [.configure .smooth memoryOnly]) (n := 0) rfl rfl rfl rfl rfl
      hne hnodup hlen
  have hleft : uploadsOf .linux (after .linux .dfl (capturing names)) (oneSample (.stored _) (.stored _)) = [.dump none] := by
    rw [hafter]
    rfl
  obtain ⟨profile, hright⟩ : ∃ profile,
      uploadsOf .linux (after .linux .dfl uneventful) (oneSample (.stored _) (.stored _)) = [.dump (some profile)] := ⟨_, rfl⟩
  refine ⟨?_, ?_⟩
  · rw [hafter]
    rfl
  · rw [hleft, hright]
    intro hall
    cases hall with
    | cons hreceived _ => exact nomatch hreceived

end Pyroscope.Agent.Isolation
