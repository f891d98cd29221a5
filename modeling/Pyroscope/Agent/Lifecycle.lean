import Pyroscope.Lib.Lock
import Pyroscope.Lib.Transition
import Mathlib.Data.Nat.Notation

/-!
# Starting and stopping the agent from many threads (ffikit.rs, lib.rs)

Python threads call `initialize_agent` and `drop_agent`. A thread runs only while it
holds the GIL, except in `py.detach`; it gives the GIL up in calls into Python and in
`py.detach`, and nowhere else. `STATE` is behind its own lock, which is dropped while
the agent is being started or torn down; the `Busy` marker stands for it.
-/

namespace Pyroscope.Agent.Lifecycle
open Pyroscope.Lib

inductive PyroscopeError where
  | agentNotRunning
  | agentAlreadyRunning
  | concurrentOperation
  | failed
  deriving DecidableEq

/-- `State`, with a number for the agent in the box. -/
inductive AgentState where
  | idle
  | busy
  | running (agent : ℕ)
  deriving DecidableEq

/-- The first block of `run`. -/
def claimForRun : AgentState → Except PyroscopeError Unit × AgentState
  | .idle => (.ok (), .busy)
  | .busy => (.error .concurrentOperation, .busy)
  | .running a => (.error .agentAlreadyRunning, .running a)

/-- The first block of `stop`: `mem::replace` puts `Busy` before it is known what it replaces. -/
def claimForStop (guard : AgentState) : Except PyroscopeError ℕ × AgentState :=
  let old := guard
  let guard := AgentState.busy
  match old with
  | .running agent => (.ok agent, guard)
  | .busy => (.error .concurrentOperation, guard)
  | .idle => (.error .agentNotRunning, .idle)

inductive Pc where
  | outside
  | initCalled
  | runLocked
  | starting
  | started (agent : ℕ)
  | publishLocked (agent : ℕ)
  | initOk
  | rollingBack (err : PyroscopeError)
  | resetLocked (err : PyroscopeError)
  | initErr (err : PyroscopeError)
  | dropCalled
  | stopLocked
  | claimed (agent : ℕ)
  | stopping (agent : ℕ)
  | stopped
  | tearingDown
  | idleLocked
  | dropOk
  | dropErr (err : PyroscopeError)
  | unwinding

/-- Where Python code runs, or `sampler_stop` in its `py.detach`, so that the GIL may change hands. -/
def Pc.yields : Pc → Bool
  | .outside | .initCalled | .starting | .rollingBack _ | .tearingDown => true
  | _ => false

def Pc.afterRunClaim : Except PyroscopeError Unit → Pc
  | .ok () => .starting
  | .error err => .initErr err

def Pc.afterStopClaim : Except PyroscopeError ℕ → Pc
  | .ok agent => .claimed agent
  | .error err => .dropErr err

/-- `alive` lists the agents between `start` and the end of `PyroscopeAgent::stop`, or the
panic that drops them; `stops` counts the calls of the latter, `inits` and `drops` the calls that returned true. -/
structure State (ι : Type) where
  gil : Option ι
  lock : Option ι
  state : AgentState
  agentRunning : Bool
  nextAgent : ℕ
  alive : List ℕ
  stops : ℕ → ℕ
  inits : ℕ
  drops : ℕ
  pcs : ι → Pc

def State.initial (ι : Type) : State ι :=
  ⟨none, none, .idle, false, 0, [], fun _ => 0, 0, 0, fun _ => .outside⟩

/-- `Ok` of the claim: the agent is now this call's to stop. -/
def countStop (stops : ℕ → ℕ) : Except PyroscopeError ℕ → ℕ → ℕ
  | .ok agent => Function.update stops agent (stops agent + 1)
  | .error _ => stops

variable {ι : Type} [DecidableEq ι]

inductive Step (t : ι) : State ι → State ι → Prop where
  | attach {s} (free : s.gil = none) (h : (s.pcs t).yields = true) : Step t s { s with gil := some t }
  | yield {s} (gil : s.gil = some t) (h : (s.pcs t).yields = true) : Step t s { s with gil := none }
  | initializeAgent {s} (gil : s.gil = some t) (h : s.pcs t = .outside) :
    Step t s { s with pcs := Function.update s.pcs t .initCalled }
  /-- the configuration is refused, or the thread hooks cannot be installed -/
  | initRefuses {s} (gil : s.gil = some t) (h : s.pcs t = .initCalled) :
    Step t s { s with pcs := Function.update s.pcs t .outside }
  | runLock {s} (gil : s.gil = some t) (h : s.pcs t = .initCalled) (free : s.lock = none) :
    Step t s { s with lock := some t, pcs := Function.update s.pcs t .runLocked }
  | runClaim {s} (gil : s.gil = some t) (h : s.pcs t = .runLocked) :
    Step t s { s with
      lock := none, state := (claimForRun s.state).2
      pcs := Function.update s.pcs t (.afterRunClaim (claimForRun s.state).1) }
  | startOk {s} (gil : s.gil = some t) (h : s.pcs t = .starting) :
    Step t s { s with
      nextAgent := s.nextAgent + 1, alive := s.nextAgent :: s.alive
      pcs := Function.update s.pcs t (.started s.nextAgent) }
  | startFails {s} (gil : s.gil = some t) (h : s.pcs t = .starting) (err : PyroscopeError) :
    Step t s { s with pcs := Function.update s.pcs t (.rollingBack err) }
  | publishLock {s a} (gil : s.gil = some t) (h : s.pcs t = .started a) (free : s.lock = none) :
    Step t s { s with lock := some t, pcs := Function.update s.pcs t (.publishLocked a) }
  | publish {s a} (gil : s.gil = some t) (h : s.pcs t = .publishLocked a) :
    Step t s { s with lock := none, state := .running a, pcs := Function.update s.pcs t .initOk }
  | resetLock {s err} (gil : s.gil = some t) (h : s.pcs t = .rollingBack err) (free : s.lock = none) :
    Step t s { s with lock := some t, pcs := Function.update s.pcs t (.resetLocked err) }
  | reset {s err} (gil : s.gil = some t) (h : s.pcs t = .resetLocked err) :
    Step t s { s with lock := none, state := .idle, pcs := Function.update s.pcs t (.initErr err) }
  | initTrue {s} (gil : s.gil = some t) (h : s.pcs t = .initOk) :
    Step t s { s with
      agentRunning := true, inits := s.inits + 1, pcs := Function.update s.pcs t .outside }
  | initFalse {s err} (gil : s.gil = some t) (h : s.pcs t = .initErr err) :
    Step t s { s with pcs := Function.update s.pcs t .outside }
  /-- also from `at_exit` -/
  | dropAgent {s} (gil : s.gil = some t) (h : s.pcs t = .outside) :
    Step t s { s with pcs := Function.update s.pcs t .dropCalled }
  | stopLock {s} (gil : s.gil = some t) (h : s.pcs t = .dropCalled) (free : s.lock = none) :
    Step t s { s with lock := some t, pcs := Function.update s.pcs t .stopLocked }
  | stopClaim {s} (gil : s.gil = some t) (h : s.pcs t = .stopLocked) :
    Step t s { s with
      lock := none, state := (claimForStop s.state).2
      stops := countStop s.stops (claimForStop s.state).1
      pcs := Function.update s.pcs t (.afterStopClaim (claimForStop s.state).1) }
  | detach {s a} (gil : s.gil = some t) (h : s.pcs t = .claimed a) :
    Step t s { s with gil := none, pcs := Function.update s.pcs t (.stopping a) }
  /-- `agent.stop()`, without the GIL -/
  | agentStops {s a} (h : s.pcs t = .stopping a) :
    Step t s { s with alive := s.alive.erase a, pcs := Function.update s.pcs t .stopped }
  | reattach {s} (free : s.gil = none) (h : s.pcs t = .stopped) :
    Step t s { s with gil := some t, pcs := Function.update s.pcs t .tearingDown }
  | idleLock {s} (gil : s.gil = some t) (h : s.pcs t = .tearingDown) (free : s.lock = none) :
    Step t s { s with lock := some t, pcs := Function.update s.pcs t .idleLocked }
  | writeIdle {s} (gil : s.gil = some t) (h : s.pcs t = .idleLocked) :
    Step t s { s with lock := none, state := .idle, pcs := Function.update s.pcs t .dropOk }
  | dropTrue {s} (gil : s.gil = some t) (h : s.pcs t = .dropOk) :
    Step t s { s with
      agentRunning := false, drops := s.drops + 1, pcs := Function.update s.pcs t .outside }
  | dropFalse {s err} (gil : s.gil = some t) (h : s.pcs t = .dropErr err) :
    Step t s { s with pcs := Function.update s.pcs t .outside }
  /-- `py.detach` takes the GIL back before the panic leaves the call -/
  | raise {s} (free : s.gil = none) (h : s.pcs t = .unwinding) :
    Step t s { s with gil := some t, pcs := Function.update s.pcs t .outside }

/-- `std::thread::spawn` panics when the system has no thread left. Nothing before the Python
boundary catches it, so neither `match started` nor the end of `stop` is reached. -/
inductive Panics (t : ι) : State ι → State ι → Prop where
  /-- one of the threads that the start section spawns -/
  | start {s} (gil : s.gil = some t) (h : s.pcs t = .starting) :
    Panics t s { s with pcs := Function.update s.pcs t .outside }
  /-- macOS: the thread of `no_dispatch_semaphore`, whose closure owns the agent -/
  | stop {s a} (h : s.pcs t = .stopping a) :
    Panics t s { s with alive := s.alive.erase a, pcs := Function.update s.pcs t .unwinding }

def Moves (t : ι) (s s' : State ι) : Prop := Step t s s' ∨ Panics t s s'

def Run (s s' : State ι) : Prop := ∃ t, Moves t s s'

def CalmRun (s s' : State ι) : Prop := ∃ t, Step t s s'

/-! ### What the calls amount to

Whatever the threads do, the agent goes round a cycle of phases, driven by the one
thread that holds `Busy` or has just let go of it. A panic takes it out of the cycle for
good: `Busy` stays, and nobody is left to write anything else. -/

inductive Phase (ι : Type) where
  | idle
  | starting (t : ι)
  | started (t : ι) (agent : ℕ)
  | announcing (t : ι) (agent : ℕ)
  | running (agent : ℕ)
  | stopping (t : ι) (agent : ℕ)
  | stopped (t : ι)
  | retiring (t : ι)
  | wedged (agentRunning : Bool)

namespace Phase

def owner : Phase ι → Option ι
  | .idle | .running _ | .wedged _ => none
  | .starting t | .started t _ | .announcing t _ | .stopping t _ | .stopped t | .retiring t => some t

def state : Phase ι → AgentState
  | .idle | .retiring _ => .idle
  | .announcing _ a | .running a => .running a
  | .starting _ | .started _ _ | .stopping _ _ | .stopped _ | .wedged _ => .busy

def alive : Phase ι → List ℕ
  | .idle | .starting _ | .stopped _ | .retiring _ | .wedged _ => []
  | .started _ a | .announcing _ a | .running a | .stopping _ a => [a]

/-- `AGENT_RUNNING`, written after `STATE`. -/
def agentRunning : Phase ι → Bool
  | .idle | .starting _ | .started _ _ | .announcing _ _ => false
  | .running _ | .stopping _ _ | .stopped _ | .retiring _ => true
  | .wedged agentRunning => agentRunning

def calm : Phase ι → Bool
  | .wedged _ => false
  | _ => true

def untaken : Phase ι → Option ℕ
  | .started _ a | .announcing _ a | .running a => some a
  | _ => none

/-- The two phases in which `STATE` and `AGENT_RUNNING` differ end before the GIL is given up. -/
def keepsGil : Phase ι → Option ι
  | .announcing t _ | .retiring t => some t
  | _ => none

inductive At : Phase ι → Pc → Prop where
  | starting {t} : At (.starting t) .starting
  | rollingBack {t err} : At (.starting t) (.rollingBack err)
  | resetLocked {t err} : At (.starting t) (.resetLocked err)
  | started {t a} : At (.started t a) (.started a)
  | publishLocked {t a} : At (.started t a) (.publishLocked a)
  | initOk {t a} : At (.announcing t a) .initOk
  | claimed {t a} : At (.stopping t a) (.claimed a)
  | stopping {t a} : At (.stopping t a) (.stopping a)
  | stopped {t} : At (.stopped t) .stopped
  | tearingDown {t} : At (.stopped t) .tearingDown
  | idleLocked {t} : At (.stopped t) .idleLocked
  | dropOk {t} : At (.retiring t) .dropOk

end Phase

inductive Bystander : Pc → Prop where
  | outside : Bystander .outside
  | initCalled : Bystander .initCalled
  | runLocked : Bystander .runLocked
  | initErr {err} : Bystander (.initErr err)
  | dropCalled : Bystander .dropCalled
  | stopLocked : Bystander .stopLocked
  | dropErr {err} : Bystander (.dropErr err)
  | unwinding : Bystander .unwinding

structure InPhase (s : State ι) (p : Phase ι) : Prop where
  held : Held p.owner s.pcs p.At Bystander
  state : s.state = p.state
  alive : s.alive = p.alive
  agentRunning : s.agentRunning = p.agentRunning
  counts : s.inits = s.drops + p.agentRunning.toNat
  gil : ∀ t, p.keepsGil = some t → s.gil = some t
  stops : ∀ a, s.stops a ≤ 1
  fresh : ∀ a, s.nextAgent ≤ a → s.stops a = 0
  untaken : ∀ a, p.untaken = some a → s.stops a = 0 ∧ a < s.nextAgent

/-- `calm` as long as no call has panicked. -/
def Inv (calm : Bool) (s : State ι) : Prop := ∃ p, InPhase s p ∧ p.calm = calm

omit [DecidableEq ι] in
theorem initial_inv : Inv true (State.initial ι) :=
  ⟨.idle, ⟨Held.nobody fun _ => .outside, rfl, rfl, rfl, rfl, nofun, fun _ => Nat.zero_le 1,
    fun _ _ => rfl, nofun⟩, rfl⟩

theorem claimForRun_ok {st : AgentState} (h : (claimForRun st).1 = .ok ()) : st = .idle := by
  cases st with
  | idle => rfl
  | busy => cases h
  | running a => cases h

theorem claimForRun_error {st : AgentState} {err : PyroscopeError}
    (h : (claimForRun st).1 = .error err) : (claimForRun st).2 = st := by
  cases st with
  | idle => cases h
  | busy => rfl
  | running a => rfl

theorem claimForStop_ok {st : AgentState} {a : ℕ} (h : (claimForStop st).1 = .ok a) :
    st = .running a := by
  cases st with
  | idle => cases h
  | busy => cases h
  | running b =>
    cases h
    rfl

theorem claimForStop_error {st : AgentState} {err : PyroscopeError}
    (h : (claimForStop st).1 = .error err) : (claimForStop st).2 = st := by
  cases st with
  | idle => rfl
  | busy => rfl
  | running a => cases h

/-! ### One step keeps to the cycle -/

namespace Phase

omit [DecidableEq ι] in
theorem At.not_bystander {p : Phase ι} {pc : Pc} (h : p.At pc) : ¬Bystander pc := by
  cases h <;> exact nofun

omit [DecidableEq ι] in
theorem owner_of_keepsGil {p : Phase ι} {t : ι} (h : p.keepsGil = some t) : p.owner = some t := by
  cases p <;> first | exact h | cases h

omit [DecidableEq ι] in
theorem At.not_yields {p : Phase ι} {t : ι} {pc : Pc} (h : p.At pc) (hk : p.keepsGil = some t) :
    pc.yields = false := by
  cases h <;> first | rfl | cases hk

omit [DecidableEq ι] in
theorem eq_idle {p : Phase ι} (hk : p.keepsGil = none) (hs : p.state = .idle) : p = .idle := by
  cases p with
  | idle => rfl
  | announcing t a => cases hk
  | retiring t => cases hk
  | _ => cases hs

omit [DecidableEq ι] in
theorem eq_running {p : Phase ι} {a : ℕ} (hk : p.keepsGil = none) (hs : p.state = .running a) :
    p = .running a := by
  cases p with
  | running b => rw [AgentState.running.inj hs]
  | announcing t b => cases hk
  | _ => cases hs

omit [DecidableEq ι] in
theorem calm_of_state {p : Phase ι} (hs : p.state ≠ .busy) : p.calm = true := by
  cases p with
  | wedged b => exact (hs rfl).elim
  | _ => rfl

end Phase

namespace InPhase
variable {s : State ι} {p : Phase ι} {t : ι}

omit [DecidableEq ι] in
theorem owner_ne (h : InPhase s p) (hpc : Bystander (s.pcs t)) : p.owner ≠ some t :=
  fun ho => ((h.held t).1 ho).not_bystander hpc

/- The driving thread and its phase. -/
omit [DecidableEq ι] in
theorem driver (h : InPhase s p) {pc : Pc} (hpc : s.pcs t = pc) (hn : ¬Bystander pc) :
    p.owner = some t ∧ p.At pc := by
  subst hpc
  exact ⟨h.held.owner_of_not_outside hn, h.held.inside_of_not_outside hn⟩

theorem bystand (h : InPhase s p) {pc pc' : Pc} (hpc : s.pcs t = pc) (hb : Bystander pc)
    (hb' : Bystander pc') (lock : Option ι) :
    InPhase { s with lock, pcs := Function.update s.pcs t pc' } p := by
  subst hpc
  exact ⟨h.held.pass (h.owner_ne hb) hb', h.state, h.alive, h.agentRunning, h.counts, h.gil, h.stops,
    h.fresh, h.untaken⟩

theorem drive (h : InPhase s p) (hown : p.owner = some t) {pc : Pc} (hat : p.At pc)
    (lock : Option ι) : InPhase { s with lock, pcs := Function.update s.pcs t pc } p := by
  have hheld := h.held.hold (i := t) (fun j hj => Option.some.inj (hj.symm.trans hown)) hat
  rw [← hown] at hheld
  exact ⟨hheld, h.state, h.alive, h.agentRunning, h.counts, h.gil, h.stops, h.fresh, h.untaken⟩

/- The driving thread goes on within the phase. -/
theorem advance (h : InPhase s p) {pc pc' : Pc} (hpc : s.pcs t = pc) (hn : ¬Bystander pc)
    (hat : p.At pc → p.At pc') (lock : Option ι) :
    InPhase { s with lock, pcs := Function.update s.pcs t pc' } p := by
  obtain ⟨hown, hnow⟩ := h.driver hpc hn
  exact h.drive hown (hat hnow) lock

omit [DecidableEq ι] in
theorem withGil (h : InPhase s p) {gil : Option ι} (hk : ∀ t, p.keepsGil = some t → gil = some t) :
    InPhase { s with gil } p :=
  ⟨h.held, h.state, h.alive, h.agentRunning, h.counts, hk, h.stops, h.fresh, h.untaken⟩

/- A thread that holds the GIL and drives nothing sees no call that is about to return true. -/
omit [DecidableEq ι] in
theorem keepsGil_none (h : InPhase s p) (gil : s.gil = some t) (hb : Bystander (s.pcs t)) :
    p.keepsGil = none := by
  cases hk : p.keepsGil with
  | none => rfl
  | some t' =>
    have ht : t' = t := Option.some.inj ((h.gil t' hk).symm.trans gil)
    subst ht
    exact (h.owner_ne hb (Phase.owner_of_keepsGil hk)).elim

theorem claimedForRun (h : InPhase s p) (gil : s.gil = some t) (hpc : s.pcs t = .runLocked)
    (hst : s.state = .idle) :
    InPhase { s with lock := none, state := .busy, pcs := Function.update s.pcs t .starting }
      (.starting t) := by
  have hb : Bystander (s.pcs t) := by
    rw [hpc]
    exact .runLocked
  obtain rfl := Phase.eq_idle (h.keepsGil_none gil hb) (h.state.symm.trans hst)
  exact ⟨h.held.hold nofun .starting, rfl, h.alive, h.agentRunning, h.counts, nofun, h.stops,
    h.fresh, nofun⟩

theorem claimedForStop (h : InPhase s p) {a : ℕ} (gil : s.gil = some t) (hpc : s.pcs t = .stopLocked)
    (hst : s.state = .running a) :
    InPhase { s with
      lock := none, state := .busy, stops := Function.update s.stops a (s.stops a + 1)
      pcs := Function.update s.pcs t (.claimed a) } (.stopping t a) := by
  have hb : Bystander (s.pcs t) := by
    rw [hpc]
    exact .stopLocked
  obtain rfl := Phase.eq_running (h.keepsGil_none gil hb) (h.state.symm.trans hst)
  obtain ⟨hzero, hlt⟩ := h.untaken a rfl
  refine ⟨h.held.hold nofun .claimed, rfl, h.alive, h.agentRunning, h.counts, nofun, fun b => ?_,
    fun b hb' => ?_, nofun⟩
  · by_cases hba : b = a
    · subst hba
      simp only [Function.update_self, hzero, Nat.zero_add, Nat.le_refl]
    · simp only [Function.update_of_ne hba]
      exact h.stops b
  · have hba : b ≠ a := fun he => Nat.not_lt.mpr hb' (he ▸ hlt)
    simp only [Function.update_of_ne hba]
    exact h.fresh b hb'

/- A new agent, under the next number. -/
theorem startedAgent (h : InPhase s p) (hpc : s.pcs t = .starting) :
    InPhase { s with
      nextAgent := s.nextAgent + 1, alive := s.nextAgent :: s.alive
      pcs := Function.update s.pcs t (.started s.nextAgent) } (.started t s.nextAgent) := by
  obtain ⟨hown, hat⟩ := h.driver hpc nofun
  cases hat
  cases hown
  have halive : s.alive = [] := h.alive
  refine ⟨h.held.hold (fun j hj => (Option.some.inj hj).symm) .started, h.state, ?_, h.agentRunning,
    h.counts, nofun, h.stops, fun a ha => h.fresh a (Nat.le_of_succ_le ha), fun a ha => ?_⟩
  · rw [halive]
    rfl
  · cases ha
    exact ⟨h.fresh _ (Nat.le_refl _), Nat.lt_succ_self _⟩

end InPhase

theorem step_inv {t : ι} {s s' : State ι} {calm : Bool} (h : Inv calm s) (hs : Step t s s') :
    Inv calm s' := by
  obtain ⟨p, h, hcalm⟩ := h
  have same : ∀ j, some t = some j → j = t := fun j hj => (Option.some.inj hj).symm
  cases hs with
  | attach free hy =>
    refine ⟨p, h.withGil fun t' hk => ?_, hcalm⟩
    cases free.symm.trans (h.gil t' hk)
  | yield gil hy =>
    refine ⟨p, h.withGil fun t' hk => ?_, hcalm⟩
    have ht : t' = t := Option.some.inj ((h.gil t' hk).symm.trans gil)
    subst ht
    have hat := (h.held t').1 (Phase.owner_of_keepsGil hk)
    rw [hat.not_yields hk] at hy
    cases hy
  | initializeAgent gil hpc => exact ⟨p, h.bystand hpc .outside .initCalled _, hcalm⟩
  | initRefuses gil hpc => exact ⟨p, h.bystand hpc .initCalled .outside _, hcalm⟩
  | runLock gil hpc free => exact ⟨p, h.bystand hpc .initCalled .runLocked _, hcalm⟩
  | runClaim gil hpc =>
    cases hc : (claimForRun s.state).1 with
    | ok u =>
      have hst := claimForRun_ok hc
      have hp : p.calm = true := Phase.calm_of_state (by rw [← h.state, hst]; exact nofun)
      rw [hst]
      exact ⟨.starting t, h.claimedForRun gil hpc hst, hp.symm.trans hcalm⟩
    | error err =>
      rw [claimForRun_error hc]
      exact ⟨p, h.bystand hpc .runLocked .initErr _, hcalm⟩
  | startOk gil hpc =>
    obtain ⟨hown, hat⟩ := h.driver hpc nofun
    cases hat
    exact ⟨_, h.startedAgent hpc, hcalm⟩
  | startFails gil hpc err =>
    exact ⟨p, h.advance hpc nofun (fun | .starting => .rollingBack) _, hcalm⟩
  | publishLock gil hpc free =>
    exact ⟨p, h.advance hpc nofun (fun | .started => .publishLocked) _, hcalm⟩
  | @publish a gil hpc =>
    obtain ⟨hown, hat⟩ := h.driver hpc nofun
    cases hat
    cases hown
    exact ⟨.announcing t a, ⟨h.held.hold same .initOk, rfl, h.alive, h.agentRunning, h.counts,
      fun j hj => by rw [gil, ← hj]; rfl, h.stops, h.fresh, h.untaken⟩, hcalm⟩
  | resetLock gil hpc free =>
    exact ⟨p, h.advance hpc nofun (fun | .rollingBack => .resetLocked) _, hcalm⟩
  | reset gil hpc =>
    obtain ⟨hown, hat⟩ := h.driver hpc nofun
    cases hat
    cases hown
    exact ⟨.idle, ⟨h.held.drop .initErr, rfl, h.alive, h.agentRunning, h.counts, nofun, h.stops,
      h.fresh, nofun⟩, hcalm⟩
  | initTrue gil hpc =>
    obtain ⟨hown, hat⟩ := h.driver hpc nofun
    cases hat with
    | @initOk t' a =>
      cases hown
      exact ⟨.running a, ⟨h.held.drop .outside, h.state, h.alive, rfl,
        congrArg (· + 1) h.counts, nofun, h.stops, h.fresh, h.untaken⟩, hcalm⟩
  | initFalse gil hpc => exact ⟨p, h.bystand hpc .initErr .outside _, hcalm⟩
  | dropAgent gil hpc => exact ⟨p, h.bystand hpc .outside .dropCalled _, hcalm⟩
  | stopLock gil hpc free => exact ⟨p, h.bystand hpc .dropCalled .stopLocked _, hcalm⟩
  | stopClaim gil hpc =>
    cases hc : (claimForStop s.state).1 with
    | ok a =>
      have hst := claimForStop_ok hc
      have hp : p.calm = true := Phase.calm_of_state (by rw [← h.state, hst]; exact nofun)
      rw [hst]
      exact ⟨.stopping t a, h.claimedForStop gil hpc hst, hp.symm.trans hcalm⟩
    | error err =>
      rw [claimForStop_error hc]
      exact ⟨p, h.bystand hpc .stopLocked .dropErr _, hcalm⟩
  | detach gil hpc =>
    obtain ⟨hown, hat⟩ := h.driver hpc nofun
    cases hat
    exact ⟨_, (h.drive hown .stopping s.lock).withGil nofun, hcalm⟩
  | @agentStops a hpc =>
    obtain ⟨hown, hat⟩ := h.driver hpc nofun
    cases hat
    cases hown
    have halive : s.alive = [a] := h.alive
    refine ⟨.stopped t, ⟨h.held.hold same .stopped, h.state, ?_, h.agentRunning, h.counts, nofun,
      h.stops, h.fresh, nofun⟩, hcalm⟩
    show s.alive.erase a = []
    rw [halive, List.erase_cons_head]
  | reattach free hpc =>
    obtain ⟨hown, hat⟩ := h.driver hpc nofun
    cases hat
    exact ⟨_, (h.drive hown .tearingDown s.lock).withGil nofun, hcalm⟩
  | idleLock gil hpc free =>
    exact ⟨p, h.advance hpc nofun (fun | .tearingDown => .idleLocked) _, hcalm⟩
  | writeIdle gil hpc =>
    obtain ⟨hown, hat⟩ := h.driver hpc nofun
    cases hat
    cases hown
    exact ⟨.retiring t, ⟨h.held.hold same .dropOk, rfl, h.alive, h.agentRunning, h.counts,
      fun j hj => by rw [gil, ← hj]; rfl, h.stops, h.fresh, nofun⟩, hcalm⟩
  | dropTrue gil hpc =>
    obtain ⟨hown, hat⟩ := h.driver hpc nofun
    cases hat
    cases hown
    exact ⟨.idle, ⟨h.held.drop .outside, h.state, h.alive, rfl, h.counts, nofun, h.stops, h.fresh,
      nofun⟩, hcalm⟩
  | dropFalse gil hpc => exact ⟨p, h.bystand hpc .dropErr .outside _, hcalm⟩
  | raise free hpc =>
    refine ⟨p, (h.bystand hpc .unwinding .outside s.lock).withGil fun t' hk => ?_, hcalm⟩
    cases free.symm.trans (h.gil t' hk)

/- A panicking call leaves its `Busy` behind. -/
theorem panics_inv {t : ι} {s s' : State ι} {calm : Bool} (h : Inv calm s) (hp : Panics t s s') :
    Inv false s' := by
  obtain ⟨p, h, -⟩ := h
  cases hp with
  | start gil hpc =>
    obtain ⟨hown, hat⟩ := h.driver hpc nofun
    cases hat
    cases hown
    exact ⟨.wedged false, ⟨h.held.drop .outside, h.state, h.alive, h.agentRunning, h.counts, nofun,
      h.stops, h.fresh, nofun⟩, rfl⟩
  | @stop a hpc =>
    obtain ⟨hown, hat⟩ := h.driver hpc nofun
    cases hat
    cases hown
    have halive : s.alive = [a] := h.alive
    refine ⟨.wedged true, ⟨h.held.drop .unwinding, h.state, ?_, h.agentRunning, h.counts, nofun,
      h.stops, h.fresh, nofun⟩, rfl⟩
    show s.alive.erase a = []
    rw [halive, List.erase_cons_head]

theorem run_inv {s s' : State ι} (h : ∃ calm, Inv calm s) (hs : Run s s') : ∃ calm, Inv calm s' := by
  obtain ⟨calm, hi⟩ := h
  obtain ⟨t, hstep | hpanic⟩ := hs
  · exact ⟨calm, step_inv hi hstep⟩
  · exact ⟨false, panics_inv hi hpanic⟩

theorem reachable_inv {s : State ι} (h : Reachable (· = State.initial ι) Run s) :
    ∃ calm, Inv calm s := by
  induction h with
  | init hs =>
    rw [hs]
    exact ⟨true, initial_inv⟩
  | step _ hs ih => exact run_inv ih hs

theorem calm_inv {s : State ι} (h : Reachable (· = State.initial ι) CalmRun s) : Inv true s := by
  refine h.invariant (fun s hs => ?_) fun s s' hi ⟨t, hs⟩ => step_inv hi hs
  rw [hs]
  exact initial_inv

/- No later call gets past `Busy`, so that a panic is never made good. -/
theorem busy_after_panic {t : ι} {s₀ s₁ s : State ι} (h : Reachable (· = State.initial ι) Run s₀)
    (hp : Panics t s₀ s₁) (hs : Relation.ReflTransGen Run s₁ s) : s.state = .busy := by
  obtain ⟨calm, hi⟩ := reachable_inv h
  have hlater : Inv false s := by
    induction hs with
    | refl => exact panics_inv hi hp
    | tail _ hlast ih =>
      obtain ⟨t', hstep | hpanic⟩ := hlast
      · exact step_inv ih hstep
      · exact panics_inv ih hpanic
  obtain ⟨p, hphase, hwedged⟩ := hlater
  cases p with
  | wedged b => exact hphase.state
  | _ => cases hwedged

/-! ### Calls that come at the wrong time -/

theorem run_refuses {t : ι} {s s' : State ι} (hs : Moves t s s') (hpc : s.pcs t = .runLocked)
    (hst : s.state ≠ .idle) :
    ∃ err, s' = { s with lock := none, pcs := Function.update s.pcs t (.initErr err) } := by
  obtain hs | hp := hs
  · cases hs
    case runClaim gil h =>
      cases hc : (claimForRun s.state).1 with
      | ok u => exact (hst (claimForRun_ok hc)).elim
      | error err =>
        rw [claimForRun_error hc]
        exact ⟨err, rfl⟩
    all_goals simp_all [Pc.yields]
  · cases hp <;> simp_all

theorem stop_refuses {t : ι} {s s' : State ι} (hs : Moves t s s') (hpc : s.pcs t = .stopLocked)
    (hst : ∀ a, s.state ≠ .running a) :
    ∃ err, s' = { s with lock := none, pcs := Function.update s.pcs t (.dropErr err) } := by
  obtain hs | hp := hs
  · cases hs
    case stopClaim gil h =>
      cases hc : (claimForStop s.state).1 with
      | ok a => exact (hst a (claimForStop_ok hc)).elim
      | error err =>
        rw [claimForStop_error hc]
        exact ⟨err, rfl⟩
    all_goals simp_all [Pc.yields]
  · cases hp <;> simp_all

/- A call that is to return false does nothing else. -/
theorem error_returns {t : ι} {s s' : State ι} {err : PyroscopeError} (hs : Moves t s s')
    (hpc : s.pcs t = .initErr err ∨ s.pcs t = .dropErr err) :
    s' = { s with pcs := Function.update s.pcs t .outside } := by
  obtain hs | hp := hs
  · rcases hpc with hpc | hpc
    · cases hs
      case initFalse => rfl
      all_goals simp_all [Pc.yields]
    · cases hs
      case dropFalse => rfl
      all_goals simp_all [Pc.yields]
  · cases hp <;> simp_all

structure Accounted (s : State ι) : Prop where
  oneAlive : s.alive.length ≤ 1
  oneStop : ∀ a, s.stops a ≤ 1
  runRefuses : ∀ t s', Moves t s s' → s.pcs t = .runLocked → s.state ≠ .idle →
    ∃ err, s' = { s with lock := none, pcs := Function.update s.pcs t (.initErr err) }
  stopRefuses : ∀ t s', Moves t s s' → s.pcs t = .stopLocked → (∀ a, s.state ≠ .running a) →
    ∃ err, s' = { s with lock := none, pcs := Function.update s.pcs t (.dropErr err) }
  errorReturns : ∀ t s' err, Moves t s s' → s.pcs t = .initErr err ∨ s.pcs t = .dropErr err →
    s' = { s with pcs := Function.update s.pcs t .outside }
  quiet : (∀ t, s.pcs t = .outside) →
    s.state = .idle ∧ s.agentRunning = false ∧ s.inits = s.drops ∨
    (∃ a, s.state = .running a) ∧ s.agentRunning = true ∧ s.inits = s.drops + 1

omit [DecidableEq ι] in
theorem InPhase.alive_length {s : State ι} {p : Phase ι} (h : InPhase s p) : s.alive.length ≤ 1 := by
  rw [h.alive]
  cases p <;> first | exact Nat.zero_le 1 | exact Nat.le_refl 1

omit [DecidableEq ι] in
theorem InPhase.quiet {s : State ι} {p : Phase ι} (h : InPhase s p) (hcalm : p.calm = true)
    (hquiet : ∀ t, s.pcs t = .outside) :
    s.state = .idle ∧ s.agentRunning = false ∧ s.inits = s.drops ∨
    (∃ a, s.state = .running a) ∧ s.agentRunning = true ∧ s.inits = s.drops + 1 := by
  have hown : p.owner = none := by
    cases ho : p.owner with
    | none => rfl
    | some t =>
      have hat := (h.held t).1 ho
      rw [hquiet t] at hat
      cases hat
  cases p with
  | idle => exact Or.inl ⟨h.state, h.agentRunning, h.counts⟩
  | running a => exact Or.inr ⟨⟨a, h.state⟩, h.agentRunning, h.counts⟩
  | wedged b => cases hcalm
  | _ => cases hown

/-- Any number of threads, calls and failed starts, in any order, as long as none panics. -/
theorem lifecycle_accounted {s : State ι} (h : Reachable (· = State.initial ι) CalmRun s) :
    Accounted s := by
  obtain ⟨p, hp, hcalm⟩ := calm_inv h
  exact ⟨hp.alive_length, hp.stops, fun t s' => run_refuses, fun t s' => stop_refuses,
    fun t s' err => error_returns, hp.quiet hcalm⟩

/- Two threads: the second finds `Busy` while the first is starting, and later stops the agent. -/
theorem lifecycle_accounted_contended : ∃ s : State (Fin 2),
    Reachable (· = State.initial (Fin 2)) CalmRun s ∧ (∀ t, s.pcs t = .outside) ∧ s.inits = 1 ∧
      s.drops = 1 ∧ Accounted s := by
  have h : Reachable (· = State.initial (Fin 2)) CalmRun (State.initial (Fin 2)) := .init rfl
  have h := h.step ⟨0, .attach rfl rfl⟩
  have h := h.step ⟨0, .initializeAgent rfl rfl⟩
  have h := h.step ⟨0, .runLock rfl rfl rfl⟩
  have h := h.step ⟨0, .runClaim rfl rfl⟩
  have h := h.step ⟨0, .yield rfl rfl⟩
  have h := h.step ⟨1, .attach rfl rfl⟩
  have h := h.step ⟨1, .initializeAgent rfl rfl⟩
  have h := h.step ⟨1, .runLock rfl rfl rfl⟩
  have h := h.step ⟨1, .runClaim rfl rfl⟩
  have h := h.step ⟨1, @Step.initFalse _ _ 1 _ .concurrentOperation rfl rfl⟩
  have h := h.step ⟨1, .yield rfl rfl⟩
  have h := h.step ⟨0, .attach rfl rfl⟩
  have h := h.step ⟨0, .startOk rfl rfl⟩
  have h := h.step ⟨0, .publishLock (a := 0) rfl rfl rfl⟩
  have h := h.step ⟨0, .publish (a := 0) rfl rfl⟩
  have h := h.step ⟨0, .initTrue rfl rfl⟩
  have h := h.step ⟨0, .yield rfl rfl⟩
  have h := h.step ⟨1, .attach rfl rfl⟩
  have h := h.step ⟨1, .dropAgent rfl rfl⟩
  have h := h.step ⟨1, .stopLock rfl rfl rfl⟩
  have h := h.step ⟨1, .stopClaim rfl rfl⟩
  have h := h.step ⟨1, .detach (a := 0) rfl rfl⟩
  have h := h.step ⟨1, .agentStops (a := 0) rfl⟩
  have h := h.step ⟨1, .reattach rfl rfl⟩
  have h := h.step ⟨1, .idleLock rfl rfl rfl⟩
  have h := h.step ⟨1, .writeIdle rfl rfl⟩
  have h := h.step ⟨1, .dropTrue rfl rfl⟩
  exact ⟨_, h, fun | 0 => rfl | 1 => rfl, rfl, rfl, lifecycle_accounted h⟩

/-- The one call there is panics while it starts the agent; afterwards `STATE` is `Busy` with
no call in progress, and the next call is refused. -/
theorem start_panic_leaves_busy : ∃ s : State (Fin 1),
    Reachable (· = State.initial (Fin 1)) Run s ∧ (∀ t, s.pcs t = .outside) ∧ s.state = .busy ∧
      (claimForRun s.state).1 = .error .concurrentOperation ∧ ¬Accounted s := by
  have h : Reachable (· = State.initial (Fin 1)) Run (State.initial (Fin 1)) := .init rfl
  have h := h.step ⟨0, .inl (.attach rfl rfl)⟩
  have h := h.step ⟨0, .inl (.initializeAgent rfl rfl)⟩
  have h := h.step ⟨0, .inl (.runLock rfl rfl rfl)⟩
  have h := h.step ⟨0, .inl (.runClaim rfl rfl)⟩
  have h := h.step ⟨0, .inr (.start rfl rfl)⟩
  refine ⟨_, h, fun | 0 => rfl, rfl, rfl, fun haccounted => ?_⟩
  rcases haccounted.quiet fun | 0 => rfl with ⟨hidle, -⟩ | ⟨⟨a, hrunning⟩, -⟩
  · cases hidle
  · cases hrunning

end Pyroscope.Agent.Lifecycle
