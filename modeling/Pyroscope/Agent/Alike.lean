import Pyroscope.Agent.Configure
import Pyroscope.Agent.Interning
import Pyroscope.Encode.Reuse
import Pyroscope.Signal.Leftovers

/-!
# Two processes under the same events (memory.rs, stack/mod.rs, signal_backend.rs)

Two processes that are started, stopped and sampled in the same way agree on who runs. Whether
they also agree on what was captured depends on where they started from.
-/

namespace Pyroscope.Agent.Isolation
open Pyroscope.Lib Pyroscope.Encode Pyroscope.Backend Pyroscope.Agent.Configure

/-! ### Builders -/

section Builder
variable {K : Type} [FfiProfileKind K]

/-- A builder in order, whose lock was poisoned together with that of the string table. -/
structure KeptBuilder (i : Interner) (b : LockedBuilder K) : Prop where
  buffered : ∃ t w, Buffered b t w
  poisoned : b.poisoned = true → i.poisoned = true

/-- The same samples; the types, the period and the times may be those of an earlier window. -/
structure SameBuilder (b b' : LockedBuilder K) : Prop where
  poisoned : b'.poisoned = b.poisoned
  builder : ∃ h, b'.builder = b.builder.withHeader h

theorem KeptBuilder.clearSamples {i : Interner} {b : LockedBuilder K} (h : KeptBuilder i b) :
    KeptBuilder i b.clearSamples := by
  obtain ⟨t, w, hb⟩ := h.buffered
  exact ⟨⟨_, _, clearSamples_buffered hb⟩, h.poisoned⟩

theorem KeptBuilder.mono {i i' : Interner} {b : LockedBuilder K} (h : KeptBuilder i b)
    (hi : i.poisoned = true → i'.poisoned = true) : KeptBuilder i' b := ⟨h.buffered, fun hp => hi (h.poisoned hp)⟩

theorem KeptBuilder.push {i : Interner} {b b' : LockedBuilder K} (h : KeptBuilder i b)
    {frames : List PushedFrame} {values : FFISampleValues} (hpush : b.pushSample frames values = .ok b') :
    KeptBuilder i b' := by
  obtain ⟨t, w, hb⟩ := h.buffered
  refine ⟨(pushSample_spec hb hpush).1, fun hp => h.poisoned ?_⟩
  unfold LockedBuilder.pushSample at hpush
  split at hpush
  · assumption
  · split at hpush
    · cases hpush
      exact hp
    · cases hpush

theorem KeptBuilder.dump {i i' : Interner} {b b' : LockedBuilder K} {strings : List String}
    (h : KeptBuilder i b) (ht : i.table.Repr strings) {config : ProfileKind.PeriodConfig K}
    {ordSamples : IterOrder (List ℕ × Values K)} {ordStrings : IterOrder (String × StringID)}
    {timeRange : TimeRange} {p : Option Profile}
    (hd : b.dump config ordSamples ordStrings timeRange i = (p, b', i')) :
    (∃ strings', i'.table.Repr strings') ∧ (i.poisoned = true → i'.poisoned = true) ∧ KeptBuilder i' b' := by
  obtain ⟨t, w, hb⟩ := h.buffered
  obtain ⟨hused, -⟩ := dump_spec hb ht hd
  obtain ⟨strings', hrepr, -⟩ := hused.table
  have hmono : i.poisoned = true → i'.poisoned = true := fun hp =>
    Bool.eq_true_of_not_eq_false fun hn => Bool.false_ne_true ((hused.poisoned hn).symm.trans hp)
  refine ⟨⟨strings', hrepr⟩, hmono, hused.buffered, fun hp => ?_⟩
  have hset : ((b.setProfileType i config).1.poisoned = true → (b.setProfileType i config).2.poisoned = true) := by
    unfold LockedBuilder.setProfileType
    split
    · exact h.poisoned
    · split
      · exact h.poisoned
      · exact fun _ => rfl
  rw [LockedBuilder.dump] at hd
  generalize b.setProfileType i config = r at hd hset
  obtain ⟨b₁, i₁⟩ := r
  simp only [LockedBuilder.takeProfile] at hd hset
  split at hd
  · cases hd
    exact hset hp
  · split at hd
    · cases hd
      exact hset hp
    · cases hd
      rfl

theorem SameBuilder.clearSamples {b b' : LockedBuilder K} (h : SameBuilder b b') :
    SameBuilder b.clearSamples b'.clearSamples := by
  obtain ⟨header, he⟩ := h.builder
  refine ⟨h.poisoned, { header with timeNanos := 0, durationNanos := 0 }, ?_⟩
  simp only [LockedBuilder.clearSamples, he]
  rfl

theorem SameBuilder.push {b b' : LockedBuilder K} (h : SameBuilder b b') (frames : List PushedFrame)
    (values : FFISampleValues) :
    (∃ c c', b.pushSample frames values = .ok c ∧ b'.pushSample frames values = .ok c' ∧ SameBuilder c c') ∨
      ∃ p, b.pushSample frames values = .error p ∧ b'.pushSample frames values = .error p := by
  obtain ⟨header, he⟩ := h.builder
  by_cases hp : b.poisoned = true
  · have hp' := h.poisoned.trans hp
    exact .inl ⟨b, b', by rw [LockedBuilder.pushSample, if_pos hp], by rw [LockedBuilder.pushSample, if_pos hp'], h⟩
  · have hp' : ¬b'.poisoned = true := h.poisoned ▸ hp
    simp only [LockedBuilder.pushSample, if_neg hp, if_neg hp', he, addFfiSample_header]
    cases b.builder.addFfiSample (frames.map PushedFrame.frame) values with
    | ok builder => exact .inl ⟨_, _, rfl, rfl, h.poisoned, header, rfl⟩
    | error p => exact .inr ⟨p, rfl, rfl⟩

/- A dump writes the header; the two orders only permute the samples. -/
theorem SameBuilder.dump {i : Interner} {b b' : LockedBuilder K} {strings : List String} (h : SameBuilder b b')
    (hk : KeptBuilder i b) (ht : i.table.Repr strings) (config : ProfileKind.PeriodConfig K)
    (ordSamples ordSamples' : IterOrder (List ℕ × Values K))
    (ordStrings ordStrings' : IterOrder (String × StringID)) (timeRange : TimeRange) :
    ∃ p p' c c' i', b.dump config ordSamples ordStrings timeRange i = (p, c, i') ∧
      b'.dump config ordSamples' ordStrings' timeRange i = (p', c', i') ∧
      Option.Rel Profile.Reordered p p' ∧ SameBuilder c c' := by
  obtain ⟨header, he⟩ := h.builder
  obtain ⟨t, w, hb⟩ := hk.buffered
  by_cases hp : (i.poisoned || b.poisoned) = true
  · have hp' : (i.poisoned || b'.poisoned) = true := h.poisoned ▸ hp
    refine ⟨none, none, b, b', i, ?_, ?_, .none, h⟩
    · simp only [LockedBuilder.dump, LockedBuilder.setProfileType, LockedBuilder.takeProfile, if_pos hp]
    · simp only [LockedBuilder.dump, LockedBuilder.setProfileType, LockedBuilder.takeProfile, if_pos hp']
  · have hp' : ¬(i.poisoned || b'.poisoned) = true := h.poisoned ▸ hp
    have hset := setProfileType_header b.builder header i.table config
    rw [← he] at hset
    cases hr : b.builder.setProfileType i.table config with
    | error e =>
      rw [hr] at hset
      refine ⟨none, none, { b with poisoned := true }, { b' with poisoned := true },
        { i with poisoned := true }, ?_, ?_, .none, rfl, header, he⟩
      · simp only [LockedBuilder.dump, LockedBuilder.setProfileType, if_neg hp, hr]
        rfl
      · simp only [LockedBuilder.dump, LockedBuilder.setProfileType, if_neg hp', hset]
        rfl
    | ok r =>
      rw [hr] at hset
      obtain ⟨-, -, hrepr, -⟩ := (setProfileType_accumulated hb.accumulated ht config).inv hr
      obtain ⟨out, out', c, htake, htake', hrel⟩ := takeProfileAndReset_reordered r.1 header hrepr
        ordSamples ordSamples' ordStrings ordStrings' timeRange
      refine ⟨out, out', { b with builder := c, pushed := [] }, { b' with builder := c, pushed := [] },
        { i with table := r.2 }, ?_, ?_, hrel, h.poisoned, c.profile.header, rfl⟩
      · simp only [LockedBuilder.dump, LockedBuilder.setProfileType, LockedBuilder.takeProfile, if_neg hp, hr, htake]
      · simp only [LockedBuilder.dump, LockedBuilder.setProfileType, LockedBuilder.takeProfile, if_neg hp', hset,
          Except.map, htake']

end Builder

/-! ### The profilers -/

/-- The table and the builders are in order, and a profiler that is off holds no index. -/
structure Kept (p : Agent.State) : Prop where
  table : ∃ strings, p.interner.table.Repr strings
  memory : KeptBuilder p.interner p.memory
  wall : KeptBuilder p.interner p.wall
  oncpu : KeptBuilder p.interner p.oncpu
  memoryHeld : p.memoryRunning = false → p.memoryHeld = []
  stackHeld : p.stackRunning = false → p.stackHeld = []

structure SameCaptured (p p' : Agent.State) : Prop where
  interner : p'.interner = p.interner
  memory : SameBuilder p.memory p'.memory
  wall : SameBuilder p.wall p'.wall
  oncpu : SameBuilder p.oncpu p'.oncpu
  memoryHeld : p'.memoryHeld = p.memoryHeld
  stackHeld : p'.stackHeld = p.stackHeld

theorem initial_kept : Kept .initial :=
  ⟨⟨_, StringTable.new_repr⟩, ⟨⟨_, _, fresh_buffered⟩, nofun⟩, ⟨⟨_, _, fresh_buffered⟩, nofun⟩,
    ⟨⟨_, _, fresh_buffered⟩, nofun⟩, fun _ => rfl, fun _ => rfl⟩

theorem Kept.memoryStop {p : Agent.State} (h : Kept p) : Kept p.memoryStop :=
  ⟨h.table, h.memory.clearSamples, h.wall, h.oncpu, fun _ => rfl, h.stackHeld⟩

theorem Kept.samplerStop {p : Agent.State} (h : Kept p) : Kept p.samplerStop :=
  ⟨h.table, h.memory, h.wall, h.oncpu, h.memoryHeld, fun _ => rfl⟩

theorem Kept.stackClear {p : Agent.State} (h : Kept p) :
    Kept { p with wall := p.wall.clearSamples, oncpu := p.oncpu.clearSamples } :=
  ⟨h.table, h.memory, h.wall.clearSamples, h.oncpu.clearSamples, h.memoryHeld, h.stackHeld⟩

theorem Kept.internerClear {p : Agent.State} (h : Kept p) : Kept p.internerClear :=
  ⟨⟨_, StringTable.new_repr⟩, h.memory.mono id, h.wall.mono id, h.oncpu.mono id, h.memoryHeld, h.stackHeld⟩

theorem SameCaptured.memoryStop {p p' : Agent.State} (h : SameCaptured p p') :
    SameCaptured p.memoryStop p'.memoryStop :=
  ⟨h.interner, h.memory.clearSamples, h.wall, h.oncpu, rfl, h.stackHeld⟩

theorem SameCaptured.samplerStop {p p' : Agent.State} (h : SameCaptured p p') :
    SameCaptured p.samplerStop p'.samplerStop :=
  ⟨h.interner, h.memory, h.wall, h.oncpu, h.memoryHeld, rfl⟩

theorem SameCaptured.stackClear {p p' : Agent.State} (h : SameCaptured p p') :
    SameCaptured { p with wall := p.wall.clearSamples, oncpu := p.oncpu.clearSamples }
      { p' with wall := p'.wall.clearSamples, oncpu := p'.oncpu.clearSamples } :=
  ⟨h.interner, h.memory, h.wall.clearSamples, h.oncpu.clearSamples, h.memoryHeld, h.stackHeld⟩

theorem SameCaptured.internerClear {p p' : Agent.State} (h : SameCaptured p p') :
    SameCaptured p.internerClear p'.internerClear := by
  have hclear : p'.interner.clear = p.interner.clear := congrArg Interner.clear h.interner
  exact ⟨hclear, h.memory, h.wall, h.oncpu, h.memoryHeld, h.stackHeld⟩

/-- The string table's lock is poisoned; nothing comes out of a builder from then on. -/
def Poisoned (s : Process) : Prop := s.profilers.interner.poisoned = true

/-! ### The comparison -/

inductive Received where
  | dump (profile : Option Profile.Contents)
  | report (report : StackBuffer)

def received : Upload → Received
  | .dump profile => .dump (profile.map Profile.contents)
  | .report report => .report report

/-- How two runs are compared. If `tracked`, what they capture and upload after `before` and
`before'` is compared as well; `left` and `right` say which of them started with a poisoned
string table. -/
structure Comparison where
  tracked : Prop
  left : Prop
  right : Prop
  before : List Upload
  before' : List Upload

/-- The consumer gets the same, unless a poisoned table keeps the dump from one of them. -/
def SameUpload (c : Comparison) (u u' : Upload) : Prop :=
  received u = received u' ∨ (c.left ∧ u = .dump none) ∨ (c.right ∧ u' = .dump none)

def hasSignal (s : Process) : Prop := s.signal.samplerThread.isSome = true ∨ s.agent.any Config.hasSignal = true

def hasBackend (s : Process) : Prop :=
  hasSignal s ∨ s.pyspyThread = true ∨ s.agent.any Config.hasPySpy = true

structure Control (s s' : Process) : Prop where
  state : s'.state = s.state
  nextAgent : s'.nextAgent = s.nextAgent
  agent : s'.agent = s.agent
  memoryRunning : s'.profilers.memoryRunning = s.profilers.memoryRunning
  stackRunning : s'.profilers.stackRunning = s.profilers.stackRunning
  started : s'.started = s.started
  stoppedOnce : s'.stoppedOnce = s.stoppedOnce
  stackThreadsInstalled : s'.stackThreadsInstalled = s.stackThreadsInstalled
  signal : ∃ records metrics, s'.signal = { s.signal with records, metrics }
  pyspyThread : s'.pyspyThread = s.pyspyThread
  backendConfig : s'.backendConfig = s.backendConfig

theorem Control.refl (s : Process) : Control s s := ⟨rfl, rfl, rfl, rfl, rfl, rfl, rfl, rfl, ⟨_, _, rfl⟩, rfl, rfl⟩

theorem Control.symm {s s' : Process} (h : Control s s') : Control s' s := by
  obtain ⟨records, metrics, hsignal⟩ := h.signal
  refine ⟨h.state.symm, h.nextAgent.symm, h.agent.symm, h.memoryRunning.symm, h.stackRunning.symm,
    h.started.symm, h.stoppedOnce.symm, h.stackThreadsInstalled.symm, ⟨s.signal.records, s.signal.metrics, ?_⟩,
    h.pyspyThread.symm, h.backendConfig.symm⟩
  rw [hsignal]

theorem Control.trans {s s' s'' : Process} (h : Control s s') (h' : Control s' s'') : Control s s'' := by
  obtain ⟨records, metrics, hsignal⟩ := h.signal
  obtain ⟨records', metrics', hsignal'⟩ := h'.signal
  refine ⟨h'.state.trans h.state, h'.nextAgent.trans h.nextAgent, h'.agent.trans h.agent,
    h'.memoryRunning.trans h.memoryRunning, h'.stackRunning.trans h.stackRunning, h'.started.trans h.started,
    h'.stoppedOnce.trans h.stoppedOnce, h'.stackThreadsInstalled.trans h.stackThreadsInstalled,
    ⟨records', metrics', ?_⟩, h'.pyspyThread.trans h.pyspyThread, h'.backendConfig.trans h.backendConfig⟩
  rw [hsignal', hsignal]

/-- The same is at hand of what was captured, as far as somebody may still upload it. -/
structure Captured (c : Comparison) (s s' : Process) : Prop where
  profilers : (c.left ∧ Poisoned s) ∨ (c.right ∧ Poisoned s') ∨ SameCaptured s.profilers s'.profilers
  buffer : hasBackend s → s'.buffer = s.buffer
  signal : hasSignal s → s'.signal.records = s.signal.records ∧ s'.signal.metrics = s.signal.metrics
  uploads : ∃ us us', s.uploads = c.before ++ us ∧ s'.uploads = c.before' ++ us' ∧
    List.Forall₂ (SameUpload c) us us'

structure Alike (c : Comparison) (s s' : Process) : Prop where
  control : Control s s'
  kept : Kept s.profilers
  kept' : Kept s'.profilers
  rested : s.state = .idle → s.pyspyThread = false
  captured : c.tracked → Captured c s s'

/-! ### Acts -/

/-- Whether an act captures or uploads; the others start and stop. -/
def captures : Act → Bool
  | .registerThread _ _ _ | .unregisterThread _ | .samplerThreadEnds _ => false
  | _ => true

/-- The same but for the iteration orders of a dump. -/
inductive SameAct : Act → Act → Prop where
  | same (a : Act) : SameAct a a
  | dumpMemory {config o o' p p' timeRange} :
    SameAct (.dumpMemory config o p timeRange) (.dumpMemory config o' p' timeRange)
  | dumpWall {config o o' p p' timeRange} :
    SameAct (.dumpWall config o p timeRange) (.dumpWall config o' p' timeRange)
  | dumpOncpu {config o o' p p' timeRange} :
    SameAct (.dumpOncpu config o p timeRange) (.dumpOncpu config o' p' timeRange)

theorem Control.enables {s s' : Process} (h : Control s s') {a a' : Act} (ha : SameAct a a') :
    s'.enables a' = s.enables a := by
  obtain ⟨records, metrics, hsignal⟩ := h.signal
  cases ha with
  | same a =>
    cases a <;> simp only [Process.enables, h.agent, h.memoryRunning, h.stackRunning, h.pyspyThread, hsignal]
  | dumpMemory => simp only [Process.enables, h.agent]
  | dumpWall => simp only [Process.enables, h.agent]
  | dumpOncpu => simp only [Process.enables, h.agent]

/- To capture is not to start or stop anything. -/
theorem perform_control (s : Process) {a : Act} (h : captures a = true) : Control s (s.perform a) := by
  have hprofilers : ∀ p : Agent.State, p.memoryRunning = s.profilers.memoryRunning →
      p.stackRunning = s.profilers.stackRunning → Control s { s with profilers := p } := fun p hm hs =>
    ⟨rfl, rfl, rfl, hm, hs, rfl, rfl, rfl, ⟨_, _, rfl⟩, rfl, rfl⟩
  have hframe := s.perform_frame a
  cases a with
  | registerThread w id tid => cases h
  | unregisterThread id => cases h
  | samplerThreadEnds w => cases h
  | internMemory decode view =>
    have hc := hprofilers (s.internMemory decode view).profilers hframe.memoryRunning hframe.stackRunning
    rwa [← Process.internMemory_eq] at hc
  | internStack decode view =>
    have hc := hprofilers (s.internStack decode view).profilers hframe.memoryRunning hframe.stackRunning
    rwa [← Process.internStack_eq] at hc
  | pushMemory frames values =>
    have hc := hprofilers (s.pushMemory frames values).profilers hframe.memoryRunning hframe.stackRunning
    rwa [← Process.pushMemory_eq] at hc
  | pushWall frames values =>
    have hc := hprofilers (s.pushWall frames values).profilers hframe.memoryRunning hframe.stackRunning
    rwa [← Process.pushWall_eq] at hc
  | pushOncpu frames values =>
    have hc := hprofilers (s.pushOncpu frames values).profilers hframe.memoryRunning hframe.stackRunning
    rwa [← Process.pushOncpu_eq] at hc
  | drain pid resolve =>
    obtain ⟨records, metrics, buffer, hdrain⟩ := Process.drain_eq pid resolve s
    show Control s (s.drain pid resolve)
    rw [hdrain]
    exact ⟨rfl, rfl, rfl, rfl, rfl, rfl, rfl, rfl, ⟨_, _, rfl⟩, rfl, rfl⟩
  | _ => exact ⟨rfl, rfl, rfl, rfl, rfl, rfl, rfl, rfl, ⟨_, _, rfl⟩, rfl, rfl⟩

/- What starts and stops reads nothing that was captured. -/
theorem Control.perform {s s' : Process} (h : Control s s') {a : Act} (ha : captures a = false) :
    Control (s.perform a) (s'.perform a) := by
  obtain ⟨records, metrics, hsignal⟩ := h.signal
  have hput : ∀ x x' : Signal.Calls.Statics, (∃ records metrics, x' = { x with records, metrics }) →
      Control { s with signal := x } { s' with signal := x' } := fun x x' hx =>
    ⟨h.state, h.nextAgent, h.agent, h.memoryRunning, h.stackRunning, h.started, h.stoppedOnce,
      h.stackThreadsInstalled, hx, h.pyspyThread, h.backendConfig⟩
  cases a with
  | registerThread w id tid =>
    refine hput _ _ ⟨records, metrics, ?_⟩
    rw [hsignal, Signal.Calls.registerThread_left]
  | unregisterThread id =>
    refine hput _ _ ⟨records, metrics, ?_⟩
    rw [hsignal, Signal.Calls.unregisterThread_left]
  | samplerThreadEnds w =>
    refine hput _ _ ⟨records, metrics, ?_⟩
    rw [hsignal, Signal.Calls.samplerThreadEnds_left]
  | _ => cases ha

/-! ### What acts do to the profilers -/

/- What the table returns for a string is the same, and so is the table afterwards. -/
theorem intern_kept {decode : List UInt8 → String} {i i' : Interner} {view : FFIStringView} {id : StringID}
    (ht : ∃ strings, i.table.Repr strings) (h : i.intern decode view = .ok (id, i')) :
    (∃ strings, i'.table.Repr strings) ∧ i'.poisoned = i.poisoned := by
  obtain ⟨strings, hrepr⟩ := ht
  obtain ⟨strings', hrepr', -, hpoison, -⟩ := intern_spec hrepr h
  exact ⟨⟨strings', hrepr'⟩, hpoison⟩

theorem internMemory_kept {s : Process} (hk : Kept s.profilers) (hr : s.profilers.memoryRunning = true)
    (decode : List UInt8 → String) (view : FFIStringView) :
    Kept (s.internMemory decode view).profilers ∧ (Poisoned s → Poisoned (s.internMemory decode view)) := by
  unfold Process.internMemory
  split
  · next id i hi =>
    obtain ⟨htable, hpoison⟩ := intern_kept hk.table hi
    have hmono : s.profilers.interner.poisoned = true → i.poisoned = true := hpoison.trans
    refine ⟨⟨htable, hk.memory.mono hmono, hk.wall.mono hmono, hk.oncpu.mono hmono, fun hoff => ?_, hk.stackHeld⟩,
      hmono⟩
    exact (Bool.false_ne_true (hoff.symm.trans hr)).elim
  · exact ⟨hk, id⟩

theorem internStack_kept {s : Process} (hk : Kept s.profilers) (hr : s.profilers.stackRunning = true)
    (decode : List UInt8 → String) (view : FFIStringView) :
    Kept (s.internStack decode view).profilers ∧ (Poisoned s → Poisoned (s.internStack decode view)) := by
  unfold Process.internStack
  split
  · next id i hi =>
    obtain ⟨htable, hpoison⟩ := intern_kept hk.table hi
    have hmono : s.profilers.interner.poisoned = true → i.poisoned = true := hpoison.trans
    refine ⟨⟨htable, hk.memory.mono hmono, hk.wall.mono hmono, hk.oncpu.mono hmono, hk.memoryHeld, fun hoff => ?_⟩,
      hmono⟩
    exact (Bool.false_ne_true (hoff.symm.trans hr)).elim
  · exact ⟨hk, id⟩

theorem pushMemory_kept {s : Process} (hk : Kept s.profilers) (frames : List HeldFrame)
    (values : FFISampleValues) :
    Kept (s.pushMemory frames values).profilers ∧ (Poisoned s → Poisoned (s.pushMemory frames values)) := by
  unfold Process.pushMemory
  split
  · next b hb => exact ⟨⟨hk.table, hk.memory.push hb, hk.wall, hk.oncpu, hk.memoryHeld, hk.stackHeld⟩, id⟩
  · exact ⟨hk, id⟩

theorem pushWall_kept {s : Process} (hk : Kept s.profilers) (frames : List HeldFrame)
    (values : FFISampleValues) :
    Kept (s.pushWall frames values).profilers ∧ (Poisoned s → Poisoned (s.pushWall frames values)) := by
  unfold Process.pushWall
  split
  · next b hb => exact ⟨⟨hk.table, hk.memory, hk.wall.push hb, hk.oncpu, hk.memoryHeld, hk.stackHeld⟩, id⟩
  · exact ⟨hk, id⟩

theorem pushOncpu_kept {s : Process} (hk : Kept s.profilers) (frames : List HeldFrame)
    (values : FFISampleValues) :
    Kept (s.pushOncpu frames values).profilers ∧ (Poisoned s → Poisoned (s.pushOncpu frames values)) := by
  unfold Process.pushOncpu
  split
  · next b hb => exact ⟨⟨hk.table, hk.memory, hk.wall, hk.oncpu.push hb, hk.memoryHeld, hk.stackHeld⟩, id⟩
  · exact ⟨hk, id⟩

theorem dumpMemory_kept {s : Process} (hk : Kept s.profilers) (config : UInt64)
    (ordSamples : IterOrder (List ℕ × Values MemoryProfile)) (ordStrings : IterOrder (String × StringID))
    (timeRange : TimeRange) :
    Kept (s.dumpMemory config ordSamples ordStrings timeRange).profilers ∧
      (Poisoned s → Poisoned (s.dumpMemory config ordSamples ordStrings timeRange)) := by
  obtain ⟨strings, hrepr⟩ := hk.table
  rcases hd : s.profilers.memory.dump config ordSamples ordStrings timeRange s.profilers.interner with ⟨p, b, i⟩
  obtain ⟨htable, hmono, hmemory⟩ := hk.memory.dump hrepr hd
  rw [Process.dumpMemory, hd]
  exact ⟨⟨htable, hmemory, hk.wall.mono hmono, hk.oncpu.mono hmono, hk.memoryHeld, hk.stackHeld⟩, hmono⟩

theorem dumpWall_kept {s : Process} (hk : Kept s.profilers) (config : Int64)
    (ordSamples : IterOrder (List ℕ × Values CpuWallProfile)) (ordStrings : IterOrder (String × StringID))
    (timeRange : TimeRange) :
    Kept (s.dumpWall config ordSamples ordStrings timeRange).profilers ∧
      (Poisoned s → Poisoned (s.dumpWall config ordSamples ordStrings timeRange)) := by
  obtain ⟨strings, hrepr⟩ := hk.table
  rcases hd : s.profilers.wall.dump config ordSamples ordStrings timeRange s.profilers.interner with ⟨p, b, i⟩
  obtain ⟨htable, hmono, hwall⟩ := hk.wall.dump hrepr hd
  rw [Process.dumpWall, hd]
  exact ⟨⟨htable, hk.memory.mono hmono, hwall, hk.oncpu.mono hmono, hk.memoryHeld, hk.stackHeld⟩, hmono⟩

theorem dumpOncpu_kept {s : Process} (hk : Kept s.profilers) (config : Int64)
    (ordSamples : IterOrder (List ℕ × Values CpuProfile)) (ordStrings : IterOrder (String × StringID))
    (timeRange : TimeRange) :
    Kept (s.dumpOncpu config ordSamples ordStrings timeRange).profilers ∧
      (Poisoned s → Poisoned (s.dumpOncpu config ordSamples ordStrings timeRange)) := by
  obtain ⟨strings, hrepr⟩ := hk.table
  rcases hd : s.profilers.oncpu.dump config ordSamples ordStrings timeRange s.profilers.interner with ⟨p, b, i⟩
  obtain ⟨htable, hmono, honcpu⟩ := hk.oncpu.dump hrepr hd
  rw [Process.dumpOncpu, hd]
  exact ⟨⟨htable, hk.memory.mono hmono, hk.wall.mono hmono, honcpu, hk.memoryHeld, hk.stackHeld⟩, hmono⟩

/- An act keeps the profilers in order and does not heal the lock. -/
theorem perform_kept {s : Process} {a : Act} (hk : Kept s.profilers) (he : s.enables a = true) :
    Kept (s.perform a).profilers ∧ (Poisoned s → Poisoned (s.perform a)) := by
  cases a with
  | internMemory decode view => exact internMemory_kept hk he decode view
  | internStack decode view => exact internStack_kept hk he decode view
  | pushMemory frames values => exact pushMemory_kept hk frames values
  | pushWall frames values => exact pushWall_kept hk frames values
  | pushOncpu frames values => exact pushOncpu_kept hk frames values
  | dumpMemory config ordSamples ordStrings timeRange => exact dumpMemory_kept hk _ _ _ _
  | dumpWall config ordSamples ordStrings timeRange => exact dumpWall_kept hk _ _ _ _
  | dumpOncpu config ordSamples ordStrings timeRange => exact dumpOncpu_kept hk _ _ _ _
  | drain pid resolve =>
    obtain ⟨records, metrics, buffer, hdrain⟩ := Process.drain_eq pid resolve s
    show Kept (s.drain pid resolve).profilers ∧ (Poisoned s → Poisoned (s.drain pid resolve))
    rw [hdrain]
    exact ⟨hk, id⟩
  | _ => exact ⟨hk, id⟩

/-! ### What acts capture -/

section Same
variable {s s' : Process} (h : SameCaptured s.profilers s'.profilers)
include h

theorem internMemory_same (decode : List UInt8 → String) (view : FFIStringView) :
    SameCaptured (s.internMemory decode view).profilers (s'.internMemory decode view).profilers := by
  simp only [Process.internMemory, h.interner]
  cases s.profilers.interner.intern decode view with
  | error p => exact h
  | ok r => exact ⟨rfl, h.memory, h.wall, h.oncpu, by rw [h.memoryHeld], h.stackHeld⟩

theorem internStack_same (decode : List UInt8 → String) (view : FFIStringView) :
    SameCaptured (s.internStack decode view).profilers (s'.internStack decode view).profilers := by
  simp only [Process.internStack, h.interner]
  cases s.profilers.interner.intern decode view with
  | error p => exact h
  | ok r => exact ⟨rfl, h.memory, h.wall, h.oncpu, h.memoryHeld, by rw [h.stackHeld]⟩

theorem pushMemory_same (frames : List HeldFrame) (values : FFISampleValues) :
    SameCaptured (s.pushMemory frames values).profilers (s'.pushMemory frames values).profilers := by
  simp only [Process.pushMemory, h.memoryHeld]
  rcases h.memory.push (frames.filterMap (heldFrame s.profilers.memoryHeld)) values with
    ⟨b, b', hb, hb', hsame⟩ | ⟨p, hb, hb'⟩ <;> simp only [hb, hb']
  · exact ⟨h.interner, hsame, h.wall, h.oncpu, rfl, h.stackHeld⟩
  · exact h

theorem pushWall_same (frames : List HeldFrame) (values : FFISampleValues) :
    SameCaptured (s.pushWall frames values).profilers (s'.pushWall frames values).profilers := by
  simp only [Process.pushWall, h.stackHeld]
  rcases h.wall.push (frames.filterMap (heldFrame s.profilers.stackHeld)) values with
    ⟨b, b', hb, hb', hsame⟩ | ⟨p, hb, hb'⟩ <;> simp only [hb, hb']
  · exact ⟨h.interner, h.memory, hsame, h.oncpu, h.memoryHeld, rfl⟩
  · exact h

theorem pushOncpu_same (frames : List HeldFrame) (values : FFISampleValues) :
    SameCaptured (s.pushOncpu frames values).profilers (s'.pushOncpu frames values).profilers := by
  simp only [Process.pushOncpu, h.stackHeld]
  rcases h.oncpu.push (frames.filterMap (heldFrame s.profilers.stackHeld)) values with
    ⟨b, b', hb, hb', hsame⟩ | ⟨p, hb, hb'⟩ <;> simp only [hb, hb']
  · exact ⟨h.interner, h.memory, h.wall, hsame, h.memoryHeld, rfl⟩
  · exact h

end Same

section Captured
variable {c : Comparison} {s s' : Process}

theorem Captured.signal_eq (h : Captured c s s') (hc : Control s s') (hs : hasSignal s) :
    s'.signal = s.signal := by
  obtain ⟨records, metrics, hsignal⟩ := hc.signal
  obtain ⟨hrecords, hmetrics⟩ := h.signal hs
  rw [hsignal] at hrecords hmetrics ⊢
  rw [show records = s.signal.records from hrecords, show metrics = s.signal.metrics from hmetrics]

/- A step that nobody tells apart, in what it does to the profilers. -/
theorem Captured.profilers_step (h : Captured c s s') {t t' : Process} (hp : Poisoned s → Poisoned t)
    (hp' : Poisoned s' → Poisoned t')
    (hsame : SameCaptured s.profilers s'.profilers → SameCaptured t.profilers t'.profilers) :
    (c.left ∧ Poisoned t) ∨ (c.right ∧ Poisoned t') ∨ SameCaptured t.profilers t'.profilers := by
  rcases h.profilers with ⟨hl, hs⟩ | ⟨hr, hs⟩ | hs
  · exact .inl ⟨hl, hp hs⟩
  · exact .inr (.inl ⟨hr, hp' hs⟩)
  · exact .inr (.inr (hsame hs))

/- Only the profilers change. -/
theorem Captured.putProfilers (h : Captured c s s') {p p' : Agent.State} (hp : Poisoned s → p.interner.poisoned = true)
    (hp' : Poisoned s' → p'.interner.poisoned = true)
    (hsame : SameCaptured s.profilers s'.profilers → SameCaptured p p') :
    Captured c { s with profilers := p } { s' with profilers := p' } :=
  ⟨h.profilers_step hp hp' hsame, h.buffer, h.signal, h.uploads⟩

theorem uploads_append {before before' : List Upload} {c : Comparison} {uploads uploads' : List Upload}
    (h : ∃ us us', uploads = before ++ us ∧ uploads' = before' ++ us' ∧ List.Forall₂ (SameUpload c) us us')
    {u u' : Upload} (hu : SameUpload c u u') :
    ∃ us us', uploads ++ [u] = before ++ us ∧ uploads' ++ [u'] = before' ++ us' ∧
      List.Forall₂ (SameUpload c) us us' := by
  obtain ⟨us, us', rfl, rfl, hall⟩ := h
  exact ⟨us ++ [u], us' ++ [u'], List.append_assoc .., List.append_assoc .., List.rel_append hall (.cons hu .nil)⟩

/- A dump and its upload. -/
theorem Captured.upload (h : Captured c s s') {p p' : Agent.State} {u u' : Upload}
    (hp : Poisoned s → p.interner.poisoned = true ∧ u = .dump none)
    (hp' : Poisoned s' → p'.interner.poisoned = true ∧ u' = .dump none)
    (hsame : SameCaptured s.profilers s'.profilers → SameCaptured p p' ∧ received u = received u') :
    Captured c ({ s with profilers := p }.upload u) ({ s' with profilers := p' }.upload u') := by
  refine ⟨h.profilers_step (fun hs => (hp hs).1) (fun hs => (hp' hs).1) fun hs => (hsame hs).1, h.buffer, h.signal,
    uploads_append h.uploads ?_⟩
  rcases h.profilers with ⟨hl, hs⟩ | ⟨hr, hs⟩ | hs
  · exact .inr (.inl ⟨hl, (hp hs).2⟩)
  · exact .inr (.inr ⟨hr, (hp' hs).2⟩)
  · exact .inl (hsame hs).2

theorem received_dump {p p' : Option Profile} (h : Option.Rel Profile.Reordered p p') :
    received (.dump p) = received (.dump p') := by
  cases h with
  | some hr => exact congrArg (fun x => Received.dump (some x)) hr.contents
  | none => rfl

/- With the table poisoned a dump does nothing. -/
theorem dump_poisoned {K : Type} [FfiProfileKind K] {b : LockedBuilder K} {i : Interner}
    (hi : i.poisoned = true) (config : ProfileKind.PeriodConfig K) (ordSamples : IterOrder (List ℕ × Values K))
    (ordStrings : IterOrder (String × StringID)) (timeRange : TimeRange) :
    b.dump config ordSamples ordStrings timeRange i = (none, b, i) := by
  have hp : (i.poisoned || b.poisoned) = true := by rw [hi, Bool.true_or]
  simp only [LockedBuilder.dump, LockedBuilder.setProfileType, LockedBuilder.takeProfile, if_pos hp]

theorem Captured.dumpMemory (h : Captured c s s') (hk : Kept s.profilers) (config : UInt64)
    (o o' : IterOrder (List ℕ × Values MemoryProfile)) (p p' : IterOrder (String × StringID)) (timeRange : TimeRange) :
    Captured c (s.dumpMemory config o p timeRange) (s'.dumpMemory config o' p' timeRange) := by
  rcases hd : s.profilers.memory.dump config o p timeRange s.profilers.interner with ⟨q, b, i⟩
  rcases hd' : s'.profilers.memory.dump config o' p' timeRange s'.profilers.interner with ⟨q', b', i'⟩
  rw [Process.dumpMemory, Process.dumpMemory, hd, hd']
  refine h.upload (fun hs => ?_) (fun hs => ?_) fun hs => ?_
  · rw [dump_poisoned hs] at hd
    cases hd
    exact ⟨hs, rfl⟩
  · rw [dump_poisoned hs] at hd'
    cases hd'
    exact ⟨hs, rfl⟩
  · obtain ⟨strings, hrepr⟩ := hk.table
    obtain ⟨r, r', c, c', j, hr, hr', hrel, hb⟩ := hs.memory.dump hk.memory hrepr config o o' p p' timeRange
    rw [hr] at hd
    rw [hs.interner, hr'] at hd'
    cases hd
    cases hd'
    exact ⟨⟨rfl, hb, hs.wall, hs.oncpu, hs.memoryHeld, hs.stackHeld⟩, received_dump hrel⟩

theorem Captured.dumpWall (h : Captured c s s') (hk : Kept s.profilers) (config : Int64)
    (o o' : IterOrder (List ℕ × Values CpuWallProfile)) (p p' : IterOrder (String × StringID))
    (timeRange : TimeRange) :
    Captured c (s.dumpWall config o p timeRange) (s'.dumpWall config o' p' timeRange) := by
  rcases hd : s.profilers.wall.dump config o p timeRange s.profilers.interner with ⟨q, b, i⟩
  rcases hd' : s'.profilers.wall.dump config o' p' timeRange s'.profilers.interner with ⟨q', b', i'⟩
  rw [Process.dumpWall, Process.dumpWall, hd, hd']
  refine h.upload (fun hs => ?_) (fun hs => ?_) fun hs => ?_
  · rw [dump_poisoned hs] at hd
    cases hd
    exact ⟨hs, rfl⟩
  · rw [dump_poisoned hs] at hd'
    cases hd'
    exact ⟨hs, rfl⟩
  · obtain ⟨strings, hrepr⟩ := hk.table
    obtain ⟨r, r', c, c', j, hr, hr', hrel, hb⟩ := hs.wall.dump hk.wall hrepr config o o' p p' timeRange
    rw [hr] at hd
    rw [hs.interner, hr'] at hd'
    cases hd
    cases hd'
    exact ⟨⟨rfl, hs.memory, hb, hs.oncpu, hs.memoryHeld, hs.stackHeld⟩, received_dump hrel⟩

theorem Captured.dumpOncpu (h : Captured c s s') (hk : Kept s.profilers) (config : Int64)
    (o o' : IterOrder (List ℕ × Values CpuProfile)) (p p' : IterOrder (String × StringID))
    (timeRange : TimeRange) :
    Captured c (s.dumpOncpu config o p timeRange) (s'.dumpOncpu config o' p' timeRange) := by
  rcases hd : s.profilers.oncpu.dump config o p timeRange s.profilers.interner with ⟨q, b, i⟩
  rcases hd' : s'.profilers.oncpu.dump config o' p' timeRange s'.profilers.interner with ⟨q', b', i'⟩
  rw [Process.dumpOncpu, Process.dumpOncpu, hd, hd']
  refine h.upload (fun hs => ?_) (fun hs => ?_) fun hs => ?_
  · rw [dump_poisoned hs] at hd
    cases hd
    exact ⟨hs, rfl⟩
  · rw [dump_poisoned hs] at hd'
    cases hd'
    exact ⟨hs, rfl⟩
  · obtain ⟨strings, hrepr⟩ := hk.table
    obtain ⟨r, r', c, c', j, hr, hr', hrel, hb⟩ := hs.oncpu.dump hk.oncpu hrepr config o o' p p' timeRange
    rw [hr] at hd
    rw [hs.interner, hr'] at hd'
    cases hd
    cases hd'
    exact ⟨⟨rfl, hs.memory, hs.wall, hb, hs.memoryHeld, hs.stackHeld⟩, received_dump hrel⟩

/- What the handlers, the sampler thread or the hooks do to the statics of Signal. -/
theorem Captured.putSignal (h : Captured c s s') (hc : Control s s') {x x' : Signal.Calls.Statics}
    (hthread : x.samplerThread = s.signal.samplerThread ∨ x.samplerThread = none)
    (hx : s'.signal = s.signal → x' = x) : Captured c { s with signal := x } { s' with signal := x' } := by
  have hold : hasSignal { s with signal := x } → hasSignal s := by
    rintro (hs | hs)
    · rcases hthread with ht | ht
      · exact .inl (by rw [← ht]; exact hs)
      · exact (Bool.false_ne_true ((congrArg Option.isSome ht).symm.trans hs)).elim
    · exact .inr hs
  refine ⟨h.profilers, fun hs => h.buffer (hs.imp_left hold), fun hs => ?_, h.uploads⟩
  rw [hx (h.signal_eq hc (hold hs))]
  exact ⟨rfl, rfl⟩

/- A report of the same buffer. -/
theorem Captured.report (h : Captured c s s') (r : StackBuffer) :
    Captured c (s.upload (.report r)) (s'.upload (.report r)) :=
  ⟨h.profilers, h.buffer, h.signal, uploads_append h.uploads (.inl rfl)⟩

theorem Captured.putBuffer (h : Captured c s s') {b b' : StackBuffer} (hb : hasBackend s → b' = b) :
    Captured c { s with buffer := b } { s' with buffer := b' } := ⟨h.profilers, hb, h.signal, h.uploads⟩

theorem drain_same {pid : ℕ} {resolve : List Signal.Frame → Option (List Signal.ResolvedFrame)}
    (hsignal : s'.signal = s.signal) (hbuffer : s'.buffer = s.buffer) (hconfig : s'.backendConfig = s.backendConfig) :
    s'.drain pid resolve = { s' with
      signal := (s.drain pid resolve).signal, buffer := (s.drain pid resolve).buffer } := by
  unfold Process.drain
  rw [hsignal]
  cases s.signal.records with
  | nil => simp only [← hsignal, ← hbuffer]
  | cons frames records =>
    cases hr : resolve frames with
    | none => simp only [hr, Process.lost, ← hbuffer]
    | some resolved => simp only [hr, hbuffer, hconfig]

theorem Captured.drain (h : Captured c s s') (hc : Control s s') (hs : hasSignal s) (pid : ℕ)
    (resolve : List Signal.Frame → Option (List Signal.ResolvedFrame)) :
    Captured c (s.drain pid resolve) (s'.drain pid resolve) := by
  have hframe := s.perform_frame (.drain pid resolve)
  rw [drain_same (h.signal_eq hc hs) (h.buffer (.inl hs)) hc.backendConfig]
  obtain ⟨records, metrics, buffer, hdrain⟩ := Process.drain_eq pid resolve s
  rw [hdrain]
  exact ⟨h.profilers, fun _ => rfl, fun _ => ⟨rfl, rfl⟩, h.uploads⟩

end Captured

/-! ### One act in two processes -/

theorem perform_captured {c : Comparison} {s s' : Process} {a a' : Act} (h : Captured c s s') (hc : Control s s')
    (hk : Kept s.profilers) (hk' : Kept s'.profilers) (he : s.enables a = true) (ha : SameAct a a') :
    Captured c (s.perform a) (s'.perform a') := by
  have he' : s'.enables a' = true := (hc.enables ha).trans he
  cases ha with
  | dumpMemory => exact h.dumpMemory hk _ _ _ _ _ _
  | dumpWall => exact h.dumpWall hk _ _ _ _ _ _
  | dumpOncpu => exact h.dumpOncpu hk _ _ _ _ _ _
  | same a =>
    cases a with
    | internMemory decode view =>
      have hput := h.putProfilers (internMemory_kept hk he decode view).2 (internMemory_kept hk' he' decode view).2
        fun hs => internMemory_same hs decode view
      rwa [← Process.internMemory_eq, ← Process.internMemory_eq] at hput
    | internStack decode view =>
      have hput := h.putProfilers (internStack_kept hk he decode view).2 (internStack_kept hk' he' decode view).2
        fun hs => internStack_same hs decode view
      rwa [← Process.internStack_eq, ← Process.internStack_eq] at hput
    | pushMemory frames values =>
      have hput := h.putProfilers (pushMemory_kept hk frames values).2 (pushMemory_kept hk' frames values).2
        fun hs => pushMemory_same hs frames values
      rwa [← Process.pushMemory_eq, ← Process.pushMemory_eq] at hput
    | pushWall frames values =>
      have hput := h.putProfilers (pushWall_kept hk frames values).2 (pushWall_kept hk' frames values).2
        fun hs => pushWall_same hs frames values
      rwa [← Process.pushWall_eq, ← Process.pushWall_eq] at hput
    | pushOncpu frames values =>
      have hput := h.putProfilers (pushOncpu_kept hk frames values).2 (pushOncpu_kept hk' frames values).2
        fun hs => pushOncpu_same hs frames values
      rwa [← Process.pushOncpu_eq, ← Process.pushOncpu_eq] at hput
    | dumpMemory config ordSamples ordStrings timeRange => exact h.dumpMemory hk _ _ _ _ _ _
    | dumpWall config ordSamples ordStrings timeRange => exact h.dumpWall hk _ _ _ _ _ _
    | dumpOncpu config ordSamples ordStrings timeRange => exact h.dumpOncpu hk _ _ _ _ _ _
    | registerThread w id tid =>
      exact h.putSignal hc (.inl (Signal.Calls.registerThread_samplerThread w id tid s.signal)) (congrArg _)
    | unregisterThread id =>
      exact h.putSignal hc (.inl (Signal.Calls.unregisterThread_samplerThread id s.signal)) (congrArg _)
    | samplerThreadEnds w =>
      exact h.putSignal hc (.inr (Signal.Calls.samplerThreadEnds_samplerThread w s.signal)) (congrArg _)
    | tick frames => exact h.putSignal hc (.inl rfl) fun hs => by rw [hs]
    | lost r => exact h.putSignal hc (.inl rfl) fun hs => by rw [hs]
    | drain pid resolve => exact h.drain hc (.inl he) pid resolve
    | sample trace => exact h.putBuffer fun hs => by rw [h.buffer hs]
    | reportPySpy =>
      have hbuffer : s'.buffer = s.buffer := h.buffer (.inr (.inr he))
      show Captured c (s.reportPySpy) (s'.reportPySpy)
      rw [Process.reportPySpy, Process.reportPySpy, hbuffer]
      exact (h.putBuffer fun _ => rfl).report s.buffer
    | reportSignal pid =>
      have hs : hasSignal s := .inr he
      have hsignal := h.signal_eq hc hs
      have hempty : Captured c
          { s with buffer := .default, signal := { s.signal with metrics := Signal.Metrics.zero } }
          { s' with buffer := .default, signal := { s'.signal with metrics := Signal.Metrics.zero } } :=
        ⟨h.profilers, fun _ => rfl, fun _ => ⟨(h.signal hs).1, rfl⟩, h.uploads⟩
      have hreport : Signal.recordDroppedStacks s'.backendConfig pid s'.buffer
            (Signal.Reason.all.map fun r => (r, s'.signal.metrics r)) =
          Signal.recordDroppedStacks s.backendConfig pid s.buffer
            (Signal.Reason.all.map fun r => (r, s.signal.metrics r)) := by
        rw [h.buffer (.inl hs), hc.backendConfig, hsignal]
      have hupload := hempty.report (Signal.recordDroppedStacks s.backendConfig pid s.buffer
        (Signal.Reason.all.map fun r => (r, s.signal.metrics r)))
      show Captured c (s.reportSignal pid) (s'.reportSignal pid)
      simp only [Process.reportSignal, hreport]
      exact hupload

/- What starts and stops does so in both. -/
theorem perform_control_both {s s' : Process} {a a' : Act} (hc : Control s s') (ha : SameAct a a') :
    Control (s.perform a) (s'.perform a') := by
  have hcaptures : captures a' = captures a := by cases ha <;> rfl
  by_cases h : captures a = true
  · have h' := hcaptures.trans h
    exact ((perform_control s h).symm.trans hc).trans (perform_control s' h')
  · cases ha with
    | same a => exact hc.perform (Bool.eq_false_iff.mpr h)
    | _ => exact (h rfl).elim

theorem Alike.act {c : Comparison} {s s' : Process} (h : Alike c s s') {a a' : Act} (ha : SameAct a a') :
    Alike c (s.act a) (s'.act a') := by
  unfold Process.act
  rw [h.control.enables ha]
  by_cases he : s.enables a = true
  · have he' : s'.enables a' = true := (h.control.enables ha).trans he
    have hframe := s.perform_frame a
    rw [if_pos he, if_pos he]
    refine ⟨perform_control_both h.control ha, (perform_kept h.kept he).1, (perform_kept h.kept' he').1,
      fun hi => ?_, fun ht => perform_captured (h.captured ht) h.control h.kept h.kept' he ha⟩
    exact hframe.pyspyThread.trans (h.rested (hframe.state.symm.trans hi))
  · rw [if_neg he, if_neg he]
    exact h

/- An act that captures, in one of the two. -/
theorem Alike.capture {c : Comparison} (hc : ¬c.tracked) {s s' : Process} (h : Alike c s s') {a : Act}
    (ha : captures a = true) : Alike c (s.act a) s' := by
  unfold Process.act
  split
  · next he =>
    have hframe := s.perform_frame a
    refine ⟨(perform_control s ha).symm.trans h.control, (perform_kept h.kept he).1, h.kept', fun hi => ?_,
      fun ht => (hc ht).elim⟩
    exact hframe.pyspyThread.trans (h.rested (hframe.state.symm.trans hi))
  · exact h

theorem Alike.acts {c : Comparison} {s s' : Process} (h : Alike c s s') {as as' : List Act}
    (ha : List.Forall₂ SameAct as as') : Alike c (s.acts as) (s'.acts as') := by
  induction ha generalizing s s' with
  | nil => exact h
  | cons hact _ ih => exact ih (h.act hact)

def redactActs (as : List Act) : List Act := as.filter fun a => !captures a

theorem Alike.redacted {c : Comparison} (hc : ¬c.tracked) {s s' : Process} (h : Alike c s s') (as : List Act) :
    Alike c (s.acts as) (s'.acts (redactActs as)) := by
  induction as generalizing s s' with
  | nil => exact h
  | cons a as ih =>
    by_cases ha : captures a = true
    · have hskip : redactActs (a :: as) = redactActs as := List.filter_cons_of_neg (by rw [ha]; decide)
      rw [hskip]
      exact ih (h.capture hc ha)
    · have hkeep : redactActs (a :: as) = a :: redactActs as :=
        List.filter_cons_of_pos (by rw [Bool.eq_false_iff.mpr ha]; decide)
      rw [hkeep]
      exact ih (h.act (.same a))

end Pyroscope.Agent.Isolation
