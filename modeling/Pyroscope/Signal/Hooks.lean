import Mathlib.Data.Set.Insert
import Pyroscope.Signal.Registry

/-!
# The timers and the thread registry (signal_backend.rs)

`register_thread` and `unregister_thread` lock `LIVE` first and `TIMER` afterwards. They
and `attach` run under the GIL, so only `detach` and the drop of a session can come
between the two. A session belongs to `Signal::new`, then to the sampler thread; who has
it is in `owner`, so `samplerThread` stays empty here.
-/

namespace Pyroscope.Signal.Hooks
open Pyroscope.Lib Pyroscope.Signal.Calls Pyroscope.Signal.Timers

/-! ### The two sections of a hook -/

/-- `lock(&LIVE)` in `register_thread` -/
def registerLive (id tid : ℕ) (x : Statics) : Statics := { x with live := x.live.insert id tid }

/-- `lock(&TIMER)` in `register_thread`; `previous` is what `LIVE` had. -/
def registerTimer (w : Externals) (id tid : ℕ) (previous : Option ℕ) (x : Statics) : Statics :=
  match x.timer with
  | none => x
  | some k =>
    let s := match previous with
      | some previous => if previous ≠ tid then threadRemoved k previous x.timers else x.timers
      | none => x.timers
    { x with timers := (threadCreated w k id tid).ignore s }

/-- `lock(&LIVE)` in `unregister_thread` -/
def unregisterLive (id : ℕ) (x : Statics) : Statics := { x with live := x.live.erase id }

/-- `lock(&TIMER)` in `unregister_thread` -/
def unregisterTimer (tid : ℕ) (x : Statics) : Statics :=
  match x.timer with
  | none => x
  | some k => { x with timers := threadRemoved k tid x.timers }

theorem registerThread_sections (w : Externals) (id tid : ℕ) (x : Statics) :
    Threads.registerThread w id tid x = registerTimer w id tid (x.live.get id) (registerLive id tid x) := by
  unfold Threads.registerThread registerTimer registerLive
  cases x.timer <;> rfl

theorem unregisterThread_sections (id : ℕ) (x : Statics) :
    Threads.unregisterThread id x = match x.live.get id with
      | none => x
      | some tid => unregisterTimer tid (unregisterLive id x) := by
  unfold Threads.unregisterThread unregisterTimer unregisterLive
  cases x.live.get id with
  | none => rfl
  | some tid => cases x.timer <;> rfl

/-! ### The process -/

/-- The Python thread inside a hook, if there is one. -/
inductive Caller where
  | outside
  | registering (id tid : ℕ) (previous : Option ℕ)
  | unregistering (tid : ℕ)

inductive Owner where
  | nobody
  | starter (k : ℕ) (mode : Mode)
  | failed (k : ℕ)
  | sampler (k : ℕ) (mode : Mode)
  | detached (k : ℕ)

structure State where
  statics : Statics
  caller : Caller
  owner : Owner

/-- The kernel makes and sets a timer for this thread. -/
structure Arms (w : Externals) (id tid : ℕ) : Prop where
  create : w.timerCreate id tid = .ok ()
  settime : w.timerSettime id tid = .ok ()

/-- One call, or one section of a hook. Only the caller of `attach` may be refused a timer. -/
inductive Step (p : Platform) : State → State → Prop where
  | start {s} (w config) (gil : s.caller = .outside) {k x}
    (ok : SignalHandlerSession.start p w config s.statics = (.ok k, x)) :
    Step p s { s with statics := x, owner := .starter k config.signalTimer }
  | startFails {s} (w config) (gil : s.caller = .outside) {e x}
    (error : SignalHandlerSession.start p w config s.statics = (.error e, x)) :
    Step p s { s with statics := x }
  | attach {s k} (w) (gil : s.caller = .outside) (h : s.owner = .starter k .cTimer)
    (others : ∀ id tid, tid ≠ w.gettid → Arms w id tid) {x}
    (ok : Threads.attach p w k s.statics = (.ok (), x)) :
    Step p s { s with statics := x, owner := .sampler k .cTimer }
  | attachFails {s k} (w) (gil : s.caller = .outside) (h : s.owner = .starter k .cTimer) {e x}
    (error : Threads.attach p w k s.statics = (.error e, x)) :
    Step p s { s with statics := x, owner := .failed k }
  | spawn {s k} (h : s.owner = .starter k .iTimer) :
    Step p s { s with owner := .sampler k .iTimer }
  | dropFailed {s k} (w) (h : s.owner = .failed k) :
    Step p s { s with statics := dropSession w k s.statics, owner := .nobody }
  | detach {s k} (h : s.owner = .sampler k .cTimer) :
    Step p s { s with statics := Threads.detach s.statics, owner := .detached k }
  | drop {s k} (w) (h : s.owner = .detached k ∨ s.owner = .sampler k .iTimer) :
    Step p s { s with statics := dropSession w k s.statics, owner := .nobody }
  | registerLive {s} (gil : s.caller = .outside) (id tid) :
    Step p s { s with
      statics := registerLive id tid s.statics
      caller := .registering id tid (s.statics.live.get id) }
  | registerTimer {s id tid previous} (w) (h : s.caller = .registering id tid previous)
    (arms : Arms w id tid) :
    Step p s { s with statics := registerTimer w id tid previous s.statics, caller := .outside }
  | unregisterUnknown {s} (gil : s.caller = .outside) (id) (unknown : s.statics.live.get id = none) :
    Step p s s
  | unregisterLive {s tid} (gil : s.caller = .outside) (id) (known : s.statics.live.get id = some tid) :
    Step p s { s with statics := unregisterLive id s.statics, caller := .unregistering tid }
  | unregisterTimer {s tid} (h : s.caller = .unregistering tid) :
    Step p s { s with statics := unregisterTimer tid s.statics, caller := .outside }

/-- No tid is registered under two identifiers. -/
def Once (live : HashMap ℕ ℕ) : Prop :=
  ∀ id id' tid, live.get id = some tid → live.get id' = some tid → id = id'

def Run (p : Platform) (s s' : State) : Prop := Step p s s' ∧ Once s'.statics.live

/-- No session and nobody inside a hook; the registry may have threads already. -/
structure Initial (s : State) : Prop where
  off : Off s.statics
  caller : s.caller = .outside
  owner : s.owner = .nobody
  once : Once s.statics.live

def values (live : HashMap ℕ ℕ) : Set ℕ := {tid | ∃ id, live.get id = some tid}

/-- The tids for which some session holds an armed `CTimer`. -/
def holders (s : Timers.State Unit) : Set ℕ :=
  {tid | ∃ k timer id, s.slots k = some timer ∧ timer.threads.get tid = some id ∧ id ∈ s.armed}

/-! ### What a call does to the timers -/

/-- Every thread of the map has an armed timer of its own. -/
structure Wired (threads : HashMap ℕ ℕ) (armed : List ℕ) (next : ℕ) : Prop where
  armed : ∀ tid id, threads.get tid = some id → id ∈ armed
  below : ∀ tid id, threads.get tid = some id → id < next
  apart : ∀ tid tid' id, threads.get tid = some id → threads.get tid' = some id → tid = tid'

theorem wired_empty (armed : List ℕ) (next : ℕ) : Wired HashMap.empty armed next :=
  ⟨nofun, nofun, nofun⟩

/- A number that was never given out. -/
theorem Wired.insert {threads : HashMap ℕ ℕ} {armed : List ℕ} {next : ℕ} (h : Wired threads armed next)
    (tid : ℕ) : Wired (threads.insert tid next) (next :: armed) (next + 1) := by
  have hget : ∀ t id, (threads.insert tid next).get t = some id →
      (t = tid ∧ id = next) ∨ threads.get t = some id := by
    intro t id ht
    by_cases heq : t = tid
    · subst heq
      rw [HashMap.get_insert] at ht
      exact .inl ⟨rfl, (Option.some.inj ht).symm⟩
    · rw [HashMap.get_insert_ne _ _ heq] at ht
      exact .inr ht
  refine ⟨fun t id ht => ?_, fun t id ht => ?_, fun t t' id ht ht' => ?_⟩
  · rcases hget t id ht with ⟨-, rfl⟩ | hold
    · exact List.mem_cons_self
    · exact List.mem_cons_of_mem _ (h.armed t id hold)
  · rcases hget t id ht with ⟨-, rfl⟩ | hold
    · omega
    · have := h.below t id hold
      omega
  · rcases hget t id ht with ⟨rfl, rfl⟩ | hold
    · rcases hget t' id ht' with ⟨rfl, -⟩ | hold'
      · rfl
      · exact absurd (h.below t' id hold') (Nat.lt_irrefl id)
    · rcases hget t' id ht' with ⟨rfl, rfl⟩ | hold'
      · exact absurd (h.below t id hold) (Nat.lt_irrefl id)
      · exact h.apart t t' id hold hold'

theorem Wired.erase {threads : HashMap ℕ ℕ} {armed : List ℕ} {next tid id : ℕ}
    (h : Wired threads armed next) (hid : threads.get tid = some id) :
    Wired (threads.erase tid) (delete armed id) next := by
  have hget : ∀ t i, (threads.erase tid).get t = some i → t ≠ tid ∧ threads.get t = some i := by
    intro t i ht
    by_cases heq : t = tid
    · subst heq
      rw [HashMap.get_erase] at ht
      cases ht
    · rw [HashMap.get_erase_ne _ heq] at ht
      exact ⟨heq, ht⟩
  refine ⟨fun t i ht => ?_, fun t i ht => ?_, fun t t' i ht ht' => ?_⟩
  · obtain ⟨hne, hold⟩ := hget t i ht
    have hother : i ≠ id := by
      rintro rfl
      exact hne (h.apart t tid i hold hid)
    simp [delete, h.armed t i hold, hother]
  · exact h.below t i (hget t i ht).2
  · exact h.apart t t' i (hget t i ht).2 (hget t' i ht').2

/-- Session `k` is a `CTimer` session that samples exactly `tids`. -/
structure Samples (k : ℕ) (tids : Set ℕ) (s : Timers.State Unit) : Prop where
  timer : ∃ timer, s.slots k = some timer ∧ timer.mode = .cTimer ∧
    Wired timer.threads s.armed s.nextTimer ∧ ∀ tid, (timer.threads.get tid).isSome ↔ tid ∈ tids

theorem Samples.congr {k : ℕ} {tids tids' : Set ℕ} {s : Timers.State Unit} (h : Samples k tids s)
    (heq : ∀ tid, tid ∈ tids ↔ tid ∈ tids') : Samples k tids' s := by
  rwa [← Set.ext heq]

theorem timerStart_wired (w : Externals) (id tid k : ℕ) (timer : Timer) :
    (CTimer.start w id tid).Ensures
      (fun s => s.slots k = some timer ∧ Wired timer.threads s.armed s.nextTimer)
      (fun n s => s.slots k = some timer ∧ Wired (timer.threads.insert tid n) s.armed s.nextTimer)
      fun _ _ => ¬Arms w id tid := by
  refine .bind (Q := fun _ s => s.slots k = some timer ∧ Wired timer.threads s.armed s.nextTimer)
    (.returned (fun _ _ _ h => h) ?_) fun _ => ?_
  · intro e he s h arms
    exact nomatch he.symm.trans arms.create
  refine .bind (Q := fun s₀ s => s₀ = s ∧ s.slots k = some timer ∧
    Wired timer.threads s.armed s.nextTimer) (.get fun s h => ⟨rfl, h⟩) fun s₀ => ?_
  refine .bind (Q := fun _ s => s.slots k = some timer ∧ Wired timer.threads s.armed s₀.nextTimer ∧
    s.nextTimer = s₀.nextTimer + 1) (.modify ?_) fun _ => ?_
  · rintro s ⟨rfl, hslot, hwired⟩
    exact ⟨hslot, hwired, rfl⟩
  refine .bind (Q := fun _ s => s.slots k = some timer ∧
    Wired (timer.threads.insert tid s₀.nextTimer) s.armed s.nextTimer) (.guarded ?_)
      fun _ => .pure fun _ h => h
  refine .bind (Q := fun _ s => s.slots k = some timer ∧ Wired timer.threads s.armed s₀.nextTimer ∧
    s.nextTimer = s₀.nextTimer + 1) (.returned (fun _ _ _ h => h) ?_) fun _ => .modify ?_
  · intro e he s h arms
    exact nomatch he.symm.trans arms.settime
  · rintro s ⟨hslot, hwired, hnext⟩
    refine ⟨hslot, ?_⟩
    show Wired _ (s₀.nextTimer :: s.armed) s.nextTimer
    rw [hnext]
    exact hwired.insert tid

theorem threadCreated_samples (w : Externals) (k id tid : ℕ) (tids : Set ℕ) :
    (threadCreated w k id tid).Ensures (Samples k tids) (fun _ => Samples k (insert tid tids))
      fun _ _ => ¬Arms w id tid := by
  refine .bind (Q := fun s₀ s => s₀ = s ∧ Samples k tids s) (.get fun s h => ⟨rfl, h⟩) fun s₀ => ?_
  cases hslot : s₀.slots k with
  | none =>
    rintro s ⟨rfl, ⟨timer, htimer, -⟩⟩
    exact nomatch hslot.symm.trans htimer
  | some timer =>
    by_cases vacant : timer.mode = .cTimer ∧ timer.threads.get tid = none
    · simp only [if_pos vacant]
      by_cases hkeys : ∀ t, (timer.threads.get t).isSome ↔ t ∈ tids
      · refine .mapError (.bind ((timerStart_wired w id tid k timer).conseq ?_
          (fun _ _ h => h) fun _ _ h => h) fun n => .modify ?_)
        · rintro s ⟨rfl, ⟨timer', htimer, -, hwired, -⟩⟩
          cases hslot.symm.trans htimer
          exact ⟨hslot, hwired⟩
        · rintro s ⟨-, hwired⟩
          refine ⟨_, Function.update_self .., vacant.1, hwired, fun t => ?_⟩
          by_cases heq : t = tid
          · simp [heq]
          · simp [HashMap.get_insert_ne _ _ heq, hkeys t, heq]
      · rintro s ⟨rfl, ⟨timer', htimer, -, -, hkeys'⟩⟩
        cases hslot.symm.trans htimer
        exact (hkeys hkeys').elim
    · simp only [if_neg vacant]
      refine .pure ?_
      rintro s ⟨rfl, h⟩
      refine h.congr fun t => ⟨.inr, ?_⟩
      rintro (rfl | ht)
      · obtain ⟨timer', htimer, hmode, -, hkeys⟩ := h
        cases hslot.symm.trans htimer
        refine (hkeys t).mp (Option.isSome_iff_ne_none.mpr fun hn => vacant ⟨hmode, hn⟩)
      · exact ht

theorem threadRemoved_samples (k tid : ℕ) {tids : Set ℕ} {s : Timers.State Unit} (h : Samples k tids s) :
    Samples k (tids \ {tid}) (threadRemoved k tid s) := by
  obtain ⟨timer, hslot, hmode, hwired, hkeys⟩ := h
  unfold threadRemoved
  rw [hslot]
  dsimp only
  rw [hmode]
  cases hid : timer.threads.get tid with
  | none =>
    refine ⟨timer, hslot, hmode, hwired, fun t => ?_⟩
    rw [hkeys t, Set.mem_sdiff, Set.mem_singleton_iff]
    refine ⟨fun ht => ⟨ht, ?_⟩, And.left⟩
    rintro rfl
    have hsome := (hkeys t).mpr ht
    rw [hid] at hsome
    cases hsome
  | some id =>
    refine ⟨_, Function.update_self .., rfl, hwired.erase hid, fun t => ?_⟩
    by_cases heq : t = tid
    · simp [heq]
    · simp [HashMap.get_erase_ne _ heq, hkeys t, heq]

/- The threads that `attach` arms after its caller. -/
theorem attachLive_samples (w : Externals) {k : ℕ} (others : ∀ id tid, tid ≠ w.gettid → Arms w id tid)
    (live : List (ℕ × ℕ)) {tids : Set ℕ} {s : Timers.State Unit} (caller : w.gettid ∈ tids)
    (h : Samples k tids s) :
    Samples k (tids ∪ {tid | ∃ id, (id, tid) ∈ live}) (Threads.attachLive w k live s) := by
  induction live generalizing s tids with
  | nil => exact h.congr fun t => by simp
  | cons entry live ih =>
    obtain ⟨id, tid⟩ := entry
    by_cases hself : tid = w.gettid
    · have hnext : Samples k tids
          (if tid ≠ w.gettid then (threadCreated w k id tid).ignore s else s) := by
        rwa [if_neg (fun h => h hself)]
      refine (ih caller hnext).congr fun t => ?_
      simp only [Set.mem_union, Set.mem_ofPred_eq, List.mem_cons, Prod.mk.injEq]
      grind
    · have hnext : Samples k (insert tid tids)
          (if tid ≠ w.gettid then (threadCreated w k id tid).ignore s else s) := by
        rw [if_pos hself]
        exact ((threadCreated_samples w k id tid tids).conseq (fun _ h => h) (fun _ _ h => h)
          fun _ _ refused => (refused (others id tid hself)).elim).ignore h
      refine (ih (.inr caller) hnext).congr fun t => ?_
      simp only [Set.mem_union, Set.mem_insert_iff, Set.mem_ofPred_eq, List.mem_cons, Prod.mk.injEq]
      grind

/-! ### Starting a session -/

structure Same (x x' : Statics) : Prop where
  timers : x'.timers = x.timers
  live : x'.live = x.live
  timer : x'.timer = x.timer
  noThread : x'.samplerThread = x.samplerThread

theorem check_same (p : Platform) (w : Externals) (config : Config) (x₀ : Statics) :
    (onTimers (SignalHandlerSession.check p w config)).Ensures (Same x₀) (fun _ => Same x₀)
      fun _ => Same x₀ := by
  refine .on fun x h => ?_
  have hsame : (SignalHandlerSession.check p w config).Ensures (fun s => s = x.timers)
      (fun _ s => s = x.timers) fun _ s => s = x.timers := by
    refine .bind (Q := fun _ s => s = x.timers) (.returned (fun _ _ _ h => h) fun _ _ _ h => h) fun _ => ?_
    refine .bind (Q := fun _ s => s = x.timers) (.failIf (fun _ _ h => h) fun _ _ h => h) fun _ => ?_
    exact .mapError (.returned (fun _ _ _ h => h) fun _ _ _ h => h)
  refine (hsame x.timers rfl).imp (fun _ s hs => ?_) fun _ s hs => ?_
  · exact ⟨hs.trans h.timers, h.live, h.timer, h.noThread⟩
  · exact ⟨hs.trans h.timers, h.live, h.timer, h.noThread⟩

/- While there is a session, SIGPROF is taken. -/
theorem start_refused (p : Platform) (w : Externals) (config : Config) {x : Statics}
    (listed : sigprof ∈ x.timers.handledSignals) :
    (SignalHandlerSession.start p w config).Ensures (fun x' => x' = x) (fun _ _ => False)
      fun _ => Same x := by
  refine .bind ((check_same p w config x).conseq ?_ (fun _ _ h => h) fun _ _ h => h) fun _ => ?_
  · rintro _ rfl
    exact ⟨rfl, rfl, rfl, rfl⟩
  refine .bind (Q := fun _ => Same x) (.modify fun _ h => ⟨h.timers, h.live, h.timer, h.noThread⟩)
    fun _ => .bind (Q := fun _ _ => False) (.on fun x' h => ?_) fun _ _ h => h.elim
  have hinstall : (SignalHandler.install w).Ensures (fun s => s = x.timers) (fun _ _ => False)
      fun _ s => s = x.timers := by
    refine .bind (Q := fun s₀ s => s₀ = s ∧ s = x.timers) (.get fun s h => ⟨rfl, h⟩) fun s₀ => ?_
    refine .bind (Q := fun _ _ => False) (.failIf (fun _ _ h => h.2) fun unlisted s h => ?_)
      fun _ _ h => h.elim
    obtain ⟨rfl, rfl⟩ := h
    exact unlisted listed
  refine (Call.Ensures.mapError (R := fun _ s => s = x.timers) hinstall x'.timers h.timers).imp (fun _ _ h => h) fun _ s hs => ?_
  exact ⟨hs, h.live, h.timer, h.noThread⟩

theorem onTimers_live {α : Type} (c : TimerCall String α) (l : HashMap ℕ ℕ) :
    (onTimers c).Ensures (fun x => x.live = l) (fun _ x => x.live = l) fun _ x => x.live = l := by
  refine .on fun x h => ?_
  rcases c x.timers with ⟨e | a, s⟩
  · exact h
  · exact h

theorem start_live (p : Platform) (w : Externals) (config : Config) (l : HashMap ℕ ℕ) :
    (SignalHandlerSession.start p w config).Ensures (fun x => x.live = l) (fun _ x => x.live = l)
      fun _ x => x.live = l := by
  refine .bind (onTimers_live _ l) fun _ => ?_
  refine .bind (Q := fun _ x => x.live = l) (.modify fun _ h => h) fun _ => ?_
  refine .bind (onTimers_live _ l) fun _ => ?_
  exact .bind (Q := fun _ x => x.live = l) (.modify fun _ h => h) fun _ => onTimers_live _ l

/- A new session samples nobody. -/
theorem start_samples (p : Platform) (w : Externals) (config : Config) :
    (SignalHandlerSession.start p w config).Ensures (fun _ => True)
      (fun k x => config.signalTimer = .cTimer → Samples k ∅ x.timers) fun _ _ => True := by
  have hany : ∀ {α : Type} (c : StaticsCall String α), c.Ensures (fun _ => True) (fun _ _ => True)
      fun _ _ => True := by
    intro α c x _
    rcases c x with ⟨e | a, x'⟩
    · exact trivial
    · exact trivial
  refine .bind (hany _) fun _ => .bind (hany _) fun _ => .bind (hany _) fun _ => .bind (hany _) fun _ => ?_
  refine .on fun x _ => ?_
  have harm : (SignalHandlerSession.arm p w config).Ensures (fun _ => True)
      (fun k s => config.signalTimer = .cTimer → Samples k ∅ s) fun _ _ => True := by
    refine .bind (Q := fun _ _ => True) ?_ fun _ s _ hmode => ?_
    · intro s _
      rcases Call.guarded (SignalHandler.drop w) _ s with ⟨e | a, s'⟩
      · exact trivial
      · exact trivial
    · refine ⟨_, Function.update_self .., hmode, wired_empty _ _, fun tid => ?_⟩
      simp
  exact (harm x.timers trivial).imp (fun _ _ h => h) fun _ _ h => h

theorem mem_values_insert (live : HashMap ℕ ℕ) (id tid t : ℕ) :
    t ∈ values (live.insert id tid) ↔ t = tid ∨ ∃ id', id' ≠ id ∧ live.get id' = some t := by
  constructor
  · rintro ⟨id', hget⟩
    by_cases heq : id' = id
    · subst heq
      rw [HashMap.get_insert] at hget
      exact .inl (Option.some.inj hget).symm
    · rw [HashMap.get_insert_ne _ _ heq] at hget
      exact .inr ⟨id', heq, hget⟩
  · rintro (rfl | ⟨id', hne, hget⟩)
    · exact ⟨id, HashMap.get_insert ..⟩
    · exact ⟨id', (HashMap.get_insert_ne _ _ hne).trans hget⟩

theorem mem_values_erase (live : HashMap ℕ ℕ) (id t : ℕ) :
    t ∈ values (live.erase id) ↔ ∃ id', id' ≠ id ∧ live.get id' = some t := by
  constructor
  · rintro ⟨id', hget⟩
    by_cases heq : id' = id
    · subst heq
      rw [HashMap.get_erase] at hget
      cases hget
    · rw [HashMap.get_erase_ne _ heq] at hget
      exact ⟨id', heq, hget⟩
  · rintro ⟨id', hne, hget⟩
    exact ⟨id', (HashMap.get_erase_ne _ hne).trans hget⟩

/- An attach that goes through samples the registry, its caller included. -/
theorem attach_samples (p : Platform) (w : Externals) (k : ℕ)
    (others : ∀ id tid, tid ≠ w.gettid → Arms w id tid) :
    (Threads.attach p w k).Ensures (fun x => Samples k ∅ x.timers)
      (fun _ x => Samples k (values x.live) x.timers) fun _ _ => True := by
  unfold Threads.attach
  split
  · refine .bind (Q := fun _ x => Samples k ∅ x.timers) (.get fun _ h => h) fun x₀ => ?_
    refine .bind (Q := fun _ x => Samples k ∅ x.timers) (.failIf (fun _ _ _ => trivial) fun _ _ h => h)
      fun _ => ?_
    refine .bind (Q := fun _ x => Samples k ∅ x.timers ∧ x.live.get w.threadIdent = some w.gettid)
      (.modify fun x h => ⟨h, HashMap.get_insert ..⟩) fun _ => ?_
    refine .bind (Q := fun _ x => Samples k {w.gettid} x.timers ∧
      x.live.get w.threadIdent = some w.gettid) ?_ fun _ => ?_
    · refine .mapError (.on fun x h => ?_)
      refine (threadCreated_samples w k w.threadIdent w.gettid ∅ x.timers h.1).imp
        (fun _ s hs => ⟨hs.congr fun t => ?_, h.2⟩) fun _ _ _ => trivial
      rw [Set.mem_insert_iff, Set.mem_singleton_iff]
      exact or_iff_left (Set.notMem_empty t)
    · refine .bind (Q := fun _ x => Samples k (values x.live) x.timers) (.modify fun x h => ?_)
        fun _ => .modify fun _ h => h
      refine (attachLive_samples w others (w.order.visit x.live.toList) (Set.mem_singleton _)
        h.1).congr fun t => ?_
      simp only [Set.mem_union, Set.mem_singleton_iff, Set.mem_ofPred_eq, IterOrder.mem_visit,
        HashMap.mem_toList]
      refine ⟨?_, .inr⟩
      rintro (rfl | ht)
      · exact ⟨w.threadIdent, h.2⟩
      · exact ht
  · exact .fail fun _ _ => trivial

/-! ### The invariant -/

/-- The tids that have a timer while a session is attached. A hook is behind by its second section. -/
def covered (live : HashMap ℕ ℕ) : Caller → Set ℕ
  | .outside => values live
  | .registering id _ previous => {tid | previous = some tid ∨ ∃ id', id' ≠ id ∧ live.get id' = some tid}
  | .unregistering tid => insert tid (values live)

/-- What `LIVE` says of the tid that a hook is about to drop from the session. -/
def Dropped (live : HashMap ℕ ℕ) : Caller → Prop
  | .outside => True
  | .registering id tid previous => live.get id = some tid ∧
    ∀ t, previous = some t → t ≠ tid → t ∉ values live
  | .unregistering tid => tid ∉ values live

def Owned (x : Statics) (caller : Caller) : Owner → Prop
  | .nobody => Off x
  | .starter k mode => Holding k none x ∧ (mode = .cTimer → Samples k ∅ x.timers)
  | .failed k | .detached k | .sampler k .iTimer => Holding k none x
  | .sampler k .cTimer => Holding k (some k) x ∧ Samples k (covered x.live caller) x.timers

structure Inv (s : State) : Prop where
  once : Once s.statics.live
  dropped : Dropped s.statics.live s.caller
  owned : Owned s.statics s.caller s.owner

theorem listed_of_shared {k : ℕ} {s : Timers.State Unit} (h : Shared [k] k s) : sigprof ∈ s.handledSignals := by
  obtain ⟨p, hp⟩ := Timers.reachable_inv h.run
  refine hp.listed.mpr ?_
  have hlive := hp.live.symm.trans h.sessions
  cases p <;> first | rfl | cases hlive

namespace Owned
variable {x x' : Statics} {caller caller' : Caller} {o : Owner}

theorem holding (h : Owned x caller o) :
    (o = .nobody ∧ Off x) ∨ ∃ k timer, Holding k timer x := by
  cases o with
  | nobody => exact .inl ⟨rfl, h⟩
  | starter k mode => exact .inr ⟨k, none, h.1⟩
  | failed k => exact .inr ⟨k, none, h⟩
  | detached k => exact .inr ⟨k, none, h⟩
  | sampler k mode =>
    cases mode with
    | iTimer => exact .inr ⟨k, none, h⟩
    | cTimer => exact .inr ⟨k, some k, h.1⟩

/- Only the sampler thread of a `CTimer` session is attached. -/
theorem attached (h : Owned x caller o) {k : ℕ} (hk : x.timer = some k) : o = .sampler k .cTimer := by
  cases o with
  | nobody => exact nomatch h.timer.symm.trans hk
  | starter k' mode => exact nomatch h.1.timer.symm.trans hk
  | failed k' => exact nomatch h.timer.symm.trans hk
  | detached k' => exact nomatch h.timer.symm.trans hk
  | sampler k' mode =>
    cases mode with
    | iTimer => exact nomatch h.timer.symm.trans hk
    | cTimer =>
      cases h.1.timer.symm.trans hk
      rfl

/- The registry may change as long as what is covered does not. -/
theorem transfer (h : Owned x caller o) (ht : x'.timers = x.timers) (hx : x'.timer = x.timer)
    (hn : x'.samplerThread = x.samplerThread)
    (hc : ∀ t, t ∈ covered x.live caller ↔ t ∈ covered x'.live caller') : Owned x' caller' o := by
  have hholding : ∀ {k timer}, Holding k timer x → Holding k timer x' := by
    intro k timer hk
    exact ⟨ht ▸ hk.shared, hx.trans hk.timer, hn.trans hk.noThread⟩
  cases o with
  | nobody => exact ⟨ht ▸ h.reached, hx.trans h.timer, hn.trans h.noThread⟩
  | starter k mode => exact ⟨hholding h.1, fun hmode => ht ▸ h.2 hmode⟩
  | failed k => exact hholding h
  | detached k => exact hholding h
  | sampler k mode =>
    cases mode with
    | iTimer => exact hholding h
    | cTimer => exact ⟨hholding h.1, ht ▸ h.2.congr hc⟩

theorem unattached (h : Owned x caller o) (hx : x.timer = none) : Owned x caller' o := by
  cases o with
  | sampler k mode =>
    cases mode with
    | iTimer => exact h
    | cTimer => exact nomatch hx.symm.trans h.1.timer
  | _ => exact h

/- While somebody has a session no other can be started. -/
theorem listed (h : Owned x caller o) (ho : o ≠ .nobody) : sigprof ∈ x.timers.handledSignals := by
  rcases h.holding with ⟨hn, -⟩ | ⟨k, timer, hk⟩
  · exact (ho hn).elim
  · exact listed_of_shared hk.shared

end Owned

/-! ### The steps keep it -/

section Steps
variable {p : Platform} {w : Externals}

theorem start_owned {config : Config} {s : State} {k : ℕ} {x : Statics} (h : Inv s)
    (ok : SignalHandlerSession.start p w config s.statics = (.ok k, x)) :
    x.live = s.statics.live ∧ Owned x s.caller (.starter k config.signalTimer) := by
  have hlive := start_live p w config s.statics.live s.statics rfl
  have hsamples := start_samples p w config s.statics trivial
  rw [ok] at hlive hsamples
  refine ⟨hlive, ?_⟩
  by_cases ho : s.owner = .nobody
  · have howned := h.owned
    rw [ho] at howned
    have hstart := start_holding p w config s.statics howned
    rw [ok] at hstart
    exact ⟨hstart, hsamples⟩
  · have hrefused := start_refused p w config (h.owned.listed ho) s.statics rfl
    rw [ok] at hrefused
    exact hrefused.elim

theorem startFails_owned {config : Config} {s : State} {e : String} {x : Statics} (h : Inv s)
    (error : SignalHandlerSession.start p w config s.statics = (.error e, x)) :
    x.live = s.statics.live ∧ Owned x s.caller s.owner := by
  have hlive := start_live p w config s.statics.live s.statics rfl
  rw [error] at hlive
  refine ⟨hlive, ?_⟩
  by_cases ho : s.owner = .nobody
  · have howned := h.owned
    rw [ho] at howned ⊢
    have hstart := start_holding p w config s.statics howned
    rw [error] at hstart
    exact hstart
  · have hsame := start_refused p w config (h.owned.listed ho) s.statics rfl
    rw [error] at hsame
    exact h.owned.transfer hsame.timers hsame.timer hsame.noThread fun t => by rw [hsame.live]

theorem registerTimer_owned {x : Statics} {o : Owner} {id tid : ℕ} {previous : Option ℕ}
    (h : Owned x (.registering id tid previous) o) (hd : Dropped x.live (.registering id tid previous))
    (arms : Arms w id tid) : Owned (registerTimer w id tid previous x) .outside o := by
  unfold registerTimer
  split
  · next hk => exact h.unattached hk
  · next k hk =>
    obtain rfl := h.attached hk
    obtain ⟨hholding, hsamples⟩ := h
    obtain ⟨hnew, hprevious⟩ := hd
    -- what is left once the previous thread of this identifier is gone
    have hkept : ∀ s, (Shared [k] k s ∧ ∃ tids, Samples k tids s ∧
        ∀ t, t ∈ insert tid tids ↔ t ∈ values x.live) →
        Owned { x with timers := (threadCreated w k id tid).ignore s } .outside (.sampler k .cTimer) := by
      rintro s ⟨hshared, tids, hs, heq⟩
      refine ⟨⟨(threadCreated_reached w [k] k id tid).ignore hshared, hholding.timer, hholding.noThread⟩, ?_⟩
      have harmed : Samples k (insert tid tids) ((threadCreated w k id tid).ignore s) :=
        ((threadCreated_samples w k id tid tids).conseq (fun _ h => h) (fun _ _ h => h)
          fun _ _ refused => (refused arms).elim).ignore hs
      exact harmed.congr heq
    have hvalues : ∀ t, t ∈ values x.live ↔ t = tid ∨ ∃ id', id' ≠ id ∧ x.live.get id' = some t := by
      intro t
      constructor
      · rintro ⟨id', hget⟩
        by_cases heq : id' = id
        · subst heq
          exact .inl (Option.some.inj (hget.symm.trans hnew))
        · exact .inr ⟨id', heq, hget⟩
      · rintro (rfl | ⟨id', -, hget⟩)
        · exact ⟨id, hnew⟩
        · exact ⟨id', hget⟩
    refine hkept _ ?_
    cases previous with
    | none =>
      refine ⟨hholding.shared, _, hsamples, fun t => ?_⟩
      rw [hvalues t]
      simp [covered]
    | some t₀ =>
      by_cases hsame : t₀ = tid
      · subst hsame
        simp only [ne_eq, not_true_eq_false, if_false]
        refine ⟨hholding.shared, _, hsamples, fun t => ?_⟩
        rw [hvalues t]
        simp only [covered, Set.mem_insert_iff, Set.mem_ofPred_eq, Option.some.injEq]
        grind
      · simp only [ne_eq, hsame, not_false_eq_true, if_true]
        refine ⟨threadRemoved_reached [k] k t₀ hholding.shared, _, threadRemoved_samples k t₀ hsamples,
          fun t => ?_⟩
        have hgone := hprevious t₀ rfl hsame
        rw [hvalues t₀] at hgone
        rw [hvalues t]
        simp only [covered, Set.mem_insert_iff, Set.mem_sdiff, Set.mem_singleton_iff, Set.mem_ofPred_eq,
          Option.some.injEq]
        grind

theorem unregisterTimer_owned {x : Statics} {o : Owner} {tid : ℕ} (h : Owned x (.unregistering tid) o)
    (hd : Dropped x.live (.unregistering tid)) : Owned (unregisterTimer tid x) .outside o := by
  unfold unregisterTimer
  split
  · next hk => exact h.unattached hk
  · next k hk =>
    obtain rfl := h.attached hk
    obtain ⟨hholding, hsamples⟩ := h
    refine ⟨⟨threadRemoved_reached [k] k tid hholding.shared, hholding.timer, hholding.noThread⟩, ?_⟩
    refine (threadRemoved_samples k tid hsamples).congr fun t => ?_
    simp only [covered, Set.mem_sdiff, Set.mem_insert_iff, Set.mem_singleton_iff]
    refine ⟨fun ht => ht.1.resolve_left ht.2, fun ht => ⟨.inr ht, ?_⟩⟩
    rintro rfl
    exact hd ht

theorem registerLive_dropped {live : HashMap ℕ ℕ} (once : Once live) (id tid : ℕ) :
    Dropped (live.insert id tid) (.registering id tid (live.get id)) := by
  refine ⟨HashMap.get_insert .., fun t ht hne hmem => ?_⟩
  rcases (mem_values_insert live id tid t).mp hmem with heq | ⟨id', hne', hget⟩
  · exact hne heq
  · exact hne' (once id' id t hget ht)

theorem unregisterLive_dropped {live : HashMap ℕ ℕ} (once : Once live) {id tid : ℕ}
    (known : live.get id = some tid) : Dropped (live.erase id) (.unregistering tid) := by
  intro hmem
  obtain ⟨id', hne, hget⟩ := (mem_values_erase live id tid).mp hmem
  exact hne (once id' id tid hget known)

/- The first section changes nothing about who is to have a timer. -/
theorem registerLive_covered (live : HashMap ℕ ℕ) (id tid t : ℕ) :
    t ∈ covered live .outside ↔ t ∈ covered (live.insert id tid) (.registering id tid (live.get id)) := by
  simp only [covered, Set.mem_ofPred_eq]
  constructor
  · rintro ⟨id', hget⟩
    by_cases heq : id' = id
    · subst heq
      exact .inl hget
    · exact .inr ⟨id', heq, (HashMap.get_insert_ne _ _ heq).trans hget⟩
  · rintro (hget | ⟨id', hne, hget⟩)
    · exact ⟨id, hget⟩
    · exact ⟨id', (HashMap.get_insert_ne _ _ hne).symm.trans hget⟩

theorem unregisterLive_covered {live : HashMap ℕ ℕ} {id tid : ℕ} (known : live.get id = some tid) (t : ℕ) :
    t ∈ covered live .outside ↔ t ∈ covered (live.erase id) (.unregistering tid) := by
  simp only [covered, Set.mem_insert_iff, mem_values_erase]
  constructor
  · rintro ⟨id', hget⟩
    by_cases heq : id' = id
    · subst heq
      exact .inl (Option.some.inj (hget.symm.trans known))
    · exact .inr ⟨id', heq, hget⟩
  · rintro (rfl | ⟨id', -, hget⟩)
    · exact ⟨id, known⟩
    · exact ⟨id', hget⟩

theorem step_inv {s s' : State} (h : Inv s) (hs : Run p s s') : Inv s' := by
  obtain ⟨hs, once⟩ := hs
  have howned := h.owned
  cases hs with
  | start w config gil ok =>
    obtain ⟨hlive, hnew⟩ := start_owned h ok
    refine ⟨once, ?_, hnew⟩
    rw [gil]
    trivial
  | startFails w config gil error =>
    obtain ⟨hlive, hold⟩ := startFails_owned h error
    refine ⟨once, ?_, hold⟩
    rw [gil]
    trivial
  | @attach k w gil ho others x ok =>
    rw [ho] at howned
    have hholding := attach_holding p w k s.statics howned.1
    have hsamples := attach_samples p w k others s.statics (howned.2 rfl)
    rw [ok] at hholding hsamples
    refine ⟨once, ?_, hholding, ?_⟩ <;> rw [gil]
    · trivial
    · exact hsamples
  | @attachFails k w gil ho e x error =>
    rw [ho] at howned
    have hholding := attach_holding p w k s.statics howned.1
    rw [error] at hholding
    refine ⟨once, ?_, hholding⟩
    rw [gil]
    trivial
  | spawn ho =>
    rw [ho] at howned
    exact ⟨once, h.dropped, howned.1⟩
  | dropFailed w ho =>
    rw [ho] at howned
    exact ⟨once, h.dropped, dropSession_off w howned⟩
  | detach ho =>
    rw [ho] at howned
    exact ⟨once, h.dropped, howned.1.shared, rfl, howned.1.noThread⟩
  | @drop k w ho =>
    have hholding : Holding k none s.statics := by
      rcases ho with ho | ho
      · rw [ho] at howned
        exact howned
      · rw [ho] at howned
        exact howned
    exact ⟨once, h.dropped, dropSession_off w hholding⟩
  | registerLive gil id tid =>
    rw [gil] at howned
    exact ⟨once, registerLive_dropped h.once id tid,
      howned.transfer rfl rfl rfl (registerLive_covered _ id tid)⟩
  | @registerTimer id tid previous w hc arms =>
    have hdropped := h.dropped
    rw [hc] at howned hdropped
    exact ⟨once, trivial, registerTimer_owned howned hdropped arms⟩
  | unregisterUnknown gil id unknown => exact h
  | @unregisterLive tid gil id known =>
    rw [gil] at howned
    exact ⟨once, unregisterLive_dropped h.once known,
      howned.transfer rfl rfl rfl (unregisterLive_covered known)⟩
  | @unregisterTimer tid hc =>
    have hdropped := h.dropped
    rw [hc] at howned hdropped
    exact ⟨once, trivial, unregisterTimer_owned howned hdropped⟩

theorem initial_inv {s : State} (h : Initial s) : Inv s := by
  refine ⟨h.once, ?_, ?_⟩
  · rw [h.caller]
    trivial
  · rw [h.owner]
    exact h.off

theorem reachable_inv {s : State} (h : Reachable Initial (Run p) s) : Inv s :=
  h.invariant (fun _ hs => initial_inv hs) fun _ _ hi hs => step_inv hi hs

end Steps

/-! ### The timers and the registry -/

/- No other session has a timer. -/
theorem holders_of_samples {k : ℕ} {tids : Set ℕ} {s : Timers.State Unit} (hk : Shared [k] k s)
    (h : Samples k tids s) : holders s = tids := by
  obtain ⟨p, hp⟩ := Timers.reachable_inv hk.run
  have hlive := hp.live.symm.trans hk.sessions
  obtain ⟨timer, hslot, -, hwired, hkeys⟩ := h
  ext tid
  constructor
  · rintro ⟨k', timer', id, hslot', hget, -⟩
    have hsame : k' = k := by
      have hphase := hp.slot_only k' timer' hslot'
      cases p with
      | session k₀ mode =>
        cases hlive
        cases hphase
        rfl
      | _ => cases hlive
    subst hsame
    cases hslot.symm.trans hslot'
    exact (hkeys tid).mp (Option.isSome_of_eq_some hget)
  · intro ht
    obtain ⟨id, hget⟩ := Option.isSome_iff_exists.mp ((hkeys tid).mpr ht)
    exact ⟨k, timer, id, hslot, hget, hwired.armed tid id hget⟩

theorem holders_of_disarmed {x : Statics} (h : Disarmed x) : holders x.timers = ∅ := by
  ext tid
  simp [holders, h.armed]

/-- Between the hooks of an attached session the armed timers are those of the registry. A
session that could not be attached is in nobody's reach, and a dropped one leaves no timer,
whatever the hooks are doing. -/
theorem timers_match_registry (p : Platform) {s : State} (h : Reachable Initial (Run p) s) :
    (∀ k, s.statics.timer = some k → s.caller = .outside →
      holders s.statics.timers = values s.statics.live) ∧
    (∀ k, s.owner = .failed k → s.statics.timer = none) ∧
    (s.owner = .nobody → s.statics.timers.armed = [] ∧ holders s.statics.timers = ∅) := by
  have hinv := reachable_inv h
  have howned := hinv.owned
  refine ⟨fun k hk hc => ?_, fun k ho => ?_, fun ho => ?_⟩
  · have ho := howned.attached hk
    rw [ho, hc] at howned
    exact holders_of_samples howned.1.shared howned.2
  · rw [ho] at howned
    exact howned.timer
  · rw [ho] at howned
    exact ⟨howned.disarmed.armed, holders_of_disarmed howned.disarmed⟩

theorem once_of_nodup {live : HashMap ℕ ℕ} (h : (live.toList.map Prod.snd).Nodup) : Once live := by
  intro id id' tid hget hget'
  have hmem := (live.mem_toList id tid).mpr hget
  have hmem' := (live.mem_toList id' tid).mpr hget'
  exact (Prod.ext_iff.mp (List.inj_on_of_nodup_map h hmem hmem' rfl)).1

/- Nothing fails; the caller of `attach` has identifier 1 and tid 100. -/
def answers : Externals := ⟨.ok (), .ok (), true, .ok (), fun _ _ => .ok (), fun _ _ => .ok (),
  .stored _, 1, 100⟩

/- A thread registers, a session starts and attaches, another thread takes over the
identifier. Between the sections of a third thread the session is detached and dropped. -/
theorem timers_match_registry_dropped : ∃ s s' : State,
    s.statics.live.get 7 = some 71 ∧ holders s.statics.timers = values s.statics.live ∧
    s'.caller = .registering 8 80 none ∧ holders s'.statics.timers = ∅ := by
  let p : Platform := ⟨true, (3, 12), fun _ => 10000000⟩
  have arms : ∀ id tid, Arms answers id tid := fun _ _ => ⟨rfl, rfl⟩
  have h : Reachable Initial (Run p) ⟨⟨⟨[], .dfl, false, false, false, [], 0, fun _ => none,
    fun _ => none, 0, [], fun _ => .idle⟩, [], Metrics.zero, true, HashMap.empty, none, none⟩,
    .outside, .nobody⟩ :=
    .init ⟨⟨⟨.init ⟨_, rfl⟩, rfl⟩, rfl, rfl⟩, rfl, rfl, once_of_nodup (by decide)⟩
  have h := h.step ⟨.registerLive rfl 7 70, once_of_nodup (by decide)⟩
  have h := h.step ⟨.registerTimer answers rfl (arms _ _), once_of_nodup (by decide)⟩
  have h := h.step ⟨.start answers ⟨(3, 12), 100, .cTimer⟩ rfl rfl, once_of_nodup (by decide)⟩
  have h := h.step ⟨.attach answers rfl rfl (fun _ _ _ => arms _ _) rfl, once_of_nodup (by decide)⟩
  have h := h.step ⟨.registerLive rfl 7 71, once_of_nodup (by decide)⟩
  have attached := h.step ⟨.registerTimer answers rfl (arms _ _), once_of_nodup (by decide)⟩
  have h := attached.step ⟨.registerLive rfl 8 80, once_of_nodup (by decide)⟩
  have h := h.step ⟨.detach rfl, once_of_nodup (by decide)⟩
  have h := h.step ⟨.drop answers (.inl rfl), once_of_nodup (by decide)⟩
  exact ⟨_, _, rfl, (timers_match_registry p attached).1 0 rfl rfl, rfl,
    ((timers_match_registry p h).2.2 rfl).2⟩

end Pyroscope.Signal.Hooks
