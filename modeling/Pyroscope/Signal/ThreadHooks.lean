import Pyroscope.Signal.Registry

/-!
# Installing the thread hooks (pyroscope/__init__.py)

`_install_stack_threads` puts its own `_delete` and `_set_native_id` into Python's `Thread`
class and then registers the threads of `threading._active`. Other threads run between any
two bytecodes of it, through `Thread._bootstrap_inner` of Python 3.11 and later. A thread
looks a method up before it calls it, so it may still run the one that was replaced.

A thread that `threading` did not start has no `_bootstrap_inner`. When it first asks for
`current_thread()` it gets a `_DummyThread`, whose `__init__` calls `_set_native_id` and
enters `_active`; nothing ever calls its `_delete`.
-/

namespace Pyroscope.Signal.ThreadHooks
open Pyroscope.Lib Pyroscope.Signal.Calls

/-- Where a thread is in `_bootstrap_inner`; `hooked` if it looked up the wrapper. The last
five are of threads without a `Thread` of their own, on the way through `_DummyThread.__init__`
and, as `dummy`, past it. -/
inductive Stage where
  | new
  | limbo
  | setNativeId (hooked : Bool)
  | registering
  | unlisted
  | running
  | delete (hooked : Bool)
  | unregistering
  | finished
  | gone
  | foreign
  | dummySetNativeId (hooked : Bool)
  | dummyRegistering
  | dummyUnlisted
  | dummy
  deriving DecidableEq

namespace Stage

/-- The operating system has the thread, and so its ident and its native id are taken. -/
def present : Stage → Bool
  | .new | .gone => false
  | _ => true

/-- `Thread._set_native_id` has run. -/
def named : Stage → Bool
  | .new | .limbo | .setNativeId _ | .gone | .foreign | .dummySetNativeId _ => false
  | _ => true

/-- Started by `threading` and in `threading._active`. -/
def listed : Stage → Bool
  | .running | .delete _ => true
  | _ => false

/-- Here `_active` may have a `_DummyThread`, be it of a thread that has ended. -/
def stray : Stage → Bool
  | .dummy | .gone => true
  | _ => false

/-- Free to call `_install_stack_threads`. -/
def calls : Stage → Bool
  | .running | .foreign | .dummy => true
  | _ => false

/-- A `threading.Thread` that has its native id and is not deleted. -/
def alive : Stage → Bool
  | .registering | .unlisted | .running | .delete _ => true
  | _ => false

/-- Registered or about to be replayed, with the exit hook to come. -/
def held : Stage → Bool
  | .unlisted | .running | .delete true | .unregistering => true
  | _ => false

end Stage

/-- `ident` and `native` are the system's, `nativeId` is the attribute. -/
structure Thread where
  ident : ℕ
  native : ℕ
  nativeId : Option ℕ
  stage : Stage

/-- How far `_install_stack_threads` is; `rest` are the entries still to be registered. -/
inductive Install where
  | before
  | entered
  | deletePatched
  | patched
  | registering (rest : List (ℕ × ℕ))
  | installed

namespace Install

def hasDelete : Install → Bool
  | .before | .entered => false
  | _ => true

def hasSetNativeId : Install → Bool
  | .before | .entered | .deletePatched => false
  | _ => true

/-- `list(threading._active.items())` is taken. -/
def taken : Install → Bool
  | .registering _ | .installed => true
  | _ => false

def pending : Install → List (ℕ × ℕ)
  | .registering rest => rest
  | _ => []

end Install

/-- `active` maps an ident to the number of a thread. `installer` is the thread inside
`_install_stack_threads`. -/
structure State where
  threads : ℕ → Thread
  active : HashMap ℕ ℕ
  install : Install
  installer : Option ℕ
  statics : Statics

def State.put (s : State) (t : ℕ) (thread : Thread) : State :=
  { s with threads := Function.update s.threads t thread }

/-- Python's `native_id or tid` -/
def orIdent : Option ℕ → ℕ → ℕ
  | some (n + 1), _ => n + 1
  | _, ident => ident

/-- The native id that `_register_stack_threads` passes on. -/
def State.nativeId (s : State) (ident t : ℕ) : ℕ :=
  match s.installer with
  | some current =>
    if (s.threads current).ident = ident then (s.threads current).native
    else orIdent (s.threads t).nativeId ident
  | none => orIdent (s.threads t).nativeId ident

inductive Act where
  | start (t : ℕ)
  | lookUpSetNativeId (t : ℕ)
  | setNativeId (t : ℕ)
  | register (t : ℕ)
  | enlist (t : ℕ)
  | lookUpDelete (t : ℕ)
  | delete (t : ℕ)
  | unregister (t : ℕ)
  | exit (t : ℕ)
  | attach (t : ℕ)
  | currentThread (t : ℕ)
  | forget (t : ℕ)
  | depart (t : ℕ)
  | enter
  | patchDelete
  | patchSetNativeId
  | snapshot
  | replay
  | leave

inductive Step : Act → State → State → Prop where
  | start {s t} (h : (s.threads t).stage = .new) (ident native) (positive : native ≠ 0)
    (unused : ∀ t', (s.threads t').stage.present = true →
      (s.threads t').ident ≠ ident ∧ (s.threads t').native ≠ native) :
    Step (.start t) s (s.put t ⟨ident, native, none, .limbo⟩)
  | lookUpSetNativeId {s t} (h : (s.threads t).stage = .limbo) :
    Step (.lookUpSetNativeId t) s
      (s.put t { s.threads t with stage := .setNativeId s.install.hasSetNativeId })
  | setNativeId {s t hooked} (h : (s.threads t).stage = .setNativeId hooked) :
    Step (.setNativeId t) s (s.put t { s.threads t with
      nativeId := some (s.threads t).native, stage := if hooked then .registering else .unlisted })
  | register {s t native} (w) (h : (s.threads t).stage = .registering)
    (hn : (s.threads t).nativeId = some native) :
    Step (.register t) s { s.put t { s.threads t with stage := .unlisted } with
      statics := Threads.registerThread w (s.threads t).ident native s.statics }
  | enlist {s t} (h : (s.threads t).stage = .unlisted) :
    Step (.enlist t) s { s.put t { s.threads t with stage := .running } with
      active := s.active.insert (s.threads t).ident t }
  | lookUpDelete {s t} (h : (s.threads t).stage = .running) (free : s.installer ≠ some t) :
    Step (.lookUpDelete t) s (s.put t { s.threads t with stage := .delete s.install.hasDelete })
  | delete {s t hooked} (h : (s.threads t).stage = .delete hooked) :
    Step (.delete t) s
      { s.put t { s.threads t with stage := if hooked then .unregistering else .finished } with
        active := s.active.erase (s.threads t).ident }
  | unregister {s t} (h : (s.threads t).stage = .unregistering) :
    Step (.unregister t) s { s.put t { s.threads t with stage := .finished } with
      statics := Threads.unregisterThread (s.threads t).ident s.statics }
  | exit {s t} (h : (s.threads t).stage = .finished) :
    Step (.exit t) s (s.put t { s.threads t with stage := .gone })
  /-- a thread of C code comes to run Python -/
  | attach {s t} (h : (s.threads t).stage = .new) (ident native) (positive : native ≠ 0)
    (unused : ∀ t', (s.threads t').stage.present = true →
      (s.threads t').ident ≠ ident ∧ (s.threads t').native ≠ native) :
    Step (.attach t) s (s.put t ⟨ident, native, none, .foreign⟩)
  /-- `_active` has no thread of this ident: a `_DummyThread` is made. A thread that has been
  deleted may come here too, when what it leaves behind is cleared. -/
  | currentThread {s t} (h : (s.threads t).stage = .foreign ∨ (s.threads t).stage = .finished)
    (free : s.installer ≠ some t) (unknown : s.active.get (s.threads t).ident = none) :
    Step (.currentThread t) s
      (s.put t { s.threads t with stage := .dummySetNativeId s.install.hasSetNativeId })
  | dummySetNativeId {s t hooked} (h : (s.threads t).stage = .dummySetNativeId hooked) :
    Step (.setNativeId t) s (s.put t { s.threads t with
      nativeId := some (s.threads t).native
      stage := if hooked then .dummyRegistering else .dummyUnlisted })
  | dummyRegister {s t native} (w) (h : (s.threads t).stage = .dummyRegistering)
    (hn : (s.threads t).nativeId = some native) :
    Step (.register t) s { s.put t { s.threads t with stage := .dummyUnlisted } with
      statics := Threads.registerThread w (s.threads t).ident native s.statics }
  | dummyEnlist {s t} (h : (s.threads t).stage = .dummyUnlisted) :
    Step (.enlist t) s { s.put t { s.threads t with stage := .dummy } with
      active := s.active.insert (s.threads t).ident t }
  /-- newer versions take the entry back when the thread's state in the interpreter is cleared -/
  | forget {s t} (h : (s.threads t).stage = .dummy) (free : s.installer ≠ some t) :
    Step (.forget t) s { s.put t { s.threads t with stage := .foreign } with
      active := if s.active.get (s.threads t).ident = some t then s.active.erase (s.threads t).ident
        else s.active }
  | depart {s t} (h : (s.threads t).stage = .foreign ∨ (s.threads t).stage = .dummy)
    (free : s.installer ≠ some t) :
    Step (.depart t) s (s.put t { s.threads t with stage := .gone })
  | enter {s t} (h : s.install = .before) (calls : (s.threads t).stage.calls = true) :
    Step .enter s { s with install := .entered, installer := some t }
  | patchDelete {s} (h : s.install = .entered) : Step .patchDelete s { s with install := .deletePatched }
  | patchSetNativeId {s} (h : s.install = .deletePatched) :
    Step .patchSetNativeId s { s with install := .patched }
  | snapshot {s} (order : IterOrder (ℕ × ℕ)) (h : s.install = .patched) :
    Step .snapshot s { s with install := .registering (order.visit s.active.toList) }
  | replay {s ident t rest} (w) (h : s.install = .registering ((ident, t) :: rest)) :
    Step .replay s { s with
      install := .registering rest
      statics := Threads.registerThread w ident (s.nativeId ident t) s.statics }
  | leave {s} (h : s.install = .registering []) :
    Step .leave s { s with install := .installed, installer := none }

def Run (s s' : State) : Prop := ∃ a, Step a s s'

/-- Only the main thread, whose `_MainThread` counts as started and is listed. -/
structure Initial (s : State) : Prop where
  main : (s.threads 0).stage = .running ∧ (s.threads 0).nativeId = some (s.threads 0).native ∧
    (s.threads 0).native ≠ 0
  others : ∀ t, t ≠ 0 → (s.threads t).stage = .new
  active : s.active = HashMap.empty.insert (s.threads 0).ident 0
  install : s.install = .before
  installer : s.installer = none
  live : s.statics.live = HashMap.empty

/-- The installation and every hook that has an entry to make or to remove are through. -/
def Settled (s : State) : Prop :=
  s.install = .installed ∧ ∀ t, (s.threads t).stage ≠ .registering ∧
    (s.threads t).stage ≠ .unregistering ∧ (s.threads t).stage ≠ .dummyRegistering

/-- `LIVE` has the started threads that are alive, with their native ids. -/
def Exact (s : State) : Prop :=
  ∀ ident native, s.statics.live.get ident = some native ↔
    ∃ t, (s.threads t).ident = ident ∧ (s.threads t).nativeId = some native ∧
      (s.threads t).stage.alive = true

/-- When the snapshot is taken, no started thread is in a method that was replaced, nor past it
and not yet to be seen, and `_active` has started threads only. No `_DummyThread` is made once
`_set_native_id` is replaced. A thread unregisters once its own entry of the snapshot has been
replayed. -/
def Act.Orderly (s : State) : Act → Prop
  | .snapshot =>
    (∀ t, (s.threads t).stage ≠ .setNativeId false ∧ (s.threads t).stage ≠ .delete false ∧
      ((s.threads t).stage = .unlisted → s.statics.live.get (s.threads t).ident = (s.threads t).nativeId)) ∧
    ∀ i t, s.active.get i = some t → (s.threads t).stage.listed = true
  | .currentThread _ => s.install.hasSetNativeId = false
  | .unregister t => ((s.threads t).ident, t) ∉ s.install.pending
  | _ => True

def OrderlyRun (s s' : State) : Prop := ∃ a, Step a s s' ∧ a.Orderly s

/-! ### The registry's part of the hooks -/

theorem registerThread_live (w : Externals) (id tid : ℕ) (x : Statics) :
    (Threads.registerThread w id tid x).live = x.live.insert id tid := by
  unfold Threads.registerThread
  cases x.timer <;> rfl

theorem unregisterThread_get (id id' : ℕ) (x : Statics) :
    (Threads.unregisterThread id x).live.get id' = if id' = id then none else x.live.get id' := by
  have herase : (x.live.erase id).get id' = if id' = id then none else x.live.get id' := by
    by_cases h : id' = id
    · rw [if_pos h, h, HashMap.get_erase]
    · rw [if_neg h, HashMap.get_erase_ne _ h]
  unfold Threads.unregisterThread
  split
  · next hnone =>
    by_cases h : id' = id
    · rw [if_pos h, h, hnone]
    · rw [if_neg h]
  · rw [← herase]
    cases x.timer <;> rfl

theorem get_insert_eq (m : HashMap ℕ ℕ) (i i' n : ℕ) :
    (m.insert i n).get i' = if i' = i then some n else m.get i' := by
  by_cases h : i' = i
  · rw [if_pos h, h, HashMap.get_insert]
  · rw [if_neg h, HashMap.get_insert_ne _ _ h]

theorem get_erase_eq (m : HashMap ℕ ℕ) (i i' : ℕ) :
    (m.erase i).get i' = if i' = i then none else m.get i' := by
  by_cases h : i' = i
  · rw [if_pos h, h, HashMap.get_erase]
  · rw [if_neg h, HashMap.get_erase_ne _ h]

/-! ### The invariant of an orderly run -/

/-- A stage that any point of the installation allows. -/
def Stage.settled : Stage → Bool
  | .setNativeId _ | .registering | .delete false | .dummySetNativeId true | .dummyRegistering => false
  | _ => true

/-- A thread that the registry must have once the snapshot is replayed. -/
def Stage.enrolled : Stage → Bool
  | .unlisted | .running | .delete _ => true
  | _ => false

theorem Stage.present_of_held {stage : Stage} (h : stage.held = true) : stage.present = true := by
  cases stage <;> first | rfl | cases h

theorem Stage.present_of_enrolled {stage : Stage} (h : stage.enrolled = true) : stage.present = true := by
  cases stage <;> first | rfl | cases h

theorem Stage.present_of_listed {stage : Stage} (h : stage.listed = true) : stage.present = true := by
  cases stage <;> first | rfl | cases h

theorem Stage.present_of_calls {stage : Stage} (h : stage.calls = true) : stage.present = true := by
  cases stage <;> first | rfl | cases h

/-- What holds of a thread by itself at this point of the installation. -/
structure Fits (install : Install) (thread : Thread) : Prop where
  positive : thread.stage ≠ .new → thread.native ≠ 0
  named : thread.stage.named = true → thread.nativeId = some thread.native
  unpatched : install.hasSetNativeId = false →
    thread.stage ≠ .setNativeId true ∧ thread.stage ≠ .registering
  foreign : thread.stage ≠ .dummySetNativeId true ∧ thread.stage ≠ .dummyRegistering
  hooked : install.taken = true → thread.stage ≠ .setNativeId false ∧ thread.stage ≠ .delete false

structure Inv (s : State) : Prop where
  fits : ∀ t, Fits s.install (s.threads t)
  apart : ∀ t t', (s.threads t).stage.present = true → (s.threads t').stage.present = true →
    (s.threads t).ident = (s.threads t').ident → t = t'
  active : ∀ i t, s.active.get i = some t → (s.threads t).ident = i ∧
    ((s.threads t).stage.listed = true ∨ (s.threads t).stage.stray = true)
  listed : ∀ t, (s.threads t).stage.listed = true → s.active.get (s.threads t).ident = some t
  empty : s.install.hasSetNativeId = false → ∀ i, s.statics.live.get i = none
  sound : ∀ i n, s.statics.live.get i = some n →
    ∃ t, (s.threads t).ident = i ∧ (s.threads t).native = n ∧ (s.threads t).stage.held = true
  pending : ∀ i t, (i, t) ∈ s.install.pending → (s.threads t).ident = i ∧ (s.threads t).stage.held = true
  complete : s.install.taken = true → ∀ t, (s.threads t).stage.enrolled = true →
    s.statics.live.get (s.threads t).ident = some (s.threads t).native ∨
      ((s.threads t).ident, t) ∈ s.install.pending
  installer : ∀ t, s.installer = some t → (s.threads t).stage.calls = true

/- A stage that owes nothing to the point of the installation. -/
theorem Fits.settled {install : Install} {thread : Thread} (positive : thread.native ≠ 0)
    (named : thread.stage.named = true → thread.nativeId = some thread.native)
    (settled : thread.stage.settled = true) : Fits install thread := by
  refine ⟨fun _ => positive, named, fun _ => ⟨?_, ?_⟩, ⟨?_, ?_⟩, fun _ => ⟨?_, ?_⟩⟩
  all_goals
    intro heq
    rw [heq] at settled
    cases settled

/-- What the new entry of thread `t` owes to `_active`, which changes at its ident only. -/
structure Lists (s : State) (t : ℕ) (new : Thread) (active' : HashMap ℕ ℕ) : Prop where
  active : ∀ i, active'.get i = some t → new.ident = i ∧ (new.stage.listed = true ∨ new.stage.stray = true)
  listed : new.stage.listed = true → active'.get new.ident = some t
  activeOld : ∀ i t', t' ≠ t → active'.get i = some t' → s.active.get i = some t'
  activeKept : ∀ i, ((s.threads t).stage.present = true → i ≠ (s.threads t).ident) →
    active'.get i = s.active.get i

/-- What a step of thread `t` owes to the invariant otherwise; `LIVE` too changes at its ident only. -/
structure Moves (s : State) (t : ℕ) (new : Thread) (live' : HashMap ℕ ℕ) : Prop where
  fits : Fits s.install new
  ident : new.stage.present = true → ((s.threads t).stage.present = true ∧ new.ident = (s.threads t).ident) ∨
    ∀ t', (s.threads t').stage.present = true → (s.threads t').ident ≠ new.ident
  empty : s.install.hasSetNativeId = false → ∀ i, live'.get i = none
  sound : ∀ i n, live'.get i = some n → (new.ident = i ∧ new.native = n ∧ new.stage.held = true) ∨
    (s.statics.live.get i = some n ∧ ((s.threads t).ident = i → (s.threads t).stage.held = false))
  pending : ∀ i, (i, t) ∈ s.install.pending → new.ident = i ∧ new.stage.held = true
  complete : s.install.taken = true → new.stage.enrolled = true →
    live'.get new.ident = some new.native ∨ (new.ident, t) ∈ s.install.pending
  liveKept : ∀ i, ((s.threads t).stage.present = true → i ≠ (s.threads t).ident) →
    live'.get i = s.statics.live.get i
  installer : s.installer = some t → new.stage.calls = true

theorem put_threads (s : State) (t t' : ℕ) (thread : Thread) :
    (s.put t thread).threads t' = if t' = t then thread else s.threads t' := Function.update_apply ..

/- What holds of the new entry and of each other thread's old one holds of all. -/
theorem put_cases {s : State} {t : ℕ} {new : Thread} {P : ℕ → Thread → Prop} (entry : P t new)
    (old : ∀ t', t' ≠ t → P t' (s.threads t')) (t' : ℕ) : P t' ((s.put t new).threads t') := by
  rw [put_threads]
  split
  · next ht =>
    rw [ht]
    exact entry
  · next ht => exact old t' ht

theorem Moves.inv {s : State} {t : ℕ} {new : Thread} {active' : HashMap ℕ ℕ} {statics' : Statics}
    (h : Inv s) (hm : Moves s t new statics'.live) (hl : Lists s t new active') :
    Inv { s.put t new with active := active', statics := statics' } := by
  have hother : ∀ t', t' ≠ t → new.stage.present = true → (s.threads t').stage.present = true →
      new.ident ≠ (s.threads t').ident := by
    intro t' ht hn hp heq
    rcases hm.ident hn with ⟨hpt, hid⟩ | hfresh
    · exact ht (h.apart t' t hp hpt (heq.symm.trans hid))
    · exact hfresh t' hp heq.symm
  have hapart : ∀ t', t' ≠ t → (s.threads t').stage.present = true → (s.threads t).stage.present = true →
      (s.threads t').ident ≠ (s.threads t).ident := fun t' ht hp' hp heq => ht (h.apart t' t hp' hp heq)
  refine ⟨?_, fun t₁ => ?_, fun i => ?_, ?_, hm.empty, fun i n hi => ?_, fun i => ?_, fun htaken => ?_, ?_⟩
  · exact put_cases (P := fun _ thread => Fits s.install thread) hm.fits fun t' _ => h.fits t'
  · refine put_cases (P := fun t₁ one => ∀ t₂, one.stage.present = true →
      ((s.put t new).threads t₂).stage.present = true →
      one.ident = ((s.put t new).threads t₂).ident → t₁ = t₂) ?_ (fun t₁ ht₁ => ?_) t₁
    · exact put_cases (P := fun t₂ two => new.stage.present = true → two.stage.present = true →
        new.ident = two.ident → t = t₂) (fun _ _ _ => rfl)
        fun t₂ ht₂ hn hp he => (hother t₂ ht₂ hn hp he).elim
    · exact put_cases (P := fun t₂ two => (s.threads t₁).stage.present = true → two.stage.present = true →
        (s.threads t₁).ident = two.ident → t₁ = t₂)
        (fun hp hn he => (hother t₁ ht₁ hn hp he.symm).elim) fun t₂ _ => h.apart t₁ t₂
  · exact put_cases (P := fun t' thread => active'.get i = some t' → thread.ident = i ∧
      (thread.stage.listed = true ∨ thread.stage.stray = true)) (hl.active i)
      fun t' ht hi => h.active i t' (hl.activeOld i t' ht hi)
  · refine put_cases (P := fun t' thread => thread.stage.listed = true → active'.get thread.ident = some t')
      hl.listed fun t' ht hlisted => ?_
    rw [hl.activeKept _ (hapart t' ht (Stage.present_of_listed hlisted))]
    exact h.listed t' hlisted
  · show ∃ t', ((s.put t new).threads t').ident = i ∧ ((s.put t new).threads t').native = n ∧
      ((s.put t new).threads t').stage.held = true
    rcases hm.sound i n hi with hsound | ⟨hlive, hgone⟩
    · exact ⟨t, by rw [put_threads, if_pos rfl]; exact hsound⟩
    · obtain ⟨t', hid, hnative, hheld⟩ := h.sound i n hlive
      have ht : t' ≠ t := by
        rintro rfl
        exact Bool.false_ne_true ((hgone hid).symm.trans hheld)
      exact ⟨t', by rw [put_threads, if_neg ht]; exact ⟨hid, hnative, hheld⟩⟩
  · exact put_cases (P := fun t' thread => (i, t') ∈ s.install.pending → thread.ident = i ∧
      thread.stage.held = true) (hm.pending i) fun t' _ => h.pending i t'
  · refine put_cases (P := fun t' thread => thread.stage.enrolled = true →
      statics'.live.get thread.ident = some thread.native ∨ (thread.ident, t') ∈ s.install.pending)
      (hm.complete htaken) fun t' ht henrolled => ?_
    rw [hm.liveKept _ (hapart t' ht (Stage.present_of_enrolled henrolled))]
    exact h.complete htaken t' henrolled
  · exact put_cases (P := fun t' thread => s.installer = some t' → thread.stage.calls = true)
      hm.installer fun t' _ => h.installer t'

/-! ### The steps of the threads -/

section Moves
variable {s : State} {t : ℕ}

theorem Inv.patched_of_live (h : Inv s) {i n : ℕ} (hi : s.statics.live.get i = some n) :
    s.install.hasSetNativeId = true := by
  cases hp : s.install.hasSetNativeId with
  | true => rfl
  | false => exact nomatch (h.empty hp i).symm.trans hi

theorem Install.patched_of_pending {install : Install} {e : ℕ × ℕ} (h : e ∈ install.pending) :
    install.hasSetNativeId = true := by
  cases install <;> first | rfl | cases h

theorem Install.hasDelete_of_patched {install : Install} (h : install.hasSetNativeId = true) :
    install.hasDelete = true := by
  cases install <;> first | rfl | cases h

theorem Install.patched_of_taken {install : Install} (h : install.taken = true) :
    install.hasSetNativeId = true := by
  cases install <;> first | rfl | cases h

theorem Inv.not_installer (h : Inv s) (hstage : (s.threads t).stage.calls = false) :
    s.installer ≠ some t := by
  intro hi
  rw [h.installer t hi] at hstage
  cases hstage

/- `_active` has no entry of a thread at any other stage. -/
theorem Inv.unlisted (h : Inv s) (hlisted : (s.threads t).stage.listed = false)
    (hstray : (s.threads t).stage.stray = false) (i : ℕ) : s.active.get i ≠ some t := by
  intro hi
  rcases (h.active i t hi).2 with hyes | hyes
  · exact Bool.false_ne_true (hlisted.symm.trans hyes)
  · exact Bool.false_ne_true (hstray.symm.trans hyes)

theorem lists_same (h : Inv s) {new : Thread} (ident : new.ident = (s.threads t).ident)
    (listed : new.stage.listed = (s.threads t).stage.listed)
    (stray : (s.threads t).stage.stray = true → new.stage.stray = true) : Lists s t new s.active where
  active i hi := by
    obtain ⟨hid, hstage⟩ := h.active i t hi
    rw [listed]
    exact ⟨ident.trans hid, hstage.imp_right stray⟩
  listed hl := by
    rw [ident]
    exact h.listed t (listed.symm.trans hl)
  activeOld _ _ _ hi := hi
  activeKept _ _ := rfl

/- The old thread had no entry, so that the new one need not be like it. -/
theorem lists_none (h : Inv s) {new : Thread} (hlisted : (s.threads t).stage.listed = false)
    (hstray : (s.threads t).stage.stray = false) (notListed : new.stage.listed = false) :
    Lists s t new s.active where
  active i hi := (h.unlisted hlisted hstray i hi).elim
  listed hl := nomatch notListed.symm.trans hl
  activeOld _ _ _ hi := hi
  activeKept _ _ := rfl

theorem lists_insert (h : Inv s) {new : Thread} (present : (s.threads t).stage.present = true)
    (hlisted : (s.threads t).stage.listed = false) (hstray : (s.threads t).stage.stray = false)
    (ident : new.ident = (s.threads t).ident)
    (entry : new.stage.listed = true ∨ new.stage.stray = true) :
    Lists s t new (s.active.insert (s.threads t).ident t) := by
  have hget := get_insert_eq s.active (s.threads t).ident
  refine ⟨fun i hi => ?_, fun _ => ?_, fun i t' ht hi => ?_, fun i hi => ?_⟩
  · rw [hget] at hi
    split at hi
    · next heq => exact ⟨ident.trans heq.symm, entry⟩
    · exact (h.unlisted hlisted hstray i hi).elim
  · rw [ident, hget, if_pos rfl]
  · rw [hget] at hi
    split at hi
    · exact (ht (Option.some.inj hi).symm).elim
    · exact hi
  · rw [hget, if_neg (hi present)]

theorem lists_erase (h : Inv s) {new : Thread} (present : (s.threads t).stage.present = true)
    (notListed : new.stage.listed = false) : Lists s t new (s.active.erase (s.threads t).ident) := by
  have hget := get_erase_eq s.active (s.threads t).ident
  refine ⟨fun i hi => ?_, (fun hl => nomatch notListed.symm.trans hl), fun i t' _ hi => ?_,
    fun i hi => ?_⟩
  · rw [hget] at hi
    split at hi
    · cases hi
    · next hne => exact (hne (h.active i t hi).1.symm).elim
  · rw [hget] at hi
    split at hi
    · cases hi
    · exact hi
  · rw [hget, if_neg (hi present)]

/- A thread that the system has just made, of `threading` or not. -/
theorem born_moves (h : Inv s) (hstage : (s.threads t).stage = .new) {ident native : ℕ} {stage : Stage}
    (positive : native ≠ 0)
    (unused : ∀ t', (s.threads t').stage.present = true →
      (s.threads t').ident ≠ ident ∧ (s.threads t').native ≠ native)
    (born : stage = .limbo ∨ stage = .foreign) :
    Moves s t ⟨ident, native, none, stage⟩ s.statics.live where
  fits := by
    refine .settled positive (fun hnamed => ?_) ?_
    · rcases born with rfl | rfl <;> cases hnamed
    · rcases born with rfl | rfl <;> rfl
  ident _ := .inr fun t' hp => (unused t' hp).1
  empty := h.empty
  sound i n hi := .inr ⟨hi, fun _ => by rw [hstage]; rfl⟩
  pending i hi := by
    have hheld := (h.pending i t hi).2
    rw [hstage] at hheld
    cases hheld
  complete _ he := by
    rcases born with rfl | rfl <;> cases he
  liveKept _ _ := rfl
  installer hi := (h.not_installer (by rw [hstage]; rfl) hi).elim

/- A thread goes on by itself and leaves `LIVE` alone. -/
theorem goOn_moves (h : Inv s) {new : Thread} (fits : Fits s.install new)
    (present : (s.threads t).stage.present = true) (ident : new.ident = (s.threads t).ident)
    (native : new.native = (s.threads t).native)
    (held : (s.threads t).stage.held = true → s.install.hasSetNativeId = true → new.stage.held = true)
    (enrolled : s.install.taken = true → new.stage.enrolled = true → (s.threads t).stage.enrolled = true)
    (free : s.installer ≠ some t) : Moves s t new s.statics.live where
  fits := fits
  ident _ := .inl ⟨present, ident⟩
  empty := h.empty
  sound i n hi := by
    obtain ⟨t', hid, hnative, hheld⟩ := h.sound i n hi
    by_cases ht : t' = t
    · subst ht
      exact .inl ⟨ident.trans hid, native.trans hnative, held hheld (h.patched_of_live hi)⟩
    · refine .inr ⟨hi, fun heq => ?_⟩
      exact (ht (h.apart t' t (Stage.present_of_held hheld) present (hid.trans heq.symm))).elim
  pending i hi := by
    obtain ⟨hid, hheld⟩ := h.pending i t hi
    exact ⟨ident.trans hid, held hheld (Install.patched_of_pending hi)⟩
  complete ht he := by
    rw [ident, native]
    exact h.complete ht t (enrolled ht he)
  liveKept _ _ := rfl
  installer hi := (free hi).elim

/- A thread that the registry owes nothing goes on to a stage where it owes nothing. -/
theorem aside_moves (h : Inv s) {new : Thread} (fits : Fits s.install new)
    (present : (s.threads t).stage.present = true) (ident : new.ident = (s.threads t).ident)
    (native : new.native = (s.threads t).native) (notHeld : (s.threads t).stage.held = false)
    (notEnrolled : new.stage.enrolled = false) (free : s.installer ≠ some t) :
    Moves s t new s.statics.live :=
  goOn_moves h fits present ident native (fun hh => nomatch notHeld.symm.trans hh)
    (fun _ he => nomatch notEnrolled.symm.trans he) free

theorem Inv.positive (h : Inv s) (present : (s.threads t).stage.present = true) : (s.threads t).native ≠ 0 := by
  refine (h.fits t).positive fun hnew => ?_
  rw [hnew] at present
  cases present

theorem lookUpSetNativeId_moves (h : Inv s) (hstage : (s.threads t).stage = .limbo) :
    Moves s t { s.threads t with stage := .setNativeId s.install.hasSetNativeId } s.statics.live := by
  have hpresent : (s.threads t).stage.present = true := by rw [hstage]; rfl
  refine aside_moves h ⟨fun _ => h.positive hpresent, nofun, fun hp => ?_, ⟨nofun, nofun⟩, fun ht => ?_⟩
    hpresent rfl rfl (by rw [hstage]; rfl) rfl (h.not_installer (by rw [hstage]; rfl))
  · rw [hp]
    exact ⟨nofun, nofun⟩
  · rw [Install.patched_of_taken ht]
    exact ⟨nofun, nofun⟩

theorem setNativeId_moves (h : Inv s) {looked : Bool} (hstage : (s.threads t).stage = .setNativeId looked) :
    Moves s t { s.threads t with
      nativeId := some (s.threads t).native, stage := if looked then .registering else .unlisted }
      s.statics.live := by
  have hpresent : (s.threads t).stage.present = true := by rw [hstage]; rfl
  have hnotHeld : (s.threads t).stage.held = false := by rw [hstage]; rfl
  have hfree := h.not_installer (t := t) (by rw [hstage]; rfl)
  have hunpatched := (h.fits t).unpatched
  have hhooked := (h.fits t).hooked
  rw [hstage] at hunpatched hhooked
  cases looked with
  | true =>
    refine aside_moves h ⟨fun _ => h.positive hpresent, fun _ => rfl, fun hp => ?_, ⟨nofun, nofun⟩,
      fun _ => ⟨nofun, nofun⟩⟩ hpresent rfl rfl hnotHeld rfl hfree
    exact ((hunpatched hp).1 rfl).elim
  | false =>
    exact goOn_moves h (.settled (h.positive hpresent) (fun _ => rfl) rfl) hpresent rfl rfl
      (fun hh => nomatch hnotHeld.symm.trans hh) (fun ht => ((hhooked ht).1 rfl).elim) hfree

theorem register_moves (h : Inv s) (hstage : (s.threads t).stage = .registering) {native : ℕ}
    (hn : (s.threads t).nativeId = some native) :
    Moves s t { s.threads t with stage := .unlisted } (s.statics.live.insert (s.threads t).ident native) := by
  have hpresent : (s.threads t).stage.present = true := by rw [hstage]; rfl
  have hnamed := (h.fits t).named (by rw [hstage]; rfl)
  have hnative : native = (s.threads t).native := Option.some.inj (hn.symm.trans hnamed)
  have hpatched : s.install.hasSetNativeId ≠ false := fun hp => ((h.fits t).unpatched hp).2 hstage
  have hget := get_insert_eq s.statics.live (s.threads t).ident
  refine ⟨.settled (h.positive hpresent) (fun _ => hnamed) rfl, fun _ => .inl ⟨hpresent, rfl⟩,
    fun hp => (hpatched hp).elim, fun i n hi => ?_, fun i hi => ?_, fun _ _ => .inl ?_, fun i hi => ?_,
    fun hi => (h.not_installer (by rw [hstage]; rfl) hi).elim⟩
  · rw [hget] at hi
    split at hi
    · next heq => exact .inl ⟨heq.symm, hnative.symm.trans (Option.some.inj hi), rfl⟩
    · next hne => exact .inr ⟨hi, fun heq => (hne heq.symm).elim⟩
  · obtain ⟨hid, hheld⟩ := h.pending i t hi
    rw [hstage] at hheld
    cases hheld
  · rw [hget, if_pos rfl, hnative]
  · rw [hget, if_neg (hi hpresent)]

theorem enlist_moves (h : Inv s) (hstage : (s.threads t).stage = .unlisted) :
    Moves s t { s.threads t with stage := .running } s.statics.live := by
  have hpresent : (s.threads t).stage.present = true := by rw [hstage]; rfl
  exact goOn_moves h
    (.settled (h.positive hpresent) (fun _ => (h.fits t).named (by rw [hstage]; rfl)) rfl) hpresent rfl rfl
    (fun _ _ => rfl) (fun _ _ => by rw [hstage]; rfl) (h.not_installer (by rw [hstage]; rfl))

theorem lookUpDelete_moves (h : Inv s) (hstage : (s.threads t).stage = .running)
    (free : s.installer ≠ some t) :
    Moves s t { s.threads t with stage := .delete s.install.hasDelete } s.statics.live := by
  have hpresent : (s.threads t).stage.present = true := by rw [hstage]; rfl
  have hnamed := (h.fits t).named (by rw [hstage]; rfl)
  refine goOn_moves h ⟨fun _ => h.positive hpresent, fun _ => hnamed,
    fun _ => ⟨nofun, nofun⟩, ⟨nofun, nofun⟩, fun ht => ⟨nofun, ?_⟩⟩ hpresent rfl rfl
    (fun _ hp => ?_) (fun _ _ => by rw [hstage]; rfl) free
  · rw [Install.hasDelete_of_patched (Install.patched_of_taken ht)]
    exact nofun
  · rw [Install.hasDelete_of_patched hp]
    rfl

theorem delete_moves (h : Inv s) {looked : Bool} (hstage : (s.threads t).stage = .delete looked) :
    Moves s t { s.threads t with stage := if looked then .unregistering else .finished }
      s.statics.live := by
  have hpresent : (s.threads t).stage.present = true := by rw [hstage]; rfl
  have hnamed := (h.fits t).named (by rw [hstage]; rfl)
  have hfree := h.not_installer (t := t) (by rw [hstage]; rfl)
  cases looked with
  | true =>
    exact goOn_moves h (.settled (h.positive hpresent) (fun _ => hnamed) rfl) hpresent rfl rfl
      (fun _ _ => rfl) (fun _ => nofun) hfree
  | false =>
    exact aside_moves h (.settled (h.positive hpresent) (fun _ => hnamed) rfl) hpresent rfl rfl
      (by rw [hstage]; rfl) rfl hfree

theorem unregister_moves (h : Inv s) (hstage : (s.threads t).stage = .unregistering)
    (replayed : ((s.threads t).ident, t) ∉ s.install.pending) :
    Moves s t { s.threads t with stage := .finished }
      (Threads.unregisterThread (s.threads t).ident s.statics).live := by
  have hpresent : (s.threads t).stage.present = true := by rw [hstage]; rfl
  have hget := fun i => unregisterThread_get (s.threads t).ident i s.statics
  refine ⟨.settled (h.positive hpresent) (fun _ => (h.fits t).named (by rw [hstage]; rfl)) rfl,
    fun _ => .inl ⟨hpresent, rfl⟩, fun hp i => ?_, fun i n hi => ?_,
    fun i hi => ?_, fun _ => nofun, fun i hi => ?_,
    fun hi => (h.not_installer (by rw [hstage]; rfl) hi).elim⟩
  · rw [hget]
    split
    · rfl
    · exact h.empty hp i
  · rw [hget] at hi
    split at hi
    · cases hi
    · next hne => exact .inr ⟨hi, fun heq => (hne heq.symm).elim⟩
  · rw [← (h.pending i t hi).1] at hi
    exact (replayed hi).elim
  · rw [hget, if_neg (hi hpresent)]

theorem exit_moves (h : Inv s) (hstage : (s.threads t).stage = .finished) :
    Moves s t { s.threads t with stage := .gone } s.statics.live := by
  have hpresent : (s.threads t).stage.present = true := by rw [hstage]; rfl
  exact aside_moves h (.settled (h.positive hpresent) nofun rfl) hpresent rfl rfl (by rw [hstage]; rfl) rfl
    (h.not_installer (by rw [hstage]; rfl))

/- A dummy of an orderly run comes from the method that was replaced, and so is never registered. -/
theorem dummySetNativeId_moves (h : Inv s) {looked : Bool}
    (hstage : (s.threads t).stage = .dummySetNativeId looked) :
    Moves s t { s.threads t with
      nativeId := some (s.threads t).native
      stage := if looked then .dummyRegistering else .dummyUnlisted } s.statics.live := by
  have hpresent : (s.threads t).stage.present = true := by rw [hstage]; rfl
  have hforeign := (h.fits t).foreign.1
  rw [hstage] at hforeign
  cases looked with
  | true => exact (hforeign rfl).elim
  | false =>
    exact aside_moves h (.settled (h.positive hpresent) (fun _ => rfl) rfl) hpresent rfl rfl
      (by rw [hstage]; rfl) rfl (h.not_installer (by rw [hstage]; rfl))

end Moves

/-! ### The steps of the installation -/

section Install
variable {s : State}

/- Before the snapshot, a wrapper more and who installs them. -/
theorem patch_inv (h : Inv s) {install : Install} {installer : Option ℕ} (notTaken : install.taken = false)
    (hp : install.hasSetNativeId = false → s.install.hasSetNativeId = false)
    (calls : ∀ t, installer = some t → (s.threads t).stage.calls = true) :
    Inv { s with install, installer } where
  fits t := ⟨(h.fits t).positive, (h.fits t).named, fun hi => (h.fits t).unpatched (hp hi),
    (h.fits t).foreign, fun ht => nomatch notTaken.symm.trans ht⟩
  apart := h.apart
  active := h.active
  listed := h.listed
  empty hi := h.empty (hp hi)
  sound := h.sound
  pending i t hi := by
    cases install with
    | registering rest => cases notTaken
    | _ => cases hi
  complete ht := nomatch notTaken.symm.trans ht
  installer := calls

theorem snapshot_inv (h : Inv s) (order : IterOrder (ℕ × ℕ)) (orderly : Act.snapshot.Orderly s) :
    Inv { s with install := .registering (order.visit s.active.toList) } where
  fits t := ⟨(h.fits t).positive, (h.fits t).named, nofun, (h.fits t).foreign,
    fun _ => ⟨(orderly.1 t).1, (orderly.1 t).2.1⟩⟩
  apart := h.apart
  active := h.active
  listed := h.listed
  empty := nofun
  sound := h.sound
  pending i t hi := by
    have hmem : (i, t) ∈ s.active.toList := (order.mem_visit _ _).mp hi
    have hget := (s.active.mem_toList i t).mp hmem
    have hlisted := orderly.2 i t hget
    refine ⟨(h.active i t hget).1, ?_⟩
    have hlooked := (orderly.1 t).2.1
    revert hlisted hlooked
    show (s.threads t).stage.listed = true → _ → (s.threads t).stage.held = true
    cases (s.threads t).stage with
    | running => exact fun _ _ => rfl
    | delete looked =>
      cases looked with
      | true => exact fun _ _ => rfl
      | false => exact fun _ hlooked => (hlooked rfl).elim
    | _ => exact nofun
  complete _ t he := by
    cases hlisted : (s.threads t).stage.listed with
    | true =>
      exact .inr ((order.mem_visit _ _).mpr ((s.active.mem_toList _ _).mpr (h.listed t hlisted)))
    | false =>
      have hunlisted : (s.threads t).stage = .unlisted := by
        revert he hlisted
        show (s.threads t).stage.enrolled = true → (s.threads t).stage.listed = false → _
        cases (s.threads t).stage with
        | unlisted => exact fun _ _ => rfl
        | _ => exact nofun
      refine .inl (((orderly.1 t).2.2 hunlisted).trans ((h.fits t).named ?_))
      rw [hunlisted]
      rfl
  installer := h.installer

/- The snapshot has the thread that an entry is about, under its own ident. -/
theorem nativeId_eq (h : Inv s) {ident t : ℕ} (hpending : (ident, t) ∈ s.install.pending) :
    s.nativeId ident t = (s.threads t).native := by
  obtain ⟨hid, hheld⟩ := h.pending ident t hpending
  have hpresent := Stage.present_of_held hheld
  have hstarted : (s.threads t).stage ≠ .new := by
    intro hnew
    rw [hnew] at hpresent
    cases hpresent
  have hattribute : orIdent (s.threads t).nativeId ident = (s.threads t).native := by
    have hnamed : (s.threads t).stage.named = true := by
      revert hheld
      cases (s.threads t).stage <;> first | exact fun _ => rfl | exact nofun
    rw [(h.fits t).named hnamed]
    obtain ⟨n, hn⟩ := Nat.exists_eq_succ_of_ne_zero ((h.fits t).positive hstarted)
    rw [hn]
    rfl
  unfold State.nativeId
  split
  · next current hcurrent =>
    split
    · next heq =>
      have hcalls := h.installer current hcurrent
      have hsame : current = t :=
        h.apart current t (Stage.present_of_calls hcalls) hpresent (heq.trans hid.symm)
      rw [hsame]
    · exact hattribute
  · exact hattribute

theorem replay_inv (w : Externals) (h : Inv s) {ident t : ℕ} {rest : List (ℕ × ℕ)}
    (hinstall : s.install = .registering ((ident, t) :: rest)) :
    Inv { s with
      install := .registering rest
      statics := Threads.registerThread w ident (s.nativeId ident t) s.statics } := by
  have hmem : ∀ e, e ∈ s.install.pending ↔ e = (ident, t) ∨ e ∈ rest := by
    intro e
    rw [hinstall]
    exact List.mem_cons
  have hpending : (ident, t) ∈ s.install.pending := (hmem _).mpr (.inl rfl)
  have hnative := nativeId_eq h hpending
  obtain ⟨hid, hheld⟩ := h.pending ident t hpending
  have htaken : s.install.taken = true := by rw [hinstall]; rfl
  have hlive : ∀ i, (Threads.registerThread w ident (s.nativeId ident t) s.statics).live.get i =
      if i = ident then some (s.threads t).native else s.statics.live.get i := by
    intro i
    rw [registerThread_live, hnative]
    exact get_insert_eq _ _ _ _
  refine ⟨fun t' => ⟨(h.fits t').positive, (h.fits t').named, nofun, (h.fits t').foreign,
      fun _ => (h.fits t').hooked htaken⟩, h.apart, h.active, h.listed, nofun, fun i n hi => ?_,
    fun i t' hi => h.pending i t' ((hmem _).mpr (.inr hi)), fun _ t' he => ?_, h.installer⟩
  · rw [hlive] at hi
    split at hi
    · next heq => exact ⟨t, hid.trans heq.symm, Option.some.inj hi, hheld⟩
    · exact h.sound i n hi
  · rw [hlive]
    split
    · next heq =>
      have hsame := h.apart t' t (Stage.present_of_enrolled he) (Stage.present_of_held hheld)
        (heq.trans hid.symm)
      rw [hsame]
      exact .inl rfl
    · next hne =>
      refine (h.complete htaken t' he).imp_right fun hi => ?_
      rcases (hmem _).mp hi with heq | hrest
      · exact (hne (Prod.ext_iff.mp heq).1).elim
      · exact hrest

theorem leave_inv (h : Inv s) (hinstall : s.install = .registering []) :
    Inv { s with install := .installed, installer := none } where
  fits t := ⟨(h.fits t).positive, (h.fits t).named, nofun, (h.fits t).foreign,
    fun _ => (h.fits t).hooked (by rw [hinstall]; rfl)⟩
  apart := h.apart
  active := h.active
  listed := h.listed
  empty := nofun
  sound := h.sound
  pending := nofun
  complete _ t he := by
    rcases h.complete (by rw [hinstall]; rfl) t he with hlive | hpending
    · exact .inl hlive
    · rw [hinstall] at hpending
      cases hpending
  installer := nofun

end Install

theorem currentThread_inv {s : State} {t : ℕ} (h : Inv s)
    (hstage : (s.threads t).stage = .foreign ∨ (s.threads t).stage = .finished)
    (free : s.installer ≠ some t) (hp : s.install.hasSetNativeId = false) :
    Inv (s.put t { s.threads t with stage := .dummySetNativeId s.install.hasSetNativeId }) := by
  obtain ⟨hpresent, hheld, hlisted, hstray⟩ : (s.threads t).stage.present = true ∧
      (s.threads t).stage.held = false ∧ (s.threads t).stage.listed = false ∧
      (s.threads t).stage.stray = false := by
    rcases hstage with hs | hs <;> rw [hs] <;> exact ⟨rfl, rfl, rfl, rfl⟩
  rw [hp]
  have hfits : Fits s.install { s.threads t with stage := .dummySetNativeId false } :=
    .settled (h.positive hpresent) (fun hn => by cases hn) rfl
  have hmoves := aside_moves h hfits hpresent rfl rfl hheld rfl free
  exact hmoves.inv h (lists_none h hlisted hstray rfl)

theorem forget_inv {s : State} {t : ℕ} (h : Inv s) (hstage : (s.threads t).stage = .dummy)
    (free : s.installer ≠ some t) :
    Inv { s.put t { s.threads t with stage := .foreign } with
      active := if s.active.get (s.threads t).ident = some t then s.active.erase (s.threads t).ident
        else s.active } := by
  have hpresent : (s.threads t).stage.present = true := by rw [hstage]; rfl
  have hheld : (s.threads t).stage.held = false := by rw [hstage]; rfl
  have hfits : Fits s.install { s.threads t with stage := .foreign } :=
    .settled (h.positive hpresent) (fun hn => by cases hn) rfl
  have hmoves := aside_moves h hfits hpresent rfl rfl hheld rfl free
  refine hmoves.inv h ?_
  split
  · exact lists_erase h hpresent rfl
  · next hne =>
    refine ⟨fun i hi => ?_, fun hl => (by cases hl), fun _ _ _ hi => hi, fun _ _ => rfl⟩
    rw [(h.active i t hi).1] at hne
    exact (hne hi).elim

theorem depart_inv {s : State} {t : ℕ} (h : Inv s)
    (hstage : (s.threads t).stage = .foreign ∨ (s.threads t).stage = .dummy)
    (free : s.installer ≠ some t) : Inv (s.put t { s.threads t with stage := .gone }) := by
  obtain ⟨hpresent, hheld, hlisted⟩ : (s.threads t).stage.present = true ∧
      (s.threads t).stage.held = false ∧ (s.threads t).stage.listed = false := by
    rcases hstage with hs | hs <;> rw [hs] <;> exact ⟨rfl, rfl, rfl⟩
  have hfits : Fits s.install { s.threads t with stage := .gone } :=
    .settled (h.positive hpresent) (fun hn => by cases hn) rfl
  have hmoves := aside_moves h hfits hpresent rfl rfl hheld rfl free
  exact hmoves.inv h (lists_same h rfl hlisted.symm fun _ => rfl)

theorem step_inv {a : Act} {s s' : State} (h : Inv s) (hs : Step a s s') (ho : a.Orderly s) : Inv s' := by
  cases hs with
  | start hstage ident native positive unused =>
    exact (born_moves h hstage positive unused (.inl rfl)).inv h
      (lists_none h (by rw [hstage]; rfl) (by rw [hstage]; rfl) rfl)
  | lookUpSetNativeId hstage =>
    exact (lookUpSetNativeId_moves h hstage).inv h
      (lists_none h (by rw [hstage]; rfl) (by rw [hstage]; rfl) rfl)
  | @setNativeId _ t looked hstage =>
    exact (setNativeId_moves h hstage).inv h
      (lists_none h (by rw [hstage]; rfl) (by rw [hstage]; rfl) (by cases looked <;> rfl))
  | @register _ t native w hstage hn =>
    have hmoves := register_moves h hstage hn
    rw [← registerThread_live w] at hmoves
    exact hmoves.inv h (lists_none h (by rw [hstage]; rfl) (by rw [hstage]; rfl) rfl)
  | enlist hstage =>
    exact (enlist_moves h hstage).inv h (lists_insert h (by rw [hstage]; rfl) (by rw [hstage]; rfl)
      (by rw [hstage]; rfl) rfl (.inl rfl))
  | lookUpDelete hstage free =>
    exact (lookUpDelete_moves h hstage free).inv h
      (lists_same h rfl (by rw [hstage]; rfl) (by rw [hstage]; exact nofun))
  | @delete _ t looked hstage =>
    exact (delete_moves h hstage).inv h
      (lists_erase h (by rw [hstage]; rfl) (by cases looked <;> rfl))
  | unregister hstage =>
    exact (unregister_moves h hstage ho).inv h
      (lists_none h (by rw [hstage]; rfl) (by rw [hstage]; rfl) rfl)
  | exit hstage =>
    exact (exit_moves h hstage).inv h (lists_none h (by rw [hstage]; rfl) (by rw [hstage]; rfl) rfl)
  | attach hstage ident native positive unused =>
    exact (born_moves h hstage positive unused (.inr rfl)).inv h
      (lists_none h (by rw [hstage]; rfl) (by rw [hstage]; rfl) rfl)
  | currentThread hstage free unknown => exact currentThread_inv h hstage free ho
  | @dummySetNativeId _ t looked hstage =>
    exact (dummySetNativeId_moves h hstage).inv h
      (lists_none h (by rw [hstage]; rfl) (by rw [hstage]; rfl) (by cases looked <;> rfl))
  | dummyRegister w hstage hn => exact ((h.fits _).foreign.2 hstage).elim
  | @dummyEnlist _ t hstage =>
    have hpresent : (s.threads t).stage.present = true := by rw [hstage]; rfl
    have hmoves : Moves s t { s.threads t with stage := .dummy } s.statics.live :=
      aside_moves h (.settled (h.positive hpresent) (fun _ => (h.fits t).named (by rw [hstage]; rfl)) rfl)
        hpresent rfl rfl (by rw [hstage]; rfl) rfl (h.not_installer (by rw [hstage]; rfl))
    exact hmoves.inv h (lists_insert h hpresent (by rw [hstage]; rfl) (by rw [hstage]; rfl) rfl (.inr rfl))
  | forget hstage free => exact forget_inv h hstage free
  | depart hstage free => exact depart_inv h hstage free
  | @enter _ t hinstall calls =>
    refine patch_inv h rfl (fun _ => by rw [hinstall]; rfl) fun t' ht => ?_
    rw [← Option.some.inj ht]
    exact calls
  | patchDelete hinstall => exact patch_inv h rfl (fun _ => by rw [hinstall]; rfl) h.installer
  | patchSetNativeId hinstall => exact patch_inv h rfl nofun h.installer
  | snapshot order => exact snapshot_inv h order ho
  | replay w hinstall => exact replay_inv w h hinstall
  | leave hinstall => exact leave_inv h hinstall

theorem initial_inv {s : State} (h : Initial s) : Inv s := by
  obtain ⟨⟨hstage, hattribute, hpositive⟩, hothers, hactive, hinstall, hinstaller, hlive⟩ := h
  have hpresent : ∀ t, (s.threads t).stage.present = true → t = 0 := by
    intro t ht
    by_contra hne
    rw [hothers t hne] at ht
    cases ht
  have hnew : ∀ t, t ≠ 0 → (s.threads t).stage.listed = false := by
    intro t ht
    rw [hothers t ht]
    rfl
  refine ⟨fun t => ?_, fun t t' ht ht' _ => (hpresent t ht).trans (hpresent t' ht').symm,
    fun i t hi => ?_, fun t hl => ?_, fun _ i => ?_, fun i n hi => ?_, fun i t hi => ?_, fun ht => ?_,
    fun t hi => ?_⟩
  · by_cases ht : t = 0
    · subst ht
      exact .settled hpositive (fun _ => hattribute) (by rw [hstage]; rfl)
    · refine ⟨fun hne => (hne (hothers t ht)).elim, fun hnamed => ?_, ?_, ?_, ?_⟩
      · rw [hothers t ht] at hnamed
        cases hnamed
      all_goals simp [hothers t ht]
  · rw [hactive, get_insert_eq, HashMap.get_empty] at hi
    split at hi
    · next heq =>
      cases hi
      exact ⟨heq.symm, .inl (by rw [hstage]; rfl)⟩
    · cases hi
  · by_cases ht : t = 0
    · rw [hactive, ht, HashMap.get_insert]
    · exact nomatch (hnew t ht).symm.trans hl
  · rw [hlive, HashMap.get_empty]
  · rw [hlive, HashMap.get_empty] at hi
    cases hi
  · rw [hinstall] at hi
    cases hi
  · rw [hinstall] at ht
    cases ht
  · rw [hinstaller] at hi
    cases hi

theorem reachable_inv {s : State} (h : Reachable Initial OrderlyRun s) : Inv s :=
  h.invariant (fun _ hs => initial_inv hs) fun _ _ hi ⟨_, hs, ho⟩ => step_inv hi hs ho

/-! ### The registry when all is through -/

/-- In an orderly run the registry ends up with the threads that are alive. -/
theorem registry_exact {s : State} (h : Reachable Initial OrderlyRun s) (settled : Settled s) :
    Exact s := by
  have hinv := reachable_inv h
  obtain ⟨hinstalled, hhooks⟩ := settled
  intro ident native
  constructor
  · intro hlive
    obtain ⟨t, hid, hnative, hheld⟩ := hinv.sound ident native hlive
    have hnot := (hhooks t).2.1
    have hstages : (s.threads t).stage.named = true ∧ (s.threads t).stage.alive = true := by
      revert hheld hnot
      cases (s.threads t).stage with
      | unregistering => exact fun _ hnot => (hnot rfl).elim
      | unlisted => exact fun _ _ => ⟨rfl, rfl⟩
      | running => exact fun _ _ => ⟨rfl, rfl⟩
      | delete looked => exact fun _ _ => ⟨rfl, rfl⟩
      | _ => exact nofun
    exact ⟨t, hid, hnative ▸ (hinv.fits t).named hstages.1, hstages.2⟩
  · rintro ⟨t, rfl, hattribute, halive⟩
    have hnot := (hhooks t).1
    have hstages : (s.threads t).stage.named = true ∧ (s.threads t).stage.enrolled = true := by
      revert halive hnot
      cases (s.threads t).stage with
      | registering => exact fun _ hnot => (hnot rfl).elim
      | unlisted => exact fun _ _ => ⟨rfl, rfl⟩
      | running => exact fun _ _ => ⟨rfl, rfl⟩
      | delete looked => exact fun _ _ => ⟨rfl, rfl⟩
      | _ => exact nofun
    obtain rfl := Option.some.inj (((hinv.fits t).named hstages.1).symm.trans hattribute)
    rcases hinv.complete (by rw [hinstalled]; rfl) t hstages.2 with hlive | hpending
    · exact hlive
    · rw [hinstalled] at hpending
      cases hpending

/- Before anything is installed; only `live` matters here. -/
def untouched (live : HashMap ℕ ℕ) : Statics := ⟨⟨[], .dfl, false, false, false, [], 0, fun _ => none,
  fun _ => none, 0, [], fun _ => .idle⟩, [], Metrics.zero, false, live, none, none⟩

def answers : Externals := ⟨.ok (), .ok (), true, .ok (), fun _ _ => .ok (), fun _ _ => .ok (),
  .stored _, 1, 100⟩

def mainThread : Thread := ⟨1, 100, some 100, .running⟩

def unborn : Thread := ⟨0, 0, none, .new⟩

/- The main thread and four more. -/
def threads (one two three four : Thread) : ℕ → Thread
  | 0 => mainThread
  | 1 => one
  | 2 => two
  | 3 => three
  | 4 => four
  | _ => unborn

theorem forall_threads {P : ℕ → Thread → Prop} {one two three four : Thread} (zero : P 0 mainThread)
    (h₁ : P 1 one) (h₂ : P 2 two) (h₃ : P 3 three) (h₄ : P 4 four) (rest : ∀ t, P t unborn) :
    ∀ t, P t (threads one two three four t)
  | 0 => zero
  | 1 => h₁
  | 2 => h₂
  | 3 => h₃
  | 4 => h₄
  | t + 5 => rest (t + 5)

def mainOnly : State :=
  ⟨threads unborn unborn unborn unborn, HashMap.empty.insert 1 0, .before, none, untouched HashMap.empty⟩

theorem mainOnly_initial : Initial mainOnly := by
  refine ⟨⟨rfl, rfl, by decide⟩, ?_, rfl, rfl, rfl, rfl⟩
  exact forall_threads (P := fun t thread => t ≠ 0 → thread.stage = .new) (fun h => (h rfl).elim)
    (fun _ => rfl) (fun _ => rfl) (fun _ => rfl) (fun _ => rfl) fun _ _ => rfl

/- The same state with its threads written out. -/
theorem restart {R : State → State → Prop} {s : State} (h : Reachable Initial R s)
    (one two three four : Thread) (same : ∀ t, s.threads t = threads one two three four t) :
    Reachable Initial R { s with threads := threads one two three four } := by
  rw [← funext same]
  exact h

/- Thread 1 has started under the old methods; thread 4 is of C code and has passed the old
`_set_native_id` on its way into `_active`. -/
theorem firstThreads_run : Reachable Initial OrderlyRun
    { mainOnly with
      threads := threads ⟨2, 200, some 200, .running⟩ unborn unborn ⟨4, 500, some 500, .dummyUnlisted⟩
      active := mainOnly.active.insert 2 1 } := by
  have h : Reachable Initial OrderlyRun mainOnly := .init mainOnly_initial
  have h := h.step ⟨_, .start (t := 1) rfl 2 200 (by decide)
    (forall_threads (P := fun _ thread => thread.stage.present = true → thread.ident ≠ 2 ∧ thread.native ≠ 200)
      (fun _ => by decide) nofun nofun nofun nofun fun _ => nofun), trivial⟩
  have h := h.step ⟨_, .lookUpSetNativeId (t := 1) rfl, trivial⟩
  have h := h.step ⟨_, .setNativeId (t := 1) rfl, trivial⟩
  have h := h.step ⟨_, .enlist (t := 1) rfl, trivial⟩
  have h := restart h ⟨2, 200, some 200, .running⟩ unborn unborn unborn
    fun | 0 | 1 | 2 | 3 | 4 => rfl | _ + 5 => rfl
  have h := h.step ⟨_, .attach (t := 4) rfl 4 500 (by decide)
    (forall_threads (P := fun _ thread => thread.stage.present = true → thread.ident ≠ 4 ∧ thread.native ≠ 500)
      (fun _ => by decide) (fun _ => by decide) nofun nofun nofun fun _ => nofun), trivial⟩
  have h := h.step ⟨_, .currentThread (t := 4) (.inl rfl) (by nofun) rfl, rfl⟩
  have h := h.step ⟨_, .dummySetNativeId (t := 4) rfl, trivial⟩
  exact restart h ⟨2, 200, some 200, .running⟩ unborn unborn ⟨4, 500, some 500, .dummyUnlisted⟩
    fun | 0 | 1 | 2 | 3 | 4 => rfl | _ + 5 => rfl

/- Thread 1 is registered by the replay and exits; another takes its ident and registers
itself before the installation is through. Thread 4 enters `_active` after the snapshot. -/
theorem registry_exact_runs : ∃ s : State, s.statics.live.get 2 = some 300 ∧
    s.threads 4 = ⟨4, 500, some 500, .dummy⟩ ∧ Exact s := by
  have h := firstThreads_run
  have h := h.step ⟨_, .enter (t := 0) rfl rfl, trivial⟩
  have h := h.step ⟨_, .patchDelete rfl, trivial⟩
  have h := h.step ⟨_, .patchSetNativeId rfl, trivial⟩
  have h := h.step ⟨_, .snapshot (.stored _) rfl,
    forall_threads (P := fun _ thread => thread.stage ≠ .setNativeId false ∧ thread.stage ≠ .delete false ∧
      (thread.stage = .unlisted → HashMap.empty.get thread.ident = thread.nativeId))
      ⟨nofun, nofun, nofun⟩ ⟨nofun, nofun, nofun⟩ ⟨nofun, nofun, nofun⟩ ⟨nofun, nofun, nofun⟩
      ⟨nofun, nofun, nofun⟩ fun _ => ⟨nofun, nofun, nofun⟩, fun i t hi => by
        change ((HashMap.empty.insert 1 0).insert 2 1).get i = some t at hi
        rw [get_insert_eq, get_insert_eq, HashMap.get_empty] at hi
        split at hi
        · cases hi
          rfl
        · split at hi <;> cases hi
          rfl⟩
  have h := h.step ⟨_, .replay answers rfl, trivial⟩
  have h := h.step ⟨_, .dummyEnlist (t := 4) rfl, trivial⟩
  have h := h.step ⟨_, .lookUpDelete (t := 1) rfl (by nofun), trivial⟩
  have h := h.step ⟨_, .delete (t := 1) rfl, trivial⟩
  have h := h.step ⟨_, .unregister (t := 1) rfl, show ((2 : ℕ), 1) ∉ [(1, 0)] by decide⟩
  have h := h.step ⟨_, .exit (t := 1) rfl, trivial⟩
  have h := restart h ⟨2, 200, some 200, .gone⟩ unborn unborn ⟨4, 500, some 500, .dummy⟩
    fun | 0 | 1 | 2 | 3 | 4 => rfl | _ + 5 => rfl
  have h := h.step ⟨_, .start (t := 2) rfl 2 300 (by decide)
    (forall_threads (P := fun _ thread => thread.stage.present = true → thread.ident ≠ 2 ∧ thread.native ≠ 300)
      (fun _ => by decide) nofun nofun nofun (fun _ => by decide) fun _ => nofun), trivial⟩
  have h := h.step ⟨_, .lookUpSetNativeId (t := 2) rfl, trivial⟩
  have h := h.step ⟨_, .setNativeId (t := 2) rfl, trivial⟩
  have h := h.step ⟨_, .register (t := 2) answers rfl rfl, trivial⟩
  have h := h.step ⟨_, .replay answers rfl, trivial⟩
  have h := h.step ⟨_, .leave rfl, trivial⟩
  have h := restart h ⟨2, 200, some 200, .gone⟩ ⟨2, 300, some 300, .unlisted⟩ unborn
    ⟨4, 500, some 500, .dummy⟩ fun | 0 | 1 | 2 | 3 | 4 => rfl | _ + 5 => rfl
  refine ⟨_, rfl, rfl, registry_exact h ⟨rfl, ?_⟩⟩
  exact forall_threads (P := fun _ thread => thread.stage ≠ .registering ∧ thread.stage ≠ .unregistering ∧
      thread.stage ≠ .dummyRegistering) ⟨nofun, nofun, nofun⟩ ⟨nofun, nofun, nofun⟩ ⟨nofun, nofun, nofun⟩
    ⟨nofun, nofun, nofun⟩ ⟨nofun, nofun, nofun⟩ fun _ => ⟨nofun, nofun, nofun⟩

/-- Thread 1 is in the snapshot and gone before its turn; thread 2 has its ident by then and
loses its entry to it. Thread 3 passed the old `_set_native_id` and is in no table when the
snapshot is taken. Thread 4, of C code, has a `_DummyThread` in the snapshot and keeps its
entry for good, although it has ended. -/
theorem registration_lost : ∃ s : State, Reachable Initial Run s ∧ Settled s ∧
    (s.threads 2 = ⟨2, 300, some 300, .running⟩ ∧ s.statics.live.get 2 = some 200) ∧
    (s.threads 3 = ⟨3, 400, some 400, .running⟩ ∧ s.statics.live.get 3 = none) ∧
    (s.threads 4 = ⟨4, 500, some 500, .gone⟩ ∧ s.statics.live.get 4 = some 500) ∧ ¬Exact s := by
  have h := firstThreads_run.mono fun _ _ ⟨a, hs, _⟩ => (⟨a, hs⟩ : Run _ _)
  have h := h.step ⟨_, .dummyEnlist (t := 4) rfl⟩
  have h := restart h ⟨2, 200, some 200, .running⟩ unborn unborn ⟨4, 500, some 500, .dummy⟩
    fun | 0 | 1 | 2 | 3 | 4 => rfl | _ + 5 => rfl
  have h := h.step ⟨_, .start (t := 3) rfl 3 400 (by decide)
    (forall_threads (P := fun _ thread => thread.stage.present = true → thread.ident ≠ 3 ∧ thread.native ≠ 400)
      (fun _ => by decide) (fun _ => by decide) nofun nofun (fun _ => by decide) fun _ => nofun)⟩
  have h := h.step ⟨_, .lookUpSetNativeId (t := 3) rfl⟩
  have h := h.step ⟨_, .enter (t := 0) rfl rfl⟩
  have h := h.step ⟨_, .patchDelete rfl⟩
  have h := h.step ⟨_, .patchSetNativeId rfl⟩
  have h := h.step ⟨_, .snapshot (.stored _) rfl⟩
  have h := h.step ⟨_, .depart (t := 4) (.inr rfl) (by nofun)⟩
  have h := h.step ⟨_, .setNativeId (t := 3) rfl⟩
  have h := h.step ⟨_, .enlist (t := 3) rfl⟩
  have h := restart h ⟨2, 200, some 200, .running⟩ unborn ⟨3, 400, some 400, .running⟩
    ⟨4, 500, some 500, .gone⟩ fun | 0 | 1 | 2 | 3 | 4 => rfl | _ + 5 => rfl
  have h := h.step ⟨_, .lookUpDelete (t := 1) rfl (by nofun)⟩
  have h := h.step ⟨_, .delete (t := 1) rfl⟩
  have h := h.step ⟨_, .unregister (t := 1) rfl⟩
  have h := h.step ⟨_, .exit (t := 1) rfl⟩
  have h := restart h ⟨2, 200, some 200, .gone⟩ unborn ⟨3, 400, some 400, .running⟩
    ⟨4, 500, some 500, .gone⟩ fun | 0 | 1 | 2 | 3 | 4 => rfl | _ + 5 => rfl
  have h := h.step ⟨_, .start (t := 2) rfl 2 300 (by decide)
    (forall_threads (P := fun _ thread => thread.stage.present = true → thread.ident ≠ 2 ∧ thread.native ≠ 300)
      (fun _ => by decide) nofun nofun (fun _ => by decide) nofun fun _ => nofun)⟩
  have h := h.step ⟨_, .lookUpSetNativeId (t := 2) rfl⟩
  have h := h.step ⟨_, .setNativeId (t := 2) rfl⟩
  have h := h.step ⟨_, .register (t := 2) answers rfl rfl⟩
  have h := h.step ⟨_, .enlist (t := 2) rfl⟩
  have h := restart h ⟨2, 200, some 200, .gone⟩ ⟨2, 300, some 300, .running⟩ ⟨3, 400, some 400, .running⟩
    ⟨4, 500, some 500, .gone⟩ fun | 0 | 1 | 2 | 3 | 4 => rfl | _ + 5 => rfl
  have h := h.step ⟨_, .replay answers rfl⟩
  have h := h.step ⟨_, .replay answers rfl⟩
  have h := h.step ⟨_, .replay answers rfl⟩
  have h := h.step ⟨_, .leave rfl⟩
  refine ⟨_, h, ⟨rfl, ?_⟩, ⟨rfl, rfl⟩, ⟨rfl, rfl⟩, ⟨rfl, rfl⟩, fun hexact => ?_⟩
  · exact forall_threads (P := fun _ thread => thread.stage ≠ .registering ∧ thread.stage ≠ .unregistering ∧
        thread.stage ≠ .dummyRegistering) ⟨nofun, nofun, nofun⟩ ⟨nofun, nofun, nofun⟩ ⟨nofun, nofun, nofun⟩
      ⟨nofun, nofun, nofun⟩ ⟨nofun, nofun, nofun⟩ fun _ => ⟨nofun, nofun, nofun⟩
  · exact nomatch (hexact 3 400).mpr ⟨3, rfl, rfl, rfl⟩

end Pyroscope.Signal.ThreadHooks
