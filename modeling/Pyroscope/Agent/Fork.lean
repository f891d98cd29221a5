import Pyroscope.Agent.Configure

/-!
# The fork hook in the child (lib.rs, forksafety.rs, ffikit.rs, stack/mod.rs)

Of all threads only the one that forked is left. A mutex that another thread held stays
held, and what that thread was writing stays half written. The child can still go on,
because each mutex is replaced before the first step that enters it.
-/

namespace Pyroscope.Agent.Fork
open Pyroscope.Lib Pyroscope.Encode Pyroscope.Agent.Configure

/-! ### Leakable mutexes -/

/-- `value` is `none` while it is half written. -/
structure Mutex (T : Type) where
  value : Option T
  held : Bool
  poisoned : Bool

def Mutex.new {T : Type} (value : T) : Mutex T := ⟨some value, false, false⟩

/-- `current` is what the pointer points to, `leaked` what it pointed to before. The
address of a mutex is the number of mutexes allocated before it. -/
structure LeakableMutex (T : Type) where
  leaked : List (Mutex T)
  current : Option (Mutex T)

namespace LeakableMutex
variable {T : Type}

def allocations (m : LeakableMutex T) : List (Mutex T) := m.leaked ++ m.current.toList

/-- allocates on first use -/
def mutex (default : T) (m : LeakableMutex T) : Mutex T := m.current.getD (.new default)

def address (m : LeakableMutex T) : ℕ := m.leaked.length

def leakAndReset (default : T) (m : LeakableMutex T) : LeakableMutex T :=
  ⟨m.allocations, some (.new default)⟩

end LeakableMutex

/-! ### The statics -/

inductive Name where
  | state
  | stringTable
  | memory
  | wall
  | oncpu
  deriving DecidableEq

abbrev Name.Contents : Name → Type
  | .state => Lifecycle.AgentState
  | .stringTable => StringTable
  | .memory => PProfBuilder MemoryProfile
  | .wall => PProfBuilder CpuWallProfile
  | .oncpu => PProfBuilder CpuProfile

def Name.default : (n : Name) → n.Contents
  | .state => .idle
  | .stringTable => StringTable.new
  | .memory => PProfBuilder.new
  | .wall => PProfBuilder.new
  | .oncpu => PProfBuilder.new

inductive Access where
  | lock (n : Name) (address : ℕ)
  /-- the contents are dropped -/
  | drop (n : Name) (address : ℕ)

def Access.name : Access → Name
  | .lock n _ => n
  | .drop n _ => n

def Access.address : Access → ℕ
  | .lock _ a => a
  | .drop _ a => a

/-- `accesses` are those of the hook. -/
structure Child where
  mutexes : (n : Name) → LeakableMutex n.Contents
  agentRunning : Bool
  started : Bool
  stoppedOnce : Bool
  accesses : List Access

def Child.ofParent (parent : Child) : Child := { parent with accesses := [] }

/-! ### The hook -/

/-- A lock that nobody in the child will ever release. -/
structure Waits where
  on : Name

abbrev Hook : Type := Call Child Waits Unit

def Child.put (c : Child) (n : Name) (m : LeakableMutex n.Contents) : Child :=
  { c with mutexes := Function.update c.mutexes n m }

@[simp] theorem Child.put_self (c : Child) (n : Name) (m : LeakableMutex n.Contents) :
    (c.put n m).mutexes n = m := Function.update_self ..

theorem Child.put_ne (c : Child) {n n' : Name} (m : LeakableMutex n.Contents) (h : n' ≠ n) :
    (c.put n m).mutexes n' = c.mutexes n' := Function.update_of_ne h ..

def leakAndReset (n : Name) : Hook := .modify fun c =>
  c.put n ((c.mutexes n).leakAndReset n.default)

/-- `lock()`, an update of the contents, and the release. -/
def locked (n : Name) (enter : Mutex n.Contents → Mutex n.Contents) : Hook := fun c =>
  let m := c.mutexes n
  let mutex := m.mutex n.default
  if mutex.held then (.error ⟨n⟩, c)
  else (.ok (), { c.put n { m with current := some (enter mutex) } with
    accesses := c.accesses ++ [.lock n m.address] })

/-- `lock().unwrap_or_else(|e| e.into_inner())`: poison does not matter. -/
def update {T : Type} (f : T → T) (m : Mutex T) : Mutex T := { m with value := m.value.map f }

/-- `if let Ok(guard) = lock()` -/
def updateOk {T : Type} (f : T → T) (m : Mutex T) : Mutex T :=
  if m.poisoned then m else update f m

/-- What `memalloc_stop` does to the Rust side before it returns. -/
inductive MemallocCall where
  | intern (f : StringTable → StringTable)
  | push (f : PProfBuilder MemoryProfile → PProfBuilder MemoryProfile)

/-- What stopping the sampler does to the Rust side before it returns. -/
inductive SamplerCall where
  | intern (f : StringTable → StringTable)
  | pushWall (f : PProfBuilder CpuWallProfile → PProfBuilder CpuWallProfile)
  | pushOncpu (f : PProfBuilder CpuProfile → PProfBuilder CpuProfile)

/-- `memalloc_heap_postfork_child` keeps to the C++ side. -/
structure Externals where
  memallocStop : List MemallocCall
  samplerStop : List SamplerCall

def MemallocCall.hook : MemallocCall → Hook
  | .intern f => locked .stringTable (updateOk f)
  | .push f => locked .memory (updateOk f)

def SamplerCall.hook : SamplerCall → Hook
  | .intern f => locked .stringTable (updateOk f)
  | .pushWall f => locked .wall (updateOk f)
  | .pushOncpu f => locked .oncpu (updateOk f)

def sequence : List Hook → Hook
  | [] => pure ()
  | h :: hs => do
    h
    sequence hs

def memoryPostforkChild : Hook := leakAndReset .memory

def memoryClearSamples : Hook := locked .memory (update PProfBuilder.reset)

def memoryStop (ext : Externals) : Hook := do
  sequence (ext.memallocStop.map MemallocCall.hook)
  memoryClearSamples

def stackPostforkChild : Hook := do
  leakAndReset .wall
  leakAndReset .oncpu

def stackClearSamples : Hook := do
  locked .wall (update PProfBuilder.reset)
  locked .oncpu (update PProfBuilder.reset)

/-- `STARTED.swap(false)`; there is no other thread to take the GIL meanwhile. -/
def samplerStop (ext : Externals) : Hook := fun c =>
  if c.started then
    (do
      sequence (ext.samplerStop.map SamplerCall.hook)
      .modify fun c => { c with stoppedOnce := true }) { c with started := false }
  else (.ok (), c)

def stackStop (ext : Externals) : Hook := do
  samplerStop ext
  stackClearSamples

def internerPostforkChild : Hook := leakAndReset .stringTable

/-- `*st = StringTable::new()` drops the old table. -/
def internerClear : Hook := do
  locked .stringTable (update fun _ => StringTable.new)
  .modify fun c =>
    { c with accesses := c.accesses ++ [.drop .stringTable (c.mutexes .stringTable).address] }

def stopProfilers (ext : Externals) : Hook := do
  memoryStop ext
  stackStop ext
  internerClear

def ffikitAtForkAfterInChild : Hook := leakAndReset .state

def atForkAfterInChild (ext : Externals) : Hook := do
  memoryPostforkChild
  stackPostforkChild
  internerPostforkChild
  stopProfilers ext
  ffikitAtForkAfterInChild
  .modify fun c => { c with agentRunning := false }

/-! ### What the hook has done so far -/

def Name.Cleared : (n : Name) → n.Contents → Prop
  | .state, v => v = .idle
  | .stringTable, v => v = StringTable.new
  | .memory, b => Emptied ⟨b, false, []⟩
  | .wall, b => Emptied ⟨b, false, []⟩
  | .oncpu, b => Emptied ⟨b, false, []⟩

theorem Name.default_cleared (n : Name) : n.Cleared n.default := by
  cases n with
  | state => rfl
  | stringTable => rfl
  | memory => exact ⟨rfl, rfl, rfl, rfl, rfl, rfl, rfl, rfl⟩
  | wall => exact ⟨rfl, rfl, rfl, rfl, rfl, rfl, rfl, rfl⟩
  | oncpu => exact ⟨rfl, rfl, rfl, rfl, rfl, rfl, rfl, rfl⟩

/-- The mutexes in `replaced` are new, free and whole, those in `cleared` have nothing in
them, and the inherited ones are as they were; `stopped` says whether `STARTED` is. -/
structure Since (parent : Child) (replaced cleared : List Name) (stopped : Bool) (c : Child) : Prop where
  fresh : ∀ n ∈ replaced, ∃ v, (c.mutexes n).current = some (.new v) ∧ (n ∈ cleared → n.Cleared v)
  leaked : ∀ n ∈ replaced, (parent.mutexes n).allocations <+: (c.mutexes n).leaked
  rest : ∀ n, n ∉ replaced → c.mutexes n = parent.mutexes n
  accesses : ∀ a ∈ c.accesses, (parent.mutexes a.name).allocations.length ≤ a.address
  started : stopped = true → c.started = false

section Since
variable {parent : Child} {replaced cleared cleared' : List Name} {stopped : Bool}

theorem Since.start (parent : Child) : Since parent [] [] false (Child.ofParent parent) :=
  ⟨nofun, nofun, fun _ _ => rfl, nofun, nofun⟩

theorem Since.weaken {c : Child} (h : Since parent replaced cleared stopped c)
    (hsub : ∀ n, n ∈ cleared' → n ∈ cleared) : Since parent replaced cleared' stopped c := by
  refine ⟨fun n hn => ?_, h.leaked, h.rest, h.accesses, h.started⟩
  obtain ⟨v, hv, hc⟩ := h.fresh n hn
  exact ⟨v, hv, fun hm => hc (hsub n hm)⟩

theorem Since.put {c : Child} (h : Since parent replaced cleared stopped c) {n : Name}
    {m : LeakableMutex n.Contents} {v : n.Contents} (hcurrent : m.current = some (.new v))
    (hcleared : n ∈ cleared' → n.Cleared v)
    (hleaked : (parent.mutexes n).allocations <+: m.leaked)
    (hsub : ∀ n', n' ≠ n → n' ∈ cleared' → n' ∈ cleared) :
    Since parent (n :: replaced) cleared' stopped (c.put n m) := by
  refine ⟨fun n' hn => ?_, fun n' hn => ?_, fun n' hn => ?_, h.accesses, h.started⟩
  · by_cases he : n' = n
    · subst he
      exact ⟨v, by rw [Child.put_self, hcurrent], hcleared⟩
    · obtain ⟨v', hv, hc⟩ := h.fresh n' ((List.mem_cons.mp hn).resolve_left he)
      exact ⟨v', by rw [Child.put_ne _ _ he, hv], fun hm => hc (hsub n' he hm)⟩
  · by_cases he : n' = n
    · subst he
      rwa [Child.put_self]
    · rw [Child.put_ne _ _ he]
      exact h.leaked n' ((List.mem_cons.mp hn).resolve_left he)
  · have he : n' ≠ n := fun he => hn (he ▸ List.mem_cons_self ..)
    rw [Child.put_ne _ _ he]
    exact h.rest n' fun hm => hn (List.mem_cons_of_mem _ hm)

theorem Since.access {c : Child} (h : Since parent replaced cleared stopped c) (a : Access)
    (ha : (parent.mutexes a.name).allocations.length ≤ a.address) :
    Since parent replaced cleared stopped { c with accesses := c.accesses ++ [a] } := by
  refine ⟨h.fresh, h.leaked, h.rest, fun a' ha' => ?_, h.started⟩
  rcases List.mem_append.mp ha' with hold | hnew
  · exact h.accesses a' hold
  · rwa [List.mem_singleton.mp hnew]

theorem Since.again {c : Child} {n : Name} (h : Since parent (n :: replaced) cleared stopped c)
    (hn : n ∈ replaced) : Since parent replaced cleared stopped c :=
  ⟨fun n' hn' => h.fresh n' (List.mem_cons_of_mem _ hn'),
    fun n' hn' => h.leaked n' (List.mem_cons_of_mem _ hn'),
    fun n' hn' => h.rest n' fun hm =>
      hn' ((List.mem_cons.mp hm).elim (fun he => he ▸ hn) fun hm => hm), h.accesses, h.started⟩

theorem leakAndReset_since (n : Name) :
    Call.Ensures (Since parent replaced cleared stopped) (leakAndReset n)
      (fun _ => Since parent (n :: replaced) (n :: cleared) stopped) fun _ _ => False := by
  refine .modify fun c h => h.put (v := n.default) rfl (fun _ => n.default_cleared) ?_
    fun n' he hm => (List.mem_cons.mp hm).resolve_left he
  show _ <+: (c.mutexes n).allocations
  by_cases hf : n ∈ replaced
  · exact (h.leaked n hf).trans (List.prefix_append _ _)
  · rw [h.rest n hf]

/- A replaced mutex is free, and its address is none of the parent's. -/
theorem locked_since {n : Name} (hn : n ∈ replaced) {enter : Mutex n.Contents → Mutex n.Contents}
    (henter : ∀ v, ∃ w, enter (.new v) = .new w ∧ (n ∈ cleared' → n.Cleared w))
    (hsub : ∀ n', n' ≠ n → n' ∈ cleared' → n' ∈ cleared) :
    Call.Ensures (Since parent replaced cleared stopped) (locked n enter)
      (fun _ => Since parent replaced cleared' stopped) fun _ _ => False := by
  intro c h
  obtain ⟨v, hv, -⟩ := h.fresh n hn
  obtain ⟨w, hw, hcleared⟩ := henter v
  have hmutex : (c.mutexes n).mutex n.default = .new v := by
    rw [LeakableMutex.mutex, hv]
    rfl
  have hleaked := h.leaked n hn
  rw [locked]
  dsimp only
  rw [hmutex, if_neg (show ¬(Mutex.new v).held = true from Bool.false_ne_true), hw]
  have hput := h.put (m := { c.mutexes n with current := some (.new w) }) rfl hcleared hleaked hsub
  exact (hput.again hn).access (.lock n (c.mutexes n).address) hleaked.length_le

theorem sequence_since {hooks : List Hook}
    (h : ∀ hook ∈ hooks, Call.Ensures (Since parent replaced cleared stopped) hook
      (fun _ => Since parent replaced cleared stopped) fun _ _ => False) :
    Call.Ensures (Since parent replaced cleared stopped) (sequence hooks)
      (fun _ => Since parent replaced cleared stopped) fun _ _ => False := by
  induction hooks with
  | nil => exact .pure fun _ hc => hc
  | cons hook hooks ih =>
    exact .bind (h hook (List.mem_cons_self ..)) fun _ =>
      ih fun hook' hm => h hook' (List.mem_cons_of_mem _ hm)

/-! ### The pieces of the hook -/

theorem MemallocCall.since (hs : Name.stringTable ∈ replaced) (hm : Name.memory ∈ replaced)
    (hs' : Name.stringTable ∉ cleared) (hm' : Name.memory ∉ cleared) (call : MemallocCall) :
    Call.Ensures (Since parent replaced cleared stopped) call.hook
      (fun _ => Since parent replaced cleared stopped) fun _ _ => False := by
  cases call with
  | intern f =>
    exact locked_since hs (fun v => ⟨f v, rfl, fun h => (hs' h).elim⟩) fun _ _ h => h
  | push f =>
    exact locked_since hm (fun v => ⟨f v, rfl, fun h => (hm' h).elim⟩) fun _ _ h => h

theorem SamplerCall.since (hs : Name.stringTable ∈ replaced) (hw : Name.wall ∈ replaced)
    (ho : Name.oncpu ∈ replaced) (hs' : Name.stringTable ∉ cleared) (hw' : Name.wall ∉ cleared)
    (ho' : Name.oncpu ∉ cleared) (call : SamplerCall) :
    Call.Ensures (Since parent replaced cleared stopped) call.hook
      (fun _ => Since parent replaced cleared stopped) fun _ _ => False := by
  cases call with
  | intern f =>
    exact locked_since hs (fun v => ⟨f v, rfl, fun h => (hs' h).elim⟩) fun _ _ h => h
  | pushWall f =>
    exact locked_since hw (fun v => ⟨f v, rfl, fun h => (hw' h).elim⟩) fun _ _ h => h
  | pushOncpu f =>
    exact locked_since ho (fun v => ⟨f v, rfl, fun h => (ho' h).elim⟩) fun _ _ h => h

/-- What the three `postfork_child` replace. -/
def replacedFirst : List Name := [.stringTable, .oncpu, .wall, .memory]

theorem memoryStop_since (ext : Externals) :
    Call.Ensures (Since parent replacedFirst [] stopped) (memoryStop ext)
      (fun _ => Since parent replacedFirst [.memory] stopped) fun _ _ => False := by
  refine .bind (Q := fun _ => Since parent replacedFirst [] stopped)
    (sequence_since fun hook hm => ?_) fun _ => ?_
  · obtain ⟨call, -, rfl⟩ := List.mem_map.mp hm
    exact call.since (by decide) (by decide) (by decide) (by decide)
  · exact locked_since (by decide)
      (fun v => ⟨v.reset, rfl, fun _ => clearSamples_emptied ⟨v, false, []⟩⟩)
      fun n hn hm => (hn (List.mem_singleton.mp hm)).elim

theorem samplerStop_since (ext : Externals) :
    Call.Ensures (Since parent replacedFirst [.memory] false) (samplerStop ext)
      (fun _ => Since parent replacedFirst [.memory] true) fun _ _ => False := by
  have hstop : Call.Ensures (Since parent replacedFirst [.memory] true)
      (sequence (ext.samplerStop.map SamplerCall.hook))
      (fun _ => Since parent replacedFirst [.memory] true) fun _ _ => False := by
    refine sequence_since fun hook hm => ?_
    obtain ⟨call, -, rfl⟩ := List.mem_map.mp hm
    exact call.since (by decide) (by decide) (by decide) (by decide) (by decide) (by decide)
  have hstop' := hstop.bind (f := fun _ => .modify fun c => { c with stoppedOnce := true })
    (S := fun _ => Since parent replacedFirst [.memory] true) fun _ => .modify fun c h =>
      ⟨h.fresh, h.leaked, h.rest, h.accesses, h.started⟩
  intro c h
  rw [samplerStop]
  split
  · exact hstop' { c with started := false } ⟨h.fresh, h.leaked, h.rest, h.accesses, fun _ => rfl⟩
  · rename_i hoff
    exact ⟨h.fresh, h.leaked, h.rest, h.accesses, fun _ => eq_false_of_ne_true hoff⟩

theorem stackClearSamples_since :
    Call.Ensures (Since parent replacedFirst [.memory] stopped) stackClearSamples
      (fun _ => Since parent replacedFirst [.oncpu, .wall, .memory] stopped) fun _ _ => False := by
  refine .bind (Q := fun _ => Since parent replacedFirst [.wall, .memory] stopped) ?_ fun _ => ?_
  · exact locked_since (by decide)
      (fun v => ⟨v.reset, rfl, fun _ => clearSamples_emptied ⟨v, false, []⟩⟩)
      fun n hn hm => (List.mem_cons.mp hm).resolve_left hn
  · exact locked_since (by decide)
      (fun v => ⟨v.reset, rfl, fun _ => clearSamples_emptied ⟨v, false, []⟩⟩)
      fun n hn hm => (List.mem_cons.mp hm).resolve_left hn

theorem internerClear_since (hs : Name.stringTable ∈ replaced) :
    Call.Ensures (Since parent replaced cleared stopped) internerClear
      (fun _ => Since parent replaced (.stringTable :: cleared) stopped) fun _ _ => False := by
  refine .bind (Q := fun _ => Since parent replaced (.stringTable :: cleared) stopped) ?_ fun _ => ?_
  · exact locked_since hs (fun v => ⟨StringTable.new, rfl, fun _ => rfl⟩)
      fun n hn hm => (List.mem_cons.mp hm).resolve_left hn
  · exact .modify fun c h => h.access _ (h.leaked _ hs).length_le

theorem stopProfilers_since (ext : Externals) :
    Call.Ensures (Since parent replacedFirst cleared false) (stopProfilers ext)
      (fun _ => Since parent replacedFirst [.stringTable, .oncpu, .wall, .memory] true)
      fun _ _ => False := by
  refine .bind (Q := fun _ => Since parent replacedFirst [.memory] false) ?_ fun _ => ?_
  · exact (memoryStop_since ext).conseq (fun _ h => h.weaken nofun) (fun _ _ h => h) fun _ _ h => h
  · have hstack : Call.Ensures (Since parent replacedFirst [.memory] false) (stackStop ext)
        (fun _ => Since parent replacedFirst [.oncpu, .wall, .memory] true) fun _ _ => False :=
      .bind (samplerStop_since ext) fun _ => stackClearSamples_since
    exact .bind hstack fun _ => internerClear_since (by decide)

end Since

structure Afresh (parent c : Child) : Prop where
  state : (c.mutexes .state).current = some (.new .idle)
  stringTable : (c.mutexes .stringTable).current = some (.new StringTable.new)
  memory : ∃ b, (c.mutexes .memory).current = some (.new b) ∧ Emptied ⟨b, false, []⟩
  wall : ∃ b, (c.mutexes .wall).current = some (.new b) ∧ Emptied ⟨b, false, []⟩
  oncpu : ∃ b, (c.mutexes .oncpu).current = some (.new b) ∧ Emptied ⟨b, false, []⟩
  agentRunning : c.agentRunning = false
  started : c.started = false
  inherited : ∀ n, (parent.mutexes n).allocations <+: (c.mutexes n).leaked
  accesses : ∀ a ∈ c.accesses, (parent.mutexes a.name).allocations.length ≤ a.address

theorem Since.afresh {parent c : Child}
    (h : Since parent (.state :: replacedFirst) [.state, .stringTable, .oncpu, .wall, .memory] true c)
    (hrunning : c.agentRunning = false) : Afresh parent c := by
  have hall : ∀ n, n ∈ Name.state :: replacedFirst := by
    intro n
    cases n <;> decide
  have hclear : ∀ n, n ∈ [Name.state, .stringTable, .oncpu, .wall, .memory] := by
    intro n
    cases n <;> decide
  have hcurrent : ∀ n, ∃ v, (c.mutexes n).current = some (.new v) ∧ n.Cleared v := by
    intro n
    obtain ⟨v, hv, hc⟩ := h.fresh n (hall n)
    exact ⟨v, hv, hc (hclear n)⟩
  constructor
  case state =>
    obtain ⟨v, hv, rfl⟩ := hcurrent .state
    exact hv
  case stringTable =>
    obtain ⟨v, hv, rfl⟩ := hcurrent .stringTable
    exact hv
  case memory => exact hcurrent .memory
  case wall => exact hcurrent .wall
  case oncpu => exact hcurrent .oncpu
  case agentRunning => exact hrunning
  case started => exact h.started rfl
  case inherited => exact fun n => h.leaked n (hall n)
  case accesses => exact h.accesses

/- What the parent was doing does not matter: whatever its mutexes held and whoever held
them, the hook ends, and it has entered and dropped only what it made itself. -/
theorem hook_ends_afresh (ext : Externals) (parent : Child) :
    ∃ c, atForkAfterInChild ext (Child.ofParent parent) = (.ok (), c) ∧ Afresh parent c := by
  have h : Call.Ensures (Since parent [] [] false) (atForkAfterInChild ext)
      (fun _ => Afresh parent) fun _ _ => False := by
    refine .bind (leakAndReset_since .memory) fun _ => ?_
    refine .bind (.bind (leakAndReset_since .wall) fun _ => leakAndReset_since .oncpu) fun _ => ?_
    refine .bind (leakAndReset_since .stringTable) fun _ => ?_
    refine .bind (stopProfilers_since ext) fun _ => ?_
    refine .bind (leakAndReset_since .state) fun _ => ?_
    exact .modify fun c h => Since.afresh ⟨h.fresh, h.leaked, h.rest, h.accesses, h.started⟩ rfl
  obtain ⟨_, c, hrun, hc⟩ := h.succeeds (Since.start parent)
  exact ⟨c, hrun, hc⟩

end Pyroscope.Agent.Fork
