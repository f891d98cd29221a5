import Mathlib.Logic.Relation
import Mathlib.Data.Nat.Notation
import Mathlib.Logic.Function.Basic
import Pyroscope.Lib.Transition

/-!
# Threads that share locks

A thread is the code it still has to run. A step of it takes a lock, gives one back, waits
for the end of another thread, starts one, or acts on the shared state. Locks and threads
are ranked on one scale, a thread like a lock that it has for all its life. Code is ordered
if it waits only for what ranks above the thread and the locks in its hands, and gives locks
back in reverse. Ordered threads never wait for each other in a circle.
-/

namespace Pyroscope.Lib.Locking

/-- `act` goes on with the state it found; `answer` with a value from outside. -/
inductive Code (T L σ A : Type) where
  | done
  | acquire (l : L) (next : Code T L σ A)
  | release (l : L) (next : Code T L σ A)
  | join (t : T) (next : Code T L σ A)
  | spawn (t : T) (code next : Code T L σ A)
  | act (f : σ → σ) (next : σ → Code T L σ A)
  | answer (next : A → Code T L σ A)

inductive Status (T L σ A : Type) where
  | absent
  | running (code : Code T L σ A)
  | ended

structure State (T L σ A : Type) where
  threads : T → Status T L σ A
  owner : L → Option T
  shared : σ

/-! ### Programs -/

/-- A program is told what comes after it. -/
def Prog (T L σ A α : Type) : Type := (α → Code T L σ A) → Code T L σ A

namespace Prog
variable {T L σ A α β : Type}

instance : Monad (Prog T L σ A) where
  pure a := fun k => k a
  bind p f := fun k => p fun a => f a k

def code (p : Prog T L σ A Unit) : Code T L σ A := p fun _ => .done

def acquire (l : L) : Prog T L σ A Unit := fun k => .acquire l (k ())

def release (l : L) : Prog T L σ A Unit := fun k => .release l (k ())

def join (t : T) : Prog T L σ A Unit := fun k => .join t (k ())

def spawn (t : T) (code : Code T L σ A) : Prog T L σ A Unit := fun k => .spawn t code (k ())

def get : Prog T L σ A σ := fun k => .act id k

def modify (f : σ → σ) : Prog T L σ A Unit := fun k => .act f fun _ => k ()

def answer : Prog T L σ A A := fun k => .answer k

def locked (l : L) (p : Prog T L σ A α) : Prog T L σ A α := do
  acquire l
  let a ← p
  release l
  pure a

/-- The lock is given back for a while. -/
def unlocked (l : L) (p : Prog T L σ A α) : Prog T L σ A α := do
  release l
  let a ← p
  acquire l
  pure a

def when (b : Bool) (p : Prog T L σ A Unit) : Prog T L σ A Unit := if b then p else pure ()

def times : ℕ → Prog T L σ A Unit → Prog T L σ A Unit
  | 0, _ => pure ()
  | n + 1, p => do
    p
    times n p

def each (f : α → Prog T L σ A Unit) : List α → Prog T L σ A Unit
  | [] => pure ()
  | a :: as => do
    f a
    each f as

end Prog

/-! ### Steps -/

section Steps
variable {T L σ A : Type} [DecidableEq T] [DecidableEq L]

def State.run (s : State T L σ A) (t : T) (code : Code T L σ A) : State T L σ A :=
  { s with threads := Function.update s.threads t (.running code) }

/-- One step of thread `t`. A thread that is done may begin something new or end. -/
inductive Step (begins : T → σ → Code T L σ A → Prop) (ends : T → σ → Prop) (t : T) :
    State T L σ A → State T L σ A → Prop where
  | start {s} (h : s.threads t = .running .done) {code} (next : begins t s.shared code) :
    Step begins ends t s (s.run t code)
  | finish {s} (h : s.threads t = .running .done) (last : ends t s.shared) :
    Step begins ends t s { s with threads := Function.update s.threads t .ended }
  | acquire {s l next} (h : s.threads t = .running (.acquire l next)) (free : s.owner l = none) :
    Step begins ends t s { s.run t next with owner := Function.update s.owner l (some t) }
  | release {s l next} (h : s.threads t = .running (.release l next)) :
    Step begins ends t s { s.run t next with owner := Function.update s.owner l none }
  | join {s u next} (h : s.threads t = .running (.join u next)) (finished : s.threads u = .ended) :
    Step begins ends t s (s.run t next)
  | spawn {s u code next} (h : s.threads t = .running (.spawn u code next)) (new : s.threads u = .absent) :
    Step begins ends t s ((s.run t next).run u code)
  | act {s f next} (h : s.threads t = .running (.act f next)) :
    Step begins ends t s { s.run t (next s.shared) with shared := f s.shared }
  | answer {s next} (h : s.threads t = .running (.answer next)) (a : A) :
    Step begins ends t s (s.run t (next a))

def Run (begins : T → σ → Code T L σ A → Prop) (ends : T → σ → Prop) (s s' : State T L σ A) : Prop :=
  ∃ t, Step begins ends t s s'

/-- `t` cannot go on before `u` gives something up: a lock, or its life. -/
inductive Waits (s : State T L σ A) (t u : T) : Prop where
  | lock {l next} (h : s.threads t = .running (.acquire l next)) (held : s.owner l = some u)
  | thread {next} (h : s.threads t = .running (.join u next)) (alive : s.threads u ≠ .ended)

/-- Threads that wait for each other in a circle. -/
def Deadlock (s : State T L σ A) : Prop := ∃ t, Relation.TransGen (Waits s) t t

end Steps

/-! ### Ordered code -/

section Ordered
variable {T L σ A : Type} (rank : L → ℕ) (level : T → ℕ)

/-- Above the thread itself and the locks it has. -/
def Above (me : ℕ) (held : List L) (r : ℕ) : Prop := me < r ∧ ∀ l ∈ held, rank l < r

/-- Code for a thread of level `me` that has the locks `held`, the last one first. -/
def Code.Ordered (me : ℕ) : List L → Code T L σ A → Prop
  | held, .done => held = []
  | held, .acquire l next => Above rank me held (rank l) ∧ Ordered me (l :: held) next
  | held, .release l next => ∃ rest, held = l :: rest ∧ Ordered me rest next
  | held, .join t next => Above rank me held (level t) ∧ Ordered me held next
  | held, .spawn t code next => Ordered (level t) [] code ∧ Ordered me held next
  | held, .act _ next => ∀ s, Ordered me held (next s)
  | held, .answer next => ∀ a, Ordered me held (next a)

/-- From `held` the program comes to `held'`, in order. -/
def Prog.Keeps {α : Type} (me : ℕ) (held : List L) (p : Prog T L σ A α) (held' : List L) : Prop :=
  ∀ k, (∀ a, (k a).Ordered rank level me held') → (p k).Ordered rank level me held

namespace Prog.Keeps
variable {rank level} {α β : Type} {me : ℕ} {held held' held'' : List L} {l : L}

theorem pure {a : α} : (Pure.pure a : Prog T L σ A α).Keeps rank level me held held :=
  fun _ hk => hk a

theorem bind {p : Prog T L σ A α} {f : α → Prog T L σ A β} (hp : p.Keeps rank level me held held')
    (hf : ∀ a, (f a).Keeps rank level me held' held'') : (p >>= f).Keeps rank level me held held'' :=
  fun k hk => hp (fun a => f a k) fun a => hf a k hk

theorem acquire (h : Above rank me held (rank l)) :
    (Prog.acquire l : Prog T L σ A Unit).Keeps rank level me held (l :: held) :=
  fun _ hk => ⟨h, hk ()⟩

theorem release : (Prog.release l : Prog T L σ A Unit).Keeps rank level me (l :: held) held :=
  fun _ hk => ⟨held, rfl, hk ()⟩

theorem join {t : T} (h : Above rank me held (level t)) :
    (Prog.join t : Prog T L σ A Unit).Keeps rank level me held held :=
  fun _ hk => ⟨h, hk ()⟩

theorem spawn {t : T} {code : Code T L σ A} (h : code.Ordered rank level (level t) []) :
    (Prog.spawn t code : Prog T L σ A Unit).Keeps rank level me held held :=
  fun _ hk => ⟨h, hk ()⟩

theorem get : (Prog.get : Prog T L σ A σ).Keeps rank level me held held := fun _ hk => hk

theorem modify {f : σ → σ} : (Prog.modify f : Prog T L σ A Unit).Keeps rank level me held held :=
  fun _ hk _ => hk ()

theorem answer : (Prog.answer : Prog T L σ A A).Keeps rank level me held held := fun _ hk => hk

theorem locked {p : Prog T L σ A α} (h : Above rank me held (rank l))
    (hp : p.Keeps rank level me (l :: held) (l :: held)) :
    (Prog.locked l p).Keeps rank level me held held :=
  bind (acquire h) fun _ => bind hp fun _ => bind release fun _ => pure

theorem unlocked {p : Prog T L σ A α} (h : Above rank me held (rank l))
    (hp : p.Keeps rank level me held held) :
    (Prog.unlocked l p).Keeps rank level me (l :: held) (l :: held) :=
  bind release fun _ => bind hp fun _ => bind (acquire h) fun _ => pure

theorem when {p : Prog T L σ A Unit} (hp : p.Keeps rank level me held held) (b : Bool) :
    (Prog.when b p).Keeps rank level me held held := by
  cases b with
  | true => exact hp
  | false => exact pure

theorem times {p : Prog T L σ A Unit} (hp : p.Keeps rank level me held held) (n : ℕ) :
    (Prog.times n p).Keeps rank level me held held := by
  induction n with
  | zero => exact pure
  | succ n ih => exact bind hp fun _ => ih

theorem each {f : α → Prog T L σ A Unit} (hf : ∀ a, (f a).Keeps rank level me held held) (as : List α) :
    (Prog.each f as).Keeps rank level me held held := by
  induction as with
  | nil => exact pure
  | cons a as ih => exact bind (hf a) fun _ => ih

theorem code {p : Prog T L σ A Unit} (hp : p.Keeps rank level me [] []) :
    p.code.Ordered rank level me [] :=
  hp _ fun _ => rfl

end Prog.Keeps

/-! ### Ordered threads do not wait in a circle -/

def Status.Ordered (me : ℕ) (held : List L) : Status T L σ A → Prop
  | .running code => code.Ordered rank level me held
  | _ => held = []

structure Holds (owner : L → Option T) (t : T) (held : List L) : Prop where
  nodup : held.Nodup
  mem : ∀ l, l ∈ held ↔ owner l = some t

def Inv (s : State T L σ A) : Prop :=
  ∀ t, ∃ held, Holds s.owner t held ∧ (s.threads t).Ordered rank level (level t) held

/-- Nobody has a lock and nobody has begun anything. -/
def Still (s : State T L σ A) : Prop :=
  (∀ l, s.owner l = none) ∧ ∀ t, s.threads t = .absent ∨ s.threads t = .running .done

variable {rank level}

theorem Still.inv {s : State T L σ A} (h : Still s) : Inv rank level s := by
  intro t
  refine ⟨[], ⟨List.nodup_nil, fun l => ?_⟩, ?_⟩
  · rw [h.1 l]
    exact ⟨nofun, nofun⟩
  · rcases h.2 t with ht | ht
    · rw [ht]
      exact rfl
    · rw [ht]
      exact rfl

theorem Inv.ordered {s : State T L σ A} (h : Inv rank level s) {t : T} {code : Code T L σ A}
    (ht : s.threads t = .running code) :
    ∃ held, Holds s.owner t held ∧ code.Ordered rank level (level t) held := by
  obtain ⟨held, hheld, hordered⟩ := h t
  rw [ht] at hordered
  exact ⟨held, hheld, hordered⟩

section Steps
variable [DecidableEq T] [DecidableEq L] {begins : T → σ → Code T L σ A → Prop} {ends : T → σ → Prop}
  {s s' : State T L σ A} {t : T}

omit [DecidableEq L] in
/- Only thread `t` moves, and no other thread loses or gains a lock. -/
theorem Inv.moves (h : Inv rank level s) (shared : σ) {owner : L → Option T}
    (kept : ∀ u, u ≠ t → ∀ held, Holds s.owner u held → Holds owner u held) {held : List L}
    (hheld : Holds owner t held) (status : Status T L σ A) (hstatus : status.Ordered rank level (level t) held) :
    Inv rank level { s with threads := Function.update s.threads t status, owner, shared } := by
  intro u
  show ∃ held, Holds owner u held ∧ (Function.update s.threads t status u).Ordered rank level (level u) held
  by_cases hu : u = t
  · subst hu
    rw [Function.update_self]
    exact ⟨held, hheld, hstatus⟩
  · rw [Function.update_of_ne hu]
    obtain ⟨heldu, hheldu, hordered⟩ := h u
    exact ⟨heldu, kept u hu heldu hheldu, hordered⟩

omit [DecidableEq L] in
theorem Inv.run (h : Inv rank level s) {held : List L} (shared : σ) (hheld : Holds s.owner t held)
    {code : Code T L σ A} (hcode : code.Ordered rank level (level t) held) :
    Inv rank level { s.run t code with shared } :=
  h.moves shared (fun _ _ _ hh => hh) hheld (.running code) hcode

omit [DecidableEq T] in
theorem Holds.other {owner : L → Option T} {u : T} {held : List L} (h : Holds owner u held) {l : L}
    {o : Option T} (ho : o ≠ some u) (free : owner l ≠ some u) :
    Holds (Function.update owner l o) u held := by
  refine ⟨h.nodup, fun l' => ?_⟩
  by_cases hl : l' = l
  · subst hl
    rw [Function.update_self, h.mem]
    exact ⟨fun hh => (free hh).elim, fun hh => (ho hh).elim⟩
  · rw [Function.update_of_ne hl]
    exact h.mem l'

omit [DecidableEq T] in
theorem Holds.acquire {owner : L → Option T} {held : List L} (h : Holds owner t held) {l : L}
    (free : owner l = none) : Holds (Function.update owner l (some t)) t (l :: held) := by
  have hnew : l ∉ held := fun hl => nomatch free.symm.trans ((h.mem l).mp hl)
  refine ⟨List.nodup_cons.mpr ⟨hnew, h.nodup⟩, fun l' => ?_⟩
  by_cases hl : l' = l
  · subst hl
    rw [Function.update_self]
    exact ⟨fun _ => rfl, fun _ => List.mem_cons_self⟩
  · rw [Function.update_of_ne hl, List.mem_cons, or_iff_right hl]
    exact h.mem l'

omit [DecidableEq T] in
theorem Holds.release {owner : L → Option T} {rest : List L} {l : L} (h : Holds owner t (l :: rest)) :
    Holds (Function.update owner l none) t rest := by
  obtain ⟨hnew, hnodup⟩ := List.nodup_cons.mp h.nodup
  refine ⟨hnodup, fun l' => ?_⟩
  by_cases hl : l' = l
  · subst hl
    rw [Function.update_self]
    exact ⟨fun hh => (hnew hh).elim, nofun⟩
  · rw [Function.update_of_ne hl, ← h.mem, List.mem_cons, or_iff_right hl]

/- A lock changes hands between thread `t` and nobody. -/
theorem Inv.handOver (h : Inv rank level s) {l : L} {o : Option T} (ho : ∀ u, u ≠ t → o ≠ some u)
    (free : ∀ u, u ≠ t → s.owner l ≠ some u) {held : List L}
    (hheld : Holds (Function.update s.owner l o) t held) {code : Code T L σ A}
    (hcode : code.Ordered rank level (level t) held) :
    Inv rank level { s.run t code with owner := Function.update s.owner l o } :=
  h.moves s.shared (fun u hu _ hh => hh.other (ho u hu) (free u hu)) hheld (.running code) hcode

theorem step_inv (hbegins : ∀ t x code, begins t x code → code.Ordered rank level (level t) [])
    (h : Inv rank level s) (hs : Step begins ends t s s') : Inv rank level s' := by
  cases hs with
  | start ht next =>
    obtain ⟨held, hheld, rfl⟩ := h.ordered ht
    exact h.run s.shared hheld (hbegins t s.shared _ next)
  | finish ht last =>
    obtain ⟨held, hheld, rfl⟩ := h.ordered ht
    exact h.moves s.shared (fun _ _ _ hh => hh) hheld .ended rfl
  | acquire ht free =>
    obtain ⟨held, hheld, -, hnext⟩ := h.ordered ht
    refine h.handOver (fun u hu ho => hu (Option.some.inj ho).symm) (fun u _ ho => ?_)
      (hheld.acquire free) hnext
    exact nomatch free.symm.trans ho
  | @release l next ht =>
    obtain ⟨held, hheld, rest, rfl, hnext⟩ := h.ordered ht
    have howner : s.owner l = some t := (hheld.mem l).mp List.mem_cons_self
    refine h.handOver (fun _ _ => by nofun) (fun u hu ho => ?_) hheld.release hnext
    exact hu (Option.some.inj (howner.symm.trans ho)).symm
  | join ht finished =>
    obtain ⟨held, hheld, -, hnext⟩ := h.ordered ht
    exact h.run s.shared hheld hnext
  | @spawn u code next ht new =>
    obtain ⟨held, hheld, hcode, hnext⟩ := h.ordered ht
    have hinv : Inv rank level (s.run t next) := h.run s.shared hheld hnext
    obtain ⟨heldu, hheldu, hordered⟩ := h u
    rw [new] at hordered
    obtain rfl : heldu = [] := hordered
    exact hinv.run s.shared hheldu hcode
  | act ht =>
    obtain ⟨held, hheld, hnext⟩ := h.ordered ht
    exact h.run _ hheld (hnext s.shared)
  | answer ht a =>
    obtain ⟨held, hheld, hnext⟩ := h.ordered ht
    exact h.run s.shared hheld (hnext a)

end Steps

variable (rank level) in
/-- The rank of what a thread waits for. Along a chain of waiting threads it grows. -/
def key (s : State T L σ A) (t : T) : ℕ :=
  match s.threads t with
  | .running (.acquire l _) => rank l
  | .running (.join u _) => level u
  | _ => 0

/- A waiting thread waits for something above itself and above each of its locks. -/
theorem Waits.above {s : State T L σ A} (hi : Inv rank level s) {t u : T} (h : Waits s t u) :
    ∃ held, Holds s.owner t held ∧ Above rank (level t) held (key rank level s t) := by
  cases h with
  | lock ht _ =>
    obtain ⟨held, hheld, habove, -⟩ := hi.ordered ht
    unfold key
    rw [ht]
    exact ⟨held, hheld, habove⟩
  | thread ht _ =>
    obtain ⟨held, hheld, habove, -⟩ := hi.ordered ht
    unfold key
    rw [ht]
    exact ⟨held, hheld, habove⟩

theorem Waits.key_lt {s : State T L σ A} (hi : Inv rank level s) {t u v : T} (h : Waits s t u)
    (hu : Waits s u v) : key rank level s t < key rank level s u := by
  obtain ⟨held, hheld, hself, hlocks⟩ := hu.above hi
  cases h with
  | @lock l next ht howner =>
    have hkey : key rank level s t = rank l := by
      unfold key
      rw [ht]
    rw [hkey]
    exact hlocks l ((hheld.mem l).mpr howner)
  | thread ht _ =>
    have hkey : key rank level s t = level u := by
      unfold key
      rw [ht]
    rw [hkey]
    exact hself

theorem key_lt_of_waits {s : State T L σ A} (hi : Inv rank level s) {t u v : T}
    (h : Relation.TransGen (Waits s) t u) (hu : Waits s u v) :
    key rank level s t < key rank level s u := by
  induction h generalizing v with
  | single h => exact h.key_lt hi hu
  | tail _ h ih => exact Nat.lt_trans (ih h) (h.key_lt hi hu)

theorem no_deadlock {s : State T L σ A} (hi : Inv rank level s) : ¬Deadlock s := by
  rintro ⟨t, h⟩
  obtain ⟨u, hu⟩ : ∃ u, Waits s t u := by
    cases h using Relation.TransGen.head_induction_on with
    | single h => exact ⟨_, h⟩
    | head h _ => exact ⟨_, h⟩
  exact Nat.lt_irrefl _ (key_lt_of_waits hi h hu)

/- Where all that threads begin is ordered, no run comes to a deadlock. -/
theorem reachable_no_deadlock [DecidableEq T] [DecidableEq L] {begins : T → σ → Code T L σ A → Prop}
    {ends : T → σ → Prop} (hbegins : ∀ t x code, begins t x code → code.Ordered rank level (level t) [])
    {init : State T L σ A → Prop} (hinit : ∀ s, init s → Still s) {s : State T L σ A}
    (h : Reachable init (Run begins ends) s) : ¬Deadlock s :=
  no_deadlock (h.invariant (fun s hs => (hinit s hs).inv) fun _ _ hi ⟨_, hs⟩ => step_inv hbegins hi hs)

end Ordered

end Pyroscope.Lib.Locking
