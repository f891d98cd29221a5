import Pyroscope.Lib.Heap
import Pyroscope.Lib.Transition
import Pyroscope.Agent.Fork

/-!
# `LeakableMutex` under concurrent callers (forksafety.rs)

Any number of callers run `mutex` and `leak_and_reset` one atomic step at a time; the
orderings are sequentially consistent. An epoch is what lies between two swaps. Beside the
pointer and the heap the state remembers what was stored in the pointer, what lost a
compare-exchange and what was returned.
-/

namespace Pyroscope.Agent.Leakable
open Pyroscope.Lib

/-! ### States -/

/-- Allocations go by their numbers. `installed` has the epoch with each, `epoch` counts
the swaps. -/
structure Cell (α : Type) where
  state : Option α
  heap : Heap α
  epoch : ℕ
  installed : List (ℕ × ℕ)
  lost : List ℕ

/-- Where a caller is; `start` is the epoch in which its load was made. -/
inductive Pc (α : Type) where
  | idle
  /-- the load returned null -/
  | loaded (start : ℕ)
  | allocated (start : ℕ) (new : α)
  /-- the compare-exchange found `old` -/
  | lost (start : ℕ) (new old : α)
  | resetting (new : α)

/-- One return of `mutex`: the epochs of its load and of its last step, the address, and
the allocation that is there. -/
structure Returned (α : Type) where
  start : ℕ
  finish : ℕ
  address : α
  allocation : Option ℕ

structure State (ι α : Type) where
  cell : Cell α
  pc : ι → Pc α
  returned : List (Returned α)

section Steps
variable {ι α : Type} [DecidableEq ι] [DecidableEq α]

namespace Cell

/-- `Box::into_raw(Box::new(..))` -/
def newStatic (c : Cell α) (a : α) : Cell α := { c with heap := c.heap.alloc a }

/-- `new` is stored in the pointer. -/
def install (c : Cell α) (new : α) (epoch : ℕ) : Cell α := { c with
  state := some new, epoch, installed := ((c.heap.live new).toList.map fun n => (n, epoch)) ++ c.installed }

def exchangeFails (c : Cell α) (new : α) : Cell α := { c with lost := (c.heap.live new).toList ++ c.lost }

/-- `drop(Box::from_raw(new))` -/
def drop (c : Cell α) (new : α) : Cell α := { c with heap := c.heap.free new }

end Cell

namespace State

def new : State ι α := ⟨⟨none, .empty, 0, [], []⟩, fun _ => .idle, []⟩

def act (s : State ι α) (t : ι) (cell : Cell α) (pc : Pc α) : State ι α :=
  { s with cell, pc := Function.update s.pc t pc }

def give (s : State ι α) (start : ℕ) (address : α) : State ι α :=
  { s with returned := ⟨start, s.cell.epoch, address, s.cell.heap.live address⟩ :: s.returned }

end State

/-- An address that is given out is not in use; nothing else is known of it. -/
inductive Step : State ι α → State ι α → Prop where
  | loadNull {s} (t : ι) (hpc : s.pc t = .idle) (h : s.cell.state = none) :
    Step s (s.act t s.cell (.loaded s.cell.epoch))
  | load {s a} (t : ι) (hpc : s.pc t = .idle) (h : s.cell.state = some a) : Step s (s.give s.cell.epoch a)
  | allocate {s start} (t : ι) (a : α) (hpc : s.pc t = .loaded start) (ha : s.cell.heap.live a = none) :
    Step s (s.act t (s.cell.newStatic a) (.allocated start a))
  | exchange {s start new} (t : ι) (hpc : s.pc t = .allocated start new) (h : s.cell.state = none) :
    Step s ((s.act t (s.cell.install new s.cell.epoch) .idle).give start new)
  | exchangeFails {s start new old} (t : ι) (hpc : s.pc t = .allocated start new) (h : s.cell.state = some old) :
    Step s (s.act t (s.cell.exchangeFails new) (.lost start new old))
  | free {s start new old} (t : ι) (hpc : s.pc t = .lost start new old) :
    Step s ((s.act t (s.cell.drop new) .idle).give start old)
  | allocateReset {s} (t : ι) (a : α) (hpc : s.pc t = .idle) (ha : s.cell.heap.live a = none) :
    Step s (s.act t (s.cell.newStatic a) (.resetting a))
  | swap {s new} (t : ι) (hpc : s.pc t = .resetting new) :
    Step s (s.act t (s.cell.install new (s.cell.epoch + 1)) .idle)

def Reached : State ι α → Prop := Reachable (fun s => s = State.new) Step

end Steps

/-! ### The cell -/

namespace Cell
variable {α : Type}

/-- Allocated for a pointer that has not seen it. -/
def Fresh (c : Cell α) (a : α) : Prop :=
  ∃ n, c.heap.live a = some n ∧ (∀ e, (n, e) ∉ c.installed) ∧ n ∉ c.lost

def Loser (c : Cell α) (a : α) : Prop := ∃ n, c.heap.live a = some n ∧ n ∈ c.lost

/-- Installed between the two epochs, and still there. -/
def Found (c : Cell α) (start finish : ℕ) (a : α) (n : ℕ) : Prop :=
  c.heap.live a = some n ∧ ∃ e, (n, e) ∈ c.installed ∧ start ≤ e ∧ e ≤ finish

structure Inv (c : Cell α) : Prop where
  heap : c.heap.WF
  live : ∀ n e, (n, e) ∈ c.installed → (∃ a, c.heap.live a = some n) ∧ e ≤ c.epoch
  epochs : ∀ n m e, (n, e) ∈ c.installed → (m, e) ∈ c.installed → n = m
  once : ∀ n e e', (n, e) ∈ c.installed → (n, e') ∈ c.installed → e = e'
  null : c.state = none → c.installed = []
  current : ∀ a, c.state = some a → ∃ n, c.heap.live a = some n ∧ (n, c.epoch) ∈ c.installed
  lost : ∀ n ∈ c.lost, n < c.heap.next ∧ ∀ e, (n, e) ∉ c.installed
  freed : ∀ n ∈ c.heap.freed, n ∈ c.lost

/-- What a step on `new` leaves to the others. -/
structure Moves (new : α) (c c' : Cell α) : Prop where
  epoch : c.epoch ≤ c'.epoch
  fresh : ∀ b, b ≠ new → c.Fresh b → c'.Fresh b
  loser : ∀ b, b ≠ new → c.Loser b → c'.Loser b
  found : ∀ start finish b n, c.Found start finish b n → c'.Found start finish b n

variable {c : Cell α}

theorem Moves.refl (c : Cell α) (new : α) : Moves new c c :=
  ⟨Nat.le_refl _, fun _ _ h => h, fun _ _ h => h, fun _ _ _ _ h => h⟩

theorem Found.mono {start finish finish' n : ℕ} {a : α} (h : c.Found start finish a n) (hle : finish ≤ finish') :
    c.Found start finish' a n := by
  obtain ⟨hlive, e, he, hstart, hfinish⟩ := h
  exact ⟨hlive, e, he, hstart, Nat.le_trans hfinish hle⟩

theorem Inv.current_found (h : c.Inv) {a : α} (ha : c.state = some a) {start : ℕ} (hstart : start ≤ c.epoch) :
    ∃ n, c.Found start c.epoch a n := by
  obtain ⟨n, hn, he⟩ := h.current a ha
  exact ⟨n, hn, c.epoch, he, hstart, Nat.le_refl _⟩

/-! #### `install` -/

theorem mem_install {new : α} {n m e e' : ℕ} (hn : c.heap.live new = some n) :
    (m, e') ∈ (c.install new e).installed ↔ (m = n ∧ e' = e) ∨ (m, e') ∈ c.installed := by
  simp [install, hn]

theorem install_moves (h : c.Inv) {new : α} (hnew : c.Fresh new) {epoch : ℕ} (hle : c.epoch ≤ epoch) :
    Moves new c (c.install new epoch) := by
  obtain ⟨n, hn, -, -⟩ := hnew
  refine ⟨hle, fun b hb hf => ?_, fun b _ hl => hl, fun start finish b m hf => ?_⟩
  · obtain ⟨m, hm, hnot, hlost⟩ := hf
    refine ⟨m, hm, fun e he => ?_, hlost⟩
    rcases (mem_install hn).mp he with ⟨rfl, -⟩ | he
    · exact hb (h.heap.inj b new m hm hn)
    · exact hnot e he
  · obtain ⟨hm, e, he, hstart, hfinish⟩ := hf
    exact ⟨hm, e, (mem_install hn).mpr (.inr he), hstart, hfinish⟩

/- In an epoch in which nothing has been installed. -/
theorem Inv.install (h : c.Inv) {new : α} (hnew : c.Fresh new) {epoch : ℕ} (hle : c.epoch ≤ epoch)
    (hnone : ∀ n, (n, epoch) ∉ c.installed) : (c.install new epoch).Inv := by
  obtain ⟨n, hn, hnot, hlost⟩ := hnew
  refine ⟨h.heap, fun m e hm => ?_, fun m m' e hm hm' => ?_, fun m e e' hm hm' => ?_, nofun, fun a ha => ?_,
    fun m hm => ⟨(h.lost m hm).1, fun e he => ?_⟩, h.freed⟩
  · rcases (mem_install hn).mp hm with ⟨rfl, rfl⟩ | hm
    · exact ⟨⟨new, hn⟩, Nat.le_refl _⟩
    · exact ⟨(h.live m e hm).1, Nat.le_trans (h.live m e hm).2 hle⟩
  · rcases (mem_install hn).mp hm with ⟨hm, he⟩ | hm <;> rcases (mem_install hn).mp hm' with ⟨hm', he'⟩ | hm'
    · rw [hm, hm']
    · rw [he] at hm'
      exact absurd hm' (hnone m')
    · rw [he'] at hm
      exact absurd hm (hnone m)
    · exact h.epochs m m' e hm hm'
  · rcases (mem_install hn).mp hm with ⟨hmn, he⟩ | hm <;> rcases (mem_install hn).mp hm' with ⟨hmn', he'⟩ | hm'
    · rw [he, he']
    · rw [hmn] at hm'
      exact absurd hm' (hnot e')
    · rw [hmn'] at hm
      exact absurd hm (hnot e)
    · exact h.once m e e' hm hm'
  · obtain rfl := Option.some.inj ha
    exact ⟨n, hn, (mem_install hn).mpr (.inl ⟨rfl, rfl⟩)⟩
  · rcases (mem_install hn).mp he with ⟨rfl, -⟩ | he
    · exact hlost hm
    · exact (h.lost m hm).2 e he

theorem install_found {new : α} (hnew : c.Fresh new) {start epoch : ℕ} (hle : start ≤ epoch) :
    ∃ n, (c.install new epoch).Found start epoch new n := by
  obtain ⟨n, hn, -, -⟩ := hnew
  exact ⟨n, hn, epoch, (mem_install hn).mpr (.inl ⟨rfl, rfl⟩), hle, Nat.le_refl _⟩

/-! #### `exchangeFails` -/

theorem exchangeFails_moves (h : c.Inv) {new : α} (hnew : c.Fresh new) : Moves new c (c.exchangeFails new) := by
  obtain ⟨n, hn, -, -⟩ := hnew
  refine ⟨Nat.le_refl _, fun b hb hf => ?_, fun b _ hl => ?_, fun _ _ _ _ hf => hf⟩
  · obtain ⟨m, hm, hnot, hlost⟩ := hf
    refine ⟨m, hm, hnot, fun hml => ?_⟩
    rcases List.mem_append.mp hml with hmn | hml
    · rw [hn, Option.toList_some, List.mem_singleton] at hmn
      rw [hmn] at hm
      exact hb (h.heap.inj b new n hm hn)
    · exact hlost hml
  · obtain ⟨m, hm, hml⟩ := hl
    exact ⟨m, hm, List.mem_append_right _ hml⟩

theorem Inv.exchangeFails (h : c.Inv) {new : α} (hnew : c.Fresh new) : (c.exchangeFails new).Inv := by
  obtain ⟨n, hn, hnot, -⟩ := hnew
  refine ⟨h.heap, h.live, h.epochs, h.once, h.null, h.current, fun m hm => ?_,
    fun m hm => List.mem_append_right _ (h.freed m hm)⟩
  rcases List.mem_append.mp hm with hm | hm
  · rw [hn, Option.toList_some, List.mem_singleton] at hm
    rw [hm]
    exact ⟨h.heap.bound new n hn, hnot⟩
  · exact h.lost m hm

theorem exchangeFails_loser {new : α} (hnew : c.Fresh new) : (c.exchangeFails new).Loser new := by
  obtain ⟨n, hn, -, -⟩ := hnew
  exact ⟨n, hn, by rw [Cell.exchangeFails, hn]; exact List.mem_cons_self ..⟩

/- What has been installed is elsewhere. -/
theorem Inv.ne_loser (h : c.Inv) {new b : α} (hnew : c.Loser new) {n e : ℕ} (hb : c.heap.live b = some n)
    (hn : (n, e) ∈ c.installed) : b ≠ new := by
  rintro rfl
  obtain ⟨m, hm, hl⟩ := hnew
  rw [hb] at hm
  cases hm
  exact (h.lost n hl).2 e hn

section Memory
variable [DecidableEq α]

/-! #### `newStatic` -/

theorem newStatic_moves {a : α} (ha : c.heap.live a = none) : Moves a c (c.newStatic a) := by
  refine ⟨Nat.le_refl _, fun b _ hb => ?_, fun b _ hb => ?_, fun start finish b n hb => ?_⟩
  · obtain ⟨n, hn, hrest⟩ := hb
    exact ⟨n, Heap.alloc_live_of_live ha hn, hrest⟩
  · obtain ⟨n, hn, hl⟩ := hb
    exact ⟨n, Heap.alloc_live_of_live ha hn, hl⟩
  · exact ⟨Heap.alloc_live_of_live ha hb.1, hb.2⟩

theorem Inv.newStatic (h : c.Inv) {a : α} (ha : c.heap.live a = none) : (c.newStatic a).Inv := by
  refine ⟨h.heap.alloc a, fun n e hn => ?_, h.epochs, h.once, h.null, fun b hb => ?_, fun n hn => ?_, h.freed⟩
  · obtain ⟨⟨b, hb⟩, he⟩ := h.live n e hn
    exact ⟨⟨b, Heap.alloc_live_of_live ha hb⟩, he⟩
  · obtain ⟨n, hn, he⟩ := h.current b hb
    exact ⟨n, Heap.alloc_live_of_live ha hn, he⟩
  · exact ⟨Nat.lt_succ_of_lt (h.lost n hn).1, (h.lost n hn).2⟩

/- The number is new, so nothing has happened to it. -/
theorem Inv.newStatic_fresh (h : c.Inv) (a : α) : (c.newStatic a).Fresh a := by
  refine ⟨c.heap.next, Heap.alloc_live_self .., fun e he => ?_, fun hl => ?_⟩
  · obtain ⟨⟨b, hb⟩, -⟩ := h.live _ e he
    exact Nat.lt_irrefl _ (h.heap.bound b _ hb)
  · exact Nat.lt_irrefl _ (h.lost _ hl).1

/-! #### `drop` -/

theorem drop_moves (h : c.Inv) {new : α} (hnew : c.Loser new) : Moves new c (c.drop new) := by
  refine ⟨Nat.le_refl _, fun b hb hf => ?_, fun b hb hl => ?_, fun start finish b n hf => ?_⟩
  · obtain ⟨m, hm, hrest⟩ := hf
    exact ⟨m, by rw [drop, Heap.free_live_ne hb, hm], hrest⟩
  · obtain ⟨m, hm, hml⟩ := hl
    exact ⟨m, by rw [drop, Heap.free_live_ne hb, hm], hml⟩
  · obtain ⟨hm, e, he, hrest⟩ := hf
    exact ⟨by rw [drop, Heap.free_live_ne (h.ne_loser hnew hm he), hm], e, he, hrest⟩

theorem Inv.drop (h : c.Inv) {new : α} (hnew : c.Loser new) : (c.drop new).Inv := by
  refine ⟨h.heap.free new, fun n e hn => ?_, h.epochs, h.once, h.null, fun a ha => ?_, h.lost, fun n hn => ?_⟩
  · obtain ⟨⟨b, hb⟩, he⟩ := h.live n e hn
    exact ⟨⟨b, by rw [Cell.drop, Heap.free_live_ne (h.ne_loser hnew hb hn), hb]⟩, he⟩
  · obtain ⟨n, hn, he⟩ := h.current a ha
    exact ⟨n, by rw [Cell.drop, Heap.free_live_ne (h.ne_loser hnew hn he), hn], he⟩
  · rcases Heap.mem_freed_free.mp hn with hn | hn
    · obtain ⟨m, hm, hl⟩ := hnew
      rw [hn] at hm
      cases hm
      exact hl
    · exact h.freed n hn

end Memory

end Cell

/-! ### All callers -/

section Callers
variable {ι α : Type}

def Pc.owned : Pc α → Option α
  | .idle => none
  | .loaded _ => none
  | .allocated _ new => some new
  | .lost _ new _ => some new
  | .resetting new => some new

def Caller (c : Cell α) : Pc α → Prop
  | .idle => True
  | .loaded start => start ≤ c.epoch
  | .allocated start new => start ≤ c.epoch ∧ c.Fresh new
  | .lost start new old => c.Loser new ∧ ∃ n, c.Found start c.epoch old n
  | .resetting new => c.Fresh new

theorem Caller.moves {c c' : Cell α} {new : α} {pc : Pc α} (h : Caller c pc) (hm : Cell.Moves new c c')
    (hne : pc.owned ≠ some new) : Caller c' pc := by
  cases pc with
  | idle => trivial
  | loaded start => exact Nat.le_trans h hm.epoch
  | allocated start a =>
    have ha : a ≠ new := fun he => hne (congrArg some he)
    exact ⟨Nat.le_trans h.1 hm.epoch, hm.fresh a ha h.2⟩
  | lost start a old =>
    have ha : a ≠ new := fun he => hne (congrArg some he)
    obtain ⟨hl, n, hn⟩ := h
    exact ⟨hm.loser a ha hl, n, hm.found _ _ _ _ (hn.mono hm.epoch)⟩
  | resetting a =>
    have ha : a ≠ new := fun he => hne (congrArg some he)
    exact hm.fresh a ha h

structure Inv (s : State ι α) : Prop where
  cell : s.cell.Inv
  callers : ∀ t, Caller s.cell (s.pc t)
  apart : ∀ t t' a, (s.pc t).owned = some a → (s.pc t').owned = some a → t = t'
  returned : ∀ r ∈ s.returned, ∃ n, r.allocation = some n ∧ s.cell.Found r.start r.finish r.address n

variable {s : State ι α}

theorem inv_new : Inv (State.new : State ι α) := by
  refine ⟨⟨.empty, nofun, nofun, nofun, fun _ => rfl, nofun, nofun, nofun⟩, fun _ => trivial, ?_, nofun⟩
  intro t t' a h
  cases h

theorem Inv.give (h : Inv s) {start n : ℕ} {a : α} (hf : s.cell.Found start s.cell.epoch a n) :
    Inv (s.give start a) := by
  refine ⟨h.cell, h.callers, h.apart, fun r hr => ?_⟩
  rcases List.mem_cons.mp hr with rfl | hr
  · exact ⟨n, hf.1, hf⟩
  · exact h.returned r hr

/- The owner of an allocation is the only one. -/
theorem Inv.mine (h : Inv s) {t : ι} {new : α} (ht : (s.pc t).owned = some new) :
    ∀ t', t' ≠ t → (s.pc t').owned ≠ some new :=
  fun t' hne h' => hne (h.apart t' t new h' ht)

/- An address that is not in use is nobody's. -/
theorem Inv.unused (h : Inv s) {a : α} (ha : s.cell.heap.live a = none) (t : ι) : (s.pc t).owned ≠ some a := by
  have hlive : ∀ n, s.cell.heap.live a ≠ some n := fun n hn => by
    rw [ha] at hn
    cases hn
  intro ht
  have hc := h.callers t
  cases hpc : s.pc t with
  | idle =>
    rw [hpc] at ht
    cases ht
  | loaded start =>
    rw [hpc] at ht
    cases ht
  | allocated start new =>
    rw [hpc] at ht hc
    cases ht
    obtain ⟨-, n, hn, -⟩ := hc
    exact hlive n hn
  | lost start new old =>
    rw [hpc] at ht hc
    cases ht
    obtain ⟨⟨n, hn, -⟩, -⟩ := hc
    exact hlive n hn
  | resetting new =>
    rw [hpc] at ht hc
    cases ht
    obtain ⟨n, hn, -⟩ := hc
    exact hlive n hn

variable [DecidableEq ι]

theorem Inv.act (h : Inv s) (t : ι) {cell : Cell α} {pc : Pc α} (hcell : cell.Inv)
    (hkeep : ∀ t', t' ≠ t → Caller cell (s.pc t'))
    (hfound : ∀ start finish b n, s.cell.Found start finish b n → cell.Found start finish b n)
    (hpc : Caller cell pc) (hapart : ∀ t', t' ≠ t → ∀ a, pc.owned = some a → (s.pc t').owned ≠ some a) :
    Inv (s.act t cell pc) := by
  have hself : (s.act t cell pc).pc t = pc := Function.update_self ..
  have hother : ∀ t', t' ≠ t → (s.act t cell pc).pc t' = s.pc t' := fun t' hne => Function.update_of_ne hne ..
  refine ⟨hcell, fun t' => ?_, fun t₁ t₂ a h₁ h₂ => ?_, fun r hr => ?_⟩
  · by_cases ht : t' = t
    · rw [ht, hself]
      exact hpc
    · rw [hother t' ht]
      exact hkeep t' ht
  · by_cases ht₁ : t₁ = t <;> by_cases ht₂ : t₂ = t
    · rw [ht₁, ht₂]
    · rw [ht₁, hself] at h₁
      rw [hother t₂ ht₂] at h₂
      exact absurd h₂ (hapart t₂ ht₂ a h₁)
    · rw [ht₂, hself] at h₂
      rw [hother t₁ ht₁] at h₁
      exact absurd h₁ (hapart t₁ ht₁ a h₂)
    · rw [hother t₁ ht₁] at h₁
      rw [hother t₂ ht₂] at h₂
      exact h.apart t₁ t₂ a h₁ h₂
  · obtain ⟨n, hn, hf⟩ := h.returned r hr
    exact ⟨n, hn, hfound _ _ _ _ hf⟩

/- A step on an allocation that no other caller owns. -/
theorem Inv.move (h : Inv s) (t : ι) {new : α} {cell : Cell α} {pc : Pc α} (hcell : cell.Inv)
    (hmoves : Cell.Moves new s.cell cell) (hmine : ∀ t', t' ≠ t → (s.pc t').owned ≠ some new)
    (hpc : Caller cell pc) (howned : ∀ a, pc.owned = some a → a = new) : Inv (s.act t cell pc) := by
  refine h.act t hcell (fun t' ht => (h.callers t').moves hmoves (hmine t' ht)) hmoves.found hpc ?_
  intro t' ht a ha
  rw [howned a ha]
  exact hmine t' ht

variable [DecidableEq α]

theorem step_inv {s s' : State ι α} (h : Inv s) (hs : Step s s') : Inv s' := by
  cases hs with
  | loadNull t hpc hnull =>
    exact h.act t h.cell (fun t' _ => h.callers t') (fun _ _ _ _ hf => hf) (Nat.le_refl _) fun _ _ _ hn => nomatch hn
  | @load a t hpc ha =>
    obtain ⟨n, hn⟩ := h.cell.current_found ha (Nat.le_refl _)
    exact h.give hn
  | @allocate start t a hpc ha =>
    have hc := h.callers t
    rw [hpc] at hc
    exact h.move t (h.cell.newStatic ha) (Cell.newStatic_moves ha) (fun t' _ => h.unused ha t')
      ⟨hc, h.cell.newStatic_fresh a⟩ fun b hb => (Option.some.inj hb).symm
  | @exchange start new t hpc hnull =>
    have hc := h.callers t
    have hmine : ∀ t', t' ≠ t → (s.pc t').owned ≠ some new := h.mine (by rw [hpc]; rfl)
    rw [hpc] at hc
    obtain ⟨hstart, hfresh⟩ := hc
    have hnone : ∀ n, (n, s.cell.epoch) ∉ s.cell.installed := by
      rw [h.cell.null hnull]
      exact fun n hn => nomatch hn
    have hinv : Inv (s.act t (s.cell.install new s.cell.epoch) .idle) :=
      h.move t (h.cell.install hfresh (Nat.le_refl _) hnone)
        (Cell.install_moves h.cell hfresh (Nat.le_refl _)) hmine trivial nofun
    obtain ⟨n, hn⟩ := Cell.install_found hfresh hstart
    exact hinv.give hn
  | @exchangeFails start new old t hpc ha =>
    have hc := h.callers t
    have hmine : ∀ t', t' ≠ t → (s.pc t').owned ≠ some new := h.mine (by rw [hpc]; rfl)
    rw [hpc] at hc
    obtain ⟨hstart, hfresh⟩ := hc
    exact h.move t (h.cell.exchangeFails hfresh) (Cell.exchangeFails_moves h.cell hfresh) hmine
      ⟨Cell.exchangeFails_loser hfresh, h.cell.current_found ha hstart⟩ fun b hb => (Option.some.inj hb).symm
  | @free start new old t hpc =>
    have hc := h.callers t
    have hmine : ∀ t', t' ≠ t → (s.pc t').owned ≠ some new := h.mine (by rw [hpc]; rfl)
    rw [hpc] at hc
    obtain ⟨hloser, n, hn⟩ := hc
    have hmoves := Cell.drop_moves h.cell hloser
    have hinv : Inv (s.act t (s.cell.drop new) .idle) := h.move t (h.cell.drop hloser) hmoves hmine trivial nofun
    exact hinv.give (hmoves.found _ _ _ _ hn)
  | allocateReset t a hpc ha =>
    exact h.move t (h.cell.newStatic ha) (Cell.newStatic_moves ha) (fun t' _ => h.unused ha t')
      (h.cell.newStatic_fresh a) fun b hb => (Option.some.inj hb).symm
  | @swap new t hpc =>
    have hc := h.callers t
    have hmine : ∀ t', t' ≠ t → (s.pc t').owned ≠ some new := h.mine (by rw [hpc]; rfl)
    rw [hpc] at hc
    have hnone : ∀ n, (n, s.cell.epoch + 1) ∉ s.cell.installed :=
      fun n hn => Nat.not_succ_le_self _ (h.cell.live n _ hn).2
    exact h.move t (h.cell.install hc (Nat.le_succ _) hnone) (Cell.install_moves h.cell hc (Nat.le_succ _)) hmine
      trivial nofun

theorem Reached.inv {s : State ι α} (h : Reached s) : Inv s := by
  have hinit : ∀ s : State ι α, s = State.new → Inv s := by
    rintro _ rfl
    exact inv_new
  exact Reachable.invariant hinit (fun _ _ hinv hs => step_inv hinv hs) h

/- What has been returned stays on record. -/
theorem step_returned {s s' : State ι α} (hs : Step s s') : s.returned ⊆ s'.returned := by
  cases hs with
  | load | exchange | free => exact List.subset_cons_self ..
  | _ => exact List.Subset.refl _

/-! ### One mutex per epoch -/

/-- The references returned so far, and the allocations freed so far. -/
structure OnePerEpoch (s : State ι α) : Prop where
  /-- a reference points to a live allocation -/
  live : ∀ r ∈ s.returned, ∃ n, r.allocation = some n ∧ s.cell.heap.live r.address = some n ∧ n ∉ s.cell.heap.freed
  /-- calls within one epoch return the same allocation -/
  same : ∀ r ∈ s.returned, ∀ r' ∈ s.returned, r.start = r.finish → r'.start = r.start → r'.finish = r.finish →
    r.allocation = r'.allocation ∧ r.address = r'.address
  /-- a call that starts after a swap returns nothing that was installed or returned before it -/
  later : ∀ r ∈ s.returned, (∀ n e, r.allocation = some n → (n, e) ∈ s.cell.installed → r.start ≤ e) ∧
    ∀ r' ∈ s.returned, r'.finish < r.start → r'.allocation ≠ r.allocation
  /-- only what has lost a compare-exchange is freed -/
  freed : ∀ n ∈ s.cell.heap.freed, n ∈ s.cell.lost ∧ (∀ e, (n, e) ∉ s.cell.installed) ∧
    ∀ r ∈ s.returned, r.allocation ≠ some n

omit [DecidableEq ι] [DecidableEq α] in
theorem Inv.onePerEpoch {s : State ι α} (h : Inv s) : OnePerEpoch s := by
  refine ⟨fun r hr => ?_, fun r hr r' hr' hone hstart hfinish => ?_, fun r hr => ⟨fun n e hn he => ?_, ?_⟩,
    fun n hn => ⟨h.cell.freed n hn, (h.cell.lost n (h.cell.freed n hn)).2, fun r hr he => ?_⟩⟩
  · obtain ⟨n, hn, hlive, -⟩ := h.returned r hr
    exact ⟨n, hn, hlive, fun hf => (h.cell.heap.freed n hf).2 _ hlive⟩
  · obtain ⟨n, hn, hlive, e, he, hse, hef⟩ := h.returned r hr
    obtain ⟨n', hn', hlive', e', he', hse', hef'⟩ := h.returned r' hr'
    have hepoch : e = e' := by omega
    rw [← hepoch] at he'
    have hsame : n = n' := h.cell.epochs n n' e he he'
    rw [← hsame] at hn' hlive'
    exact ⟨hn.trans hn'.symm, h.cell.heap.inj _ _ n hlive hlive'⟩
  · obtain ⟨m, hm, -, e', he', hse', -⟩ := h.returned r hr
    rw [hn] at hm
    cases hm
    rw [h.cell.once n e e' he he']
    exact hse'
  · intro r' hr' hlt hsame
    obtain ⟨n, hn, -, e, he, hse, -⟩ := h.returned r hr
    obtain ⟨n', hn', -, e', he', -, hef'⟩ := h.returned r' hr'
    rw [hsame, hn] at hn'
    cases hn'
    have hepoch := h.cell.once n e e' he he'
    omega
  · obtain ⟨m, hm, hlive, -⟩ := h.returned r hr
    rw [he] at hm
    cases hm
    exact (h.cell.heap.freed n hn).2 _ hlive

/-- In every interleaving, at every moment and at every later one. -/
theorem leakable_mutex_one_per_epoch (ι α : Type) [DecidableEq ι] [DecidableEq α] (s s' : State ι α)
    (h : Reached s) (hrun : Relation.ReflTransGen Step s s') :
    OnePerEpoch s' ∧ s.returned ⊆ s'.returned := by
  refine ⟨(Reached.inv (h.steps hrun)).onePerEpoch, ?_⟩
  induction hrun with
  | refl => exact List.Subset.refl _
  | tail _ hs ih => exact List.Subset.trans ih (step_returned hs)

/-! ### The mutex of the fork hook -/

/-- The first use, and a reset. -/
inductive AtomicStep : Fork.LeakableMutex Unit → Fork.LeakableMutex Unit → Prop where
  | use {m} : AtomicStep m ⟨m.leaked, some (m.mutex ())⟩
  | leakAndReset {m} : AtomicStep m (m.leakAndReset ())

/-- What the fork hook sees: whatever was in the pointer before is leaked. -/
def State.atomic (s : State ι α) : Fork.LeakableMutex Unit :=
  ⟨List.replicate (s.cell.installed.length - 1) (.new ()), s.cell.state.map fun _ => .new ()⟩

omit [DecidableEq α] in
theorem atomic_install (s : State ι α) (t : ι) {new : α} (hnew : s.cell.Fresh new) (epoch : ℕ) (pc : Pc α) :
    (s.act t (s.cell.install new epoch) pc).atomic =
      ⟨List.replicate s.cell.installed.length (.new ()), some (.new ())⟩ := by
  obtain ⟨n, hn, -⟩ := hnew
  have hlength : (s.cell.install new epoch).installed.length = s.cell.installed.length + 1 := by
    simp [Cell.install, hn]
  show (⟨List.replicate ((s.cell.install new epoch).installed.length - 1) _, some _⟩ : Fork.LeakableMutex Unit) = _
  rw [hlength, Nat.add_sub_cancel]

omit [DecidableEq ι] [DecidableEq α] in
theorem Inv.atomic_null (h : Inv s) (hnull : s.cell.state = none) : s.atomic = ⟨[], none⟩ := by
  rw [State.atomic, hnull, h.cell.null hnull]
  rfl

omit [DecidableEq ι] [DecidableEq α] in
theorem Inv.atomic_reset (h : Inv s) :
    s.atomic.leakAndReset () = ⟨List.replicate s.cell.installed.length (.new ()), some (.new ())⟩ := by
  cases hstate : s.cell.state with
  | none =>
    rw [h.atomic_null hstate, h.cell.null hstate]
    rfl
  | some a =>
    obtain ⟨n, -, he⟩ := h.cell.current a hstate
    obtain ⟨k, hk⟩ := Nat.exists_eq_succ_of_ne_zero (List.length_pos_of_mem he).ne'
    rw [State.atomic, hstate, hk, Fork.LeakableMutex.leakAndReset, Fork.LeakableMutex.allocations]
    simp [List.replicate_succ']

/- Only the two steps that write to the pointer show. -/
theorem step_atomic {s s' : State ι α} (h : Inv s) (hs : Step s s') :
    s'.atomic = s.atomic ∨ AtomicStep s.atomic s'.atomic := by
  cases hs with
  | @exchange start new t hpc hnull =>
    have hc := h.callers t
    rw [hpc] at hc
    have hafter := atomic_install s t hc.2 s.cell.epoch .idle
    rw [h.cell.null hnull] at hafter
    have huse : ((s.act t (s.cell.install new s.cell.epoch) .idle).give start new).atomic =
        ⟨s.atomic.leaked, some (s.atomic.mutex ())⟩ := by
      rw [h.atomic_null hnull]
      exact hafter
    rw [huse]
    exact .inr .use
  | @swap new t hpc =>
    have hc := h.callers t
    rw [hpc] at hc
    rw [atomic_install s t hc, ← h.atomic_reset]
    exact .inr .leakAndReset
  | _ => exact .inl rfl

theorem Reached.atomic {s : State ι α} (h : Reached s) :
    Reachable (fun m => m = ⟨[], none⟩) AtomicStep s.atomic := by
  have hinit : ∀ s : State ι α, s = State.new → s.atomic = ⟨[], none⟩ := by
    rintro _ rfl
    rfl
  exact Reachable.simulation State.atomic hinit (fun _ _ hs hstep => step_atomic (Reached.inv hs) hstep) h

end Callers

/- Two callers race to allocate, the first wins, and a third resets before the loser has freed its own. -/
theorem leakable_mutex_one_per_epoch_race :
    ∃ s s' : State ℕ ℕ, s'.cell.heap.freed = [1] ∧ s'.returned.map Returned.allocation = [some 2, some 0, some 0] ∧
      s'.cell.epoch = 1 ∧ OnePerEpoch s' ∧ s.returned ⊆ s'.returned := by
  have h₀ : Reached (State.new : State ℕ ℕ) := .init rfl
  have h₁ := ((h₀.step (.loadNull 0 rfl rfl)).step (.loadNull 1 rfl rfl)).step (.allocate 0 70 rfl rfl)
  have h₂ := ((h₁.step (.allocate 1 80 rfl rfl)).step (.exchange 0 rfl rfl)).step (.exchangeFails 1 rfl rfl)
  have hsafe := leakable_mutex_one_per_epoch ℕ ℕ _ _ h₂
    ((((Relation.ReflTransGen.refl.tail (.allocateReset 2 90 rfl rfl)).tail (.swap 2 rfl)).tail (.free 1 rfl)).tail
      (.load 0 rfl rfl))
  exact ⟨_, _, rfl, rfl, rfl, hsafe⟩

end Pyroscope.Agent.Leakable
