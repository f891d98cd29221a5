import Pyroscope.Ring.Fifo
import Mathlib.Data.Set.Basic

/-!
# Who owns a slot

The `SAFETY` comments of `push_slice` and `pop_slice` and the `Sync` impl rely on it: a
slot is free, published, or claimed by the one record in the making. `written` records
the slots written since they last became free.
-/

namespace Pyroscope.Ring
open Pyroscope.Lib Cyclic

variable {ι κ α : Type}

/-- The slots of the indices from `tail` up to `head`. -/
def region (c : Capacity) (tail head : Usize) : Set ℕ :=
  {k | ∃ n < (head - tail).toNat, k = Cyclic.slot c.log (tail + BitVec.ofNat 64 n)}

/-- The slots of the positions from `p` up to `q`. -/
def positions (c : Capacity) (base : Usize) (p q : ℕ) : Set ℕ :=
  {k | ∃ x, p ≤ x ∧ x < q ∧ k = Cyclic.slot c.log (counter base x)}

theorem region_counter (c : Capacity) (base : Usize) {p q : ℕ} (hpq : p ≤ q)
    (hlt : q - p < 2 ^ 64) :
    region c (counter base p) (counter base q) = positions c base p q := by
  have hq : p + (q - p) = q := by omega
  have hsub := counter_sub base p (q - p) hlt
  rw [hq] at hsub
  ext k
  constructor
  · intro hk
    obtain ⟨n, hn, he⟩ := hk
    rw [hsub] at hn
    rw [counter_add] at he
    exact ⟨p + n, by omega, by omega, he⟩
  · intro hk
    obtain ⟨x, hp, hx, he⟩ := hk
    have hn : p + (x - p) = x := by omega
    exact ⟨x - p, by omega, by rw [counter_add, hn, he]⟩

/- Less than one turn of the array apart, positions have slots of their own. -/
theorem positions_disjoint {c : Capacity} {base : Usize} {p q p' q' k : ℕ}
    (hk : k ∈ positions c base p q) (hqp : q ≤ p') (hturn : q' ≤ p + c.slots) :
    k ∉ positions c base p' q' := by
  intro hk'
  obtain ⟨x, hp, hx, he⟩ := hk
  obtain ⟨y, hp', hy, he'⟩ := hk'
  have hslots : c.slots = 2 ^ c.log := rfl
  have hxy : x = y := slot_inj base (log_le c) (by omega) (by omega) (he.symm.trans he')
  omega

theorem positions_mono {c : Capacity} {base : Usize} {p q p' q' : ℕ} (hp : p' ≤ p) (hq : q ≤ q') :
    positions c base p q ⊆ positions c base p' q' := by
  intro k hk
  obtain ⟨x, hpx, hxq, he⟩ := hk
  exact ⟨x, hp.trans hpx, lt_of_lt_of_le hxq hq, he⟩

theorem positions_succ (c : Capacity) (base : Usize) {p q k : ℕ}
    (hk : k ∈ positions c base p (q + 1)) :
    k ∈ positions c base p q ∨ k = Cyclic.slot c.log (counter base q) := by
  obtain ⟨x, hp, hx, he⟩ := hk
  by_cases hxq : x = q
  · right
    rw [he, hxq]
  · left
    exact ⟨x, hp, by omega, he⟩

theorem positions_split {c : Capacity} {base : Usize} {p q k : ℕ} (m : ℕ)
    (hk : k ∈ positions c base p q) : k ∈ positions c base p m ∨ k ∈ positions c base m q := by
  obtain ⟨x, hp, hx, he⟩ := hk
  by_cases hxm : x < m
  · left
    exact ⟨x, hp, hxm, he⟩
  · right
    exact ⟨x, by omega, hx, he⟩

/-! ### What a guard caches and touches -/

/-- The cached pair of a `Producer`, from the moment `producer()` returns it. -/
def Producer.guard : Producer α → Option (Usize × Usize)
  | .released => none
  | .locked => none
  | .headLoaded _ => none
  | .held head tail => some (head, tail)
  | .loadingTail head tail _ => some (head, tail)
  | .writing head tail _ _ => some (head, tail)
  | .publishing head tail _ => some (head, tail)

def Consumer.guard : Consumer α → Option (Usize × Usize)
  | .released => none
  | .locked => none
  | .headLoaded _ => none
  | .held head tail => some (head, tail)
  | .loadingHead head tail _ => some (head, tail)
  | .readingLen head tail _ => some (head, tail)
  | .reading head tail _ _ _ => some (head, tail)
  | .unreachable => none

/-- The slots of the record that `push_slice` has started and not published. -/
def Producer.claimed (c : Capacity) : Producer α → Set ℕ
  | .writing head _ values _ => region c head (advance head values.length)
  | .publishing head _ values => region c head (advance head values.length)
  | _ => ∅

def Producer.target (c : Capacity) : Producer α → Option ℕ
  | .writing head _ values i =>
    some (Cyclic.slot c.log (if i < values.length then advance head i else head))
  | _ => none

/-- The slots that a guard holds to be published. -/
def Consumer.readable (c : Capacity) (pc : Consumer α) : Set ℕ :=
  match pc.guard with
  | some (head, tail) => region c tail head
  | none => ∅

def Consumer.target (c : Capacity) : Consumer α → Option ℕ
  | .readingLen _ tail _ => some (Cyclic.slot c.log tail)
  | .reading _ tail len _ i =>
    if i < len then some (Cyclic.slot c.log (advance tail i)) else none
  | _ => none

/-- The part of the started record that has been written. -/
def Producer.progress (c : Capacity) (base : Usize) (published : List (List α)) :
    Producer α → Set ℕ
  | .writing _ _ _ i => positions c base (span published + 1) (span published + 1 + i)
  | .publishing _ _ values =>
    positions c base (span published) (span published + 1 + values.length)
  | _ => ∅

/-! ### Views in positions -/

section Views
variable {c : Capacity} {base : Usize} {rb : RingBuffer α} {published popped : List (List α)}

theorem ProducerInv.view {pc : Producer α} (h : ProducerInv c base rb published popped pc)
    {head tail : Usize} (hg : pc.guard = some (head, tail)) :
    ProducerView c base published popped head tail 0 := by
  cases pc with
  | released => cases hg
  | locked => cases hg
  | headLoaded head' => cases hg
  | held head' tail' =>
    cases hg
    exact h
  | loadingTail head' tail' values =>
    cases hg
    exact h
  | writing head' tail' values i =>
    cases hg
    obtain ⟨⟨hh, t, ht, hle, hroom⟩, -⟩ := h
    exact ⟨hh, t, ht, hle, by omega⟩
  | publishing head' tail' values =>
    cases hg
    obtain ⟨⟨hh, t, ht, hle, hroom⟩, -⟩ := h
    exact ⟨hh, t, ht, hle, by omega⟩

theorem ConsumerInv.view {pc : Consumer α} (h : ConsumerInv base published popped pc)
    {head tail : Usize} (hg : pc.guard = some (head, tail)) :
    ∃ ahead, ConsumerView base published popped ahead head tail := by
  cases pc with
  | released => cases hg
  | locked => cases hg
  | headLoaded head' => cases hg
  | held head' tail' =>
    cases hg
    exact h
  | loadingHead head' tail' out =>
    cases hg
    exact h
  | readingLen head' tail' out =>
    cases hg
    obtain ⟨r, ahead, hview⟩ := h
    exact ⟨r :: ahead, hview⟩
  | reading head' tail' len out i =>
    cases hg
    obtain ⟨r, ahead, hview, -⟩ := h
    exact ⟨r :: ahead, hview⟩
  | unreachable => cases hg

theorem ProducerView.distance {head tail : Usize} {room : ℕ} (hp : popped <+: published)
    (h : ProducerView c base published popped head tail room) :
    (head - tail).toNat ≤ c.slots := by
  obtain ⟨rfl, t, rfl, hle, hroom⟩ := h
  have hspan := span_mono hp
  have hlt := slots_lt c
  have hpos : t + (span published - t) = span published := by omega
  have hsub := counter_sub base t (span published - t) (by omega)
  rw [hpos] at hsub
  omega

theorem ConsumerView.distance {ahead : List (List α)} {head tail : Usize}
    (hbound : span published ≤ span popped + c.slots)
    (h : ConsumerView base published popped ahead head tail) : (head - tail).toNat ≤ c.slots := by
  obtain ⟨hpre, rfl, rfl⟩ := h
  have hspan := span_mono hpre
  have hlt := slots_lt c
  rw [span_append] at hspan ⊢
  rw [counter_sub base _ _ (by omega)]
  omega

theorem Core.distance (h : Core c base rb published popped) :
    (rb.head - rb.tail).toNat ≤ c.slots := by
  have hview : ProducerView c base published popped rb.head rb.tail 0 :=
    ⟨h.head, _, h.tail, le_refl _, h.bound⟩
  exact hview.distance h.popped_extends

theorem Core.region (h : Core c base rb published popped) :
    region c rb.tail rb.head = positions c base (span popped) (span published) := by
  have hspan := span_mono h.popped_extends
  have hbound := h.bound
  have hlt := slots_lt c
  rw [h.head, h.tail, region_counter c base hspan (by omega)]

/- A consumer's cached pair covers a part of the published region. -/
theorem Consumer.readable_published {pc : Consumer α} (hcore : Core c base rb published popped)
    (h : ConsumerInv base published popped pc) :
    pc.readable c ⊆ positions c base (span popped) (span published) := by
  intro k hk
  cases hg : pc.guard with
  | none =>
    rw [Consumer.readable, hg] at hk
    exact hk.elim
  | some pair =>
    obtain ⟨head, tail⟩ := pair
    rw [Consumer.readable, hg] at hk
    obtain ⟨ahead, hpre, rfl, rfl⟩ := h.view hg
    have hspan := span_mono hpre
    have hbound := hcore.bound
    have hlt := slots_lt c
    rw [span_append] at hspan hk
    dsimp only at hk
    rw [region_counter c base (by omega) (by omega)] at hk
    exact positions_mono (le_refl _) hspan hk

/- The started record fills the free slots behind `head`, and no more. -/
theorem Producer.claimed_free {pc : Producer α} (hcore : Core c base rb published popped)
    (h : ProducerInv c base rb published popped pc) {k : ℕ} (hk : k ∈ pc.claimed c) :
    ∃ q, q ≤ span popped + c.slots ∧ k ∈ positions c base (span published) q := by
  have hlt := slots_lt c
  have hspan := span_mono hcore.popped_extends
  have hregion : ∀ {head tail : Usize} {values : List α},
      ProducerView c base published popped head tail (1 + values.length) →
      Ring.region c head (advance head values.length) =
        positions c base (span published) (span published + 1 + values.length) ∧
      span published + 1 + values.length ≤ span popped + c.slots := by
    intro head tail values hview
    have hroom := hview.room
    refine ⟨?_, by omega⟩
    rw [hview.1, advance_counter, region_counter c base (by omega) (by omega)]
  cases pc with
  | writing head tail values i =>
    obtain ⟨he, hle⟩ := hregion h.1
    exact ⟨_, hle, he ▸ hk⟩
  | publishing head tail values =>
    obtain ⟨he, hle⟩ := hregion h.1
    exact ⟨_, hle, he ▸ hk⟩
  | _ => exact hk.elim

theorem Producer.target_claimed {pc : Producer α} (h : ProducerInv c base rb published popped pc)
    (hp : popped <+: published) {k : ℕ} (hk : pc.target c = some k) : k ∈ pc.claimed c := by
  cases pc with
  | writing head tail values i =>
    obtain ⟨hview, hi, -⟩ := h
    have hspan := span_mono hp
    have hroom := hview.room
    have hlt := slots_lt c
    rw [Producer.target, Option.some.injEq, hview.1] at hk
    show k ∈ Ring.region c head (advance head values.length)
    rw [hview.1, advance_counter, region_counter c base (by omega) (by omega), ← hk]
    split
    · rw [advance_counter]
      exact ⟨_, by omega, by omega, rfl⟩
    · exact ⟨_, le_refl _, by omega, rfl⟩
  | _ => cases hk

theorem Consumer.target_readable {pc : Consumer α} (hcore : Core c base rb published popped)
    (h : ConsumerInv base published popped pc) {k : ℕ} (hk : pc.target c = some k) :
    k ∈ pc.readable c ∧ rb.slots k ≠ none := by
  have hbound := hcore.bound
  have hlt := slots_lt c
  cases pc with
  | readingLen head tail out =>
    obtain ⟨r, ahead, hview⟩ := h
    have hslot := hcore.slot_len hview
    obtain ⟨hpre, rfl, rfl⟩ := hview
    have hspan := span_mono hpre
    rw [span_append, span_cons] at hspan
    rw [Consumer.target, Option.some.injEq] at hk
    subst hk
    refine ⟨?_, fun hn => ?_⟩
    · show _ ∈ Ring.region c _ _
      rw [span_append, span_cons, region_counter c base (by omega) (by omega)]
      exact ⟨_, le_refl _, by omega, rfl⟩
    · rw [RingBuffer.slot, hn] at hslot
      cases hslot
  | reading head tail len out i =>
    obtain ⟨r, ahead, hview, rfl, hrest⟩ := h
    rw [Consumer.target] at hk
    split at hk
    · rename_i hi
      have hslot := hcore.slot_value hview hi
      obtain ⟨hpre, rfl, rfl⟩ := hview
      have hspan := span_mono hpre
      rw [span_append, span_cons] at hspan
      rw [Option.some.injEq] at hk
      subst hk
      refine ⟨?_, fun hn => ?_⟩
      · show _ ∈ Ring.region c _ _
        rw [span_append, span_cons, region_counter c base (by omega) (by omega), advance_counter]
        exact ⟨_, by omega, by omega, rfl⟩
      · rw [RingBuffer.slot, hn] at hslot
        cases hslot
    · cases hk
  | _ => cases hk

theorem Producer.progress_free {pc : Producer α} (h : ProducerInv c base rb published popped pc)
    {k : ℕ} (hk : k ∈ pc.progress c base published) :
    ∃ q, q ≤ span popped + c.slots ∧ k ∈ positions c base (span published) q := by
  cases pc with
  | writing head tail values i =>
    have hroom := h.1.room
    have hi := h.2.1
    exact ⟨_, by omega, positions_mono (Nat.le_succ _) (le_refl _) hk⟩
  | publishing head tail values =>
    have hroom := h.1.room
    exact ⟨_, by omega, hk⟩
  | _ => exact hk.elim

/- What a step adds to the started record is the slot it writes, and publishing adds
the whole of it to the published region. -/
theorem producerStep_progress {rb' : RingBuffer α} {pc pc' : Producer α} {event : Option (List α)}
    (hpc : ProducerInv c base rb published popped pc)
    (h : ProducerStep c rb pc event rb' pc') {k : ℕ}
    (hk : k ∈ pc'.progress c base (logged published event)) :
    k ∈ pc.progress c base published ∨ pc.target c = some k := by
  cases h with
  | pushFits values hfit =>
    obtain ⟨x, hlo, hhi, -⟩ := hk
    dsimp only [logged] at hlo hhi
    omega
  | refreshFits hfit =>
    obtain ⟨x, hlo, hhi, -⟩ := hk
    dsimp only [logged] at hlo hhi
    omega
  | @writeValue head tail values i v hv =>
    have hi : i < values.length := (List.getElem?_eq_some_iff.mp hv).1
    rcases positions_succ c base hk with hold | hnew
    · exact Or.inl hold
    · right
      rw [Producer.target, if_pos hi, hpc.1.1, advance_counter, hnew]
      rfl
  | @writeLen head tail values =>
    rcases positions_split (span published + 1) hk with hnew | hold
    · right
      rcases positions_succ c base hnew with hempty | hnew
      · obtain ⟨x, hlo, hhi, -⟩ := hempty
        dsimp only [logged] at hlo hhi
        omega
      · rw [Producer.target, if_neg (lt_irrefl _), hpc.1.1, hnew]
    · exact Or.inl hold
  | _ => exact hk.elim

theorem producerStep_pending {rb' : RingBuffer α} {pc pc' : Producer α} {event : Option (List α)}
    (h : ProducerStep c rb pc event rb' pc') {k : ℕ}
    (hk : k ∈ positions c base (span popped) (span (logged published event))) :
    k ∈ positions c base (span popped) (span published) ∨ k ∈ pc.progress c base published := by
  cases h with
  | @publish head tail values =>
    have hnew : span (published ++ [values]) = span published + 1 + values.length := by
      rw [span_append, span_cons, span_nil]
      omega
    rw [logged, hnew] at hk
    exact positions_split _ hk
  | _ => exact Or.inl hk

end Views

/-! ### The slots written since they became free -/

structure Tracked (ι κ α : Type) extends State ι κ α where
  written : Set ℕ

variable [DecidableEq ι] [DecidableEq κ]

inductive TrackedStep (c : Capacity) : Tracked ι κ α → Tracked ι κ α → Prop where
  | producer {t : Tracked ι κ α} (i : ι) {event rb pc}
      (h : ProducerStep c t.rb (t.producers i) event rb pc) :
    TrackedStep c t { t with
      rb := rb
      producers := Function.update t.producers i pc
      published := logged t.published event
      written := t.written ∪ {k | (t.producers i).target c = some k} }
  | consumer {t : Tracked ι κ α} (j : κ) {event rb pc}
      (h : ConsumerStep c t.rb (t.consumers j) event rb pc) :
    TrackedStep c t { t with
      rb := rb
      consumers := Function.update t.consumers j pc
      popped := logged t.popped event
      written := t.written \ region c t.rb.tail rb.tail }

/-- Nothing is written yet, whatever the slots hold. -/
def TrackedInitial (counter : Usize) (t : Tracked ι κ α) : Prop :=
  Initial counter t.toState ∧ t.written = ∅

/- Keeping the record changes nothing about the runs. -/
theorem TrackedStep.untracked {c : Capacity} {t t' : Tracked ι κ α} (h : TrackedStep c t t') :
    Step c t.toState t'.toState := by
  cases h with
  | producer i h => exact .producer i h
  | consumer j h => exact .consumer j h

theorem untracked_reachable {c : Capacity} {base : Usize} {t : Tracked ι κ α}
    (h : Reachable (TrackedInitial base) (TrackedStep c) t) :
    Reachable (Initial base) (Step c) t.toState :=
  h.simulation Tracked.toState (fun _ ht => ht.1) fun _ _ _ hs => Or.inr hs.untracked

theorem tracked_reachable {c : Capacity} {base : Usize} {s : State ι κ α}
    (h : Reachable (Initial base) (Step c) s) :
    ∃ t : Tracked ι κ α, Reachable (TrackedInitial base) (TrackedStep c) t ∧ t.toState = s := by
  induction h with
  | @init s h => exact ⟨⟨s, ∅⟩, .init ⟨h, rfl⟩, rfl⟩
  | step h hs ih =>
    obtain ⟨t, ht, rfl⟩ := ih
    cases hs with
    | producer i h => exact ⟨_, ht.step (.producer i h), rfl⟩
    | consumer j h => exact ⟨_, ht.step (.consumer j h), rfl⟩

/-! ### Every published slot is written -/

section Owned
variable {c : Capacity} {base : Usize} {t t' : Tracked ι κ α}

structure Written (c : Capacity) (base : Usize) (t : Tracked ι κ α) : Prop where
  pending : positions c base (span t.popped) (span t.published) ⊆ t.written
  progress : ∀ i, (t.producers i).progress c base t.published ⊆ t.written

omit [DecidableEq ι] [DecidableEq κ] in
theorem written_initial (h : TrackedInitial base t) : Written c base t := by
  obtain ⟨s, w⟩ := t
  obtain ⟨⟨slots, rfl⟩, -⟩ := h
  refine ⟨fun k hk => ?_, fun i k hk => hk.elim⟩
  obtain ⟨x, -, hx, -⟩ := hk
  exact (Nat.not_lt_zero x hx).elim

/- The slots that a `tail` store frees are neither still published nor in a started
record. -/
theorem written_step (hinv : Inv c base t.toState) (hw : Written c base t)
    (h : TrackedStep c t t') : Written c base t' := by
  have hinv' := step_inv hinv h.untracked
  cases h with
  | @producer i event rb pc h =>
    constructor
    · intro k hk
      rcases producerStep_pending h hk with hold | hnew
      · exact Or.inl (hw.pending hold)
      · exact Or.inl (hw.progress i hnew)
    · refine (Function.forall_update_iff _ fun _ (pc : Producer α) =>
        ∀ k ∈ pc.progress c base (logged t.published event),
          k ∈ t.written ∪ {k | (t.producers i).target c = some k}).mpr
        ⟨fun k hk => ?_, fun j hj => ?_⟩
      · rcases producerStep_progress (hinv.producers i) h hk with hold | hnew
        · exact Or.inl (hw.progress i hold)
        · exact Or.inr hnew
      · by_cases hin : (t.producers i).inside
        · have hout := hinv.producerLock.others_out hin hj
          rw [not_not.mp hout]
          exact fun k hk => hk.elim
        · have hreleased : t.producers i = .released := not_not.mp hin
          rw [hreleased] at h
          obtain ⟨rfl, -⟩ := producerStep_outside h
          exact fun k hk => Or.inl (hw.progress j hk)
  | @consumer j event rb pc h =>
    have hmono := span_mono (logged_extends t.popped event)
    have hspan := span_mono hinv'.core.popped_extends
    have hbound := hinv.core.bound
    have hlt := slots_lt c
    have hfreed : region c t.rb.tail rb.tail =
        positions c base (span t.popped) (span (logged t.popped event)) := by
      rw [hinv.core.tail, hinv'.core.tail]
      exact region_counter c base hmono (by dsimp only at hspan ⊢; omega)
    constructor
    · intro k hk
      have hold : k ∈ positions c base (span t.popped) (span t.published) :=
        positions_mono hmono (le_refl _) hk
      refine ⟨hw.pending hold, fun hk' => ?_⟩
      rw [hfreed] at hk'
      exact positions_disjoint hk' (le_refl _) hbound hk
    · intro i k hk
      refine ⟨hw.progress i hk, fun hk' => ?_⟩
      rw [hfreed] at hk'
      obtain ⟨q, hq, hk⟩ := Producer.progress_free (hinv.producers i) hk
      exact positions_disjoint hk' hspan hq hk

theorem reachable_written (h : Reachable (TrackedInitial base) (TrackedStep c) t) :
    Written c base t :=
  h.invariant_with (fun _ ht => reachable_inv (untracked_reachable ht))
    (fun _ ht => written_initial ht) fun _ _ hinv hw hs => written_step hinv hw hs

/-- What the unsafe code relies on, of one state. -/
structure Exclusively (c : Capacity) (t : Tracked ι κ α) : Prop where
  one_producer : ∀ i j, (t.producers i).inside → (t.producers j).inside → i = j
  one_consumer : ∀ i j, (t.consumers i).inside → (t.consumers j).inside → i = j
  shared : (t.rb.head - t.rb.tail).toNat ≤ c.slots
  producer_pair : ∀ i head tail, (t.producers i).guard = some (head, tail) →
    (head - tail).toNat ≤ c.slots
  consumer_pair : ∀ j head tail, (t.consumers j).guard = some (head, tail) →
    (head - tail).toNat ≤ c.slots
  /-- the pair before and after the reload of `tail` -/
  fits_exact : ∀ i head tail, (t.producers i).guard = some (head, tail) →
    BitVec.usubOverflow (BitVec.ofNat 64 c.slots) (head - tail) = false ∧
      BitVec.usubOverflow (BitVec.ofNat 64 c.slots) (head - t.rb.tail) = false
  writes : ∀ i k, (t.producers i).target c = some k → k ∈ (t.producers i).claimed c
  claimed : ∀ i k, k ∈ (t.producers i).claimed c →
    k ∉ region c t.rb.tail t.rb.head ∧ ∀ j, k ∉ (t.consumers j).readable c
  reads : ∀ j k, (t.consumers j).target c = some k →
    k ∈ (t.consumers j).readable c ∧ k ∈ t.written ∧ t.rb.slots k ≠ none ∧
      ∀ i, k ∉ (t.producers i).claimed c
  no_unreachable : ∀ j, t.consumers j ≠ .unreachable

theorem usubOverflow_slots {x : Usize} (h : x.toNat ≤ c.slots) :
    BitVec.usubOverflow (BitVec.ofNat 64 c.slots) x = false := by
  rw [BitVec.usubOverflow, decide_eq_false_iff_not, BitVec.toNat_ofNat,
    Nat.mod_eq_of_lt (slots_lt c)]
  omega

omit [DecidableEq ι] [DecidableEq κ] in
theorem Inv.claimed_unshared (hinv : Inv c base t.toState) {i : ι} {k : ℕ}
    (hk : k ∈ (t.producers i).claimed c) :
    k ∉ region c t.rb.tail t.rb.head ∧ ∀ j, k ∉ (t.consumers j).readable c := by
  obtain ⟨q, hq, hfree⟩ := Producer.claimed_free hinv.core (hinv.producers i) hk
  have hout : k ∉ positions c base (span t.popped) (span t.published) := fun hpub =>
    positions_disjoint hpub (le_refl _) hq hfree
  refine ⟨?_, fun j hj => hout (Consumer.readable_published hinv.core (hinv.consumers j) hj)⟩
  rw [hinv.core.region]
  exact hout

theorem slots_exclusively_owned (h : Reachable (TrackedInitial base) (TrackedStep c) t) :
    Exclusively c t := by
  have hinv := reachable_inv (untracked_reachable h)
  have hw := reachable_written h
  have hpre := hinv.core.popped_extends
  have hdistance : ∀ i head tail, (t.producers i).guard = some (head, tail) →
      (head - tail).toNat ≤ c.slots ∧ (head - t.rb.tail).toNat ≤ c.slots := by
    intro i head tail hg
    have hview := (hinv.producers i).view hg
    have hreload : ProducerView c base t.published t.popped head t.rb.tail 0 :=
      ⟨hview.1, _, hinv.core.tail, le_refl _, hinv.core.bound⟩
    exact ⟨hview.distance hpre, hreload.distance hpre⟩
  constructor
  case one_producer => exact hinv.producerLock.unique
  case one_consumer => exact hinv.consumerLock.unique
  case shared => exact hinv.core.distance
  case producer_pair =>
    intro i head tail hg
    exact (hdistance i head tail hg).1
  case consumer_pair =>
    intro j head tail hg
    obtain ⟨ahead, hview⟩ := (hinv.consumers j).view hg
    exact hview.distance hinv.core.bound
  case fits_exact =>
    intro i head tail hg
    obtain ⟨hcached, hreloaded⟩ := hdistance i head tail hg
    exact ⟨usubOverflow_slots hcached, usubOverflow_slots hreloaded⟩
  case writes =>
    intro i k hk
    exact Producer.target_claimed (hinv.producers i) hpre hk
  case claimed =>
    intro i k hk
    exact hinv.claimed_unshared hk
  case reads =>
    intro j k hk
    obtain ⟨hread, hinit⟩ := Consumer.target_readable hinv.core (hinv.consumers j) hk
    have hpub := Consumer.readable_published hinv.core (hinv.consumers j) hread
    exact ⟨hread, hw.pending hpub, hinit, fun i hi => (hinv.claimed_unshared hi).2 j hread⟩
  case no_unreachable =>
    intro j hj
    have hpc := hinv.consumers j
    rw [hj] at hpc
    exact hpc

end Owned

/- Counters about to wrap, one record published and being popped, the value of the next
one written. -/
theorem slots_exclusively_owned_wrapping : ∃ t : Tracked Unit Unit ℕ,
    (t.producers ()).target ⟨2, by decide⟩ = some 1 ∧
      (t.consumers ()).target ⟨2, by decide⟩ = some 3 ∧ Exclusively ⟨2, by decide⟩ t := by
  have h : Reachable (TrackedInitial (BitVec.allOnes 64)) (TrackedStep ⟨2, by decide⟩)
      (⟨⟨RingBuffer.start _ fun _ => none, fun _ => .released, fun _ => .released, [], []⟩, ∅⟩ :
        Tracked Unit Unit ℕ) := .init ⟨⟨_, rfl⟩, rfl⟩
  have h := h.step (.producer () (.lock rfl))
  have h := h.step (.producer () .loadHead)
  have h := h.step (.producer () .loadTail)
  have h := h.step (.producer () (.pushFits [7] (by decide)))
  have h := h.step (.producer () (.writeValue rfl))
  have h := h.step (.producer () .writeLen)
  have h := h.step (.producer () .publish)
  have h := h.step (.consumer () (.lock rfl))
  have h := h.step (.consumer () .loadHead)
  have h := h.step (.consumer () .loadTail)
  have h := h.step (.consumer () (.popReady [0, 0] (by decide)))
  have h := h.step (.producer () (.pushFits [8] (by decide)))
  have h := h.step (.producer () (.writeValue rfl))
  exact ⟨_, rfl, rfl, slots_exclusively_owned h⟩

end Pyroscope.Ring
