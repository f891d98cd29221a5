import Pyroscope.Ring.Linearizable
import Pyroscope.Lib.WaitFree

/-!
# No call on the ring buffer waits for another thread

Inside a call a thread can always take its next step, and it returns after a number of
steps of its own that only the length of its slice bounds.
-/

namespace Pyroscope.Ring
open Pyroscope.Lib Cyclic Linearize

variable {α ι κ : Type}

/-- The atomic actions of a call, at most. -/
def Op.actions : Op α → ℕ
  | .producer => 3
  | .dropProducer => 1
  | .pushSlice values => values.length + 4
  | .consumer => 3
  | .dropConsumer => 1
  | .popSlice out => out.length + 4

/-- What is left of the call. -/
def Producer.left : Producer α → ℕ
  | .released => 0
  | .locked => 2
  | .headLoaded _ => 1
  | .held _ _ => 0
  | .loadingTail _ _ values => values.length + 3
  | .writing _ _ values i => values.length - i + 2
  | .publishing _ _ _ => 1

def Consumer.left : Consumer α → ℕ
  | .released => 0
  | .locked => 2
  | .headLoaded _ => 1
  | .held _ _ => 0
  | .loadingHead _ _ out => out.length + 3
  | .readingLen _ _ out => out.length + 2
  | .reading _ _ len _ i => len - i + 1
  | .unreachable => 0

def State.left (s : State ι κ α) : ι ⊕ κ → ℕ
  | .inl i => (s.producers i).left
  | .inr j => (s.consumers j).left

/-- The thread has called the operation and has not returned. -/
def State.Calls (s : State ι κ α) (t : ι ⊕ κ) (op : Op α) : Prop :=
  ∃ st, s.Pending t st ∧ st.op = some op

def State.InCall (s : State ι κ α) (t : ι ⊕ κ) : Prop := ∃ op, s.Calls t op

section Sides
variable {c : Capacity} {base : Usize} {rb rb' : RingBuffer α} {published popped : List (List α)}
  {event : Option (List α)}

theorem producerStep_left {pc pc' : Producer α} (hpc : pc.status ≠ .idle)
    (h : ProducerStep c rb pc event rb' pc') : pc'.left < pc.left := by
  cases h with
  | lock free => exact (hpc rfl).elim
  | busy taken => exact (hpc rfl).elim
  | loadHead => exact Nat.lt_succ_self 1
  | loadTail => exact Nat.lt_succ_self 0
  | pushFits values hfit => exact (hpc rfl).elim
  | pushRefresh values hfit => exact (hpc rfl).elim
  | refreshFits hfit =>
    simp only [Producer.left]
    omega
  | refreshFull hfit =>
    simp only [Producer.left]
    omega
  | writeValue hv =>
    have hlt := (List.getElem?_eq_some_iff.mp hv).1
    simp only [Producer.left]
    omega
  | writeLen =>
    simp only [Producer.left]
    omega
  | publish => exact Nat.lt_succ_self 0
  | drop => exact (hpc rfl).elim

/- The next action of a producer is always possible. -/
theorem producerStep_ready {pc : Producer α} (hpc : ProducerInv c base rb published popped pc)
    (hbusy : pc.status ≠ .idle) : ∃ event rb' pc', ProducerStep c rb pc event rb' pc' := by
  cases pc with
  | released => exact (hbusy rfl).elim
  | locked => exact ⟨_, _, _, .loadHead⟩
  | headLoaded head => exact ⟨_, _, _, .loadTail⟩
  | held head tail => exact (hbusy rfl).elim
  | loadingTail head tail values =>
    cases hfit : fits c head rb.tail values.length with
    | false => exact ⟨_, _, _, .refreshFull hfit⟩
    | true => exact ⟨_, _, _, .refreshFits hfit⟩
  | writing head tail values i =>
    rcases Nat.lt_or_eq_of_le hpc.2.1 with hlt | rfl
    · exact ⟨_, _, _, .writeValue (List.getElem?_eq_getElem hlt)⟩
    · exact ⟨_, _, _, .writeLen⟩
  | publishing head tail values => exact ⟨_, _, _, .publish⟩

theorem consumerStep_left {pc pc' : Consumer α} (hpc : ¬pc.Pending .idle)
    (h : ConsumerStep c rb pc event rb' pc') : pc'.left < pc.left := by
  cases h with
  | lock free => exact (hpc rfl).elim
  | busy taken => exact (hpc rfl).elim
  | loadHead => exact Nat.lt_succ_self 1
  | loadTail => exact Nat.lt_succ_self 0
  | popRefresh out heq => exact (hpc rfl).elim
  | popReady out hne => exact (hpc rfl).elim
  | refreshEmpty heq =>
    simp only [Consumer.left]
    omega
  | refreshReady hne =>
    simp only [Consumer.left]
    omega
  | readLen hs hfit =>
    simp only [Consumer.left]
    omega
  | readLenSmall hs hsmall =>
    simp only [Consumer.left]
    omega
  | readLenBad hs =>
    simp only [Consumer.left]
    omega
  | readValue hi hs =>
    simp only [Consumer.left]
    omega
  | readValueBad hi hs =>
    simp only [Consumer.left]
    omega
  | store =>
    simp only [Consumer.left]
    omega
  | drop => exact (hpc rfl).elim

theorem consumerStep_ready (hcore : Core c base rb published popped) {pc : Consumer α}
    (hpc : ConsumerInv base published popped pc) (hbusy : ¬pc.Pending .idle) :
    ∃ event rb' pc', ConsumerStep c rb pc event rb' pc' := by
  cases pc with
  | released => exact (hbusy rfl).elim
  | locked => exact ⟨_, _, _, .loadHead⟩
  | headLoaded head => exact ⟨_, _, _, .loadTail⟩
  | held head tail => exact (hbusy rfl).elim
  | loadingHead head tail out =>
    by_cases heq : tail = rb.head
    · exact ⟨_, _, _, .refreshEmpty heq⟩
    · exact ⟨_, _, _, .refreshReady heq⟩
  | readingLen head tail out =>
    obtain ⟨r, ahead, hview⟩ := hpc
    rcases Nat.lt_or_ge out.length r.length with hlt | hle
    · exact ⟨_, _, _, .readLenSmall (hcore.slot_len hview) hlt⟩
    · exact ⟨_, _, _, .readLen (hcore.slot_len hview) hle⟩
  | reading head tail len out i =>
    obtain ⟨r, ahead, hview, rfl, -, hle, -⟩ := hpc
    rcases Nat.lt_or_eq_of_le hle with hlt | rfl
    · exact ⟨_, _, _, .readValue hlt (hcore.slot_value hview hlt)⟩
    · exact ⟨_, _, _, .store⟩
  | unreachable => exact hpc.elim

end Sides

/-! ### The length of a call -/

theorem Producer.left_le {c : Capacity} {base : Usize} {rb : RingBuffer α}
    {published popped : List (List α)} {pc : Producer α} {op : Op α}
    (hpc : ProducerInv c base rb published popped pc) (h : pc.status.op = some op) :
    1 ≤ pc.left ∧ pc.left + 1 ≤ op.actions := by
  cases pc with
  | released => cases h
  | locked =>
    cases h
    exact ⟨Nat.le_succ 1, Nat.le_refl 3⟩
  | headLoaded head =>
    cases h
    exact ⟨Nat.le_refl 1, Nat.le_succ 2⟩
  | held head tail => cases h
  | loadingTail head tail values =>
    cases h
    simp only [Producer.left, Op.actions]
    omega
  | writing head tail values i =>
    cases h
    simp only [Producer.left, Op.actions]
    omega
  | publishing head tail values =>
    cases h
    simp only [Producer.left, Op.actions]
    omega

theorem Consumer.left_le {base : Usize} {published popped : List (List α)} {pc : Consumer α}
    {op : Op α} {st : Status (Op α) (Reply α)} (hpc : ConsumerInv base published popped pc)
    (hst : pc.Pending st) (h : st.op = some op) : 1 ≤ pc.left ∧ pc.left + 1 ≤ op.actions := by
  cases pc with
  | released =>
    subst hst
    cases h
  | locked =>
    subst hst
    cases h
    exact ⟨Nat.le_succ 1, Nat.le_refl 3⟩
  | headLoaded head =>
    subst hst
    cases h
    exact ⟨Nat.le_refl 1, Nat.le_succ 2⟩
  | held head tail =>
    subst hst
    cases h
  | loadingHead head tail out =>
    subst hst
    cases h
    simp only [Consumer.left, Op.actions]
    omega
  | readingLen head tail out =>
    subst hst
    cases h
    simp only [Consumer.left, Op.actions]
    omega
  | reading head tail len out i =>
    obtain ⟨asked, rfl, hlen, -⟩ := hst
    obtain ⟨r, ahead, -, -, hle, -, -⟩ := hpc
    cases h
    simp only [Consumer.left, Op.actions]
    omega
  | unreachable => exact hst.elim

/-! ### Any number of threads -/

theorem Producer.busy {pc : Producer α} {op : Op α} (h : pc.status.op = some op) :
    pc.status ≠ .idle := by
  intro hidle
  rw [hidle] at h
  cases h

theorem Consumer.busy {pc : Consumer α} {op : Op α} {st : Status (Op α) (Reply α)}
    (hst : pc.Pending st) (h : st.op = some op) : ¬pc.Pending .idle := by
  intro hidle
  cases pc with
  | released =>
    subst hst
    cases h
  | locked => cases hidle
  | headLoaded head => cases hidle
  | held head tail =>
    subst hst
    cases h
  | loadingHead head tail out => cases hidle
  | readingLen head tail out => cases hidle
  | reading head tail len out i =>
    obtain ⟨asked, hasked, -⟩ := hidle
    cases hasked
  | unreachable => exact hidle.elim

section System
variable {c : Capacity} {base : Usize}

theorem State.Calls.left_le {s : State ι κ α} (hinv : Inv c base s) {t : ι ⊕ κ} {op : Op α}
    (h : s.Calls t op) : 1 ≤ s.left t ∧ s.left t + 1 ≤ op.actions := by
  obtain ⟨st, hst, hop⟩ := h
  cases t with
  | inl i =>
    subst hst
    exact Producer.left_le (hinv.producers i) hop
  | inr j => exact Consumer.left_le (hinv.consumers j) hst hop

variable [DecidableEq ι] [DecidableEq κ]

/-- A step of the thread. -/
def Moved (c : Capacity) (s : State ι κ α) (t : ι ⊕ κ) (s' : State ι κ α) : Prop :=
  ∃ es, LabelledStep c s t es s'

theorem moved_left {s s' : State ι κ α} {t : ι ⊕ κ} (hbusy : s.InCall t) (h : Moved c s t s') :
    s'.left t < s.left t := by
  obtain ⟨op, st, hst, hop⟩ := hbusy
  obtain ⟨es, hs⟩ := h
  cases hs with
  | @producer i event rb pc hstep =>
    subst hst
    show (Function.update s.producers i pc i).left < (s.producers i).left
    rw [Function.update_self]
    exact producerStep_left (Producer.busy hop) hstep
  | @consumer j event rb pc hstep =>
    show (Function.update s.consumers j pc j).left < (s.consumers j).left
    rw [Function.update_self]
    exact consumerStep_left (Consumer.busy hst hop) hstep

theorem moved_others {s s' : State ι κ α} {t t' : ι ⊕ κ} (h : Moved c s t' s') (ht : t' ≠ t) :
    s'.left t = s.left t ∧ (s.InCall t → s'.InCall t) := by
  obtain ⟨es, hs⟩ := h
  refine ⟨?_, fun ⟨op, st, hst, hop⟩ => ⟨op, st, labelledStep_others hs (Ne.symm ht) hst, hop⟩⟩
  cases hs with
  | @producer i event rb pc hstep =>
    cases t with
    | inl i' =>
      show (Function.update s.producers i pc i').left = (s.producers i').left
      rw [Function.update_of_ne (fun he => ht (congrArg Sum.inl he.symm))]
    | inr j' => rfl
  | @consumer j event rb pc hstep =>
    cases t with
    | inl i' => rfl
    | inr j' =>
      show (Function.update s.consumers j pc j').left = (s.consumers j').left
      rw [Function.update_of_ne (fun he => ht (congrArg Sum.inr he.symm))]

theorem calls_bounded :
    Bounded (Moved c) (Inv c base) (fun (s : State ι κ α) t => s.InCall t) State.left where
  keeps := fun _ _ _ hinv ⟨_, hs⟩ => labelledStep_inv hinv hs
  own := fun _ _ _ _ hbusy hs _ => moved_left hbusy hs
  others := fun _ _ _ _ hs ht => moved_others hs ht

theorem moved_ready {s : State ι κ α} (hinv : Inv c base s) {t : ι ⊕ κ} (hbusy : s.InCall t) :
    ∃ s', Moved c s t s' := by
  obtain ⟨op, st, hst, hop⟩ := hbusy
  cases t with
  | inl i =>
    subst hst
    obtain ⟨event, rb, pc, hstep⟩ := producerStep_ready (hinv.producers i) (Producer.busy hop)
    exact ⟨_, _, .producer i hstep⟩
  | inr j =>
    obtain ⟨event, rb, pc, hstep⟩ :=
      consumerStep_ready hinv.core (hinv.consumers j) (Consumer.busy hst hop)
    exact ⟨_, _, .consumer j hstep⟩

/- The thread's first action called the operation, and it has its last one ahead. -/
theorem calls_wait_free {s s' : State ι κ α} (h : Reachable (Initial base) (Step c) s)
    {t : ι ⊕ κ} {op : Op α} {n : ℕ} (hop : s.Calls t op)
    (hw : Within (Moved c) State.InCall t s n s') :
    n + 2 ≤ op.actions ∧ ∃ s'', Moved c s' t s'' := by
  have hinv := reachable_inv h
  obtain ⟨hinv', hbusy, hbound⟩ := hw.bound calls_bounded hinv
  obtain ⟨-, hle⟩ := hop.left_le hinv
  obtain ⟨op', hop'⟩ := hbusy
  obtain ⟨hleft, -⟩ := hop'.left_le hinv'
  exact ⟨by omega, moved_ready hinv' ⟨op', hop'⟩⟩

/- Another thread takes the consumer's guard in the middle of a push. -/
theorem calls_wait_free_push : ∃ s s' : State Unit Unit ℕ,
    s.Calls (.inl ()) (.pushSlice [7]) ∧
      Within (Moved ⟨1, by decide⟩) State.InCall (.inl ()) s 2 s' ∧
      2 + 2 ≤ (Op.pushSlice [7]).actions ∧ ∃ s'', Moved ⟨1, by decide⟩ s' (.inl ()) s'' := by
  have h : Reachable (Initial (BitVec.allOnes 64)) (Step ⟨1, by decide⟩)
      (⟨RingBuffer.start _ fun _ => none, fun _ => .released, fun _ => .released, [], []⟩ :
        State Unit Unit ℕ) := .init ⟨_, rfl⟩
  have h := h.step (.producer () (.lock rfl))
  have h := h.step (.producer () .loadHead)
  have h := h.step (.producer () .loadTail)
  have h := h.step (.producer () (.pushFits [7] (by decide)))
  have hstart {s : State Unit Unit ℕ} (_ : Reachable (Initial (BitVec.allOnes 64)) (Step ⟨1, by decide⟩) s)
      (hop : s.Calls (.inl ()) (.pushSlice [7])) :
      Within (Moved ⟨1, by decide⟩) State.InCall (.inl ()) s 0 s := .start ⟨_, hop⟩
  have hw := hstart h ⟨_, rfl, rfl⟩
  have hw := hw.own ⟨_, .producer () (.writeValue rfl)⟩ ⟨.pushSlice [7], _, rfl, rfl⟩
  have hw := hw.other ⟨_, .consumer () (.lock rfl)⟩ (by decide)
  have hw := hw.own ⟨_, .producer () .writeLen⟩ ⟨.pushSlice [7], _, rfl, rfl⟩
  exact ⟨_, _, ⟨_, rfl, rfl⟩, hw, calls_wait_free h ⟨_, rfl, rfl⟩ hw⟩

end System
end Pyroscope.Ring
