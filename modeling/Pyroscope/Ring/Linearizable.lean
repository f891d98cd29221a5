import Pyroscope.Ring.Sequential
import Pyroscope.Lib.Linearize

/-!
# The ring buffer under concurrent calls

The calls and returns of all threads, recorded along a run of the atomic steps. A
`producer()` or `consumer()` takes effect at the compare-exchange, a `push_slice` at
the store of `head` or at the reload of `tail` that still leaves no room, a `pop_slice`
at the store of `tail`, at the reload of `head`, or where it reads a length that is too
large. The replies are those of the bounded queue at these points.
-/

namespace Pyroscope.Ring
open Pyroscope.Lib Cyclic Linearize

variable {α ι κ θ : Type}

/-- The calls and returns in a step of a producer; a guard that is dropped is a call. -/
def producerEvents (t : θ) : Producer α → Producer α → List (Event θ (Op α) (Reply α))
  | .released, .locked => [.call t .producer]
  | .released, .released => [.call t .producer, .ret t (.guard false)]
  | .headLoaded _, .held _ _ => [.ret t (.guard true)]
  | .held _ _, .writing _ _ values _ => [.call t (.pushSlice values)]
  | .held _ _, .loadingTail _ _ values => [.call t (.pushSlice values)]
  | .loadingTail _ _ _, .held _ _ => [.ret t (.push (.error .full))]
  | .publishing _ _ _, .held _ _ => [.ret t (.push (.ok ()))]
  | .held _ _, .released => [.call t .dropProducer, .ret t .dropped]
  | _, _ => []

def consumerEvents (c : Capacity) (t : θ) (rb : RingBuffer α) :
    Consumer α → Consumer α → List (Event θ (Op α) (Reply α))
  | .released, .locked => [.call t .consumer]
  | .released, .released => [.call t .consumer, .ret t (.guard false)]
  | .headLoaded _, .held _ _ => [.ret t (.guard true)]
  | .held _ _, .loadingHead _ _ out => [.call t (.popSlice out)]
  | .held _ _, .readingLen _ _ out => [.call t (.popSlice out)]
  | .loadingHead _ _ out, .held _ _ => [.ret t (.pop (.error .empty) out)]
  | .readingLen _ tail out, .held _ _ =>
    match rb.slot c tail with
    | some (.len len) => [.ret t (.pop (.error (.tooSmall len)) out)]
    | _ => []
  | .reading _ _ len out _, .held _ _ => [.ret t (.pop (.ok len) out)]
  | .held _ _, .released => [.call t .dropConsumer, .ret t .dropped]
  | _, _ => []

/-- A step with the thread that makes it and the events of that thread. -/
inductive LabelledStep [DecidableEq ι] [DecidableEq κ] (c : Capacity) : State ι κ α → ι ⊕ κ →
    List (Event (ι ⊕ κ) (Op α) (Reply α)) → State ι κ α → Prop where
  | producer {s : State ι κ α} (i : ι) {event rb pc}
      (h : ProducerStep c s.rb (s.producers i) event rb pc) :
    LabelledStep c s (.inl i) (producerEvents (.inl i) (s.producers i) pc)
      { s with
        rb := rb
        producers := Function.update s.producers i pc
        published := logged s.published event }
  | consumer {s : State ι κ α} (j : κ) {event rb pc}
      (h : ConsumerStep c s.rb (s.consumers j) event rb pc) :
    LabelledStep c s (.inr j) (consumerEvents c (.inr j) s.rb (s.consumers j) pc)
      { s with
        rb := rb
        consumers := Function.update s.consumers j pc
        popped := logged s.popped event }

theorem labelledStep_iff [DecidableEq ι] [DecidableEq κ] {c : Capacity} {s s' : State ι κ α} :
    (∃ t es, LabelledStep c s t es s') ↔ Step c s s' := by
  constructor
  · rintro ⟨t, es, hs⟩
    cases hs with
    | producer i h => exact .producer i h
    | consumer j h => exact .consumer j h
  · intro hs
    cases hs with
    | producer i h => exact ⟨_, _, .producer i h⟩
    | consumer j h => exact ⟨_, _, .consumer j h⟩

/-! ### Where the calls stand -/

/-- The operation of a producer's thread: not called, called, or already in effect. -/
def Producer.status : Producer α → Status (Op α) (Reply α)
  | .released => .idle
  | .locked => .done .producer (.guard true)
  | .headLoaded _ => .done .producer (.guard true)
  | .held _ _ => .idle
  | .loadingTail _ _ values => .called (.pushSlice values)
  | .writing _ _ values _ => .called (.pushSlice values)
  | .publishing _ _ values => .called (.pushSlice values)

/-- `out` is overwritten from the front while a record is read. -/
def Consumer.Pending : Consumer α → Status (Op α) (Reply α) → Prop
  | .released, st => st = .idle
  | .locked, st => st = .done .consumer (.guard true)
  | .headLoaded _, st => st = .done .consumer (.guard true)
  | .held _ _, st => st = .idle
  | .loadingHead _ _ out, st => st = .called (.popSlice out)
  | .readingLen _ _ out, st => st = .called (.popSlice out)
  | .reading _ _ _ out i, st => ∃ asked, st = .called (.popSlice asked) ∧
      asked.length = out.length ∧ asked.drop i = out.drop i
  | .unreachable, _ => False

/-- What the queue is while the buffer looks like this. -/
def view (rb : RingBuffer α) (published popped : List (List α)) : Queue α :=
  ⟨published.drop popped.length, rb.producerLocked, rb.consumerLocked⟩

section Core
variable {c : Capacity} {base : Usize} {rb : RingBuffer α} {published popped : List (List α)}

theorem Core.published_eq (h : Core c base rb published popped) :
    published = popped ++ published.drop popped.length := by
  obtain ⟨pending, he, -⟩ := h.stored
  rw [he, List.drop_left]

theorem Core.span_view (h : Core c base rb published popped) :
    span published = span popped + span (published.drop popped.length) := by
  conv_lhs => rw [h.published_eq, span_append]

theorem drop_logged (h : Core c base rb published popped) (r : List α) :
    (published ++ [r]).drop popped.length = published.drop popped.length ++ [r] :=
  List.drop_append_of_le_length h.popped_extends.length_le

/- The records a consumer sees in front of its tail are the first of the queue. -/
theorem ConsumerView.view_records {r : List α} {ahead : List (List α)} {head tail : Usize}
    (h : ConsumerView base published popped (r :: ahead) head tail) :
    published.drop popped.length = r :: published.drop (popped ++ [r]).length := by
  obtain ⟨rest, he⟩ := h.1
  have hassoc : popped ++ r :: ahead ++ rest = popped ++ [r] ++ (ahead ++ rest) := by
    simp only [List.append_assoc, List.cons_append, List.nil_append]
  rw [← he, hassoc, List.drop_left, List.append_assoc, List.drop_left, List.singleton_append]

/- A reloaded head that is the tail leaves no record. -/
theorem Core.view_empty (h : Core c base rb published popped)
    (hhead : rb.head = counter base (span popped)) : published.drop popped.length = [] := by
  have hspan := h.span_view
  have hbound := h.bound
  have hlt := slots_lt c
  have heq : span popped = span published :=
    counter_inj base (by omega) (by omega) (hhead.symm.trans h.head)
  cases hq : published.drop popped.length with
  | nil => rfl
  | cons r rs =>
    rw [hq, span_cons] at hspan
    omega

end Core

/-! ### The queue's answers -/

section Queue
variable {c : Capacity} {q : Queue α}

theorem call_push_ok {values : List α} (hp : q.producer = true)
    (hroom : span (q.records ++ [values]) ≤ c.slots) :
    q.call c (.pushSlice values) = (.push (.ok ()), { q with records := q.records ++ [values] }) := by
  simp only [Queue.call, Queue.push, hp, if_true, if_pos hroom]

theorem call_push_full {values : List α} (hp : q.producer = true)
    (hroom : ¬span (q.records ++ [values]) ≤ c.slots) :
    q.call c (.pushSlice values) = (.push (.error .full), q) := by
  obtain ⟨records, p, cs⟩ := q
  subst hp
  simp only [Queue.call, Queue.push, if_true, if_neg hroom]

theorem call_pop_empty {out : List α} (hc : q.consumer = true) (hq : q.records = []) :
    q.call c (.popSlice out) = (.pop (.error .empty) out, q) := by
  obtain ⟨records, p, cs⟩ := q
  subst hq hc
  simp only [Queue.call, Queue.pop, if_true]

theorem call_pop_small {out r : List α} {rs : List (List α)} (hc : q.consumer = true)
    (hq : q.records = r :: rs) (hlt : out.length < r.length) :
    q.call c (.popSlice out) = (.pop (.error (.tooSmall r.length)) out, q) := by
  obtain ⟨records, p, cs⟩ := q
  subst hq hc
  simp only [Queue.call, Queue.pop, if_true, if_pos hlt]

theorem call_pop_ok {out r : List α} {rs : List (List α)} (hc : q.consumer = true)
    (hq : q.records = r :: rs) (hle : r.length ≤ out.length) :
    q.call c (.popSlice out) =
      (.pop (.ok r.length) (r ++ out.drop r.length), { q with records := rs }) := by
  obtain ⟨records, p, cs⟩ := q
  subst hq hc
  simp only [Queue.call, Queue.pop, if_true, if_neg (not_lt.mpr hle)]

end Queue

/-! ### One step of a thread -/

section Steps
variable {c : Capacity} {base : Usize} {rb rb' : RingBuffer α} {published popped : List (List α)}
  {event : Option (List α)}

theorem producerStep_moves (hcore : Core c base rb published popped) {pc pc' : Producer α}
    (hpc : ProducerInv c base rb published popped pc)
    (hlocked : pc.inside → rb.producerLocked = true) (t : θ)
    (h : ProducerStep c rb pc event rb' pc') :
    Moves (Queue.call c) t (view rb published popped) pc.status (producerEvents t pc pc')
      (view rb' (logged published event) popped) pc'.status := by
  have hinside : ∀ {pc₁ : Producer α}, pc = pc₁ → pc₁ ≠ .released →
      (view rb published popped).producer = true := by
    rintro pc₁ rfl hne
    exact hlocked hne
  cases h with
  | lock free =>
    have hcall : (view rb published popped).call c .producer =
        (.guard true, { view rb published popped with producer := true }) := by
      simp only [Queue.call, view, free, Bool.not_false]
    exact .call (.effect hcall .stay)
  | busy taken =>
    have hcall : (view rb published popped).call c .producer =
        (.guard false, view rb published popped) := by
      simp only [Queue.call, view, taken, Bool.not_true]
    exact .call (.effect hcall (.ret .stay))
  | loadHead => exact .stay
  | loadTail => exact .ret .stay
  | pushFits values hfit => exact .call .stay
  | pushRefresh values hfit => exact .call .stay
  | refreshFits hfit => exact .stay
  | @refreshFull head tail values hfit =>
    have hview : ProducerView c base published popped head rb.tail 0 :=
      ⟨hpc.1, _, hcore.tail, le_refl _, hcore.bound⟩
    have hroom : ¬span (published.drop popped.length ++ [values]) ≤ c.slots := by
      intro hroom
      rw [span_append, span_cons, span_nil] at hroom
      have hspan := hcore.span_view
      have hfits := (hview.fits_iff hcore.popped_extends values.length).mpr
        ⟨hpc.1, _, hcore.tail, le_refl _, by omega⟩
      rw [hfit] at hfits
      exact Bool.false_ne_true hfits
    exact .effect (call_push_full (hinside rfl (by simp)) hroom) (.ret .stay)
  | writeValue hv => exact .stay
  | writeLen => exact .stay
  | @publish head tail values =>
    have hroom : span (published.drop popped.length ++ [values]) ≤ c.slots := by
      have hspan := hcore.span_view
      have hfree := hpc.1.room
      rw [span_append, span_cons, span_nil]
      omega
    refine .effect (call_push_ok (hinside rfl (by simp)) hroom) ?_
    have hview : view { rb with head := advance head values.length } (published ++ [values]) popped =
        { view rb published popped with
          records := published.drop popped.length ++ [values] } := by
      simp only [view, drop_logged hcore]
    rw [logged, hview]
    exact .ret .stay
  | drop =>
    have hcall : (view rb published popped).call c .dropProducer =
        (.dropped, { view rb published popped with producer := false }) := by
      simp only [Queue.call, if_pos (hinside rfl (by simp))]
    exact .call (.effect hcall (.ret .stay))

theorem consumerStep_moves (hcore : Core c base rb published popped) {pc pc' : Consumer α}
    (hpc : ConsumerInv base published popped pc)
    (hlocked : pc.inside → rb.consumerLocked = true) (t : θ) {st : Status (Op α) (Reply α)}
    (hst : pc.Pending st) (h : ConsumerStep c rb pc event rb' pc') :
    ∃ st', Moves (Queue.call c) t (view rb published popped) st (consumerEvents c t rb pc pc')
      (view rb' published (logged popped event)) st' ∧ pc'.Pending st' := by
  have hinside : ∀ {pc₁ : Consumer α}, pc = pc₁ → pc₁ ≠ .released →
      (view rb published popped).consumer = true := by
    rintro pc₁ rfl hne
    exact hlocked hne
  cases h with
  | lock free =>
    have hcall : (view rb published popped).call c .consumer =
        (.guard true, { view rb published popped with consumer := true }) := by
      simp only [Queue.call, view, free, Bool.not_false]
    subst hst
    exact ⟨_, .call (.effect hcall .stay), rfl⟩
  | busy taken =>
    have hcall : (view rb published popped).call c .consumer =
        (.guard false, view rb published popped) := by
      simp only [Queue.call, view, taken, Bool.not_true]
    subst hst
    exact ⟨_, .call (.effect hcall (.ret .stay)), rfl⟩
  | loadHead =>
    subst hst
    exact ⟨_, .stay, rfl⟩
  | loadTail =>
    subst hst
    exact ⟨_, .ret .stay, rfl⟩
  | popRefresh out heq =>
    subst hst
    exact ⟨_, .call .stay, rfl⟩
  | popReady out hne =>
    subst hst
    exact ⟨_, .call .stay, rfl⟩
  | refreshEmpty heq =>
    obtain ⟨ahead, hview⟩ := hpc
    have hempty := hcore.view_empty (heq.symm.trans hview.2.2)
    subst hst
    exact ⟨_, .effect (call_pop_empty (hinside rfl (by simp)) hempty) (.ret .stay), rfl⟩
  | refreshReady hne =>
    subst hst
    exact ⟨_, .stay, rfl⟩
  | readLen hs hfit =>
    subst hst
    exact ⟨_, .stay, _, rfl, rfl, rfl⟩
  | @readLenSmall head tail out len hs hsmall =>
    obtain ⟨r, ahead, hview⟩ := hpc
    have hlen := hcore.slot_len hview
    rw [hs] at hlen
    cases hlen
    have hcall := call_pop_small (c := c) (hinside rfl (by simp)) hview.view_records hsmall
    subst hst
    refine ⟨_, .effect hcall ?_, rfl⟩
    simp only [consumerEvents, hs]
    exact .ret .stay
  | readLenBad hs =>
    obtain ⟨r, ahead, hview⟩ := hpc
    exact (hs _ (hcore.slot_len hview)).elim
  | @readValue head tail len out i v hi hs =>
    obtain ⟨asked, rfl, hlen, hdrop⟩ := hst
    refine ⟨_, .stay, asked, rfl, by rw [hlen, List.length_set], ?_⟩
    rw [← List.drop_drop, hdrop, List.drop_drop, List.drop_set_of_lt (Nat.lt_succ_self i)]
  | readValueBad hi hs =>
    obtain ⟨r, ahead, hview, rfl, -⟩ := hpc
    exact (hs _ (hcore.slot_value hview hi)).elim
  | @store head tail len out =>
    obtain ⟨r, ahead, hview, rfl, hout, -, htake⟩ := hpc
    obtain ⟨asked, rfl, hlen, hdrop⟩ := hst
    rw [List.take_length] at htake
    have hfits : r.length ≤ asked.length := by omega
    have hcall := call_pop_ok (c := c) (hinside rfl (by simp)) hview.view_records hfits
    -- the record in front, and the rest of `out` as it was
    have hanswer : r ++ asked.drop r.length = out := by
      rw [hdrop]
      calc r ++ out.drop r.length = out.take r.length ++ out.drop r.length := by rw [htake]
        _ = out := List.take_append_drop r.length out
    rw [hanswer] at hcall
    refine ⟨_, .effect hcall ?_, rfl⟩
    rw [htake]
    exact .ret .stay
  | drop =>
    have hcall : (view rb published popped).call c .dropConsumer =
        (.dropped, { view rb published popped with consumer := false }) := by
      simp only [Queue.call, if_pos (hinside rfl (by simp))]
    subst hst
    exact ⟨_, .call (.effect hcall (.ret .stay)), rfl⟩

end Steps

/-! ### Every history -/

section System
variable [DecidableEq ι] [DecidableEq κ] {c : Capacity} {base : Usize}

/-- The queue that a state of the system stands for. -/
def State.seen (s : State ι κ α) : Queue α := view s.rb s.published s.popped

def State.Pending (s : State ι κ α) : ι ⊕ κ → Status (Op α) (Reply α) → Prop
  | .inl i, st => st = (s.producers i).status
  | .inr j, st => (s.consumers j).Pending st

omit [DecidableEq ι] [DecidableEq κ] in
theorem initial_seen {s : State ι κ α} (h : Initial base s) :
    Inv c base s ∧ s.seen = ⟨[], false, false⟩ ∧ ∀ t, s.Pending t .idle := by
  refine ⟨initial_inv h, ?_, ?_⟩
  · obtain ⟨slots, rfl⟩ := h
    rfl
  · obtain ⟨slots, rfl⟩ := h
    rintro (i | j)
    · rfl
    · rfl

theorem labelledStep_inv {s s' : State ι κ α} {t : ι ⊕ κ}
    {es : List (Event (ι ⊕ κ) (Op α) (Reply α))} (hinv : Inv c base s)
    (h : LabelledStep c s t es s') : Inv c base s' :=
  step_inv hinv (labelledStep_iff.mp ⟨t, es, h⟩)

theorem labelledStep_moves {s s' : State ι κ α} {t : ι ⊕ κ}
    {es : List (Event (ι ⊕ κ) (Op α) (Reply α))} {st : Status (Op α) (Reply α)}
    (hinv : Inv c base s) (h : LabelledStep c s t es s') (hst : s.Pending t st) :
    ∃ st', Moves (Queue.call c) t s.seen st es s'.seen st' ∧ s'.Pending t st' := by
  cases h with
  | @producer i event rb pc hstep =>
    subst hst
    refine ⟨pc.status, producerStep_moves hinv.core (hinv.producers i)
      (hinv.producerLock.locked_of i) _ hstep, ?_⟩
    show pc.status = (Function.update s.producers i pc i).status
    rw [Function.update_self]
  | @consumer j event rb pc hstep =>
    obtain ⟨st', hmoves, hst'⟩ := consumerStep_moves hinv.core (hinv.consumers j)
      (hinv.consumerLock.locked_of j) (Sum.inr j) hst hstep
    refine ⟨st', hmoves, ?_⟩
    show (Function.update s.consumers j pc j).Pending st'
    rw [Function.update_self]
    exact hst'

theorem labelledStep_others {s s' : State ι κ α} {t t' : ι ⊕ κ}
    {es : List (Event (ι ⊕ κ) (Op α) (Reply α))} {st : Status (Op α) (Reply α)}
    (h : LabelledStep c s t es s') (ht : t' ≠ t) (hst : s.Pending t' st) : s'.Pending t' st := by
  cases h with
  | @producer i event rb pc hstep =>
    cases t' with
    | inl i' =>
      show st = (Function.update s.producers i pc i').status
      rw [Function.update_of_ne (fun he => ht (congrArg Sum.inl he))]
      exact hst
    | inr j' => exact hst
  | @consumer j event rb pc hstep =>
    cases t' with
    | inl i' => exact hst
    | inr j' =>
      show (Function.update s.consumers j pc j').Pending st
      rw [Function.update_of_ne (fun he => ht (congrArg Sum.inr he))]
      exact hst

/- Whatever the threads do at the same time, their calls answer as the bounded queue does
when the calls are made one after another in an order that real time allows. -/
theorem history_linearizable {s : State ι κ α} {h : List (Event (ι ⊕ κ) (Op α) (Reply α))}
    (hr : Recorded (Initial base) (LabelledStep c) s h) :
    Linearizable (Queue.call c) ⟨[], false, false⟩ h s.seen :=
  linearizable (Inv c base) State.seen State.Pending (fun _ hs => initial_seen hs)
    (fun _ _ _ _ hi hs => labelledStep_inv hi hs)
    (fun _ _ _ _ _ hi hs hst => labelledStep_moves hi hs hst)
    (fun _ _ _ _ _ _ _ hs ht hst => labelledStep_others hs ht hst) hr

/- Two slots, and counters about to wrap: a `pop_slice` that finds nothing while a
`push_slice` is under way. -/
theorem history_linearizable_overlapping : ∃ s : State Unit Unit ℕ,
    Linearizable (Queue.call ⟨1, by decide⟩) ⟨[], false, false⟩
      ([.call (.inl ()) .producer, .ret (.inl ()) (.guard true),
        .call (.inr ()) .consumer, .ret (.inr ()) (.guard true),
        .call (.inl ()) (.pushSlice [7]), .call (.inr ()) (.popSlice [0, 0]),
        .ret (.inr ()) (.pop (.error .empty) [0, 0]), .ret (.inl ()) (.push (.ok ()))] :
        List (Event (Unit ⊕ Unit) (Op ℕ) (Reply ℕ))) s.seen := by
  have h : Recorded (Initial (BitVec.allOnes 64)) (LabelledStep ⟨1, by decide⟩)
      (⟨RingBuffer.start _ fun _ => none, fun _ => .released, fun _ => .released, [], []⟩ :
        State Unit Unit ℕ) [] := .init ⟨_, rfl⟩
  have h := h.step (.producer () (.lock rfl))
  have h := h.step (.producer () .loadHead)
  have h := h.step (.producer () .loadTail)
  have h := h.step (.consumer () (.lock rfl))
  have h := h.step (.consumer () .loadHead)
  have h := h.step (.consumer () .loadTail)
  have h := h.step (.producer () (.pushFits [7] (by decide)))
  have h := h.step (.consumer () (.popRefresh [0, 0] (by decide)))
  have h := h.step (.producer () (.writeValue rfl))
  have h := h.step (.consumer () (.refreshEmpty (by decide)))
  have h := h.step (.producer () .writeLen)
  have h := h.step (.producer () .publish)
  exact ⟨_, history_linearizable h⟩

end System
end Pyroscope.Ring
