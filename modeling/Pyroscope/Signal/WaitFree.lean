import Pyroscope.Signal.Ordered
import Pyroscope.Ring.WaitFree

/-!
# The signal handler and the drain return on their own

A handler run may interrupt any thread at any point, another handler run included, so
it must not wait for anyone. `drain` has to return even while handlers keep publishing.
Both take a bounded number of steps of their own, and each next step is possible
whatever the interrupted or preempted others hold.
-/

namespace Pyroscope.Signal
open Pyroscope.Lib Pyroscope.Backend Pyroscope.Ring

/-! ### Steps of one party -/

inductive Party (ι ρ : Type) where
  | handler (i : ι)
  | sampler
  | reporter (j : ρ)

section Parties
variable {config : BackendConfig} {pid : ℕ} {ι ρ : Type} [DecidableEq ι] [DecidableEq ρ]

inductive PartyStep (config : BackendConfig) (pid : ℕ) :
    State ι ρ → Party ι ρ → State ι ρ → Prop where
  | handler {s : State ι ρ} (i : ι) {event finished rb m h}
      (hs : HandlerStep s.rb s.metrics (s.handlers i) event finished rb m h) :
    PartyStep config pid s (.handler i) { s with
      rb := rb
      metrics := m
      handlers := Function.update s.handlers i h
      completed := s.completed + finished
      published := logged s.published event }
  | sampler {s : State ι ρ} {event rb m b l t}
      (hs : SamplerStep config pid s.rb s.metrics s.buffer s.bufferLocked s.sampler event rb m b l t) :
    PartyStep config pid s .sampler { s with
      rb := rb
      metrics := m
      buffer := b
      bufferLocked := l
      sampler := t
      popped := logged s.popped event }
  | reporter {s : State ι ρ} (j : ρ) {finished m b l r}
      (hs : ReporterStep config pid s.metrics s.buffer s.bufferLocked (s.reporters j) finished m b l r) :
    PartyStep config pid s (.reporter j) { s with
      metrics := m
      buffer := b
      bufferLocked := l
      reporters := Function.update s.reporters j r
      reports := s.reports ++ finished.toList }

theorem partyStep_iff {s s' : State ι ρ} :
    (∃ t, PartyStep config pid s t s') ↔ Step config pid s s' := by
  constructor
  · rintro ⟨t, hs⟩
    cases hs with
    | handler i hs => exact .handler i hs
    | sampler hs => exact .sampler hs
    | reporter j hs => exact .reporter j hs
  · intro hs
    cases hs with
    | handler i hs => exact ⟨_, .handler i hs⟩
    | sampler hs => exact ⟨_, .sampler hs⟩
    | reporter j hs => exact ⟨_, .reporter j hs⟩

end Parties

/-! ### A handler run -/

/-- The guard of a run that pushes is taken, and the push is of the unwound frames. -/
def Handler.Guarded : Handler → Prop
  | .pushing _ .released => False
  | .pushing frames (.loadingTail _ _ values) => values = frames
  | .pushing frames (.writing _ _ values _) => values = frames
  | .pushing frames (.publishing _ _ values) => values = frames
  | _ => True

/-- The steps that a run still takes, at most. -/
def Handler.left : Handler → ℕ
  | .idle => 0
  | .unwindFailed _ => 2
  | .unwound frames => frames.length + 9
  | .contended => 2
  | .pushing _ .released => 0
  | .pushing frames .locked => frames.length + 8
  | .pushing frames (.headLoaded _) => frames.length + 7
  | .pushing frames (.held _ _) => frames.length + 6
  | .pushing _ (.loadingTail _ _ values) => values.length + 5
  | .pushing _ (.writing _ _ values i) => values.length - i + 4
  | .pushing _ (.publishing _ _ _) => 3
  | .full _ _ => 3
  | .leaving _ _ => 2
  | .returning => 1

/-- A run on a stack of the maximal length. -/
def handlerActions : ℕ := maxFrames + 10

section Handler
variable {rb rb' : RingBuffer Frame} {m m' : Metrics} {h h' : Handler}
  {event : Option (List Frame)} {finished : ℕ}

theorem handlerStep_guarded (hs : HandlerStep rb m h event finished rb' m' h') (hg : h.Guarded) :
    h'.Guarded := by
  cases hs with
  | pushFits hfit => exact rfl
  | pushRefresh hfit => exact rfl
  | refreshFits hfit => exact hg
  | writeValue hv => exact hg
  | writeLen => exact hg
  | _ => trivial

theorem handlerStep_left (hs : HandlerStep rb m h event finished rb' m' h') (hbusy : h ≠ .idle) :
    h'.left < h.left := by
  cases hs with
  | tickFails e => exact (hbusy rfl).elim
  | tick frames hlen => exact (hbusy rfl).elim
  | writeValue hv =>
    have hlt := (List.getElem?_eq_some_iff.mp hv).1
    simp only [Handler.left]
    omega
  | _ =>
    simp only [Handler.left]
    omega

theorem handlerStep_ready {base : Usize} {published popped : List (List Frame)}
    (hp : ProducerInv recordSlots base rb published popped h.producer) (hg : h.Guarded)
    (hbusy : h ≠ .idle) : ∃ event finished rb' m' h', HandlerStep rb m h event finished rb' m' h' := by
  cases h with
  | idle => exact (hbusy rfl).elim
  | unwindFailed e => exact ⟨_, _, _, _, _, .countError⟩
  | unwound frames =>
    cases hlock : rb.producerLocked with
    | false => exact ⟨_, _, _, _, _, .producer hlock⟩
    | true => exact ⟨_, _, _, _, _, .producerBusy hlock⟩
  | contended => exact ⟨_, _, _, _, _, .countContention⟩
  | pushing frames p =>
    cases p with
    | released => exact hg.elim
    | locked => exact ⟨_, _, _, _, _, .loadHead⟩
    | headLoaded head => exact ⟨_, _, _, _, _, .loadTail⟩
    | held head tail =>
      cases hfit : fits recordSlots head tail frames.length with
      | false => exact ⟨_, _, _, _, _, .pushRefresh hfit⟩
      | true => exact ⟨_, _, _, _, _, .pushFits hfit⟩
    | loadingTail head tail values =>
      cases hfit : fits recordSlots head rb.tail values.length with
      | false => exact ⟨_, _, _, _, _, .refreshFull hfit⟩
      | true => exact ⟨_, _, _, _, _, .refreshFits hfit⟩
    | writing head tail values i =>
      rcases Nat.lt_or_eq_of_le hp.2.1 with hlt | rfl
      · exact ⟨_, _, _, _, _, .writeValue (List.getElem?_eq_getElem hlt)⟩
      · exact ⟨_, _, _, _, _, .writeLen⟩
    | publishing head tail values => exact ⟨_, _, _, _, _, .publish⟩
  | full head tail => exact ⟨_, _, _, _, _, .countFull⟩
  | leaving head tail => exact ⟨_, _, _, _, _, .drop⟩
  | returning => exact ⟨_, _, _, _, _, .return⟩

theorem Handler.left_le (hg : h.Guarded) (hshort : h.Short) (hbusy : h ≠ .idle) :
    1 ≤ h.left ∧ h.left + 1 ≤ handlerActions := by
  simp only [handlerActions, maxFrames] at *
  cases h with
  | idle => exact (hbusy rfl).elim
  | unwound frames =>
    simp only [Handler.Short, maxFrames] at hshort
    simp only [Handler.left]
    omega
  | pushing frames p =>
    cases p with
    | released => exact hg.elim
    | locked =>
      simp only [Handler.Short, maxFrames] at hshort
      simp only [Handler.left]
      omega
    | headLoaded head =>
      simp only [Handler.Short, maxFrames] at hshort
      simp only [Handler.left]
      omega
    | held head tail =>
      simp only [Handler.Short, maxFrames] at hshort
      simp only [Handler.left]
      omega
    | loadingTail head tail values =>
      simp only [Handler.Short, maxFrames] at hshort
      simp only [Handler.left]
      omega
    | writing head tail values i =>
      simp only [Handler.Short, maxFrames] at hshort
      simp only [Handler.left]
      omega
    | publishing head tail values =>
      simp only [Handler.left]
      omega
  | _ =>
    simp only [Handler.left]
    omega

end Handler

/-! ### A drain -/

/-- The thread is in `drain`: between the lock of the consumer and its drop. -/
def Sampler.InDrain : Sampler → Prop
  | .draining _ _ _ => True
  | .resolving _ _ _ _ => True
  | .finishing _ _ _ => True
  | _ => False

/-- The loop of `drain` runs at most `MAX_DRAIN_STACKS` times. -/
def Sampler.InBatch : Sampler → Prop
  | .draining _ _ .released => False
  | .draining _ n (.loadingHead _ _ _) => n < maxDrainStacks
  | .draining _ n (.readingLen _ _ _) => n < maxDrainStacks
  | .draining _ n (.reading _ _ len _ _) => n < maxDrainStacks ∧ len ≤ maxFrames
  | .draining _ _ .unreachable => False
  | .draining _ n _ => n ≤ maxDrainStacks
  | .resolving _ n _ _ => n < maxDrainStacks
  | _ => True

/-- A refresh, the length, the values, the store and the resolving. -/
def recordActions : ℕ := maxFrames + 5

/-- The steps of a drain that has taken `n` records. -/
def batchLeft (n : ℕ) : ℕ := (maxDrainStacks - n) * recordActions + 2

def Sampler.left : Sampler → ℕ
  | .draining _ n .locked => batchLeft n + 2
  | .draining _ n (.headLoaded _) => batchLeft n + 1
  | .draining _ n (.held _ _) => batchLeft n
  | .draining _ n (.loadingHead _ _ _) => batchLeft n - 1
  | .draining _ n (.readingLen _ _ _) => batchLeft n - 2
  | .draining _ n (.reading _ _ len _ i) => batchLeft (n + 1) + (len - i) + 2
  | .resolving _ n _ _ => batchLeft (n + 1) + 1
  | .finishing _ _ _ => 1
  | _ => 0

def drainActions : ℕ := batchLeft 0 + 3

theorem batchLeft_succ {n : ℕ} (hn : n < maxDrainStacks) :
    batchLeft n = batchLeft (n + 1) + recordActions := by
  have hsub : maxDrainStacks - n = (maxDrainStacks - (n + 1)) + 1 := by omega
  rw [batchLeft, batchLeft, hsub, Nat.succ_mul]
  omega

theorem two_le_batchLeft (n : ℕ) : 2 ≤ batchLeft n := Nat.le_add_left _ _

section Drain
variable {config : BackendConfig} {pid : ℕ} {rb rb' : RingBuffer Frame} {m m' : Metrics}
  {b b' : StackBuffer} {l l' : Bool} {t t' : Sampler} {event : Option (List Frame)}

theorem samplerStep_batch (hs : SamplerStep config pid rb m b l t event rb' m' b' l' t')
    (hroomy : t.Roomy) (hb : t.InBatch) : t'.InBatch := by
  cases hs with
  | consumer free => exact Nat.zero_le _
  | loadHead => exact hb
  | loadTail => exact hb
  | popRefresh buf hbuf hn heq => exact hn
  | popReady buf hbuf hn hne => exact hn
  | refreshReady hne => exact hb
  | readLen hslot hle =>
    refine ⟨hb, ?_⟩
    rw [Sampler.Roomy] at hroomy
    omega
  | readValue hi hslot => exact hb
  | store => exact hb.1
  | resolved frames => exact hb
  | resolveFailed => exact hb
  | _ => trivial

theorem samplerStep_left (hs : SamplerStep config pid rb m b l t event rb' m' b' l' t')
    (hb : t.InBatch) (hroomy : t.Roomy) (hin : t.InDrain) (halive : t' ≠ .panicked) :
    t'.left < t.left := by
  cases hs with
  | stop => exact hin.elim
  | consumer free => exact hin.elim
  | consumerBusy taken => exact hin.elim
  | lock => exact hin.elim
  | record => exact hin.elim
  | unlock => exact hin.elim
  | readLenSmall => exact (halive rfl).elim
  | readLenBad => exact (halive rfl).elim
  | readValueBad => exact (halive rfl).elim
  | @popRefresh _ traces n head tail buf hbuf hn heq =>
    have htwo := two_le_batchLeft n
    simp only [Sampler.left]
    omega
  | @popReady _ traces n head tail buf hbuf hn hne =>
    have htwo := two_le_batchLeft n
    simp only [Sampler.left]
    omega
  | @batchFull _ traces n head tail hn =>
    have htwo := two_le_batchLeft n
    simp only [Sampler.left]
    omega
  | @refreshEmpty _ traces n head tail buf heq =>
    have hsucc := batchLeft_succ hb
    have htwo := two_le_batchLeft (n + 1)
    simp only [Sampler.left, recordActions, maxFrames] at *
    omega
  | @refreshReady _ traces n head tail buf hne =>
    have hsucc := batchLeft_succ hb
    simp only [Sampler.left, recordActions, maxFrames] at *
    omega
  | @readLen _ traces n head tail buf len hslot hle =>
    have hsucc := batchLeft_succ hb
    rw [Sampler.Roomy] at hroomy
    simp only [Sampler.left, recordActions, maxFrames] at *
    omega
  | readValue hi hslot =>
    simp only [Sampler.left]
    omega
  | store =>
    simp only [Sampler.left]
    omega
  | _ =>
    simp only [Sampler.left]
    omega

theorem samplerStep_ready {base : Usize} {published popped : List (List Frame)}
    (hcore : Core recordSlots base rb published popped)
    (hconsumer : ConsumerInv base published popped t.consumer) (hb : t.InBatch)
    (hshort : ∀ r ∈ published, r.length ≤ maxFrames) (hroomy : t.Roomy) (hin : t.InDrain) :
    ∃ event rb' m' b' l' t', SamplerStep config pid rb m b l t event rb' m' b' l' t' := by
  cases t with
  | draining traces n consumer =>
    cases consumer with
    | released => exact hb.elim
    | locked => exact ⟨_, _, _, _, _, _, .loadHead⟩
    | headLoaded head => exact ⟨_, _, _, _, _, _, .loadTail⟩
    | held head tail =>
      have hbuf : (List.replicate maxFrames (⟨0, 0⟩ : Frame)).length = maxFrames :=
        List.length_replicate
      by_cases hn : n < maxDrainStacks
      · by_cases heq : tail = head
        · exact ⟨_, _, _, _, _, _, .popRefresh _ hbuf hn heq⟩
        · exact ⟨_, _, _, _, _, _, .popReady _ hbuf hn heq⟩
      · exact ⟨_, _, _, _, _, _, .batchFull hn⟩
    | loadingHead head tail buf =>
      by_cases heq : tail = rb.head
      · exact ⟨_, _, _, _, _, _, .refreshEmpty heq⟩
      · exact ⟨_, _, _, _, _, _, .refreshReady heq⟩
    | readingLen head tail buf =>
      obtain ⟨r, ahead, hview⟩ := hconsumer
      have hmem : r ∈ published :=
        hview.1.subset (List.mem_append_right _ (List.mem_cons_self ..))
      have hle := hshort r hmem
      rw [Sampler.Roomy] at hroomy
      exact ⟨_, _, _, _, _, _, .readLen (hcore.slot_len hview) (by omega)⟩
    | reading head tail len buf i =>
      obtain ⟨r, ahead, hview, rfl, -, hle, -⟩ := hconsumer
      rcases Nat.lt_or_eq_of_le hle with hlt | rfl
      · exact ⟨_, _, _, _, _, _, .readValue hlt (hcore.slot_value hview hlt)⟩
      · exact ⟨_, _, _, _, _, _, .store⟩
    | unreachable => exact hb.elim
  | resolving traces n head tail => exact ⟨_, _, _, _, _, _, .resolveFailed⟩
  | finishing traces head tail => exact ⟨_, _, _, _, _, _, .drop⟩
  | _ => exact hin.elim

theorem Sampler.left_le (hb : t.InBatch) (hin : t.InDrain) :
    1 ≤ t.left ∧ t.left + 1 ≤ drainActions := by
  have hmono : ∀ {n}, batchLeft n ≤ batchLeft 0 := fun {n} =>
    Nat.add_le_add_right (Nat.mul_le_mul_right _ (Nat.sub_le _ _)) 2
  cases t with
  | draining traces n consumer =>
    have hle := @hmono n
    have htwo := two_le_batchLeft n
    cases consumer with
    | released => exact hb.elim
    | unreachable => exact hb.elim
    | loadingHead head tail buf =>
      have hsucc := batchLeft_succ hb
      simp only [Sampler.left, drainActions, recordActions, maxFrames] at *
      omega
    | readingLen head tail buf =>
      have hsucc := batchLeft_succ hb
      simp only [Sampler.left, drainActions, recordActions, maxFrames] at *
      omega
    | reading head tail len buf i =>
      obtain ⟨hn, hlen⟩ := hb
      have hsucc := batchLeft_succ hn
      simp only [Sampler.left, drainActions, recordActions, maxFrames] at *
      omega
    | _ =>
      simp only [Sampler.left, drainActions]
      omega
  | resolving traces n head tail =>
    have hle := @hmono (n + 1)
    simp only [Sampler.left, drainActions]
    omega
  | finishing traces head tail =>
    have htwo := two_le_batchLeft 0
    simp only [Sampler.left, drainActions]
    omega
  | _ => exact hin.elim

end Drain

/-! ### The session -/

section Session
variable {config : BackendConfig} {pid : ℕ} {ι ρ : Type}

/-- The party is in a handler run, or in a drain. -/
def State.Busy (s : State ι ρ) : Party ι ρ → Prop
  | .handler i => s.handlers i ≠ .idle
  | .sampler => s.sampler.InDrain
  | .reporter _ => False

def State.left (s : State ι ρ) : Party ι ρ → ℕ
  | .handler i => (s.handlers i).left
  | .sampler => s.sampler.left
  | .reporter _ => 0

/-- The atomic actions of a handler run and of a drain, at most. -/
def Party.actions : Party ι ρ → ℕ
  | .handler _ => handlerActions
  | .sampler => drainActions
  | .reporter _ => 0

structure Going (base : Usize) (s : State ι ρ) : Prop where
  session : Ordered base s
  handlers : ∀ i, (s.handlers i).Guarded
  sampler : s.sampler.InBatch

theorem initial_going {base : Usize} {s : State ι ρ} (h : Initial base s) : Going base s := by
  refine ⟨initial_ordered h, ?_, ?_⟩
  · obtain ⟨slots, rfl⟩ := h
    exact fun _ => trivial
  · obtain ⟨slots, rfl⟩ := h
    trivial

variable [DecidableEq ι] [DecidableEq ρ]

theorem partyStep_going {base : Usize} {s s' : State ι ρ} {t : Party ι ρ} (h : Going base s)
    (hs : PartyStep config pid s t s') : Going base s' := by
  refine ⟨step_ordered h.session (partyStep_iff.mp ⟨t, hs⟩), ?_, ?_⟩
  · cases hs with
    | handler i hs =>
      exact (Function.forall_update_iff _ fun _ h => Handler.Guarded h).mpr
        ⟨handlerStep_guarded hs (h.handlers i), fun j _ => h.handlers j⟩
    | sampler hs => exact h.handlers
    | reporter j hs => exact h.handlers
  · cases hs with
    | handler i hs => exact h.sampler
    | sampler hs => exact samplerStep_batch hs h.session.sampler h.sampler
    | reporter j hs => exact h.sampler

theorem reachable_going {base : Usize} {s : State ι ρ}
    (h : Reachable (Initial base) (Step config pid) s) : Going base s := by
  refine h.invariant (fun _ => initial_going) fun s s' hg hs => ?_
  obtain ⟨t, ht⟩ := partyStep_iff.mpr hs
  exact partyStep_going hg ht

theorem partyStep_left {base : Usize} {s s' : State ι ρ} {t : Party ι ρ} (h : Going base s)
    (hbusy : s.Busy t) (hs : PartyStep config pid s t s') : s'.left t < s.left t := by
  have halive := (partyStep_going h hs).session.alive
  cases hs with
  | @handler i event finished rb m h' hs =>
    show (Function.update s.handlers i h' i).left < (s.handlers i).left
    rw [Function.update_self]
    exact handlerStep_left hs hbusy
  | sampler hs => exact samplerStep_left hs h.sampler h.session.sampler hbusy halive
  | reporter j hs => exact hbusy.elim

theorem partyStep_others {s s' : State ι ρ} {t t' : Party ι ρ}
    (hs : PartyStep config pid s t' s') (ht : t' ≠ t) :
    s'.left t = s.left t ∧ (s.Busy t → s'.Busy t) := by
  cases hs with
  | @handler i event finished rb m h' hs =>
    cases t with
    | handler j =>
      have hj : j ≠ i := fun he => ht (congrArg Party.handler he.symm)
      show (Function.update s.handlers i h' j).left = _ ∧
        (_ → Function.update s.handlers i h' j ≠ .idle)
      rw [Function.update_of_ne hj]
      exact ⟨rfl, id⟩
    | sampler => exact ⟨rfl, id⟩
    | reporter j => exact ⟨rfl, id⟩
  | sampler hs =>
    cases t with
    | handler j => exact ⟨rfl, id⟩
    | sampler => exact (ht rfl).elim
    | reporter j => exact ⟨rfl, id⟩
  | reporter j hs =>
    cases t with
    | handler j => exact ⟨rfl, id⟩
    | sampler => exact ⟨rfl, id⟩
    | reporter j => exact ⟨rfl, id⟩

theorem parties_bounded {base : Usize} :
    Bounded (PartyStep config pid) (Going base) (fun (s : State ι ρ) p => s.Busy p) State.left where
  keeps := fun _ _ _ hg hs => partyStep_going hg hs
  own := fun _ _ _ hg hbusy hs _ => partyStep_left hg hbusy hs
  others := fun _ _ _ _ hs ht => partyStep_others hs ht

omit [DecidableEq ι] [DecidableEq ρ] in
theorem State.Busy.left_le {base : Usize} {s : State ι ρ} {t : Party ι ρ} (h : Going base s)
    (hbusy : s.Busy t) : 1 ≤ s.left t ∧ s.left t + 1 ≤ t.actions := by
  cases t with
  | handler i => exact Handler.left_le (h.handlers i) (h.session.handlers i) hbusy
  | sampler => exact Sampler.left_le h.sampler hbusy
  | reporter j => exact hbusy.elim

theorem partyStep_ready {base : Usize} {s : State ι ρ} {t : Party ι ρ} (h : Going base s)
    (hbusy : s.Busy t) : ∃ s', PartyStep config pid s t s' := by
  cases t with
  | handler i =>
    obtain ⟨_, _, _, _, _, hs⟩ :=
      handlerStep_ready (h.session.ring.producers i) (h.handlers i) hbusy
    exact ⟨_, .handler i hs⟩
  | sampler =>
    obtain ⟨_, _, _, _, _, _, hs⟩ := samplerStep_ready h.session.ring.core
      (h.session.ring.consumers ()) h.sampler h.session.published h.session.sampler hbusy
    exact ⟨_, .sampler hs⟩
  | reporter j => exact hbusy.elim

/- The party's first action began the run or the drain, and it has its last one ahead. -/
theorem handlers_and_drains_return {base : Usize} {s s' : State ι ρ}
    (h : Reachable (Initial base) (Step config pid) s) {t : Party ι ρ} {n : ℕ}
    (hw : Within (PartyStep config pid) State.Busy t s n s') :
    n + 2 ≤ t.actions ∧ ∃ s'', PartyStep config pid s' t s'' := by
  have hg := reachable_going h
  obtain ⟨hg', hbusy', hbound⟩ := hw.bound parties_bounded hg
  obtain ⟨hleft, -⟩ := hbusy'.left_le hg'
  obtain ⟨-, hle⟩ := hw.first.left_le hg
  exact ⟨by omega, partyStep_ready hg' hbusy'⟩

/- A second run starts while the first one has the producer's lock. -/
theorem handlers_and_drains_return_nested : ∃ s s' : State (Fin 2) (Fin 1),
    Within (PartyStep ⟨true, false, false⟩ 1) State.Busy (.handler 0) s 1 s' ∧ 1 + 2 ≤ handlerActions ∧
      ∃ s'', PartyStep ⟨true, false, false⟩ 1 s' (.handler 0) s'' := by
  have h : Reachable (Initial 0) (Step ⟨true, false, false⟩ 1)
      (⟨RingBuffer.start 0 fun _ => none, Metrics.zero, fun _ => .idle, .sleeping,
        fun _ => .idle, .default, false, 0, [], [], []⟩ : State (Fin 2) (Fin 1)) := .init ⟨_, rfl⟩
  have h := h.step (.handler 0 (.tick [⟨1, 2⟩] (by decide)))
  have h := h.step (.handler 0 (.producer rfl))
  have hstart {s : State (Fin 2) (Fin 1)} (_ : Reachable (Initial 0) (Step ⟨true, false, false⟩ 1) s)
      (hb : s.Busy (.handler 0)) : Within (PartyStep ⟨true, false, false⟩ 1) State.Busy (.handler 0) s 0 s :=
    .start hb
  have hw := hstart h (fun he => Handler.noConfusion he)
  have hw := hw.other (.handler 1 (.tick [⟨3, 4⟩] (by decide))) (by simp)
  have hw := hw.own (.handler 0 .loadHead) (fun he => Handler.noConfusion he)
  exact ⟨_, _, hw, handlers_and_drains_return h hw⟩

end Session
end Pyroscope.Signal
