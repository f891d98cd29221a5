import Pyroscope.Signal.Session

/-!
# The records of a session, for any number of threads

What the ring buffer keeps in order does not depend on how many threads there are: what
was popped is what was published first, no record is longer than the unwinder's buffer,
and the sampler thread never meets a panic.
-/

namespace Pyroscope.Signal
open Pyroscope.Lib Pyroscope.Backend Pyroscope.Ring

section
variable {config : BackendConfig} {pid : ℕ} {ι ρ : Type}

/-- The session as its ring buffer sees it: the sampler is the only consumer. -/
def State.records (s : State ι ρ) : Ring.State ι Unit Frame :=
  ⟨s.rb, fun i => (s.handlers i).producer, fun _ => s.sampler.consumer, s.published, s.popped⟩

/-- No stack is longer than the buffer of the unwinder. -/
def Handler.Short : Handler → Prop
  | .unwound frames => frames.length ≤ maxFrames
  | .pushing frames (.loadingTail _ _ values) =>
    frames.length ≤ maxFrames ∧ values.length ≤ maxFrames
  | .pushing frames (.writing _ _ values _) =>
    frames.length ≤ maxFrames ∧ values.length ≤ maxFrames
  | .pushing frames (.publishing _ _ values) =>
    frames.length ≤ maxFrames ∧ values.length ≤ maxFrames
  | .pushing frames _ => frames.length ≤ maxFrames
  | _ => True

/-- The output slice of every pop has room for the longest stack. -/
def Sampler.Roomy : Sampler → Prop
  | .draining _ _ (.loadingHead _ _ buf) => buf.length = maxFrames
  | .draining _ _ (.readingLen _ _ buf) => buf.length = maxFrames
  | _ => True

theorem handlerStep_ring {rb rb' : RingBuffer Frame} {m m' : Metrics} {h h' : Handler}
    {event : Option (List Frame)} {finished : ℕ}
    (hs : HandlerStep rb m h event finished rb' m' h') :
    (rb' = rb ∧ event = none ∧ h'.producer = h.producer) ∨
      ProducerStep recordSlots rb h.producer event rb' h'.producer := by
  cases hs with
  | producer free => exact Or.inr (.lock free)
  | producerBusy taken => exact Or.inr (.busy taken)
  | loadHead => exact Or.inr .loadHead
  | loadTail => exact Or.inr .loadTail
  | pushFits h => exact Or.inr (.pushFits _ h)
  | pushRefresh h => exact Or.inr (.pushRefresh _ h)
  | refreshFits h => exact Or.inr (.refreshFits h)
  | refreshFull h => exact Or.inr (.refreshFull h)
  | writeValue h => exact Or.inr (.writeValue h)
  | writeLen => exact Or.inr .writeLen
  | publish => exact Or.inr .publish
  | drop => exact Or.inr .drop
  | _ => exact Or.inl ⟨rfl, rfl, rfl⟩

theorem handlerStep_short {rb rb' : RingBuffer Frame} {m m' : Metrics} {h h' : Handler}
    {event : Option (List Frame)} {finished : ℕ}
    (hs : HandlerStep rb m h event finished rb' m' h') (hshort : h.Short) :
    h'.Short ∧ ∀ r, event = some r → r.length ≤ maxFrames := by
  cases hs with
  | tick frames hlen => exact ⟨hlen, fun r hr => by cases hr⟩
  | producer free => exact ⟨hshort, fun r hr => by cases hr⟩
  | loadHead => exact ⟨hshort, fun r hr => by cases hr⟩
  | loadTail => exact ⟨hshort, fun r hr => by cases hr⟩
  | pushFits h => exact ⟨⟨hshort, hshort⟩, fun r hr => by cases hr⟩
  | pushRefresh h => exact ⟨⟨hshort, hshort⟩, fun r hr => by cases hr⟩
  | refreshFits h => exact ⟨hshort, fun r hr => by cases hr⟩
  | writeValue h => exact ⟨hshort, fun r hr => by cases hr⟩
  | writeLen => exact ⟨hshort, fun r hr => by cases hr⟩
  | publish =>
    refine ⟨trivial, fun r hr => ?_⟩
    cases hr
    exact hshort.2
  | _ => exact ⟨trivial, fun r hr => by cases hr⟩

theorem samplerStep_ring {rb rb' : RingBuffer Frame} {m m' : Metrics} {b b' : StackBuffer}
    {l l' : Bool} {t t' : Sampler} {event : Option (List Frame)}
    (hs : SamplerStep config pid rb m b l t event rb' m' b' l' t') (ht : t' ≠ .panicked) :
    (rb' = rb ∧ event = none ∧ t'.consumer = t.consumer) ∨
      ConsumerStep recordSlots rb t.consumer event rb' t'.consumer := by
  cases hs with
  | consumer free => exact Or.inr (.lock free)
  | consumerBusy taken => exact Or.inr (.busy taken)
  | loadHead => exact Or.inr .loadHead
  | loadTail => exact Or.inr .loadTail
  | popRefresh buf _ _ h => exact Or.inr (.popRefresh buf h)
  | popReady buf _ _ h => exact Or.inr (.popReady buf h)
  | refreshEmpty h => exact Or.inr (.refreshEmpty h)
  | refreshReady h => exact Or.inr (.refreshReady h)
  | readLen hs h => exact Or.inr (.readLen hs h)
  | readLenSmall => exact (ht rfl).elim
  | readLenBad => exact (ht rfl).elim
  | readValue h hs => exact Or.inr (.readValue h hs)
  | readValueBad => exact (ht rfl).elim
  | store => exact Or.inr .store
  | drop => exact Or.inr .drop
  | _ => exact Or.inl ⟨rfl, rfl, rfl⟩

/- The three panics of a drain: the ring buffer would have to be corrupt, or hold a
stack longer than the output slice. -/
theorem samplerStep_alive {rb rb' : RingBuffer Frame} {m m' : Metrics} {b b' : StackBuffer}
    {l l' : Bool} {t t' : Sampler} {event : Option (List Frame)} {base : Usize}
    {published popped : List (List Frame)}
    (hs : SamplerStep config pid rb m b l t event rb' m' b' l' t')
    (hcore : Core recordSlots base rb published popped)
    (hconsumer : ConsumerInv base published popped t.consumer) (hroomy : t.Roomy)
    (hshort : ∀ r ∈ published, r.length ≤ maxFrames) : t' ≠ .panicked := by
  cases hs with
  | readLenSmall hs hlen =>
    obtain ⟨r, ahead, hview⟩ := hconsumer
    rw [hcore.slot_len hview] at hs
    cases hs
    have hmem : r ∈ published :=
      hview.1.subset (List.mem_append_right _ (List.mem_cons_self ..))
    have hr := hshort r hmem
    rw [Sampler.Roomy] at hroomy
    omega
  | readLenBad hs => exact (consumerStep_inv hcore hconsumer (.readLenBad hs)).2.elim
  | readValueBad h hs => exact (consumerStep_inv hcore hconsumer (.readValueBad h hs)).2.elim
  | _ => exact fun he => Sampler.noConfusion he

theorem samplerStep_roomy {rb rb' : RingBuffer Frame} {m m' : Metrics} {b b' : StackBuffer}
    {l l' : Bool} {t t' : Sampler} {event : Option (List Frame)}
    (hs : SamplerStep config pid rb m b l t event rb' m' b' l' t') (hroomy : t.Roomy) :
    t'.Roomy := by
  cases hs with
  | popRefresh buf hbuf _ _ => exact hbuf
  | popReady buf hbuf _ _ => exact hbuf
  | refreshReady h => exact hroomy
  | _ => trivial

/-! ### The session -/

structure Ordered (base : Usize) (s : State ι ρ) : Prop where
  ring : Ring.Inv recordSlots base s.records
  published : ∀ r ∈ s.published, r.length ≤ maxFrames
  handlers : ∀ i, (s.handlers i).Short
  sampler : s.sampler.Roomy
  alive : s.sampler ≠ .panicked

theorem initial_ordered {base : Usize} {s : State ι ρ} (h : Initial base s) : Ordered base s := by
  obtain ⟨slots, rfl⟩ := h
  exact ⟨Ring.initial_inv ⟨slots, rfl⟩, nofun, fun _ => trivial, trivial, nofun⟩

/- What was popped is the beginning of what was published. -/
theorem Ordered.popped_prefix {base : Usize} {s : State ι ρ} (h : Ordered base s) :
    s.popped <+: s.published := ⟨_, (published_eq h.ring).symm⟩

variable [DecidableEq ι]

theorem records_update (handlers : ι → Handler) (i : ι) (h : Handler) :
    (fun j => (Function.update handlers i h j).producer) =
      Function.update (fun j => (handlers j).producer) i h.producer := by
  funext j
  exact Function.apply_update (fun _ => Handler.producer) handlers i h j

theorem Ordered.handler {base : Usize} {s : State ι ρ} (h : Ordered base s) (i : ι)
    {event : Option (List Frame)} {finished : ℕ} {rb : RingBuffer Frame} {m : Metrics} {h' : Handler}
    (hs : HandlerStep s.rb s.metrics (s.handlers i) event finished rb m h') :
    Ordered base { s with
      rb := rb
      metrics := m
      handlers := Function.update s.handlers i h'
      completed := s.completed + finished
      published := logged s.published event } := by
  obtain ⟨hshort, hevent⟩ := handlerStep_short hs (h.handlers i)
  refine ⟨?_, fun r hr => ?_, ?_, h.sampler, h.alive⟩
  · rcases handlerStep_ring hs with ⟨rfl, rfl, hp⟩ | hring
    · have hsame : (fun j => (Function.update s.handlers i h' j).producer) =
          fun j => (s.handlers j).producer := by
        rw [records_update, hp]
        exact Function.update_eq_self i _
      simp only [State.records, hsame]
      exact h.ring
    · have hstep := Ring.Step.producer (c := recordSlots) (s := s.records) i hring
      simp only [State.records, records_update]
      exact Ring.step_inv h.ring hstep
  · cases event with
    | none => exact h.published r hr
    | some r' =>
      rcases List.mem_append.mp hr with hr | hr
      · exact h.published r hr
      · exact hevent r (congrArg some (List.mem_singleton.mp hr).symm)
  · exact (Function.forall_update_iff _ fun _ => Handler.Short).mpr ⟨hshort, fun j _ => h.handlers j⟩

theorem Ordered.drain {base : Usize} {s : State ι ρ} (h : Ordered base s) {event : Option (List Frame)}
    {rb : RingBuffer Frame} {m : Metrics} {b : StackBuffer} {l : Bool} {t : Sampler}
    (hs : SamplerStep config pid s.rb s.metrics s.buffer s.bufferLocked s.sampler event rb m b l t) :
    Ordered base { s with
      rb := rb
      metrics := m
      buffer := b
      bufferLocked := l
      sampler := t
      popped := logged s.popped event } := by
  have halive : t ≠ .panicked :=
    samplerStep_alive hs h.ring.core (h.ring.consumers ()) h.sampler h.published
  refine ⟨?_, h.published, h.handlers, samplerStep_roomy hs h.sampler, halive⟩
  rcases samplerStep_ring hs halive with ⟨rfl, rfl, hc⟩ | hring
  · simp only [State.records, hc]
    exact h.ring
  · have hstep := Ring.Step.consumer (c := recordSlots) (s := s.records) () hring
    have hunit : Function.update s.records.consumers () t.consumer = fun _ => t.consumer := by
      funext u
      exact Function.update_self ..
    rw [hunit] at hstep
    exact Ring.step_inv h.ring hstep

variable [DecidableEq ρ]

theorem step_ordered {base : Usize} {s s' : State ι ρ} (h : Ordered base s)
    (hs : Step config pid s s') : Ordered base s' := by
  cases hs with
  | handler i hs => exact h.handler i hs
  | sampler hs => exact h.drain hs
  | reporter j hs => exact ⟨h.ring, h.published, h.handlers, h.sampler, h.alive⟩

end
end Pyroscope.Signal
