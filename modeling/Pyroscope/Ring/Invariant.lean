import Pyroscope.Ring.RingBuffer
import Pyroscope.Lib.Transition
import Pyroscope.Lib.Lock

/-!
# What holds in every state of the ring buffer

The counters are read as absolute positions: `head` is past all published records and
`tail` past all popped ones. A guard's cached copies are positions of the past: the
producer's tail is at most the real one, the consumer's head is the end of an earlier
prefix of the published records.
-/

namespace Pyroscope.Ring
open Pyroscope.Lib Cyclic

variable {α : Type}

/-- The slots that a record takes, in order. -/
def recordCells (r : List α) : List (Slot α) := .len r.length :: r.map .value

def cells (rs : List (List α)) : List (Slot α) := rs.flatMap recordCells

def span (rs : List (List α)) : ℕ := (cells rs).length

@[simp] theorem recordCells_length (r : List α) : (recordCells r).length = r.length + 1 := by
  simp only [recordCells, List.length_cons, List.length_map]

theorem cells_append (rs rs' : List (List α)) : cells (rs ++ rs') = cells rs ++ cells rs' :=
  List.flatMap_append

theorem cells_cons (r : List α) (rs : List (List α)) : cells (r :: rs) = recordCells r ++ cells rs :=
  rfl

@[simp] theorem span_nil : span ([] : List (List α)) = 0 := rfl

@[simp] theorem span_append (rs rs' : List (List α)) : span (rs ++ rs') = span rs + span rs' := by
  simp only [span, cells_append, List.length_append]

@[simp] theorem span_cons (r : List α) (rs : List (List α)) :
    span (r :: rs) = r.length + 1 + span rs := by
  simp only [span, cells_cons, List.length_append, recordCells_length]

theorem slots_lt (c : Capacity) : c.slots < 2 ^ 64 := Nat.pow_lt_pow_right (by omega) c.log_lt

theorem log_le (c : Capacity) : c.log ≤ 64 := c.log_lt.le

theorem advance_counter (base : Usize) (p n : ℕ) :
    advance (counter base p) n = counter base (p + 1 + n) := by
  rw [advance, counter_add, counter_add]

/- With positions at most `N` apart the subtractions in `fits` are exact. -/
theorem fits_iff (c : Capacity) (base : Usize) {h t : ℕ} (len : ℕ) (hle : t ≤ h)
    (hbound : h ≤ t + c.slots) :
    fits c (counter base h) (counter base t) len = true ↔ h + 1 + len ≤ t + c.slots := by
  have hlt := slots_lt c
  have hsub : (counter base h - counter base t).toNat = h - t := by
    have hh : t + (h - t) = h := by omega
    have hs := counter_sub base t (h - t) (by omega)
    rwa [hh] at hs
  have hslots : (BitVec.ofNat 64 c.slots).toNat = c.slots := by
    rw [BitVec.toNat_ofNat, Nat.mod_eq_of_lt hlt]
  have hroom : (BitVec.ofNat 64 c.slots - (counter base h - counter base t)).toNat =
      c.slots - (h - t) := by
    rw [BitVec.toNat_sub_of_le (by rw [BitVec.le_def, hsub, hslots]; omega), hsub, hslots]
  rw [fits, hroom, decide_eq_true_iff]
  omega

/-! ### The invariant -/

/-- The shared fields against the logs. -/
structure Core (c : Capacity) (base : Usize) (rb : RingBuffer α)
    (published popped : List (List α)) : Prop where
  head : rb.head = counter base (span published)
  tail : rb.tail = counter base (span popped)
  bound : span published ≤ span popped + c.slots
  stored : ∃ pending, published = popped ++ pending ∧
    Holds c.log base rb.slots (span popped) (cells pending)

theorem Core.popped_extends {c : Capacity} {base : Usize} {rb : RingBuffer α}
    {published popped : List (List α)} (h : Core c base rb published popped) :
    popped <+: published := by
  obtain ⟨pending, he, -⟩ := h.stored
  exact ⟨pending, he.symm⟩

theorem span_mono {rs rs' : List (List α)} (h : rs <+: rs') : span rs ≤ span rs' := by
  obtain ⟨t, rfl⟩ := h
  rw [span_append]
  omega

/-- A producer's cached pair: its own head, and a tail that may be old; `room` slots
beyond the head are free. -/
def ProducerView (c : Capacity) (base : Usize) (published popped : List (List α))
    (head tail : Usize) (room : ℕ) : Prop :=
  head = counter base (span published) ∧ ∃ t, tail = counter base t ∧ t ≤ span popped ∧
    span published + room ≤ t + c.slots

def ProducerInv (c : Capacity) (base : Usize) (rb : RingBuffer α)
    (published popped : List (List α)) : Producer α → Prop
  | .released => True
  | .locked => True
  | .headLoaded head => head = counter base (span published)
  | .held head tail => ProducerView c base published popped head tail 0
  | .loadingTail head tail _ => ProducerView c base published popped head tail 0
  | .writing head tail values i =>
    ProducerView c base published popped head tail (1 + values.length) ∧ i ≤ values.length ∧
      Holds c.log base rb.slots (span published + 1) ((values.take i).map Slot.value)
  | .publishing head tail values =>
    ProducerView c base published popped head tail (1 + values.length) ∧
      Holds c.log base rb.slots (span published) (recordCells values)

/-- A consumer's cached pair: its own tail, and a head at the end of some of the
pending records. -/
def ConsumerView (base : Usize) (published popped ahead : List (List α))
    (head tail : Usize) : Prop :=
  popped ++ ahead <+: published ∧ head = counter base (span (popped ++ ahead)) ∧
    tail = counter base (span popped)

def ConsumerInv (base : Usize) (published popped : List (List α)) : Consumer α → Prop
  | .released => True
  | .locked => True
  | .headLoaded head => ∃ ahead, popped ++ ahead <+: published ∧
      head = counter base (span (popped ++ ahead))
  | .held head tail => ∃ ahead, ConsumerView base published popped ahead head tail
  | .loadingHead head tail _ => ∃ ahead, ConsumerView base published popped ahead head tail
  | .readingLen head tail _ => ∃ r ahead, ConsumerView base published popped (r :: ahead) head tail
  | .reading head tail len out i => ∃ r ahead,
      ConsumerView base published popped (r :: ahead) head tail ∧ len = r.length ∧
        len ≤ out.length ∧ i ≤ len ∧ out.take i = r.take i
  | .unreachable => False

def Producer.inside (pc : Producer α) : Prop := pc ≠ .released

def Consumer.inside (pc : Consumer α) : Prop := pc ≠ .released

structure Inv {ι κ : Type} (c : Capacity) (base : Usize) (s : State ι κ α) : Prop where
  core : Core c base s.rb s.published s.popped
  producers : ∀ i, ProducerInv c base s.rb s.published s.popped (s.producers i)
  consumers : ∀ j, ConsumerInv base s.published s.popped (s.consumers j)
  producerLock : Exclusive s.rb.producerLocked s.producers Producer.inside
  consumerLock : Exclusive s.rb.consumerLocked s.consumers Consumer.inside

/-! ### Views under progress of the other side -/

theorem ProducerView.popped_mono {c : Capacity} {base : Usize}
    {published popped popped' : List (List α)} {head tail : Usize} {room : ℕ}
    (h : ProducerView c base published popped head tail room) (hp : span popped ≤ span popped') :
    ProducerView c base published popped' head tail room := by
  obtain ⟨hh, t, ht, hle, hroom⟩ := h
  exact ⟨hh, t, ht, hle.trans hp, hroom⟩

theorem ProducerInv.popped_mono {c : Capacity} {base : Usize} {rb rb' : RingBuffer α}
    {published popped popped' : List (List α)} {pc : Producer α}
    (h : ProducerInv c base rb published popped pc) (hp : span popped ≤ span popped')
    (hs : rb'.slots = rb.slots) : ProducerInv c base rb' published popped' pc := by
  cases pc with
  | released => trivial
  | locked => trivial
  | headLoaded head => exact h
  | held head tail => exact ProducerView.popped_mono h hp
  | loadingTail head tail values => exact ProducerView.popped_mono h hp
  | writing head tail values i =>
    obtain ⟨hview, hi, hold⟩ := h
    exact ⟨hview.popped_mono hp, hi, by rwa [hs]⟩
  | publishing head tail values =>
    obtain ⟨hview, hold⟩ := h
    exact ⟨hview.popped_mono hp, by rwa [hs]⟩

theorem ConsumerView.published_mono {base : Usize} {published published' popped ahead : List (List α)}
    {head tail : Usize} (h : ConsumerView base published popped ahead head tail)
    (hp : published <+: published') : ConsumerView base published' popped ahead head tail :=
  ⟨h.1.trans hp, h.2⟩

theorem ConsumerInv.published_mono {base : Usize} {published published' popped : List (List α)}
    {pc : Consumer α} (h : ConsumerInv base published popped pc) (hp : published <+: published') :
    ConsumerInv base published' popped pc := by
  cases pc with
  | released => trivial
  | locked => trivial
  | headLoaded head =>
    obtain ⟨ahead, hpre, hh⟩ := h
    exact ⟨ahead, hpre.trans hp, hh⟩
  | held head tail =>
    obtain ⟨ahead, hview⟩ := h
    exact ⟨ahead, hview.published_mono hp⟩
  | loadingHead head tail out =>
    obtain ⟨ahead, hview⟩ := h
    exact ⟨ahead, hview.published_mono hp⟩
  | readingLen head tail out =>
    obtain ⟨r, ahead, hview⟩ := h
    exact ⟨r, ahead, hview.published_mono hp⟩
  | reading head tail len out i =>
    obtain ⟨r, ahead, hview, hrest⟩ := h
    exact ⟨r, ahead, hview.published_mono hp, hrest⟩
  | unreachable => exact h

/-! ### A producer's step -/

section ProducerStep
variable {c : Capacity} {base : Usize} {rb : RingBuffer α} {published popped : List (List α)}

/- The free slots end where the oldest pending record starts. -/
theorem ProducerView.room {head tail : Usize} {room : ℕ}
    (h : ProducerView c base published popped head tail room) :
    span published + room ≤ span popped + c.slots := by
  obtain ⟨-, t, -, hle, hroom⟩ := h
  omega

theorem Core.writeSlot (h : Core c base rb published popped) (p : ℕ) (x : Slot α)
    (hlo : span published ≤ p) (hhi : p < span popped + c.slots) :
    Core c base (rb.writeSlot c (counter base p) x) published popped := by
  obtain ⟨pending, he, hold⟩ := h.stored
  refine ⟨h.head, h.tail, h.bound, pending, he, hold.write (log_le c) x ?_ hhi⟩
  have hspan : span published = span popped + span pending := by rw [he, span_append]
  have hcells : span pending = (cells pending).length := rfl
  omega

theorem ProducerView.fits_iff {head tail : Usize} (hp : popped <+: published)
    (h : ProducerView c base published popped head tail 0) (len : ℕ) :
    fits c head tail len = true ↔
      ProducerView c base published popped head tail (1 + len) := by
  obtain ⟨hh, t, ht, hle, hroom⟩ := h
  have hspan := span_mono hp
  rw [hh, ht, Ring.fits_iff c base len (by omega) (by omega)]
  refine ⟨fun hfit => ⟨rfl, t, rfl, hle, by omega⟩, fun hview => ?_⟩
  obtain ⟨-, t', ht', hle', hroom'⟩ := hview
  have hlt := slots_lt c
  have htt : t = t' := by
    rcases Nat.le_total t t' with hl | hl
    · exact counter_inj base hl (by omega) ht'
    · exact (counter_inj base hl (by omega) ht'.symm).symm
  omega

theorem producerStep_inv {pc pc' : Producer α} {event : Option (List α)} {rb' : RingBuffer α}
    (hcore : Core c base rb published popped) (hpc : ProducerInv c base rb published popped pc)
    (h : ProducerStep c rb pc event rb' pc') :
    Core c base rb' (logged published event) popped ∧
      ProducerInv c base rb' (logged published event) popped pc' := by
  have hprefix := hcore.popped_extends
  have hspan := span_mono hprefix
  cases h with
  | lock free =>
    exact ⟨⟨hcore.head, hcore.tail, hcore.bound, hcore.stored⟩, trivial⟩
  | busy taken =>
    exact ⟨hcore, trivial⟩
  | loadHead =>
    exact ⟨hcore, hcore.head⟩
  | loadTail =>
    exact ⟨hcore, hpc, _, hcore.tail, le_refl _, hcore.bound⟩
  | pushFits values hfit =>
    exact ⟨hcore, (ProducerView.fits_iff hprefix hpc _).mp hfit, Nat.zero_le _, Holds.nil _ _ _⟩
  | pushRefresh values hfit =>
    exact ⟨hcore, hpc⟩
  | refreshFits hfit =>
    have hview : ProducerView c base published popped _ rb.tail 0 :=
      ⟨hpc.1, _, hcore.tail, le_refl _, hcore.bound⟩
    exact ⟨hcore, (ProducerView.fits_iff hprefix hview _).mp hfit, Nat.zero_le _, Holds.nil _ _ _⟩
  | refreshFull hfit =>
    exact ⟨hcore, hpc.1, _, hcore.tail, le_refl _, hcore.bound⟩
  | @writeValue head tail values i v hv =>
    obtain ⟨hview, hi, hold⟩ := hpc
    have hlt : i < values.length := (List.getElem?_eq_some_iff.mp hv).1
    have hroom := hview.room
    have hindex : advance head i = counter base (span published + 1 + i) := by
      rw [hview.1, advance_counter]
    have htake : (values.take (i + 1)).map Slot.value =
        (values.take i).map Slot.value ++ [Slot.value v] := by
      rw [List.take_add_one, hv, Option.toList_some, List.map_append, List.map_singleton]
    have hlen : ((values.take i).map (Slot.value (α := α))).length = i := by
      rw [List.length_map, List.length_take]
      omega
    rw [hindex]
    refine ⟨hcore.writeSlot _ _ (by omega) (by omega), hview, hlt, ?_⟩
    have hslots : c.slots = 2 ^ c.log := rfl
    have hnext := hold.write_next (log_le c) (Slot.value v) (by omega)
    rw [hlen] at hnext
    rw [htake]
    exact hnext
  | @writeLen head tail values =>
    obtain ⟨hview, -, hold⟩ := hpc
    have hroom := hview.room
    have hindex : head = counter base (span published) := hview.1
    rw [List.take_length] at hold
    rw [hindex]
    refine ⟨hcore.writeSlot _ _ (le_refl _) (by omega), ?_, ?_⟩
    · rw [← hindex]
      exact hview
    · have hslots : c.slots = 2 ^ c.log := rfl
      exact hold.write_before (log_le c) _ (by rw [List.length_map]; omega)
  | @publish head tail values =>
    show Core c base _ (published ++ [values]) popped ∧
      ProducerInv c base _ (published ++ [values]) popped _
    obtain ⟨hview, hold⟩ := hpc
    have hroom := hview.room
    have hhead : advance head values.length = counter base (span (published ++ [values])) := by
      rw [hview.1, advance_counter, span_append, span_cons, span_nil]
      congr 1
      omega
    have hnew : span (published ++ [values]) = span published + (1 + values.length) := by
      rw [span_append, span_cons, span_nil]
      omega
    obtain ⟨pending, he, hstored⟩ := hcore.stored
    have hspanp : span published = span popped + (cells pending).length := by
      rw [he, span_append]
      rfl
    refine ⟨⟨hhead, hcore.tail, by omega, pending ++ [values], by rw [he, List.append_assoc], ?_⟩,
      hhead, ?_⟩
    · rw [cells_append, Holds.append, ← hspanp]
      refine ⟨hstored, ?_⟩
      rw [cells_cons]
      exact Holds.append.mpr ⟨hold, Holds.nil _ _ _⟩
    · obtain ⟨-, t, ht, hle, hroom'⟩ := hview
      exact ⟨t, ht, hle, by omega⟩
  | drop =>
    exact ⟨⟨hcore.head, hcore.tail, hcore.bound, hcore.stored⟩, trivial⟩

end ProducerStep

/-! ### A consumer's step -/

section ConsumerStep
variable {c : Capacity} {base : Usize} {rb : RingBuffer α} {published popped : List (List α)}

/- The records a consumer has in view are stored where it reads. -/
theorem Core.stored_ahead (h : Core c base rb published popped) {ahead : List (List α)}
    (hp : popped ++ ahead <+: published) :
    Holds c.log base rb.slots (span popped) (cells ahead) := by
  obtain ⟨pending, he, hold⟩ := h.stored
  obtain ⟨rest, hrest⟩ := hp
  rw [List.append_assoc, he, List.append_cancel_left_eq] at hrest
  rw [← hrest, cells_append, Holds.append] at hold
  exact hold.1

theorem Core.slot_len (h : Core c base rb published popped) {r : List α} {ahead : List (List α)}
    {head tail : Usize} (hview : ConsumerView base published popped (r :: ahead) head tail) :
    rb.slot c tail = some (.len r.length) := by
  have hold := h.stored_ahead hview.1
  rw [cells_cons, recordCells, List.cons_append] at hold
  rw [hview.2.2]
  exact hold.head

theorem Core.slot_value (h : Core c base rb published popped) {r : List α} {ahead : List (List α)}
    {head tail : Usize} (hview : ConsumerView base published popped (r :: ahead) head tail)
    {i : ℕ} (hi : i < r.length) : rb.slot c (advance tail i) = some (.value r[i]) := by
  have hold := h.stored_ahead hview.1
  have hget : (cells (r :: ahead))[1 + i]? = some (Slot.value r[i]) := by
    rw [cells_cons, recordCells, List.cons_append, Nat.add_comm, List.getElem?_cons_succ,
      List.getElem?_append_left (by rw [List.length_map]; exact hi), List.getElem?_map,
      List.getElem?_eq_getElem hi, Option.map_some]
  have hslot := hold (1 + i) _ hget
  rw [← Nat.add_assoc] at hslot
  rw [hview.2.2, advance_counter]
  exact hslot

/- A cached head that differs from the tail has a record in front of it. -/
theorem ConsumerView.ready {ahead : List (List α)} {head tail : Usize} (hview : ConsumerView base published popped ahead head tail)
    (hne : tail ≠ head) :
    ∃ r ahead', ConsumerView base published popped (r :: ahead') head tail := by
  cases ahead with
  | nil =>
    refine (hne ?_).elim
    rw [hview.2.2, hview.2.1, List.append_nil]
  | cons r ahead' => exact ⟨r, ahead', hview⟩

theorem refreshed_view (hcore : Core c base rb published popped) {tail : Usize}
    (ht : tail = counter base (span popped)) :
    ∃ ahead, ConsumerView base published popped ahead rb.head tail := by
  obtain ⟨pending, he, -⟩ := hcore.stored
  refine ⟨pending, by rw [he], ?_, ht⟩
  rw [hcore.head, he]

theorem take_set_succ {out r : List α} {i : ℕ} {v : α} (hi : i < out.length)
    (ht : out.take i = r.take i) (hv : r[i]? = some v) :
    (out.set i v).take (i + 1) = r.take (i + 1) := by
  rw [List.take_add_one, List.take_add_one, List.take_set_of_le (le_refl i), ht,
    List.getElem?_set_self hi, hv]

theorem consumerStep_inv {pc pc' : Consumer α} {event : Option (List α)} {rb' : RingBuffer α}
    (hcore : Core c base rb published popped) (hpc : ConsumerInv base published popped pc)
    (h : ConsumerStep c rb pc event rb' pc') :
    Core c base rb' published (logged popped event) ∧
      ConsumerInv base published (logged popped event) pc' := by
  cases h with
  | lock free => exact ⟨⟨hcore.head, hcore.tail, hcore.bound, hcore.stored⟩, trivial⟩
  | busy taken => exact ⟨hcore, trivial⟩
  | loadHead =>
    obtain ⟨ahead, hview⟩ := refreshed_view hcore rfl
    exact ⟨hcore, ahead, hview.1, hview.2.1⟩
  | loadTail =>
    obtain ⟨ahead, hpre, hh⟩ := hpc
    exact ⟨hcore, ahead, hpre, hh, hcore.tail⟩
  | popRefresh out heq => exact ⟨hcore, hpc⟩
  | popReady out hne =>
    obtain ⟨ahead, hview⟩ := hpc
    exact ⟨hcore, hview.ready hne⟩
  | refreshEmpty heq =>
    obtain ⟨ahead, hview⟩ := hpc
    exact ⟨hcore, refreshed_view hcore hview.2.2⟩
  | refreshReady hne =>
    obtain ⟨ahead, hview⟩ := hpc
    obtain ⟨ahead', hview'⟩ := refreshed_view hcore hview.2.2
    exact ⟨hcore, hview'.ready hne⟩
  | readLen hs hfit =>
    obtain ⟨r, ahead, hview⟩ := hpc
    rw [hcore.slot_len hview] at hs
    cases hs
    exact ⟨hcore, r, ahead, hview, rfl, hfit, Nat.zero_le _, rfl⟩
  | readLenSmall hs hsmall =>
    obtain ⟨r, ahead, hview⟩ := hpc
    exact ⟨hcore, _, hview⟩
  | readLenBad hs =>
    obtain ⟨r, ahead, hview⟩ := hpc
    exact (hs _ (hcore.slot_len hview)).elim
  | readValue hi hs =>
    obtain ⟨r, ahead, hview, rfl, hout, hle, ht⟩ := hpc
    rw [hcore.slot_value hview hi] at hs
    cases hs
    refine ⟨hcore, r, ahead, hview, rfl, ?_, hi, ?_⟩
    · rw [List.length_set]
      exact hout
    · exact take_set_succ (lt_of_lt_of_le hi hout) ht (List.getElem?_eq_getElem hi)
  | readValueBad hi hs =>
    obtain ⟨r, ahead, hview, rfl, -⟩ := hpc
    exact (hs _ (hcore.slot_value hview hi)).elim
  | @store head tail len out =>
    obtain ⟨r, ahead, hview, rfl, hout, -, ht⟩ := hpc
    rw [List.take_length] at ht
    show Core c base _ published (popped ++ [out.take r.length]) ∧
      ConsumerInv base published (popped ++ [out.take r.length]) _
    rw [ht]
    have htail : advance tail r.length = counter base (span (popped ++ [r])) := by
      rw [hview.2.2, advance_counter, span_append, span_cons, span_nil]
      congr 1
      omega
    have hspan : span (popped ++ [r]) = span popped + (recordCells r).length := by
      rw [span_append, span_cons, span_nil, recordCells_length, Nat.add_zero]
    have hahead : popped ++ [r] ++ ahead = popped ++ r :: ahead := by
      rw [List.append_assoc, List.singleton_append]
    have hbound := hcore.bound
    refine ⟨⟨hcore.head, htail, by omega, ?_⟩, ahead, ?_, ?_, htail⟩
    · obtain ⟨pending, he, hold⟩ := hcore.stored
      obtain ⟨rest, hrest⟩ := hview.1
      have hpending : pending = r :: (ahead ++ rest) := by
        rw [List.append_assoc, he, List.append_cancel_left_eq] at hrest
        rw [← hrest, List.cons_append]
      refine ⟨ahead ++ rest, by rw [he, hpending, List.append_assoc, List.singleton_append], ?_⟩
      rw [hpending, cells_cons, Holds.append] at hold
      rw [hspan]
      exact hold.2
    · rw [hahead]
      exact hview.1
    · rw [hahead, hview.2.1]
  | drop => exact ⟨⟨hcore.head, hcore.tail, hcore.bound, hcore.stored⟩, trivial⟩

end ConsumerStep

/-! ### The whole system -/

theorem producerStep_lock {c : Capacity} {rb rb' : RingBuffer α} {pc pc' : Producer α}
    {event : Option (List α)} (h : ProducerStep c rb pc event rb' pc') :
    Exclusive.LockStep Producer.inside rb.producerLocked pc rb'.producerLocked pc' := by
  cases h with
  | lock free => exact .acquire free rfl
  | busy taken => exact .keep rfl (Or.inr fun h => h rfl)
  | drop => exact .leave (by simp [Producer.inside]) fun h => h rfl
  | _ => exact .keep rfl (Or.inl (by simp [Producer.inside]))

theorem consumerStep_lock {c : Capacity} {rb rb' : RingBuffer α} {pc pc' : Consumer α}
    {event : Option (List α)} (h : ConsumerStep c rb pc event rb' pc') :
    Exclusive.LockStep Consumer.inside rb.consumerLocked pc rb'.consumerLocked pc' := by
  cases h with
  | lock free => exact .acquire free rfl
  | busy taken => exact .keep rfl (Or.inr fun h => h rfl)
  | drop => exact .leave (by simp [Consumer.inside]) fun h => h rfl
  | _ => exact .keep rfl (Or.inl (by simp [Consumer.inside]))

/- What the producer's side leaves alone. -/
theorem producerStep_frame {c : Capacity} {rb rb' : RingBuffer α} {pc pc' : Producer α}
    {event : Option (List α)} (h : ProducerStep c rb pc event rb' pc') :
    rb'.tail = rb.tail ∧ rb'.consumerLocked = rb.consumerLocked := by
  cases h <;> exact ⟨rfl, rfl⟩

theorem consumerStep_frame {c : Capacity} {rb rb' : RingBuffer α} {pc pc' : Consumer α}
    {event : Option (List α)} (h : ConsumerStep c rb pc event rb' pc') :
    rb'.slots = rb.slots ∧ rb'.head = rb.head ∧ rb'.producerLocked = rb.producerLocked := by
  cases h <;> exact ⟨rfl, rfl, rfl⟩

/- A party without the lock changes nothing but the lock. -/
theorem producerStep_outside {c : Capacity} {rb rb' : RingBuffer α} {pc' : Producer α}
    {event : Option (List α)} (h : ProducerStep c rb .released event rb' pc') :
    event = none ∧ rb'.slots = rb.slots := by
  cases h <;> exact ⟨rfl, rfl⟩

theorem consumerStep_outside {c : Capacity} {rb rb' : RingBuffer α} {pc' : Consumer α}
    {event : Option (List α)} (h : ConsumerStep c rb .released event rb' pc') : event = none := by
  cases h <;> rfl

theorem logged_extends (log : List (List α)) (event : Option (List α)) : log <+: logged log event := by
  cases event with
  | none => exact List.prefix_refl log
  | some r => exact List.prefix_append log [r]

section System
variable {ι κ : Type} [DecidableEq ι] [DecidableEq κ] {c : Capacity} {base : Usize}

omit [DecidableEq ι] [DecidableEq κ] in
theorem initial_inv {s : State ι κ α} (h : Initial base s) : Inv c base s := by
  obtain ⟨slots, rfl⟩ := h
  refine ⟨⟨(counter_zero base).symm, (counter_zero base).symm, Nat.zero_le _, [], rfl, Holds.nil _ _ _⟩,
    fun _ => trivial, fun _ => trivial, ?_, ?_⟩
  · exact Exclusive.none_inside (fun _ h => h rfl) _
  · exact Exclusive.none_inside (fun _ h => h rfl) _

theorem step_inv {s s' : State ι κ α} (hinv : Inv c base s) (h : Step c s s') : Inv c base s' := by
  cases h with
  | @producer i event rb pc hstep =>
    obtain ⟨hcore, hpc⟩ := producerStep_inv hinv.core (hinv.producers i) hstep
    obtain ⟨-, hlock⟩ := producerStep_frame hstep
    refine ⟨hcore, ?_, fun j => (hinv.consumers j).published_mono (logged_extends _ _),
      hinv.producerLock.step (producerStep_lock hstep), ?_⟩
    · refine (Function.forall_update_iff _ fun j pc => ProducerInv c base rb
        (logged s.published event) s.popped pc).mpr ⟨hpc, fun j hj => ?_⟩
      by_cases hin : (s.producers i).inside
      · have hout := hinv.producerLock.others_out hin hj
        rw [not_not.mp hout]
        trivial
      · have hreleased : s.producers i = .released := not_not.mp hin
        rw [hreleased] at hstep
        obtain ⟨rfl, hslots⟩ := producerStep_outside hstep
        exact (hinv.producers j).popped_mono (le_refl _) hslots
    · show Exclusive rb.consumerLocked s.consumers Consumer.inside
      rw [hlock]
      exact hinv.consumerLock
  | @consumer j event rb pc hstep =>
    obtain ⟨hcore, hpc⟩ := consumerStep_inv hinv.core (hinv.consumers j) hstep
    obtain ⟨hslots, -, hlock⟩ := consumerStep_frame hstep
    refine ⟨hcore, fun i => (hinv.producers i).popped_mono (span_mono (logged_extends _ _)) hslots,
      ?_, ?_, hinv.consumerLock.step (consumerStep_lock hstep)⟩
    · refine (Function.forall_update_iff _ fun j pc => ConsumerInv base s.published
        (logged s.popped event) pc).mpr ⟨hpc, fun i hi => ?_⟩
      by_cases hin : (s.consumers j).inside
      · have hout := hinv.consumerLock.others_out hin hi
        rw [not_not.mp hout]
        trivial
      · have hreleased : s.consumers j = .released := not_not.mp hin
        rw [hreleased] at hstep
        rw [consumerStep_outside hstep]
        exact hinv.consumers i
    · show Exclusive rb.producerLocked s.producers Producer.inside
      rw [hlock]
      exact hinv.producerLock

theorem reachable_inv {s : State ι κ α} (h : Reachable (Initial base) (Step c) s) : Inv c base s :=
  h.invariant (fun _ hs => initial_inv hs) fun _ _ hi hs => step_inv hi hs

end System

end Pyroscope.Ring
