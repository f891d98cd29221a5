import Pyroscope.Ring.Fifo

/-!
# The ring buffer, one call after another

`producer`, `consumer`, `push_slice`, `pop_slice` and the drops as functions of the
shared fields. A run of such calls is a run of the atomic steps, and answers as a
bounded queue does, whatever the guards that are held open have cached.
-/

namespace Pyroscope.Ring
open Pyroscope.Lib Cyclic

/-- What a `Producer` or a `Consumer` caches. -/
structure Guard where
  head : Usize
  tail : Usize
  deriving DecidableEq

inductive Full where
  | full
  deriving DecidableEq, Repr

inductive PopError where
  | empty
  | tooSmall (needed : ℕ)
  deriving DecidableEq, Repr

variable {α : Type}

/-! ### The functions -/

def RingBuffer.producer (rb : RingBuffer α) : Option Guard × RingBuffer α :=
  if rb.producerLocked then (none, rb)
  else (some ⟨rb.head, rb.tail⟩, { rb with producerLocked := true })

def RingBuffer.consumer (rb : RingBuffer α) : Option Guard × RingBuffer α :=
  if rb.consumerLocked then (none, rb)
  else (some ⟨rb.head, rb.tail⟩, { rb with consumerLocked := true })

def RingBuffer.dropProducer (rb : RingBuffer α) : RingBuffer α :=
  { rb with producerLocked := false }

def RingBuffer.dropConsumer (rb : RingBuffer α) : RingBuffer α :=
  { rb with consumerLocked := false }

/-- The loop of `push_slice`, from value `i` on. -/
def writeValues (c : Capacity) (head : Usize) : List α → ℕ → RingBuffer α → RingBuffer α
  | [], _, rb => rb
  | v :: vs, i, rb => writeValues c head vs (i + 1) (rb.writeSlot c (advance head i) (.value v))

def writeRecord (c : Capacity) (values : List α) (g : Guard) (rb : RingBuffer α) :
    Guard × RingBuffer α :=
  let rb := (writeValues c g.head values 0 rb).writeSlot c g.head (.len values.length)
  let head := advance g.head values.length
  ({ g with head := head }, { rb with head := head })

def pushSlice (c : Capacity) (values : List α) (g : Guard) (rb : RingBuffer α) :
    Except Full Unit × Guard × RingBuffer α :=
  if fits c g.head g.tail values.length then (.ok (), writeRecord c values g rb)
  else
    let g : Guard := { g with tail := rb.tail }
    if fits c g.head g.tail values.length then (.ok (), writeRecord c values g rb)
    else (.error .full, g, rb)

/-- The loop of `pop_slice` over `n` values from `i` on; `none` is `unreachable!`. -/
def readValues (c : Capacity) (rb : RingBuffer α) (tail : Usize) :
    ℕ → ℕ → List α → Option (List α)
  | 0, _, out => some out
  | n + 1, i, out =>
    match rb.slot c (advance tail i) with
    | some (.value v) => readValues c rb tail n (i + 1) (out.set i v)
    | _ => none

def readRecord (c : Capacity) (out : List α) (g : Guard) (rb : RingBuffer α) :
    Option (Except PopError ℕ × Guard × RingBuffer α × List α) :=
  match rb.slot c g.tail with
  | some (.len len) =>
    if out.length < len then some (.error (.tooSmall len), g, rb, out)
    else
      match readValues c rb g.tail len 0 out with
      | some out =>
        let tail := advance g.tail len
        some (.ok len, { g with tail := tail }, { rb with tail := tail }, out)
      | none => none
  | _ => none

def popSlice (c : Capacity) (out : List α) (g : Guard) (rb : RingBuffer α) :
    Option (Except PopError ℕ × Guard × RingBuffer α × List α) :=
  if g.tail = g.head then
    let g : Guard := { g with head := rb.head }
    if g.tail = g.head then some (.error .empty, g, rb, out) else readRecord c out g rb
  else readRecord c out g rb

/-! ### Sequences of calls -/

inductive Op (α : Type) where
  | producer
  | dropProducer
  | pushSlice (values : List α)
  | consumer
  | dropConsumer
  | popSlice (out : List α)
  deriving DecidableEq

inductive Reply (α : Type) where
  | guard (acquired : Bool)
  | dropped
  | push (result : Except Full Unit)
  /-- with what `out` holds after the call -/
  | pop (result : Except PopError ℕ) (out : List α)
  /-- there is no guard to call the method on -/
  | noGuard

structure Caller (α : Type) where
  rb : RingBuffer α
  producer : Option Guard
  consumer : Option Guard

def Caller.start (counter : Usize) (slots : ℕ → Option (Slot α)) : Caller α :=
  ⟨RingBuffer.start counter slots, none, none⟩

def Caller.call (c : Capacity) (s : Caller α) : Op α → Option (Reply α × Caller α)
  | .producer =>
    match s.rb.producer with
    | (some g, rb) => some (.guard true, { s with rb := rb, producer := some g })
    | (none, rb) => some (.guard false, { s with rb := rb })
  | .dropProducer =>
    match s.producer with
    | some _ => some (.dropped, { s with rb := s.rb.dropProducer, producer := none })
    | none => some (.noGuard, s)
  | .pushSlice values =>
    match s.producer with
    | some g =>
      let (result, g, rb) := Ring.pushSlice c values g s.rb
      some (.push result, { s with rb := rb, producer := some g })
    | none => some (.noGuard, s)
  | .consumer =>
    match s.rb.consumer with
    | (some g, rb) => some (.guard true, { s with rb := rb, consumer := some g })
    | (none, rb) => some (.guard false, { s with rb := rb })
  | .dropConsumer =>
    match s.consumer with
    | some _ => some (.dropped, { s with rb := s.rb.dropConsumer, consumer := none })
    | none => some (.noGuard, s)
  | .popSlice out =>
    match s.consumer with
    | some g =>
      match Ring.popSlice c out g s.rb with
      | some (result, g, rb, out) =>
        some (.pop result out, { s with rb := rb, consumer := some g })
      | none => none
    | none => some (.noGuard, s)

/-- Stops with `none` at a call that does not return. -/
def Caller.calls (c : Capacity) (s : Caller α) : List (Op α) → Option (List (Reply α) × Caller α)
  | [] => some ([], s)
  | op :: ops =>
    match s.call c op with
    | some (reply, s) =>
      match s.calls c ops with
      | some (replies, s) => some (reply :: replies, s)
      | none => none
    | none => none

/-! ### The bounded queue -/

structure Queue (α : Type) where
  records : List (List α)
  producer : Bool
  consumer : Bool

def Queue.push (c : Capacity) (records : List (List α)) (values : List α) :
    Except Full Unit × List (List α) :=
  if span (records ++ [values]) ≤ c.slots then (.ok (), records ++ [values])
  else (.error .full, records)

def Queue.pop (out : List α) : List (List α) → Except PopError ℕ × List α × List (List α)
  | [] => (.error .empty, out, [])
  | r :: records =>
    if out.length < r.length then (.error (.tooSmall r.length), out, r :: records)
    else (.ok r.length, r ++ out.drop r.length, records)

def Queue.call (c : Capacity) (q : Queue α) : Op α → Reply α × Queue α
  | .producer => (.guard (!q.producer), { q with producer := true })
  | .dropProducer => if q.producer then (.dropped, { q with producer := false }) else (.noGuard, q)
  | .pushSlice values =>
    if q.producer then
      let (result, records) := Queue.push c q.records values
      (.push result, { q with records := records })
    else (.noGuard, q)
  | .consumer => (.guard (!q.consumer), { q with consumer := true })
  | .dropConsumer => if q.consumer then (.dropped, { q with consumer := false }) else (.noGuard, q)
  | .popSlice out =>
    if q.consumer then
      let (result, out, records) := Queue.pop out q.records
      (.pop result out, { q with records := records })
    else (.noGuard, q)

def Queue.calls (c : Capacity) (q : Queue α) : List (Op α) → List (Reply α) × Queue α
  | [] => ([], q)
  | op :: ops =>
    let (reply, q) := q.call c op
    let (replies, q) := q.calls c ops
    (reply :: replies, q)

/-! ### The calls as runs of the atomic steps -/

/-- One thread with at most one guard of each side. -/
def solo (rb : RingBuffer α) (pp : Producer α) (cp : Consumer α)
    (published popped : List (List α)) : State Unit Unit α :=
  ⟨rb, fun _ => pp, fun _ => cp, published, popped⟩

section Solo
variable {c : Capacity} {base : Usize} {rb rb' : RingBuffer α} {pp pp' : Producer α}
  {cp cp' : Consumer α} {event : Option (List α)} {published popped : List (List α)}

theorem update_unit {β : Type} (f : Unit → β) (b : β) :
    Function.update f () b = fun _ => b := by
  funext u
  cases u
  exact Function.update_self () b f

theorem solo_producer (hinv : Inv c base (solo rb pp cp published popped))
    (h : ProducerStep c rb pp event rb' pp') :
    Inv c base (solo rb' pp' cp (logged published event) popped) := by
  have hs := Step.producer (s := solo rb pp cp published popped) () h
  rw [update_unit] at hs
  exact step_inv hinv hs

theorem solo_consumer (hinv : Inv c base (solo rb pp cp published popped))
    (h : ConsumerStep c rb cp event rb' cp') :
    Inv c base (solo rb' pp cp' published (logged popped event)) := by
  have hs := Step.consumer (s := solo rb pp cp published popped) () h
  rw [update_unit] at hs
  exact step_inv hinv hs

end Solo

section Calls
variable {c : Capacity} {base : Usize} {pp : Producer α} {cp : Consumer α}
  {published popped q : List (List α)}

theorem writeValues_solo {head tail : Usize} {values : List α} (vs : List α) (i : ℕ)
    (rb : RingBuffer α) (hvs : values.drop i = vs)
    (hinv : Inv c base (solo rb (.writing head tail values i) cp published popped)) :
    Inv c base (solo (writeValues c head vs i rb) (.writing head tail values values.length) cp
      published popped) := by
  induction vs generalizing i rb with
  | nil =>
    have hlen : values.length ≤ i := List.drop_eq_nil_iff.mp hvs
    have hi : i ≤ values.length := (hinv.producers ()).2.1
    rw [Nat.le_antisymm hi hlen] at hinv
    exact hinv
  | cons v vs ih =>
    have hv : values[i]? = some v := by
      rw [← List.head?_drop, hvs, List.head?_cons]
    have hnext : values.drop (i + 1) = vs := by
      rw [← List.tail_drop, hvs, List.tail_cons]
    exact ih (i + 1) _ hnext (solo_producer hinv (.writeValue hv))

theorem writeRecord_solo {g : Guard} {values : List α} {rb : RingBuffer α}
    (hinv : Inv c base (solo rb (.writing g.head g.tail values 0) cp published popped)) :
    Inv c base (solo (writeRecord c values g rb).2
      (.held (writeRecord c values g rb).1.head (writeRecord c values g rb).1.tail) cp
      (published ++ [values]) popped) := by
  have hvalues := writeValues_solo values 0 rb List.drop_zero hinv
  have hlen := solo_producer hvalues .writeLen
  exact solo_producer hlen .publish

theorem writeValues_locks (head : Usize) (vs : List α) (i : ℕ) (rb : RingBuffer α) :
    (writeValues c head vs i rb).producerLocked = rb.producerLocked ∧
      (writeValues c head vs i rb).consumerLocked = rb.consumerLocked := by
  induction vs generalizing i rb with
  | nil => exact ⟨rfl, rfl⟩
  | cons v vs ih => exact ih (i + 1) _

theorem writeRecord_locks (values : List α) (g : Guard) (rb : RingBuffer α) :
    (writeRecord c values g rb).2.producerLocked = rb.producerLocked ∧
      (writeRecord c values g rb).2.consumerLocked = rb.consumerLocked :=
  writeValues_locks g.head values 0 rb

/- The room that `fits` sees in a fresh pair is the room of the queue. -/
theorem fits_queue {head tail : Usize} {rb : RingBuffer α} (values : List α)
    (hinv : Inv c base (solo rb pp cp (popped ++ q) popped))
    (hview : ProducerView c base (popped ++ q) popped head tail 0) :
    (fits c head tail values.length = true → span (q ++ [values]) ≤ c.slots) ∧
      (fits c head rb.tail values.length = true ↔ span (q ++ [values]) ≤ c.slots) := by
  have hpre : popped <+: popped ++ q := List.prefix_append popped q
  have htail : rb.tail = counter base (span popped) := hinv.core.tail
  have hreload : ProducerView c base (popped ++ q) popped head rb.tail 0 :=
    ⟨hview.1, _, htail, le_refl _, hinv.core.bound⟩
  have hspan : span (q ++ [values]) = span q + 1 + values.length := by
    rw [span_append, span_cons, span_nil]
    omega
  refine ⟨fun hfit => ?_, fun hfit => ?_, fun hroom => ?_⟩
  · have hroom := ((hview.fits_iff hpre _).mp hfit).room
    rw [span_append] at hroom
    omega
  · have hroom := ((hreload.fits_iff hpre _).mp hfit).room
    rw [span_append] at hroom
    omega
  · refine (hreload.fits_iff hpre _).mpr ⟨hview.1, _, htail, le_refl _, ?_⟩
    rw [span_append]
    omega

theorem pushSlice_queue {g : Guard} {rb : RingBuffer α} (values : List α)
    (hinv : Inv c base (solo rb (.held g.head g.tail) cp (popped ++ q) popped)) :
    ∃ g' rb', pushSlice c values g rb = ((Queue.push c q values).1, g', rb') ∧
      Inv c base (solo rb' (.held g'.head g'.tail) cp (popped ++ (Queue.push c q values).2) popped) ∧
      rb'.producerLocked = rb.producerLocked ∧ rb'.consumerLocked = rb.consumerLocked := by
  obtain ⟨hcached, hfresh⟩ := fits_queue values hinv (hinv.producers ())
  rw [pushSlice, Queue.push]
  by_cases hfit : fits c g.head g.tail values.length = true
  · rw [if_pos hfit, if_pos (hcached hfit)]
    have hwritten := writeRecord_solo (solo_producer hinv (.pushFits values hfit))
    rw [logged, List.append_assoc] at hwritten
    exact ⟨_, _, rfl, hwritten, writeRecord_locks values g rb⟩
  · have hrefresh := solo_producer hinv (.pushRefresh values (Bool.not_eq_true _ ▸ hfit))
    rw [if_neg hfit]
    by_cases hroom : span (q ++ [values]) ≤ c.slots
    · rw [if_pos hroom, if_pos (hfresh.mpr hroom)]
      have hwritten := writeRecord_solo (g := ⟨g.head, rb.tail⟩)
        (solo_producer hrefresh (.refreshFits (hfresh.mpr hroom)))
      rw [logged, logged, List.append_assoc] at hwritten
      exact ⟨_, _, rfl, hwritten, writeRecord_locks values _ rb⟩
    · have hno : fits c g.head rb.tail values.length = false :=
        eq_false_of_ne_true fun h => hroom (hfresh.mp h)
      rw [if_neg hroom, if_neg (by rw [hno]; exact Bool.false_ne_true)]
      exact ⟨_, _, rfl, solo_producer hrefresh (.refreshFull hno), rfl, rfl⟩

theorem ConsumerView.front {r : List α} {ahead : List (List α)} {head tail : Usize}
    (h : ConsumerView base (popped ++ q) popped (r :: ahead) head tail) :
    ∃ rest, q = r :: rest := by
  obtain ⟨⟨rest, hpre⟩, -⟩ := h
  rw [List.append_assoc, List.append_cancel_left_eq, List.cons_append] at hpre
  exact ⟨ahead ++ rest, hpre.symm⟩

theorem readValues_solo {head tail : Usize} {len : ℕ} {rb : RingBuffer α} (n i : ℕ)
    (out : List α) (hn : i + n = len)
    (hinv : Inv c base (solo rb pp (.reading head tail len out i) published popped)) :
    ∃ out', readValues c rb tail n i out = some out' ∧ out'.drop len = out.drop len ∧
      Inv c base (solo rb pp (.reading head tail len out' len) published popped) := by
  induction n generalizing i out with
  | zero =>
    rw [Nat.add_zero] at hn
    rw [hn] at hinv
    exact ⟨out, rfl, rfl, hinv⟩
  | succ n ih =>
    have hi : i < len := by omega
    obtain ⟨r, ahead, hview, hlen, -⟩ := hinv.consumers ()
    have hi' : i < r.length := by omega
    have hslot : rb.slot c (advance tail i) = some (.value r[i]) := hinv.core.slot_value hview hi'
    obtain ⟨out', hread, hdrop, hinv'⟩ :=
      ih (i + 1) _ (by omega) (solo_consumer hinv (.readValue hi hslot))
    refine ⟨out', ?_, ?_, hinv'⟩
    · rw [readValues, hslot]
      exact hread
    · rw [hdrop, List.drop_set_of_lt hi]

theorem readRecord_queue {g : Guard} {rb : RingBuffer α} (out : List α)
    (hinv : Inv c base (solo rb pp (.readingLen g.head g.tail out) (popped ++ q) popped)) :
    ∃ g' rb' popped', readRecord c out g rb =
        some ((Queue.pop out q).1, g', rb', (Queue.pop out q).2.1) ∧
      popped' ++ (Queue.pop out q).2.2 = popped ++ q ∧
      Inv c base (solo rb' pp (.held g'.head g'.tail) (popped ++ q) popped') ∧
      rb'.producerLocked = rb.producerLocked ∧ rb'.consumerLocked = rb.consumerLocked := by
  obtain ⟨r, ahead, hview⟩ := hinv.consumers ()
  obtain ⟨rest, rfl⟩ := hview.front
  have hslot : rb.slot c g.tail = some (.len r.length) := hinv.core.slot_len hview
  rw [readRecord, hslot, Queue.pop]
  dsimp only
  by_cases hsmall : out.length < r.length
  · rw [if_pos hsmall, if_pos hsmall]
    exact ⟨_, _, popped, rfl, rfl, solo_consumer hinv (.readLenSmall hslot hsmall), rfl, rfl⟩
  · rw [if_neg hsmall, if_neg hsmall]
    obtain ⟨out', hread, hdrop, hinv'⟩ := readValues_solo r.length 0 out (Nat.zero_add _)
      (solo_consumer hinv (.readLen hslot (Nat.le_of_not_lt hsmall)))
    obtain ⟨r', ahead', hview', hlen, -, -, htake⟩ := hinv'.consumers ()
    obtain ⟨rest', hfront⟩ := hview'.front
    rw [List.cons.injEq] at hfront
    obtain ⟨rfl, rfl⟩ := hfront
    rw [List.take_length] at htake
    have hout : out' = r ++ out.drop r.length := by
      have hsplit := List.take_append_drop r.length out'
      rw [htake, hdrop] at hsplit
      exact hsplit.symm
    rw [hread]
    have hstore := solo_consumer hinv' .store
    rw [htake] at hstore
    refine ⟨⟨g.head, advance g.tail r.length⟩, { rb with tail := advance g.tail r.length },
      popped ++ [r], ?_, ?_, hstore, rfl, rfl⟩
    · dsimp only
      rw [hout]
    · rw [List.append_assoc, List.singleton_append]

theorem popSlice_queue {g : Guard} {rb : RingBuffer α} (out : List α)
    (hinv : Inv c base (solo rb pp (.held g.head g.tail) (popped ++ q) popped)) :
    ∃ g' rb' popped', popSlice c out g rb =
        some ((Queue.pop out q).1, g', rb', (Queue.pop out q).2.1) ∧
      popped' ++ (Queue.pop out q).2.2 = popped ++ q ∧
      Inv c base (solo rb' pp (.held g'.head g'.tail) (popped ++ q) popped') ∧
      rb'.producerLocked = rb.producerLocked ∧ rb'.consumerLocked = rb.consumerLocked := by
  rw [popSlice]
  by_cases hcached : g.tail = g.head
  · have hrefresh := solo_consumer hinv (.popRefresh out hcached)
    rw [if_pos hcached]
    by_cases hempty : g.tail = rb.head
    · have hnone : q = [] := by
        obtain ⟨ahead, hview⟩ := hinv.consumers ()
        have hhead : rb.head = counter base (span (popped ++ q)) := hinv.core.head
        have hbound : span (popped ++ q) ≤ span popped + c.slots := hinv.core.bound
        have hlt := slots_lt c
        have htail : g.tail = counter base (span popped) := hview.2.2
        rw [span_append] at hhead hbound
        rw [htail, hhead] at hempty
        have hspan := counter_inj base (Nat.le_add_right _ _) (by omega) hempty
        cases q with
        | nil => rfl
        | cons r rest =>
          rw [span_cons] at hspan
          omega
      subst hnone
      rw [if_pos hempty]
      exact ⟨⟨rb.head, g.tail⟩, rb, popped, rfl, rfl, solo_consumer hrefresh (.refreshEmpty hempty),
        rfl, rfl⟩
    · rw [if_neg hempty]
      exact readRecord_queue (g := ⟨rb.head, g.tail⟩) out
        (solo_consumer hrefresh (.refreshReady hempty))
  · rw [if_neg hcached]
    exact readRecord_queue out (solo_consumer hinv (.popReady out hcached))

end Calls

/-! ### Refinement -/

def Producer.idle : Option Guard → Producer α
  | none => .released
  | some g => .held g.head g.tail

def Consumer.idle : Option Guard → Consumer α
  | none => .released
  | some g => .held g.head g.tail

structure Represents (c : Capacity) (base : Usize) (s : Caller α) (q : Queue α) : Prop where
  records : ∃ popped, Inv c base (solo s.rb (.idle s.producer) (.idle s.consumer)
    (popped ++ q.records) popped)
  producerLocked : s.rb.producerLocked = q.producer
  consumerLocked : s.rb.consumerLocked = q.consumer
  producer : s.producer.isSome = q.producer
  consumer : s.consumer.isSome = q.consumer

section Refinement
variable {c : Capacity} {base : Usize} {s : Caller α} {q : Queue α}

theorem start_represents (counter : Usize) (slots : ℕ → Option (Slot α)) :
    Represents c counter (Caller.start counter slots) ⟨[], false, false⟩ :=
  ⟨⟨[], initial_inv ⟨slots, rfl⟩⟩, rfl, rfl, rfl, rfl⟩

theorem producer_represents (h : Represents c base s q) :
    ∃ s', s.call c .producer = some ((q.call c .producer).1, s') ∧
      Represents c base s' (q.call c .producer).2 := by
  obtain ⟨rb, producer, consumer⟩ := s
  obtain ⟨records, held, held'⟩ := q
  obtain ⟨⟨popped, hinv⟩, hlocked, hlocked', hguard, hguard'⟩ := h
  dsimp only at hlocked hlocked' hguard hguard' hinv
  subst hlocked hlocked'
  rw [Caller.call, RingBuffer.producer]
  cases hfree : rb.producerLocked with
  | true =>
    rw [hfree] at hguard
    exact ⟨_, rfl, ⟨popped, hinv⟩, hfree, rfl, hguard, hguard'⟩
  | false =>
    rw [hfree, Option.isSome_eq_false_iff, Option.isNone_iff_eq_none] at hguard
    subst hguard
    have hlock := solo_producer hinv (.lock hfree)
    have htail := solo_producer (solo_producer hlock .loadHead) .loadTail
    exact ⟨_, rfl, ⟨popped, htail⟩, rfl, rfl, rfl, hguard'⟩

theorem consumer_represents (h : Represents c base s q) :
    ∃ s', s.call c .consumer = some ((q.call c .consumer).1, s') ∧
      Represents c base s' (q.call c .consumer).2 := by
  obtain ⟨rb, producer, consumer⟩ := s
  obtain ⟨records, held, held'⟩ := q
  obtain ⟨⟨popped, hinv⟩, hlocked, hlocked', hguard, hguard'⟩ := h
  dsimp only at hlocked hlocked' hguard hguard' hinv
  subst hlocked hlocked'
  rw [Caller.call, RingBuffer.consumer]
  cases hfree : rb.consumerLocked with
  | true =>
    rw [hfree] at hguard'
    exact ⟨_, rfl, ⟨popped, hinv⟩, rfl, hfree, hguard, hguard'⟩
  | false =>
    rw [hfree, Option.isSome_eq_false_iff, Option.isNone_iff_eq_none] at hguard'
    subst hguard'
    have hlock := solo_consumer hinv (.lock hfree)
    have htail := solo_consumer (solo_consumer hlock .loadHead) .loadTail
    exact ⟨_, rfl, ⟨popped, htail⟩, rfl, rfl, hguard, rfl⟩

theorem call_represents (h : Represents c base s q) (op : Op α) :
    ∃ s', s.call c op = some ((q.call c op).1, s') ∧ Represents c base s' (q.call c op).2 := by
  cases op with
  | producer => exact producer_represents h
  | consumer => exact consumer_represents h
  | dropProducer =>
    obtain ⟨rb, producer, consumer⟩ := s
    obtain ⟨⟨popped, hinv⟩, hlocked, hlocked', hguard, hguard'⟩ := h
    rw [Caller.call, Queue.call, ← hguard]
    cases producer with
    | none => exact ⟨_, rfl, ⟨popped, hinv⟩, hlocked, hlocked', hguard, hguard'⟩
    | some g =>
      exact ⟨_, rfl, ⟨popped, solo_producer hinv .drop⟩, rfl, hlocked', rfl, hguard'⟩
  | dropConsumer =>
    obtain ⟨rb, producer, consumer⟩ := s
    obtain ⟨⟨popped, hinv⟩, hlocked, hlocked', hguard, hguard'⟩ := h
    rw [Caller.call, Queue.call, ← hguard']
    cases consumer with
    | none => exact ⟨_, rfl, ⟨popped, hinv⟩, hlocked, hlocked', hguard, hguard'⟩
    | some g =>
      exact ⟨_, rfl, ⟨popped, solo_consumer hinv .drop⟩, hlocked, rfl, hguard, rfl⟩
  | pushSlice values =>
    obtain ⟨rb, producer, consumer⟩ := s
    obtain ⟨records, held, held'⟩ := q
    obtain ⟨⟨popped, hinv⟩, hlocked, hlocked', rfl, hguard'⟩ := h
    cases producer with
    | none => exact ⟨_, rfl, ⟨popped, hinv⟩, hlocked, hlocked', rfl, hguard'⟩
    | some g =>
      obtain ⟨g', rb', hpush, hinv', hkeep, hkeep'⟩ := pushSlice_queue values hinv
      refine ⟨⟨rb', some g', consumer⟩, ?_, ⟨popped, hinv'⟩, hkeep.trans hlocked,
        hkeep'.trans hlocked', rfl, hguard'⟩
      rw [Caller.call]
      dsimp only
      rw [hpush]
      rfl
  | popSlice out =>
    obtain ⟨rb, producer, consumer⟩ := s
    obtain ⟨records, held, held'⟩ := q
    obtain ⟨⟨popped, hinv⟩, hlocked, hlocked', hguard, rfl⟩ := h
    cases consumer with
    | none => exact ⟨_, rfl, ⟨popped, hinv⟩, hlocked, hlocked', hguard, rfl⟩
    | some g =>
      obtain ⟨g', rb', popped', hpop, hrecords, hinv', hkeep, hkeep'⟩ := popSlice_queue out hinv
      rw [← hrecords] at hinv'
      refine ⟨⟨rb', producer, some g'⟩, ?_, ⟨popped', hinv'⟩, hkeep.trans hlocked,
        hkeep'.trans hlocked', hguard, rfl⟩
      rw [Caller.call]
      dsimp only
      rw [hpop]
      rfl

theorem calls_represent (h : Represents c base s q) (ops : List (Op α)) :
    ∃ s', s.calls c ops = some ((q.calls c ops).1, s') ∧
      Represents c base s' (q.calls c ops).2 := by
  induction ops generalizing s q with
  | nil => exact ⟨s, rfl, h⟩
  | cons op ops ih =>
    obtain ⟨s', hcall, h'⟩ := call_represents h op
    obtain ⟨s'', hcalls, h''⟩ := ih h'
    refine ⟨s'', ?_, h''⟩
    rw [Caller.calls, hcall]
    dsimp only
    rw [hcalls]
    rfl

end Refinement

/- Every sequence of calls, from any common counter, is answered as by the queue. -/
theorem calls_exact (c : Capacity) (counter : Usize) (slots : ℕ → Option (Slot α))
    (ops : List (Op α)) :
    ∃ s, (Caller.start counter slots).calls c ops =
        some ((Queue.calls c ⟨[], false, false⟩ ops).1, s) ∧
      Represents c counter s (Queue.calls c ⟨[], false, false⟩ ops).2 :=
  calls_represent (start_represents counter slots) ops

end Pyroscope.Ring
