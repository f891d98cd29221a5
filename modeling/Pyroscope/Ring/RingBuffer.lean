import Pyroscope.Lib.Cyclic

/-!
# The ring buffer (crates/ringbuffer)

The shared fields of `RingBuffer<T, N>` and the control points of a `Producer` and a
`Consumer`. One step is one atomic action of the source: an attempt at the lock, a
load or a store of a counter, an access to one slot. The part of a call that touches
only the guard is a step of its own. `usize` counters are 64-bit words and wrap.
-/

namespace Pyroscope.Ring
open Pyroscope.Lib

abbrev Usize : Type := BitVec 64

/-- `N`, by its logarithm: `RingBuffer::new` asserts that it is a power of two. -/
structure Capacity where
  log : ℕ
  log_lt : log < 64

def Capacity.slots (c : Capacity) : ℕ := 2 ^ c.log

inductive Slot (α : Type) where
  | len (n : ℕ)
  | value (a : α)
  deriving DecidableEq, Repr

structure RingBuffer (α : Type) where
  slots : ℕ → Option (Slot α)
  head : Usize
  tail : Usize
  producerLocked : Bool
  consumerLocked : Bool

/-- A buffer nobody uses, with its counters at a common value. -/
def RingBuffer.start {α : Type} (counter : Usize) (slots : ℕ → Option (Slot α)) : RingBuffer α :=
  ⟨slots, counter, counter, false, false⟩

/-- `N - head.wrapping_sub(tail) > len` -/
def fits (c : Capacity) (head tail : Usize) (len : ℕ) : Bool :=
  decide (len < (BitVec.ofNat 64 c.slots - (head - tail)).toNat)

/-- The index after `1 + n` slots from `index`. -/
def advance (index : Usize) (n : ℕ) : Usize := index + BitVec.ofNat 64 1 + BitVec.ofNat 64 n

variable {α : Type}

def RingBuffer.slot (c : Capacity) (rb : RingBuffer α) (index : Usize) : Option (Slot α) :=
  rb.slots (Cyclic.slot c.log index)

def RingBuffer.writeSlot (c : Capacity) (rb : RingBuffer α) (index : Usize) (x : Slot α) :
    RingBuffer α :=
  { rb with slots := Cyclic.write rb.slots (Cyclic.slot c.log index) x }

/-- Where a thread is in `producer()`, in `push_slice`, or between calls with the guard. -/
inductive Producer (α : Type) where
  | released
  | locked
  | headLoaded (head : Usize)
  | held (head tail : Usize)
  | loadingTail (head tail : Usize) (values : List α)
  | writing (head tail : Usize) (values : List α) (i : ℕ)
  | publishing (head tail : Usize) (values : List α)

inductive ProducerStep (c : Capacity) :
    RingBuffer α → Producer α → Option (List α) → RingBuffer α → Producer α → Prop where
  | lock {rb} (free : rb.producerLocked = false) :
    ProducerStep c rb .released none { rb with producerLocked := true } .locked
  /-- `producer()` returns `None` -/
  | busy {rb} (taken : rb.producerLocked = true) : ProducerStep c rb .released none rb .released
  | loadHead {rb} : ProducerStep c rb .locked none rb (.headLoaded rb.head)
  | loadTail {rb head} : ProducerStep c rb (.headLoaded head) none rb (.held head rb.tail)
  | pushFits {rb head tail} (values : List α) (h : fits c head tail values.length = true) :
    ProducerStep c rb (.held head tail) none rb (.writing head tail values 0)
  | pushRefresh {rb head tail} (values : List α) (h : fits c head tail values.length = false) :
    ProducerStep c rb (.held head tail) none rb (.loadingTail head tail values)
  | refreshFits {rb head tail values} (h : fits c head rb.tail values.length = true) :
    ProducerStep c rb (.loadingTail head tail values) none rb (.writing head rb.tail values 0)
  /-- `push_slice` returns `Err(Full)` -/
  | refreshFull {rb head tail values} (h : fits c head rb.tail values.length = false) :
    ProducerStep c rb (.loadingTail head tail values) none rb (.held head rb.tail)
  | writeValue {rb head tail values i v} (h : values[i]? = some v) :
    ProducerStep c rb (.writing head tail values i) none
      (rb.writeSlot c (advance head i) (.value v)) (.writing head tail values (i + 1))
  | writeLen {rb head tail values} :
    ProducerStep c rb (.writing head tail values values.length) none
      (rb.writeSlot c head (.len values.length)) (.publishing head tail values)
  /-- the store of `head`; `push_slice` returns `Ok` -/
  | publish {rb head tail values} :
    ProducerStep c rb (.publishing head tail values) (some values)
      { rb with head := advance head values.length } (.held (advance head values.length) tail)
  | drop {rb head tail} :
    ProducerStep c rb (.held head tail) none { rb with producerLocked := false } .released

/-- Where a thread is in `consumer()`, in `pop_slice`, or between calls with the guard. -/
inductive Consumer (α : Type) where
  | released
  | locked
  | headLoaded (head : Usize)
  | held (head tail : Usize)
  | loadingHead (head tail : Usize) (out : List α)
  | readingLen (head tail : Usize) (out : List α)
  | reading (head tail : Usize) (len : ℕ) (out : List α) (i : ℕ)
  | unreachable

inductive ConsumerStep (c : Capacity) :
    RingBuffer α → Consumer α → Option (List α) → RingBuffer α → Consumer α → Prop where
  | lock {rb} (free : rb.consumerLocked = false) :
    ConsumerStep c rb .released none { rb with consumerLocked := true } .locked
  /-- `consumer()` returns `None` -/
  | busy {rb} (taken : rb.consumerLocked = true) : ConsumerStep c rb .released none rb .released
  | loadHead {rb} : ConsumerStep c rb .locked none rb (.headLoaded rb.head)
  | loadTail {rb head} : ConsumerStep c rb (.headLoaded head) none rb (.held head rb.tail)
  | popRefresh {rb head tail} (out : List α) (h : tail = head) :
    ConsumerStep c rb (.held head tail) none rb (.loadingHead head tail out)
  | popReady {rb head tail} (out : List α) (h : tail ≠ head) :
    ConsumerStep c rb (.held head tail) none rb (.readingLen head tail out)
  /-- `pop_slice` returns `Err(Empty)` -/
  | refreshEmpty {rb head tail out} (h : tail = rb.head) :
    ConsumerStep c rb (.loadingHead head tail out) none rb (.held rb.head tail)
  | refreshReady {rb head tail out} (h : tail ≠ rb.head) :
    ConsumerStep c rb (.loadingHead head tail out) none rb (.readingLen rb.head tail out)
  | readLen {rb head tail out len} (hs : rb.slot c tail = some (.len len)) (h : len ≤ out.length) :
    ConsumerStep c rb (.readingLen head tail out) none rb (.reading head tail len out 0)
  /-- `pop_slice` returns `Err(TooSmall)` -/
  | readLenSmall {rb head tail out len} (hs : rb.slot c tail = some (.len len))
      (h : out.length < len) :
    ConsumerStep c rb (.readingLen head tail out) none rb (.held head tail)
  | readLenBad {rb head tail out} (hs : ∀ len, rb.slot c tail ≠ some (.len len)) :
    ConsumerStep c rb (.readingLen head tail out) none rb .unreachable
  | readValue {rb head tail len out i v} (h : i < len)
      (hs : rb.slot c (advance tail i) = some (.value v)) :
    ConsumerStep c rb (.reading head tail len out i) none rb
      (.reading head tail len (out.set i v) (i + 1))
  | readValueBad {rb head tail len out i} (h : i < len)
      (hs : ∀ v, rb.slot c (advance tail i) ≠ some (.value v)) :
    ConsumerStep c rb (.reading head tail len out i) none rb .unreachable
  /-- the store of `tail`; `pop_slice` returns `Ok(len)` with the record in `out` -/
  | store {rb head tail len out} :
    ConsumerStep c rb (.reading head tail len out len) (some (out.take len))
      { rb with tail := advance tail len } (.held head (advance tail len))
  | drop {rb head tail} :
    ConsumerStep c rb (.held head tail) none { rb with consumerLocked := false } .released

/-! ### Any number of producers and consumers -/

/-- The log after a step that may have completed a record. -/
def logged (log : List (List α)) : Option (List α) → List (List α)
  | none => log
  | some r => log ++ [r]

/-- `published` and `popped` log the records whose `head` store and whose return from
`pop_slice` have happened, in order. -/
structure State (ι κ α : Type) where
  rb : RingBuffer α
  producers : ι → Producer α
  consumers : κ → Consumer α
  published : List (List α)
  popped : List (List α)

variable {ι κ : Type} [DecidableEq ι] [DecidableEq κ]

inductive Step (c : Capacity) : State ι κ α → State ι κ α → Prop where
  | producer {s : State ι κ α} (i : ι) {event rb pc}
      (h : ProducerStep c s.rb (s.producers i) event rb pc) :
    Step c s { s with
      rb := rb
      producers := Function.update s.producers i pc
      published := logged s.published event }
  | consumer {s : State ι κ α} (j : κ) {event rb pc}
      (h : ConsumerStep c s.rb (s.consumers j) event rb pc) :
    Step c s { s with
      rb := rb
      consumers := Function.update s.consumers j pc
      popped := logged s.popped event }

/-- Nobody has a guard; the counters agree on any value and the slots hold anything. -/
def Initial (counter : Usize) (s : State ι κ α) : Prop :=
  ∃ slots, s = ⟨RingBuffer.start counter slots, fun _ => .released, fun _ => .released, [], []⟩

end Pyroscope.Ring
