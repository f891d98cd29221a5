import Pyroscope.Machine
import Pyroscope.Lib.Outcome
import Pyroscope.Lib.Interner
import Mathlib.Data.Finset.Card

/-!
# The string table (encode/pprof.rs, `StringTable`)

`StringTable` interns strings: the first request for a string gives it the next
index. `into_pprof_table` and `clone_pprof_table` lay the strings out by index; they
iterate over the hash set in an order of its own, given here as an `IterOrder`.
-/

namespace Pyroscope.Encode
open Pyroscope.Lib

structure StringID where
  index : ℕ
  deriving DecidableEq, Repr

/-- The index as a pprof string reference (`as i64`). -/
def StringID.pprof (id : StringID) : ℤ := id.index

/-- The set of `StringSetKey { str, index }`; hashing and equality use `str` only. -/
structure StringTable where
  set : HashMap String StringID

def StringID.new (set : HashMap String StringID) : Except Panic StringID :=
  if set.len < u32Max then .ok ⟨set.len⟩ else .error .stringIds

namespace StringTable

/-- The next id is computed, and its assertion made, before the lookup. -/
def add (st : StringTable) (s : String) : Except Panic (StringID × StringTable) :=
  match StringID.new st.set with
  | .error p => .error p
  | .ok nextId =>
    match st.set.get s with
    | some index => .ok (index, st)
    | none => .ok (nextId, ⟨st.set.insert s nextId⟩)

def new : StringTable :=
  match add ⟨HashMap.empty⟩ "" with
  | .ok (_, st) => st
  | .error _ => ⟨HashMap.empty⟩

/-- One iteration of the layout loop: `v[idx] = x.str`. -/
def place (v : List String) (x : String × StringID) : Except Panic (List String) :=
  if x.2.index < v.length then .ok (v.set x.2.index x.1) else .error .indexOutOfBounds

def placeAll : List (String × StringID) → List String → Except Panic (List String)
  | [], v => .ok v
  | x :: xs, v =>
    match place v x with
    | .error p => .error p
    | .ok v => placeAll xs v

def intoPprofTable (ord : IterOrder (String × StringID)) (st : StringTable) :
    Except Panic (List String) :=
  placeAll (ord.visit st.set.toList) (List.replicate st.set.len "")

/-- `dst.clear(); dst.resize(..)`, then the same loop. -/
def clonePprofTable (ord : IterOrder (String × StringID)) (st : StringTable)
    (dst : List String) : Except Panic (List String) :=
  let cleared := dst.take 0
  placeAll (ord.visit st.set.toList) (cleared ++ List.replicate st.set.len "")

/-- The table holds exactly `strings`, each at its position. -/
structure Repr (st : StringTable) (strings : List String) : Prop where
  dense : Dense StringID.mk st.set strings
  first : strings[0]? = some ""
  bound : strings.length ≤ u32Max

theorem new_set : new.set = HashMap.empty.insert "" ⟨0⟩ := rfl

theorem new_repr : Repr new [""] := by
  refine ⟨?_, rfl, by decide⟩
  rw [new_set]
  have h := (Dense.empty StringID.mk (κ := String)).insert_new "" (HashMap.get_empty "")
  exact h

theorem Repr.length_pos {st : StringTable} {strings : List String} (h : Repr st strings) :
    0 < strings.length := (List.getElem?_eq_some_iff.mp h.first).1

theorem Repr.nodup {st : StringTable} {strings : List String} (h : Repr st strings) :
    strings.Nodup := h.dense.nodup

/- A request succeeds exactly when there is room for one more string, also for a
string that is already held, and the index it returns holds the string from then on. -/
theorem add_outcome {st : StringTable} {strings : List String} (h : Repr st strings) (s : String) :
    Outcome (strings.length < u32Max) Panic.stringIds (add st s) fun r =>
      r.1 = ⟨(internKeys strings s).idxOf s⟩ ∧ Repr r.2 (internKeys strings s) := by
  refine ⟨fun room => ?_, fun full => ?_⟩
  · have hlen : st.set.len < u32Max := by rw [h.dense.len_eq]; exact room
    have hnew : StringID.new st.set = .ok ⟨strings.length⟩ := by
      rw [StringID.new, if_pos hlen, h.dense.len_eq]
    have hfirst := getElem?_mono (internKeys_mono strings s) h.first
    have hbound : (internKeys strings s).length ≤ u32Max :=
      (internKeys_length_le strings s).trans room
    rcases h.dense.intern s with ⟨v, hget, hkeys, hv⟩ | ⟨hget, hkeys, hdense, hidx⟩
    · refine ⟨(v, st), by simp only [add, hnew, hget], hv, ?_⟩
      rw [hkeys]
      exact h
    · refine ⟨(⟨strings.length⟩, ⟨st.set.insert s ⟨strings.length⟩⟩), ?_, ?_, hdense, hfirst, hbound⟩
      · simp only [add, hnew, hget]
      · rw [hidx]
  · have hlen : ¬st.set.len < u32Max := by rw [h.dense.len_eq]; exact full
    simp only [add, StringID.new, if_neg hlen]

/- The layout loop writes each listed position once and keeps the others; the
listed pairs agree with `strings`, so the order does not matter. -/
theorem placeAll_spec (strings : List String) (xs : List (String × StringID)) (v : List String)
    (hlen : v.length = strings.length)
    (hxs : ∀ x ∈ xs, strings[x.2.index]? = some x.1) :
    ∃ v', placeAll xs v = .ok v' ∧ v'.length = strings.length ∧
      (∀ x ∈ xs, v'[x.2.index]? = some x.1) ∧
      ∀ i, (∀ x ∈ xs, x.2.index ≠ i) → v'[i]? = v[i]? := by
  induction xs generalizing v with
  | nil => exact ⟨v, rfl, hlen, by simp, fun _ _ => rfl⟩
  | cons x xs ih =>
    have hx : strings[x.2.index]? = some x.1 := hxs x (List.mem_cons_self ..)
    have hlt : x.2.index < v.length := by
      rw [hlen]
      exact (List.getElem?_eq_some_iff.mp hx).1
    obtain ⟨v', hall, hlen', hin, hout⟩ := ih (v.set x.2.index x.1)
      (by rw [List.length_set]; exact hlen) (fun y hy => hxs y (List.mem_cons_of_mem _ hy))
    refine ⟨v', by simp only [placeAll, place, if_pos hlt, hall], hlen', ?_, ?_⟩
    · intro y hy
      rcases List.mem_cons.mp hy with rfl | hy
      · by_cases hrest : ∃ z ∈ xs, z.2.index = y.2.index
        · obtain ⟨z, hz, he⟩ := hrest
          have hsame : z.1 = y.1 := by
            have hs := hxs z (List.mem_cons_of_mem _ hz)
            rw [he, hx] at hs
            exact (Option.some.inj hs).symm
          rw [← he, hin z hz, hsame]
        · rw [hout _ (fun z hz he => hrest ⟨z, hz, he⟩)]
          exact List.getElem?_set_self hlt
      · exact hin y hy
    · intro i hi
      rw [hout i (fun y hy => hi y (List.mem_cons_of_mem _ hy))]
      exact List.getElem?_set_ne (hi x (List.mem_cons_self ..))

theorem placeAll_repr {st : StringTable} {strings : List String} (h : Repr st strings)
    (ord : IterOrder (String × StringID)) :
    placeAll (ord.visit st.set.toList) (List.replicate st.set.len "") = .ok strings := by
  have hmem : ∀ s i, (s, (⟨i⟩ : StringID)) ∈ ord.visit st.set.toList ↔ strings[i]? = some s := by
    intro s i
    rw [ord.mem_visit, HashMap.mem_toList, h.dense.get_iff]
    refine ⟨fun hj => ?_, fun hi => ⟨i, hi, rfl⟩⟩
    obtain ⟨j, hj, he⟩ := hj
    cases he
    exact hj
  obtain ⟨v, hv, hlen, hin, -⟩ := placeAll_spec strings (ord.visit st.set.toList)
    (List.replicate st.set.len "") (by rw [List.length_replicate, h.dense.len_eq])
    (fun x hx => (hmem x.1 x.2.index).mp hx)
  rw [hv]
  congr 1
  refine List.ext_getElem? fun i => ?_
  cases hs : strings[i]? with
  | none =>
    rw [List.getElem?_eq_none_iff] at hs ⊢
    omega
  | some s => exact hin (s, ⟨i⟩) ((hmem s i).mpr hs)

theorem intoPprofTable_repr {st : StringTable} {strings : List String} (h : Repr st strings)
    (ord : IterOrder (String × StringID)) : intoPprofTable ord st = .ok strings :=
  placeAll_repr h ord

theorem clonePprofTable_repr {st : StringTable} {strings : List String} (h : Repr st strings)
    (ord : IterOrder (String × StringID)) (dst : List String) :
    clonePprofTable ord st dst = .ok strings := by
  simp only [clonePprofTable, List.take_zero, List.nil_append]
  exact placeAll_repr h ord

/-! ### Sequences of requests -/

/-- The distinct strings after a sequence of requests. -/
def internAll (strings : List String) (ss : List String) : List String := ss.foldl internKeys strings

/-- Every request of the sequence meets a table that is not full. -/
def Room (strings : List String) : List String → Prop
  | [] => True
  | s :: ss => strings.length < u32Max ∧ Room (internKeys strings s) ss

theorem internAll_append (strings ss ss' : List String) :
    internAll strings (ss ++ ss') = internAll (internAll strings ss) ss' := List.foldl_append

theorem internAll_mono (strings ss : List String) : strings <+: internAll strings ss := by
  induction ss generalizing strings with
  | nil => exact List.prefix_refl strings
  | cons s ss ih => exact (internKeys_mono strings s).trans (ih (internKeys strings s))

theorem internAll_toFinset (strings ss : List String) :
    (internAll strings ss).toFinset = strings.toFinset ∪ ss.toFinset := by
  induction ss generalizing strings with
  | nil => simp only [internAll, List.foldl_nil, List.toFinset_nil, Finset.union_empty]
  | cons s ss ih =>
    rw [internAll, List.foldl_cons, ← internAll, ih, internKeys_toFinset, List.toFinset_cons,
      Finset.insert_union, Finset.union_insert]

theorem room_append (strings ss ss' : List String) :
    Room strings (ss ++ ss') ↔ Room strings ss ∧ Room (internAll strings ss) ss' := by
  induction ss generalizing strings with
  | nil => simp only [List.nil_append, Room, internAll, List.foldl_nil, true_and]
  | cons s ss ih => simp only [List.cons_append, Room, ih, and_assoc, internAll, List.foldl_cons]

theorem room_of_length (strings ss : List String) (h : strings.length + ss.length ≤ u32Max) :
    Room strings ss := by
  induction ss generalizing strings with
  | nil => trivial
  | cons s ss ih =>
    rw [List.length_cons] at h
    have hle := internKeys_length_le strings s
    exact ⟨by omega, ih _ (by omega)⟩

/- Two requests in a row, for strings that belong together. -/
theorem add_pair_outcome {st : StringTable} {strings : List String} (h : Repr st strings)
    (s s' : String) {β : Type} {c : Prop} {R : β → Prop}
    {f : StringID × StringTable → StringID × StringTable → Except Panic β}
    (hf : ∀ r r', r'.2.Repr (internAll strings [s, s']) →
      (internAll strings [s, s'])[r.1.index]? = some s →
      (internAll strings [s, s'])[r'.1.index]? = some s' → Outcome c Panic.stringIds (f r r') R) :
    Outcome (Room strings [s, s'] ∧ c) Panic.stringIds
      (st.add s >>= fun r => r.2.add s' >>= fun r' => f r r') R := by
  refine ((add_outcome h s).bind fun r hr => (add_outcome hr.2 s').bind fun r' hr' =>
    hf r r' hr'.2 ?_ ?_).congr ?_
  · rw [hr.1]
    exact getElem?_mono (internKeys_mono _ s') (internKeys_getElem strings s)
  · rw [hr'.1]
    exact internKeys_getElem _ s'
  · simp only [Room, and_true, and_assoc]

/- A sequence whose strings, with those already present, are fewer than the limit
never meets a full table. -/
theorem room_of_card (strings ss : List String) (hn : strings.Nodup)
    (h : (strings.toFinset ∪ ss.toFinset).card < u32Max) : Room strings ss := by
  induction ss generalizing strings with
  | nil => trivial
  | cons s ss ih =>
    have hsub : strings.toFinset ⊆ strings.toFinset ∪ (s :: ss).toFinset := Finset.subset_union_left
    have hcard := Finset.card_le_card hsub
    rw [List.toFinset_card_of_nodup hn] at hcard
    refine ⟨by omega, ih _ (internKeys_nodup strings s hn) ?_⟩
    rwa [internKeys_toFinset, Finset.insert_union, ← Finset.union_insert, ← List.toFinset_cons]

/- Conversely, requests that were all served did not overfill the table. -/
theorem card_of_room (strings ss : List String) (hn : strings.Nodup) (hlen : strings.length ≤ u32Max)
    (h : Room strings ss) : (strings.toFinset ∪ ss.toFinset).card ≤ u32Max := by
  induction ss generalizing strings with
  | nil =>
    rw [List.toFinset_nil, Finset.union_empty, List.toFinset_card_of_nodup hn]
    exact hlen
  | cons s ss ih =>
    have hle := (internKeys_length_le strings s).trans h.1
    have hrest := ih _ (internKeys_nodup strings s hn) hle h.2
    rwa [internKeys_toFinset, Finset.insert_union, ← Finset.union_insert, ← List.toFinset_cons] at hrest

end StringTable

end Pyroscope.Encode
