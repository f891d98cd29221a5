import Mathlib.Data.List.AList
import Mathlib.Algebra.Ring.Nat
import Mathlib.Algebra.GroupWithZero.Nat
import Mathlib.Algebra.BigOperators.Group.List.Basic
import Mathlib.Algebra.BigOperators.Group.List.Lemmas

/-!
# Hash maps with an unspecified iteration order

A hash map is a list of entries with pairwise distinct keys. Lookup and insertion
are those of `AList`; the order in which a program iterates over the map is not
part of its value and is supplied separately as an `IterOrder`.
-/

namespace Pyroscope.Lib

abbrev HashMap (κ ν : Type) := AList (fun _ : κ => ν)

/-- One iteration order: every element is visited exactly once. -/
structure IterOrder (α : Type) where
  visit : List α → List α
  perm : ∀ l, (visit l).Perm l

/-- The order in which the entries happen to be stored. -/
def IterOrder.stored (α : Type) : IterOrder α := ⟨id, fun l => List.Perm.refl l⟩

def IterOrder.reversed (α : Type) : IterOrder α := ⟨List.reverse, List.reverse_perm⟩

theorem IterOrder.visit_length {α : Type} (ord : IterOrder α) (l : List α) :
    (ord.visit l).length = l.length := (ord.perm l).length_eq

theorem IterOrder.mem_visit {α : Type} (ord : IterOrder α) (l : List α) (x : α) :
    x ∈ ord.visit l ↔ x ∈ l := (ord.perm l).mem_iff

namespace HashMap
variable {κ ν : Type}

def toList (m : HashMap κ ν) : List (κ × ν) := m.entries.map fun e => (e.1, e.2)

def len (m : HashMap κ ν) : ℕ := m.entries.length

def empty : HashMap κ ν := (∅ : AList fun _ : κ => ν)

@[simp] theorem toList_empty : (empty : HashMap κ ν).toList = [] := rfl

@[simp] theorem len_empty : (empty : HashMap κ ν).len = 0 := rfl

theorem toList_length (m : HashMap κ ν) : m.toList.length = m.len := by
  simp only [toList, len, List.length_map]

theorem keys_toList (m : HashMap κ ν) : m.toList.map Prod.fst = m.keys := by
  simp only [toList, List.map_map, AList.keys, List.keys]
  rfl

theorem nodup_fst (m : HashMap κ ν) : (m.toList.map Prod.fst).Nodup := by
  rw [keys_toList]
  exact m.keys_nodup

variable [DecidableEq κ]

def get (m : HashMap κ ν) (k : κ) : Option ν := AList.lookup k m

def insert (m : HashMap κ ν) (k : κ) (v : ν) : HashMap κ ν := AList.insert k v m

@[simp] theorem get_empty (k : κ) : (empty : HashMap κ ν).get k = none := AList.lookup_empty k

@[simp] theorem get_insert (m : HashMap κ ν) (k : κ) (v : ν) : (m.insert k v).get k = some v :=
  AList.lookup_insert m

theorem get_insert_ne (m : HashMap κ ν) {k k' : κ} (v : ν) (h : k ≠ k') :
    (m.insert k' v).get k = m.get k := AList.lookup_insert_ne h

def erase (m : HashMap κ ν) (k : κ) : HashMap κ ν := AList.erase k m

@[simp] theorem get_erase (m : HashMap κ ν) (k : κ) : (m.erase k).get k = none := AList.lookup_erase k m

theorem get_erase_ne (m : HashMap κ ν) {k k' : κ} (h : k ≠ k') : (m.erase k').get k = m.get k :=
  AList.lookup_erase_ne h

theorem mem_toList (m : HashMap κ ν) (k : κ) (v : ν) : (k, v) ∈ m.toList ↔ m.get k = some v := by
  rw [get, ← Option.mem_def, AList.mem_lookup_iff, toList, List.mem_map]
  refine ⟨fun hm => ?_, fun he => ⟨⟨k, v⟩, he, rfl⟩⟩
  obtain ⟨⟨k', v'⟩, he, heq⟩ := hm
  cases heq
  exact he

/- Lookups see a map only through its entries, in whatever order they are stored. -/
theorem get_perm (m : HashMap κ ν) (l : List (κ × ν)) (h : m.toList.Perm l) (k : κ) (v : ν) :
    m.get k = some v ↔ (k, v) ∈ l := by
  rw [← mem_toList]
  exact h.mem_iff

theorem toList_insert_new (m : HashMap κ ν) (k : κ) (v : ν) (h : m.get k = none) :
    (m.insert k v).toList = (k, v) :: m.toList := by
  have hn : k ∉ m := AList.lookup_eq_none.mp h
  rw [insert, AList.insert_of_notMem hn]
  rfl

/- Overwriting the value of a present key replaces one entry and keeps the others. -/
theorem toList_insert_present (m : HashMap κ ν) (k : κ) (v w : ν) (h : m.get k = some v) :
    ∃ rest, m.toList.Perm ((k, v) :: rest) ∧ (m.insert k w).toList.Perm ((k, w) :: rest) := by
  have hk : k ∈ m.entries.keys := by
    have hs : k ∈ m := AList.lookup_isSome.mp (Option.isSome_of_eq_some h)
    exact AList.mem_keys.mp hs
  obtain ⟨v', l₁, l₂, -, he, her⟩ := List.exists_of_kerase hk
  have hv : v' = v := by
    have hm : (⟨k, v'⟩ : Sigma fun _ : κ => ν) ∈ m.entries := by rw [he]; simp
    have hl : m.get k = some v' := AList.mem_lookup_iff.mpr hm
    rw [h] at hl
    exact (Option.some.inj hl).symm
  subst hv
  refine ⟨(l₁ ++ l₂).map fun e => (e.1, e.2), ?_, ?_⟩
  · have hp : m.entries.Perm (⟨k, v'⟩ :: (l₁ ++ l₂)) := by
      rw [he]
      exact List.perm_middle
    exact hp.map _
  · simp only [toList, insert, AList.entries_insert, her, List.map_cons]
    exact List.Perm.refl _

/-- `*map.entry(key).or_insert(0) += count`. -/
def addCount (m : HashMap κ ℕ) (k : κ) (count : ℕ) : HashMap κ ℕ :=
  m.insert k ((m.get k).getD 0 + count)

def total (m : HashMap κ ℕ) : ℕ := (m.toList.map Prod.snd).sum

omit [DecidableEq κ] in
@[simp] theorem total_empty : (empty : HashMap κ ℕ).total = 0 := rfl

theorem toList_addCount_new (m : HashMap κ ℕ) (k : κ) (count : ℕ) (h : m.get k = none) :
    (m.addCount k count).toList = (k, count) :: m.toList := by
  rw [addCount, h, Option.getD_none, Nat.zero_add, toList_insert_new m k count h]

@[simp] theorem total_addCount (m : HashMap κ ℕ) (k : κ) (count : ℕ) :
    (m.addCount k count).total = m.total + count := by
  cases h : m.get k with
  | none =>
    simp only [total, toList_addCount_new m k count h, List.map_cons, List.sum_cons]
    omega
  | some c =>
    obtain ⟨rest, hm, hi⟩ := toList_insert_present m k c (c + count) h
    have hi' : (m.addCount k count).toList.Perm ((k, c + count) :: rest) := by
      simpa only [addCount, h, Option.getD_some] using hi
    have h1 := (hm.map Prod.snd).sum_eq
    have h2 := (hi'.map Prod.snd).sum_eq
    simp only [List.map_cons, List.sum_cons] at h1 h2
    simp only [total]
    omega

/-- The count of a key, zero when it has no entry. -/
def count (m : HashMap κ ℕ) (k : κ) : ℕ := (m.get k).getD 0

@[simp] theorem count_empty (k : κ) : (empty : HashMap κ ℕ).count k = 0 := by
  rw [count, get_empty]
  rfl

theorem count_addCount (m : HashMap κ ℕ) (k k' : κ) (n : ℕ) :
    (m.addCount k n).count k' = m.count k' + if k = k' then n else 0 := by
  by_cases h : k = k'
  · subst h
    simp [count, addCount]
  · rw [count, addCount, get_insert_ne m _ (Ne.symm h), if_neg h]
    rfl

theorem count_of_toList_nil {m : HashMap κ ℕ} (h : m.toList = []) (k : κ) : m.count k = 0 := by
  cases hg : m.get k with
  | none => simp [count, hg]
  | some n =>
    have hm := (mem_toList m k n).mpr hg
    rw [h] at hm
    cases hm

end HashMap

end Pyroscope.Lib
