import Pyroscope.Lib.HashMap
import Mathlib.Data.Finset.Dedup
import Mathlib.Data.Finset.Insert
import Mathlib.Data.Set.Function
import Mathlib.Order.Interval.Set.Defs

/-!
# Dense tables

A dense table gives every new key the next free position and keeps positions for
ever. Its mathematical content is the list of its distinct keys in order of first
occurrence; `internKeys` is the abstract operation and `Dense` relates a hash map
from keys to identifiers to that list.
-/

namespace Pyroscope.Lib
variable {κ ν : Type}

section Keys
variable [DecidableEq κ]

/-- Distinct keys in order of first occurrence, after asking for `k`. -/
def internKeys (keys : List κ) (k : κ) : List κ := if k ∈ keys then keys else keys ++ [k]

theorem internKeys_mono (keys : List κ) (k : κ) : keys <+: internKeys keys k := by
  unfold internKeys
  split
  · exact List.prefix_refl keys
  · exact List.prefix_append keys [k]

theorem mem_internKeys (keys : List κ) (k x : κ) : x ∈ internKeys keys k ↔ x ∈ keys ∨ x = k := by
  unfold internKeys
  split
  · rename_i h
    exact ⟨Or.inl, fun hx => hx.elim (fun hm => hm) (fun he => he ▸ h)⟩
  · simp only [List.mem_append, List.mem_singleton]

theorem internKeys_nodup (keys : List κ) (k : κ) (h : keys.Nodup) : (internKeys keys k).Nodup := by
  unfold internKeys
  split
  · exact h
  · rename_i hk
    exact List.nodup_append.mpr ⟨h, List.nodup_singleton k, by
      intro a ha b hb
      rw [List.mem_singleton] at hb
      subst hb
      exact fun he => hk (he ▸ ha)⟩

theorem internKeys_toFinset (keys : List κ) (k : κ) :
    (internKeys keys k).toFinset = insert k keys.toFinset := by
  ext x
  simp only [List.mem_toFinset, mem_internKeys, Finset.mem_insert]
  exact or_comm

theorem internKeys_length_le (keys : List κ) (k : κ) :
    (internKeys keys k).length ≤ keys.length + 1 := by
  unfold internKeys
  split
  · omega
  · rw [List.length_append, List.length_singleton]

/- The position handed out for `k` holds `k`, now and after any later request. -/
theorem internKeys_getElem (keys : List κ) (k : κ) :
    (internKeys keys k)[(internKeys keys k).idxOf k]? = some k := by
  have hm : k ∈ internKeys keys k := (mem_internKeys keys k k).mpr (Or.inr rfl)
  rw [List.getElem?_eq_getElem (List.idxOf_lt_length_of_mem hm), List.getElem_idxOf]

end Keys

theorem getElem?_mono {l l' : List κ} (h : l <+: l') {i : ℕ} {x : κ} (hx : l[i]? = some x) :
    l'[i]? = some x := by
  obtain ⟨t, rfl⟩ := h
  have hi : i < l.length := (List.getElem?_eq_some_iff.mp hx).1
  rw [List.getElem?_append_left hi]
  exact hx

theorem nodup_getElem?_inj {l : List κ} (h : l.Nodup) {i j : ℕ} {x : κ}
    (hi : l[i]? = some x) (hj : l[j]? = some x) : i = j := by
  obtain ⟨hi, hx⟩ := List.getElem?_eq_some_iff.mp hi
  obtain ⟨hj, hy⟩ := List.getElem?_eq_some_iff.mp hj
  exact (List.Nodup.getElem_inj_iff h).mp (hx.trans hy.symm)

/-- The map `m` sends the key at position `i` of `keys` to the identifier `ident i`,
and has no other entry. -/
structure Dense (ident : ℕ → ν) (m : HashMap κ ν) (keys : List κ) : Prop where
  entries : m.toList.Perm (keys.zipIdx.map fun p => (p.1, ident p.2))

namespace Dense
variable {ident : ℕ → ν} {m : HashMap κ ν} {keys : List κ}

theorem empty (ident : ℕ → ν) : Dense ident (HashMap.empty : HashMap κ ν) [] := ⟨List.Perm.refl _⟩

theorem len_eq (h : Dense ident m keys) : m.len = keys.length := by
  rw [← HashMap.toList_length, h.entries.length_eq, List.length_map, List.length_zipIdx]

theorem nodup (h : Dense ident m keys) : keys.Nodup := by
  have hp := h.entries.map Prod.fst
  rw [List.map_map] at hp
  have he : (Prod.fst ∘ fun p : κ × ℕ => (p.1, ident p.2)) = Prod.fst := rfl
  rw [he, List.zipIdx_map_fst] at hp
  exact hp.nodup_iff.mp m.nodup_fst

variable [DecidableEq κ]

theorem get_iff (h : Dense ident m keys) (k : κ) (v : ν) :
    m.get k = some v ↔ ∃ i, keys[i]? = some k ∧ v = ident i := by
  rw [HashMap.get_perm m _ h.entries, List.mem_map]
  refine ⟨fun hk => ?_, fun hk => ?_⟩
  · obtain ⟨⟨k', i⟩, hm, he⟩ := hk
    cases he
    exact ⟨i, List.mem_zipIdx_iff_getElem?.mp hm, rfl⟩
  · obtain ⟨i, hi, rfl⟩ := hk
    exact ⟨(k, i), List.mem_zipIdx_iff_getElem?.mpr hi, rfl⟩

theorem get_none_iff (h : Dense ident m keys) (k : κ) : m.get k = none ↔ k ∉ keys := by
  refine ⟨fun hn hk => ?_, fun hk => ?_⟩
  · obtain ⟨i, hi⟩ := List.getElem?_of_mem hk
    rw [(h.get_iff k (ident i)).mpr ⟨i, hi, rfl⟩] at hn
    cases hn
  · cases hl : m.get k with
    | none => rfl
    | some v =>
      obtain ⟨i, hi, -⟩ := (h.get_iff k v).mp hl
      exact (hk (List.mem_of_getElem? hi)).elim

theorem insert_new (h : Dense ident m keys) (k : κ) (hk : m.get k = none) :
    Dense ident (m.insert k (ident keys.length)) (keys ++ [k]) := by
  refine ⟨?_⟩
  rw [HashMap.toList_insert_new m k _ hk, List.zipIdx_append, List.map_append]
  simp only [List.zipIdx_singleton, List.map_cons, List.map_nil, Nat.zero_add]
  exact (h.entries.cons _).trans (List.perm_append_singleton _ _).symm

/- The concrete request: an old key keeps its identifier, a new one gets the next. -/
theorem intern (h : Dense ident m keys) (k : κ) :
    (∃ v, m.get k = some v ∧ internKeys keys k = keys ∧
      v = ident ((internKeys keys k).idxOf k)) ∨
    (m.get k = none ∧ internKeys keys k = keys ++ [k] ∧
      Dense ident (m.insert k (ident keys.length)) (internKeys keys k) ∧
      keys.length = (internKeys keys k).idxOf k) := by
  cases hl : m.get k with
  | some v =>
    left
    obtain ⟨i, hi, rfl⟩ := (h.get_iff k v).mp hl
    have hk : internKeys keys k = keys := by
      rw [internKeys, if_pos (List.mem_of_getElem? hi)]
    refine ⟨ident i, rfl, hk, ?_⟩
    have hi' := internKeys_getElem keys k
    rw [hk] at hi' ⊢
    rw [nodup_getElem?_inj h.nodup hi hi']
  | none =>
    right
    have hk : k ∉ keys := (h.get_none_iff k).mp hl
    have he : internKeys keys k = keys ++ [k] := by rw [internKeys, if_neg hk]
    refine ⟨rfl, he, by rw [he]; exact h.insert_new k hl, ?_⟩
    rw [he, List.idxOf_append_of_notMem hk, List.idxOf_cons_self, Nat.add_zero]

/- A position for every key and a key for every position. -/
theorem bijOn {m : HashMap κ ℕ} (h : Dense (fun i => i + 1) m keys) :
    Set.BijOn (fun k => (m.get k).getD 0) {k | (m.get k).isSome} (Set.Icc 1 keys.length) := by
  refine ⟨fun k hk => ?_, fun k hk k' hk' he => ?_, fun id hid => ?_⟩
  · obtain ⟨id, hid⟩ := Option.isSome_iff_exists.mp hk
    obtain ⟨i, hi, rfl⟩ := (h.get_iff k id).mp hid
    have hlt := (List.getElem?_eq_some_iff.mp hi).1
    simp only [hid, Option.getD_some, Set.mem_Icc]
    omega
  · obtain ⟨id, hid⟩ := Option.isSome_iff_exists.mp hk
    obtain ⟨id', hid'⟩ := Option.isSome_iff_exists.mp hk'
    simp only [hid, hid', Option.getD_some] at he
    obtain ⟨i, hi, rfl⟩ := (h.get_iff k id).mp hid
    obtain ⟨i', hi', rfl⟩ := (h.get_iff k' id').mp hid'
    rw [Nat.add_right_cancel he] at hi
    exact Option.some.inj (hi.symm.trans hi')
  · obtain ⟨hpos, hle⟩ := hid
    obtain ⟨i, rfl⟩ := Nat.exists_eq_add_of_lt hpos
    have hlt : i < keys.length := by omega
    have hget : m.get keys[i] = some (i + 1) :=
      (h.get_iff _ _).mpr ⟨i, List.getElem?_eq_getElem hlt, rfl⟩
    refine ⟨keys[i], Option.isSome_of_eq_some hget, ?_⟩
    simp only [hget, Option.getD_some]
    omega

end Dense

end Pyroscope.Lib
