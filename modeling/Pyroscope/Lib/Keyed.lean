import Mathlib.Data.List.Nodup

/-!
# Lists of entries with keys

Entries are pushed unless their key is there already, so the first entry of a key wins
and the keys stay distinct.
-/

namespace Pyroscope.Lib.Keyed
variable {α κ : Type} [DecidableEq κ] (key : α → κ)

def pushNew (l : List α) (a : α) : List α := if l.any fun b => key b == key a then l else l ++ [a]

def find (l : List α) (k : κ) : Option α := l.find? fun a => key a == k

theorem find_append (l l' : List α) (k : κ) : find key (l ++ l') k = (find key l k).or (find key l' k) :=
  List.find?_append

theorem find_cons (a : α) (l : List α) (k : κ) :
    find key (a :: l) k = if key a = k then some a else find key l k := by
  by_cases h : key a = k <;> simp [find, h]

theorem find_eq_none {l : List α} {k : κ} : find key l k = none ↔ k ∉ l.map key := by
  simp [find]

theorem find_isSome {l : List α} {k : κ} (h : k ∈ l.map key) : ∃ a, find key l k = some a := by
  cases hf : find key l k with
  | none => exact absurd h ((find_eq_none key).mp hf)
  | some a => exact ⟨a, rfl⟩

theorem find_pushNew (l : List α) (a : α) (k : κ) :
    find key (pushNew key l a) k = (find key l k).or (if key a = k then some a else none) := by
  have hsingle : find key [a] k = if key a = k then some a else none := find_cons key a [] k
  unfold pushNew
  split
  · next h =>
    split
    · next hk =>
      obtain ⟨c, hc, he⟩ := List.any_eq_true.mp h
      have hmem : k ∈ l.map key := by
        rw [← hk, ← eq_of_beq he]
        exact List.mem_map_of_mem hc
      obtain ⟨b, hb⟩ := find_isSome key hmem
      rw [hb, Option.some_or]
    · rw [Option.or_none]
  · rw [find_append, hsingle]

/- The entries that are there win over those that are pushed, in both cases the first. -/
theorem find_pushAll (as l : List α) (k : κ) :
    find key (as.foldl (pushNew key) l) k = (find key l k).or (find key as k) := by
  induction as generalizing l with
  | nil =>
    rw [List.foldl_nil]
    exact Option.or_none.symm
  | cons a as ih =>
    rw [List.foldl_cons, ih, find_pushNew, find_cons, Option.or_assoc]
    split
    · rw [Option.some_or]
    · rw [Option.none_or]

theorem nodup_pushNew {l : List α} (h : (l.map key).Nodup) (a : α) : ((pushNew key l a).map key).Nodup := by
  unfold pushNew
  split
  · exact h
  · next hn =>
    have hnot : key a ∉ l.map key := by simpa using hn
    rw [List.map_append, List.nodup_append']
    refine ⟨h, List.nodup_singleton _, ?_⟩
    simpa using hnot

theorem nodup_pushAll (as : List α) {l : List α} (h : (l.map key).Nodup) :
    ((as.foldl (pushNew key) l).map key).Nodup := by
  induction as generalizing l with
  | nil => exact h
  | cons a as ih => exact ih (nodup_pushNew key h a)

theorem head_pushAll (as : List α) (a : α) (l : List α) : (as.foldl (pushNew key) (a :: l)).head? = some a := by
  induction as generalizing l with
  | nil => rfl
  | cons b as ih =>
    rw [List.foldl_cons, pushNew]
    split
    · exact ih l
    · exact ih (l ++ [b])

/- Where the keys are distinct, an entry is found under its key. -/
theorem mem_iff_find {l : List α} (h : (l.map key).Nodup) (a : α) : a ∈ l ↔ find key l (key a) = some a := by
  constructor
  · intro hmem
    obtain ⟨b, hb⟩ := find_isSome key (List.mem_map_of_mem hmem)
    have hkey : key b = key a := by simpa using List.find?_some hb
    rw [hb, List.inj_on_of_nodup_map h (List.mem_of_find?_eq_some hb) hmem hkey]
  · exact List.mem_of_find?_eq_some

end Pyroscope.Lib.Keyed
