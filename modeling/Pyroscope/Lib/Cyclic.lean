import Mathlib.Data.BitVec
import Mathlib.Data.Nat.ModEq

/-!
# Wrapping counters over a cyclic array

A counter of `w` bits runs over absolute positions `0, 1, 2, ...` from an arbitrary
start and wraps. Positions that lie within one array length of each other have
different slots, and within one word range different counter values.
-/

namespace Pyroscope.Lib.Cyclic
variable {w k : ℕ}

/-- The counter at absolute position `p`. -/
def counter (base : BitVec w) (p : ℕ) : BitVec w := base + BitVec.ofNat w p

/-- `index & (N - 1)` for `N = 2 ^ k`. -/
def slot (k : ℕ) (index : BitVec w) : ℕ := (index &&& BitVec.ofNat w (2 ^ k - 1)).toNat

theorem counter_zero (base : BitVec w) : counter base 0 = base := BitVec.add_zero base

theorem counter_add (base : BitVec w) (p n : ℕ) :
    counter base p + BitVec.ofNat w n = counter base (p + n) := by
  rw [counter, counter, BitVec.add_assoc, ← BitVec.ofNat_add]

theorem counter_sub (base : BitVec w) (p n : ℕ) (hn : n < 2 ^ w) :
    (counter base (p + n) - counter base p).toNat = n := by
  rw [← counter_add, BitVec.add_comm, BitVec.add_sub_cancel, BitVec.toNat_ofNat, Nat.mod_eq_of_lt hn]

theorem counter_toNat (base : BitVec w) (p : ℕ) :
    (counter base p).toNat = (base.toNat + p) % 2 ^ w := by
  rw [counter, BitVec.toNat_add, BitVec.toNat_ofNat, Nat.add_mod_mod]

theorem slot_eq (index : BitVec w) (hk : k ≤ w) : slot k index = index.toNat % 2 ^ k := by
  have hpos : 0 < 2 ^ k := Nat.two_pow_pos k
  have hle : 2 ^ k ≤ 2 ^ w := Nat.pow_le_pow_right (by omega) hk
  have hmask : (2 ^ k - 1) % 2 ^ w = 2 ^ k - 1 := Nat.mod_eq_of_lt (by omega)
  rw [slot, BitVec.toNat_and, BitVec.toNat_ofNat, hmask, Nat.and_two_pow_sub_one_eq_mod]

theorem slot_counter (base : BitVec w) (p : ℕ) (hk : k ≤ w) :
    slot k (counter base p) = (base.toNat + p) % 2 ^ k := by
  rw [slot_eq _ hk, counter_toNat, Nat.mod_mod_of_dvd _ (Nat.pow_dvd_pow 2 hk)]

theorem eq_of_mod_eq {a p q m : ℕ} (hpq : p ≤ q) (hm : q < p + m)
    (h : (a + p) % m = (a + q) % m) : p = q := by
  have hmod : p ≡ q [MOD m] := Nat.ModEq.add_left_cancel' a h
  have hdvd : m ∣ q - p := (Nat.modEq_iff_dvd' hpq).mp hmod
  have hzero : q - p = 0 := Nat.eq_zero_of_dvd_of_lt hdvd (by omega)
  omega

/- Two positions less than one array length apart do not share a slot. -/
theorem slot_inj (base : BitVec w) {p q : ℕ} (hk : k ≤ w) (hpq : p ≤ q) (hm : q < p + 2 ^ k)
    (h : slot k (counter base p) = slot k (counter base q)) : p = q := by
  rw [slot_counter base p hk, slot_counter base q hk] at h
  exact eq_of_mod_eq hpq hm h

theorem counter_inj (base : BitVec w) {p q : ℕ} (hpq : p ≤ q) (hm : q < p + 2 ^ w)
    (h : counter base p = counter base q) : p = q := by
  have ht := congrArg BitVec.toNat h
  rw [counter_toNat, counter_toNat] at ht
  exact eq_of_mod_eq hpq hm ht

/-! ### Consecutive cells -/

section Cells
variable {α : Type}

/-- The cells from position `p` on hold `xs`. -/
def Holds (k : ℕ) (base : BitVec w) (mem : ℕ → Option α) (p : ℕ) (xs : List α) : Prop :=
  ∀ j x, xs[j]? = some x → mem (slot k (counter base (p + j))) = some x

def write (mem : ℕ → Option α) (i : ℕ) (x : α) : ℕ → Option α :=
  fun j => if j = i then some x else mem j

theorem Holds.nil (base : BitVec w) (mem : ℕ → Option α) (p : ℕ) : Holds k base mem p [] := by
  intro j x hx
  cases hx

theorem Holds.cons {base : BitVec w} {mem : ℕ → Option α} {p : ℕ} {x : α} {xs : List α}
    (hx : mem (slot k (counter base p)) = some x) (h : Holds k base mem (p + 1) xs) :
    Holds k base mem p (x :: xs) := by
  intro j y hy
  cases j with
  | zero =>
    cases hy
    exact hx
  | succ j =>
    have hj : p + (j + 1) = p + 1 + j := by omega
    rw [hj]
    exact h j y hy

theorem Holds.head {base : BitVec w} {mem : ℕ → Option α} {p : ℕ} {x : α} {xs : List α}
    (h : Holds k base mem p (x :: xs)) : mem (slot k (counter base p)) = some x := h 0 x rfl

theorem Holds.append {base : BitVec w} {mem : ℕ → Option α} {p : ℕ} {xs ys : List α} :
    Holds k base mem p (xs ++ ys) ↔ Holds k base mem p xs ∧ Holds k base mem (p + xs.length) ys := by
  refine ⟨fun h => ⟨fun j x hx => ?_, fun j y hy => ?_⟩, fun h j z hz => ?_⟩
  · exact h j x (by rw [List.getElem?_append_left (List.getElem?_eq_some_iff.mp hx).1, hx])
  · have hj := h (xs.length + j) y (by
      rw [List.getElem?_append_right (Nat.le_add_right _ _), Nat.add_sub_cancel_left, hy])
    rwa [← Nat.add_assoc] at hj
  · by_cases hj : j < xs.length
    · rw [List.getElem?_append_left hj] at hz
      exact h.1 j z hz
    · rw [List.getElem?_append_right (by omega)] at hz
      have hy := h.2 (j - xs.length) z hz
      have hpos : p + xs.length + (j - xs.length) = p + j := by omega
      rwa [hpos] at hy

/- Writing outside of a run of cells, but within one array length, leaves it alone. -/
theorem Holds.write {base : BitVec w} {mem : ℕ → Option α} {p q : ℕ} {xs : List α} (hk : k ≤ w)
    (h : Holds k base mem p xs) (x : α) (hlo : p + xs.length ≤ q) (hhi : q < p + 2 ^ k) :
    Holds k base (Cyclic.write mem (slot k (counter base q)) x) p xs := by
  intro j y hy
  have hj : j < xs.length := (List.getElem?_eq_some_iff.mp hy).1
  have hne : slot k (counter base (p + j)) ≠ slot k (counter base q) := by
    intro he
    have hpq := slot_inj base hk (by omega) (by omega) he
    omega
  rw [Cyclic.write, if_neg hne]
  exact h j y hy

/- Writing the cell after a run extends it, and writing the cell before it too. -/
theorem Holds.write_next {base : BitVec w} {mem : ℕ → Option α} {p : ℕ} {xs : List α} (hk : k ≤ w)
    (h : Holds k base mem p xs) (x : α) (hlen : xs.length < 2 ^ k) :
    Holds k base (Cyclic.write mem (slot k (counter base (p + xs.length))) x) p (xs ++ [x]) := by
  rw [Holds.append]
  refine ⟨h.write hk x (le_refl _) (by omega), Holds.cons ?_ (Holds.nil _ _ _)⟩
  rw [Cyclic.write, if_pos rfl]

theorem Holds.write_before {base : BitVec w} {mem : ℕ → Option α} {p : ℕ} {xs : List α} (hk : k ≤ w)
    (h : Holds k base mem (p + 1) xs) (x : α) (hlen : xs.length < 2 ^ k) :
    Holds k base (Cyclic.write mem (slot k (counter base p)) x) p (x :: xs) := by
  refine Holds.cons (by rw [Cyclic.write, if_pos rfl]) fun j y hy => ?_
  have hj : j < xs.length := (List.getElem?_eq_some_iff.mp hy).1
  have hne : slot k (counter base (p + 1 + j)) ≠ slot k (counter base p) := by
    intro he
    have hpq := slot_inj base hk (p := p) (q := p + 1 + j) (by omega) (by omega) he.symm
    omega
  rw [Cyclic.write, if_neg hne]
  exact h j y hy

end Cells

end Pyroscope.Lib.Cyclic
