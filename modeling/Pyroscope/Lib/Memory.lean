import Mathlib.Data.BitVec

/-!
# Partial byte memories

A memory image maps the addresses that can be read to their bytes. A field lies at an
offset from a base address; it can be read when its end does not leave the address
space and all of its bytes are there.
-/

namespace Pyroscope.Lib
variable {w : ℕ}

abbrev Memory (w : ℕ) : Type := BitVec w → Option (BitVec 8)

def checkedAdd (x : BitVec w) (n : ℕ) : Option (BitVec w) :=
  if x.toNat + n < 2 ^ w then some (x + BitVec.ofNat w n) else none

def littleEndian : List (BitVec 8) → ℕ
  | [] => 0
  | b :: bs => b.toNat + 256 * littleEndian bs

namespace Memory

def bytes (mem : Memory w) (addr : BitVec w) : ℕ → Option (List (BitVec 8))
  | 0 => some []
  | n + 1 =>
    match mem addr, bytes mem (addr + 1) n with
    | some b, some bs => some (b :: bs)
    | _, _ => none

/-- The bytes from `addr` on are `bs`. -/
def Stores (mem : Memory w) (addr : BitVec w) : List (BitVec 8) → Prop
  | [] => True
  | b :: bs => mem addr = some b ∧ Stores mem (addr + 1) bs

theorem bytes_eq_some {mem : Memory w} {addr : BitVec w} {n : ℕ} {bs : List (BitVec 8)} :
    mem.bytes addr n = some bs ↔ bs.length = n ∧ mem.Stores addr bs := by
  induction n generalizing addr bs with
  | zero =>
    rw [bytes, Option.some.injEq, eq_comm, List.length_eq_zero_iff]
    exact ⟨fun h => ⟨h, by rw [h]; trivial⟩, And.left⟩
  | succ n ih =>
    cases bs with
    | nil =>
      refine ⟨fun h => ?_, fun h => nomatch h.1⟩
      rw [bytes] at h
      split at h <;> cases h
    | cons b bs =>
      rw [bytes, List.length_cons, Nat.add_right_cancel_iff, Stores, and_left_comm, ← ih]
      cases hb : mem addr with
      | none => simp
      | some b' =>
        cases hbs : mem.bytes (addr + 1) n with
        | none => simp
        | some bs' => simp

/-- Each of the `n` bytes from `addr` on is there. -/
def Readable (mem : Memory w) (addr : BitVec w) (n : ℕ) : Prop :=
  ∀ i < n, (mem (addr + BitVec.ofNat w i)).isSome

theorem bytes_eq_none {mem : Memory w} {addr : BitVec w} {n : ℕ} :
    mem.bytes addr n = none ↔ ¬mem.Readable addr n := by
  induction n generalizing addr with
  | zero => exact ⟨nofun, fun h => (h fun i hi => (Nat.not_lt_zero i hi).elim).elim⟩
  | succ n ih =>
    have hshift : ∀ i, addr + BitVec.ofNat w (i + 1) = addr + 1 + BitVec.ofNat w i := by
      intro i
      rw [BitVec.add_assoc, Nat.add_comm, BitVec.ofNat_add]
      rfl
    have hsplit : mem.Readable addr (n + 1) ↔ (mem addr).isSome ∧ mem.Readable (addr + 1) n := by
      refine ⟨fun h => ⟨?_, fun i hi => ?_⟩, fun h i hi => ?_⟩
      · have h0 := h 0 (Nat.succ_pos n)
        rwa [BitVec.add_zero] at h0
      · have hs := h (i + 1) (Nat.succ_lt_succ hi)
        rwa [hshift] at hs
      · cases i with
        | zero =>
          rw [BitVec.add_zero]
          exact h.1
        | succ i =>
          rw [hshift]
          exact h.2 i (Nat.lt_of_succ_lt_succ hi)
    rw [hsplit, not_and_or, ← ih, bytes]
    cases hb : mem addr with
    | none => simp
    | some b =>
      cases hbs : mem.bytes (addr + 1) n with
      | none => simp
      | some bs => simp

/-- The `n`-byte field at `offset` from `base` can be read and holds `bs`. -/
def Field (mem : Memory w) (base : BitVec w) (offset n : ℕ) (bs : List (BitVec 8)) : Prop :=
  base.toNat + offset + n < 2 ^ w ∧ bs.length = n ∧ mem.Stores (base + BitVec.ofNat w offset) bs

theorem Field.unique {mem : Memory w} {base : BitVec w} {offset n : ℕ} {bs bs' : List (BitVec 8)}
    (h : mem.Field base offset n bs) (h' : mem.Field base offset n bs') : bs = bs' := by
  have he := bytes_eq_some.mpr h.2
  rw [bytes_eq_some.mpr h'.2] at he
  exact (Option.some.inj he).symm

end Memory

end Pyroscope.Lib
