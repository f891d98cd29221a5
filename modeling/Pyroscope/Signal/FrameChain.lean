import Pyroscope.Signal.Unwind
import Mathlib.Tactic.IntervalCases

/-!
# The frame chain and the walk

The chain is described by the fields that can be read and what they hold; the walk
returns the frames of the whole chain, or the first failure on it.
-/

namespace Pyroscope.Signal.Unwind
open Pyroscope.Lib
open Pyroscope.Signal (Frame Metrics UnwindError maxFrames)
open Pyroscope.Ring (Usize)

variable (mem : Memory 64)

/-! ### Fields -/

/-- The checks on a field, in their order. -/
inductive FieldFails (base : Usize) (offset n : ℕ) : UnwindError → Prop where
  | overflow (h : 2 ^ 64 ≤ base.toNat + offset + n) : FieldFails base offset n .invalid
  | unreadable (h : base.toNat + offset + n < 2 ^ 64)
      (hr : ¬mem.Readable (base + BitVec.ofNat 64 offset) n) : FieldFails base offset n .read

def Word (base : Usize) (offset : ℕ) (word : Usize) : Prop :=
  ∃ bs, mem.Field base offset 8 bs ∧ word = BitVec.ofNat 64 (littleEndian bs)

/-- `f_lasti` with its sign extended, or a pointer. -/
def InstrField (l : Layout) (frame instr : Usize) : Prop :=
  if l.instrSigned then ∃ bs, mem.Field frame l.instr 4 bs ∧
    instr = (BitVec.ofNat 32 (littleEndian bs)).signExtend 64
  else Word mem frame l.instr instr

def Layout.instrWidth (l : Layout) : ℕ := if l.instrSigned then 4 else 8

/-! ### One frame -/

def OwnedBy (l : Layout) (frame : Usize) (owner : ℕ) : Prop :=
  ∃ offset b, l.owner = some offset ∧ mem.Field frame offset 1 [b] ∧ b.toNat = owner

def Skipped (l : Layout) (frame : Usize) : Prop := ∃ owner ∈ l.skipOwners, OwnedBy mem l frame owner

/-- Frames without an owner field are Python frames. -/
def Kept (l : Layout) (frame : Usize) : Prop :=
  l.owner = none ∨ ∃ owner, owner ∉ l.skipOwners ∧ OwnedBy mem l frame owner

inductive Entry (l : Layout) (codeType frame previous : Usize) : Option Frame → Prop where
  | skipped (hp : Word mem frame l.previous previous) (hs : Skipped mem l frame) :
    Entry l codeType frame previous none
  | python {executable instr} (hp : Word mem frame l.previous previous) (hk : Kept mem l frame)
      (hx : Word mem frame l.executable executable) (hi : InstrField mem l frame instr)
      (hne : executable &&& l.executableMask ≠ 0)
      (ht : Word mem (executable &&& l.executableMask) l.obType codeType) :
    Entry l codeType frame previous (some ⟨executable &&& l.executableMask, instr⟩)

/-- The checks on a frame, in the order of the walk. -/
inductive EntryFails (l : Layout) (codeType frame : Usize) : UnwindError → Prop where
  | previous {e} (h : FieldFails mem frame l.previous 8 e) : EntryFails l codeType frame e
  | owner {previous offset e} (hp : Word mem frame l.previous previous) (ho : l.owner = some offset)
      (h : FieldFails mem frame offset 1 e) : EntryFails l codeType frame e
  | executable {previous e} (hp : Word mem frame l.previous previous) (hk : Kept mem l frame)
      (h : FieldFails mem frame l.executable 8 e) : EntryFails l codeType frame e
  | instr {previous executable e} (hp : Word mem frame l.previous previous) (hk : Kept mem l frame)
      (hx : Word mem frame l.executable executable)
      (h : FieldFails mem frame l.instr l.instrWidth e) : EntryFails l codeType frame e
  | null {previous executable instr} (hp : Word mem frame l.previous previous)
      (hk : Kept mem l frame) (hx : Word mem frame l.executable executable)
      (hi : InstrField mem l frame instr) (h : executable &&& l.executableMask = 0) :
    EntryFails l codeType frame .invalidCodeType
  | obType {previous executable instr e} (hp : Word mem frame l.previous previous)
      (hk : Kept mem l frame) (hx : Word mem frame l.executable executable)
      (hi : InstrField mem l frame instr) (hne : executable &&& l.executableMask ≠ 0)
      (h : FieldFails mem (executable &&& l.executableMask) l.obType 8 e) :
    EntryFails l codeType frame e
  | notCode {previous executable instr obType} (hp : Word mem frame l.previous previous)
      (hk : Kept mem l frame) (hx : Word mem frame l.executable executable)
      (hi : InstrField mem l frame instr) (hne : executable &&& l.executableMask ≠ 0)
      (ht : Word mem (executable &&& l.executableMask) l.obType obType) (h : obType ≠ codeType) :
    EntryFails l codeType frame .invalidCodeType

/-! ### The chain -/

inductive Chain (l : Layout) (codeType : Usize) : Usize → List (Option Frame) → Prop where
  | null : Chain l codeType 0 []
  | link {frame previous entry rest} (hne : frame ≠ 0)
      (h : Entry mem l codeType frame previous entry) (hr : Chain l codeType previous rest) :
    Chain l codeType frame (entry :: rest)

/-- `n` links lead from the one frame to the other. -/
inductive Path (l : Layout) (codeType : Usize) : ℕ → Usize → Usize → Prop where
  | here {frame} : Path l codeType 0 frame frame
  | link {n frame previous entry frame'} (hne : frame ≠ 0)
      (h : Entry mem l codeType frame previous entry) (hr : Path l codeType n previous frame') :
    Path l codeType (n + 1) frame frame'

def Current (l : Layout) (tstate frame : Usize) : Prop :=
  match l.cframeFrame with
  | some offset => ∃ cframe, Word mem tstate l.threadFrame cframe ∧ Word mem cframe offset frame
  | none => Word mem tstate l.threadFrame frame

def CurrentFails (l : Layout) (tstate : Usize) (e : UnwindError) : Prop :=
  FieldFails mem tstate l.threadFrame 8 e ∨ ∃ offset cframe, l.cframeFrame = some offset ∧
    Word mem tstate l.threadFrame cframe ∧ FieldFails mem cframe offset 8 e

/-- The first failure of a walk that may still visit `left` frames and push `room`. -/
inductive WalkFails (l : Layout) (codeType : Usize) : ℕ → Usize → ℕ → UnwindError → Prop where
  | tooLong {frame room} (hne : frame ≠ 0) : WalkFails l codeType 0 frame room .truncated
  | entry {left frame room e} (hne : frame ≠ 0) (h : EntryFails mem l codeType frame e) :
    WalkFails l codeType (left + 1) frame room e
  | noRoom {left frame previous f} (hne : frame ≠ 0)
      (h : Entry mem l codeType frame previous (some f)) :
    WalkFails l codeType (left + 1) frame 0 .truncated
  | skipped {left frame previous room e} (hne : frame ≠ 0)
      (h : Entry mem l codeType frame previous none)
      (hr : WalkFails l codeType left previous room e) : WalkFails l codeType (left + 1) frame room e
  | pushed {left frame previous f room e} (hne : frame ≠ 0)
      (h : Entry mem l codeType frame previous (some f))
      (hr : WalkFails l codeType left previous room e) :
    WalkFails l codeType (left + 1) frame (room + 1) e

def stack (entries : List (Option Frame)) : List Frame := entries.filterMap id

def Stack (l : Layout) (codeType tstate : Usize) (capacity : ℕ) (s : List Frame) : Prop :=
  tstate ≠ 0 ∧ ∃ frame entries, Current mem l tstate frame ∧ Chain mem l codeType frame entries ∧
    entries.length ≤ maxFrames ∧ (stack entries).length ≤ capacity ∧ s = stack entries

inductive UnwindFails (l : Layout) (codeType tstate : Usize) (capacity : ℕ) : UnwindError → Prop where
  | noThreadState (h : tstate = 0) : UnwindFails l codeType tstate capacity .noThreadState
  | current {e} (hne : tstate ≠ 0) (h : CurrentFails mem l tstate e) :
    UnwindFails l codeType tstate capacity e
  | walk {frame e} (hne : tstate ≠ 0) (hc : Current mem l tstate frame)
      (h : WalkFails mem l codeType maxFrames frame capacity e) :
    UnwindFails l codeType tstate capacity e

/-! ### Reads against fields -/

section Reads
variable {mem} {base : Usize} {offset n : ℕ}

theorem checkedAdd_some {x : Usize} {n : ℕ} (h : x.toNat + n < 2 ^ 64) :
    checkedAdd x n = some (x + BitVec.ofNat 64 n) := if_pos h

theorem checkedAdd_none {x : Usize} {n : ℕ} (h : 2 ^ 64 ≤ x.toNat + n) : checkedAdd x n = none :=
  if_neg (Nat.not_lt.mpr h)

theorem toNat_field (h : base.toNat + offset < 2 ^ 64) :
    (base + BitVec.ofNat 64 offset).toNat = base.toNat + offset := by
  rw [BitVec.toNat_add, BitVec.toNat_ofNat, Nat.add_mod_mod, Nat.mod_eq_of_lt h]

theorem readBytes_within (h : base.toNat + offset + n < 2 ^ 64) :
    readBytes mem base offset n =
      (mem.bytes (base + BitVec.ofNat 64 offset) n).elim (.error .read) Except.ok := by
  have haddr := toNat_field (show base.toNat + offset < 2 ^ 64 by omega)
  rw [readBytes, checkedAdd_some (by omega)]
  dsimp only
  rw [checkedAdd_some (by omega)]
  cases mem.bytes (base + BitVec.ofNat 64 offset) n <;> rfl

theorem readBytes_ok {bs : List (BitVec 8)} (h : mem.Field base offset n bs) :
    readBytes mem base offset n = .ok bs := by
  obtain ⟨hbound, hbytes⟩ := h
  rw [readBytes_within hbound, Memory.bytes_eq_some.mpr hbytes]
  rfl

theorem readBytes_error {e : UnwindError} (h : FieldFails mem base offset n e) :
    readBytes mem base offset n = .error e := by
  cases h with
  | overflow h =>
    by_cases hbase : base.toNat + offset < 2 ^ 64
    · have haddr := toNat_field hbase
      rw [readBytes, checkedAdd_some hbase]
      dsimp only
      rw [checkedAdd_none (by omega)]
    · rw [readBytes, checkedAdd_none (by omega)]
  | unreadable h hr =>
    rw [readBytes_within h, Memory.bytes_eq_none.mpr hr]
    rfl

/- One of the two always applies. -/
theorem field_or_fails (mem : Memory 64) (base : Usize) (offset n : ℕ) :
    (∃ bs, mem.Field base offset n bs) ∨ ∃ e, FieldFails mem base offset n e := by
  by_cases hbound : base.toNat + offset + n < 2 ^ 64
  · cases hbytes : mem.bytes (base + BitVec.ofNat 64 offset) n with
    | some bs => exact Or.inl ⟨bs, hbound, Memory.bytes_eq_some.mp hbytes⟩
    | none => exact Or.inr ⟨.read, .unreadable hbound (Memory.bytes_eq_none.mp hbytes)⟩
  · exact Or.inr ⟨.invalid, .overflow (Nat.not_lt.mp hbound)⟩

theorem readUsize_ok {word : Usize} (h : Word mem base offset word) :
    readUsize mem base offset = .ok word := by
  obtain ⟨bs, hf, rfl⟩ := h
  rw [readUsize, readBytes_ok hf]
  rfl

theorem readUsize_error {e : UnwindError} (h : FieldFails mem base offset 8 e) :
    readUsize mem base offset = .error e := by
  rw [readUsize, readBytes_error h]
  rfl

theorem word_or_fails (mem : Memory 64) (base : Usize) (offset : ℕ) :
    (∃ word, Word mem base offset word) ∨ ∃ e, FieldFails mem base offset 8 e := by
  rcases field_or_fails mem base offset 8 with ⟨bs, h⟩ | h
  · exact Or.inl ⟨_, bs, h, rfl⟩
  · exact Or.inr h

variable {l : Layout} {frame : Usize}

theorem readInstr_ok {instr : Usize} (h : InstrField mem l frame instr) :
    readInstr mem l frame = .ok instr := by
  unfold InstrField at h
  unfold readInstr
  split
  · rename_i hs
    rw [if_pos hs] at h
    obtain ⟨bs, hf, rfl⟩ := h
    rw [readBytes_ok hf]
    rfl
  · rename_i hs
    rw [if_neg hs] at h
    exact readUsize_ok h

theorem readInstr_error {e : UnwindError} (h : FieldFails mem frame l.instr l.instrWidth e) :
    readInstr mem l frame = .error e := by
  unfold Layout.instrWidth at h
  unfold readInstr
  split
  · rename_i hs
    rw [if_pos hs] at h
    rw [readBytes_error h]
    rfl
  · rename_i hs
    rw [if_neg hs] at h
    exact readUsize_error h

theorem instr_or_fails (mem : Memory 64) (l : Layout) (frame : Usize) :
    (∃ instr, InstrField mem l frame instr) ∨
      ∃ e, FieldFails mem frame l.instr l.instrWidth e := by
  unfold InstrField Layout.instrWidth
  split
  · rcases field_or_fails mem frame l.instr 4 with ⟨bs, h⟩ | h
    · exact Or.inl ⟨_, bs, h, rfl⟩
    · exact Or.inr h
  · exact word_or_fails mem frame l.instr

/-! ### Owners -/

/-- An owner byte is one of CPython's. -/
def SmallOwner (mem : Memory 64) (l : Layout) (frame : Usize) : Prop :=
  ∀ owner, OwnedBy mem l frame owner → owner < 8

/-- For such owners the mask is the list. -/
def Layout.MaskExact (l : Layout) : Prop := ∀ owner, owner < 8 →
  (l.skipMask &&& 1 <<< (owner % 8) != 0) = decide (owner ∈ l.skipOwners)

theorem PyVersion.maskExact (v : PyVersion) : v.layout.MaskExact := by
  intro owner h
  cases v <;> interval_cases owner <;> decide

theorem skipped_of_owner (hmask : l.MaskExact) (hsmall : SmallOwner mem l frame) {owner : ℕ}
    (h : OwnedBy mem l frame owner) :
    skipped mem l frame = .ok (decide (owner ∈ l.skipOwners)) := by
  have hlt := hsmall owner h
  obtain ⟨offset, b, ho, hf, rfl⟩ := h
  have hbyte : BitVec.ofNat 8 (littleEndian [b]) = b := by
    rw [littleEndian, littleEndian, Nat.mul_zero, Nat.add_zero, BitVec.ofNat_toNat,
      BitVec.setWidth_eq]
  rw [skipped, ho]
  dsimp only
  rw [readU8, readBytes_ok hf]
  dsimp only [bind, Except.bind, pure, Except.pure]
  rw [hbyte, hmask b.toNat hlt]

theorem skipped_true (hmask : l.MaskExact) (hsmall : SmallOwner mem l frame)
    (h : Skipped mem l frame) : skipped mem l frame = .ok true := by
  obtain ⟨owner, hm, ho⟩ := h
  rw [skipped_of_owner hmask hsmall ho, decide_eq_true hm]

theorem skipped_false (hmask : l.MaskExact) (hsmall : SmallOwner mem l frame)
    (h : Kept mem l frame) : skipped mem l frame = .ok false := by
  rcases h with hnone | ⟨owner, hm, ho⟩
  · rw [skipped, hnone]
    rfl
  · rw [skipped_of_owner hmask hsmall ho, decide_eq_false hm]

theorem skipped_error {offset : ℕ} {e : UnwindError} (ho : l.owner = some offset)
    (h : FieldFails mem frame offset 1 e) : skipped mem l frame = .error e := by
  rw [skipped, ho]
  dsimp only
  rw [readU8, readBytes_error h]
  rfl

theorem owner_or_fails (mem : Memory 64) (l : Layout) (frame : Usize) :
    Skipped mem l frame ∨ Kept mem l frame ∨
      ∃ offset e, l.owner = some offset ∧ FieldFails mem frame offset 1 e := by
  cases ho : l.owner with
  | none => exact Or.inr (Or.inl (Or.inl ho))
  | some offset =>
    rcases field_or_fails mem frame offset 1 with ⟨bs, hf⟩ | ⟨e, h⟩
    · obtain ⟨b, rfl⟩ := List.length_eq_one_iff.mp hf.2.1
      have howned : OwnedBy mem l frame b.toNat := ⟨offset, b, ho, hf, rfl⟩
      by_cases hm : b.toNat ∈ l.skipOwners
      · exact Or.inl ⟨_, hm, howned⟩
      · exact Or.inr (Or.inl (Or.inr ⟨_, hm, howned⟩))
    · exact Or.inr (Or.inr ⟨offset, e, rfl, h⟩)

end Reads

/-! ### One iteration -/

section Visit
variable {mem} {l : Layout} {codeType frame : Usize}

theorem visit_entry (hmask : l.MaskExact) (hsmall : SmallOwner mem l frame) {previous : Usize}
    {entry : Option Frame} (h : Entry mem l codeType frame previous entry) :
    visit mem l codeType frame = .ok (previous, entry) := by
  cases h with
  | skipped hp hs =>
    rw [visit, readUsize_ok hp, skipped_true hmask hsmall hs]
    rfl
  | python hp hk hx hi hne ht =>
    rw [visit, readUsize_ok hp, skipped_false hmask hsmall hk, readUsize_ok hx, readInstr_ok hi]
    dsimp only [bind, Except.bind]
    rw [if_neg Bool.false_ne_true, if_neg hne, readUsize_ok ht]
    dsimp only
    rw [if_neg (fun h => h rfl)]
    rfl

theorem visit_fails (hmask : l.MaskExact) (hsmall : SmallOwner mem l frame) {e : UnwindError}
    (h : EntryFails mem l codeType frame e) : visit mem l codeType frame = .error e := by
  cases h with
  | previous h =>
    rw [visit, readUsize_error h]
    rfl
  | owner hp ho h =>
    rw [visit, readUsize_ok hp, skipped_error ho h]
    rfl
  | executable hp hk h =>
    rw [visit, readUsize_ok hp, skipped_false hmask hsmall hk, readUsize_error h]
    rfl
  | instr hp hk hx h =>
    rw [visit, readUsize_ok hp, skipped_false hmask hsmall hk, readUsize_ok hx, readInstr_error h]
    rfl
  | null hp hk hx hi h =>
    rw [visit, readUsize_ok hp, skipped_false hmask hsmall hk, readUsize_ok hx, readInstr_ok hi]
    dsimp only [bind, Except.bind]
    rw [if_neg Bool.false_ne_true, if_pos h]
    rfl
  | obType hp hk hx hi hne h =>
    rw [visit, readUsize_ok hp, skipped_false hmask hsmall hk, readUsize_ok hx, readInstr_ok hi]
    dsimp only [bind, Except.bind]
    rw [if_neg Bool.false_ne_true, if_neg hne, readUsize_error h]
  | notCode hp hk hx hi hne ht h =>
    rw [visit, readUsize_ok hp, skipped_false hmask hsmall hk, readUsize_ok hx, readInstr_ok hi]
    dsimp only [bind, Except.bind]
    rw [if_neg Bool.false_ne_true, if_neg hne, readUsize_ok ht]
    dsimp only
    rw [if_pos h]
    rfl

theorem entry_or_fails (mem : Memory 64) (l : Layout) (codeType frame : Usize) :
    (∃ previous entry, Entry mem l codeType frame previous entry) ∨
      ∃ e, EntryFails mem l codeType frame e := by
  rcases word_or_fails mem frame l.previous with ⟨previous, hp⟩ | ⟨e, h⟩
  swap
  · exact Or.inr ⟨e, .previous h⟩
  rcases owner_or_fails mem l frame with hs | hk | ⟨offset, e, ho, h⟩
  · exact Or.inl ⟨previous, none, .skipped hp hs⟩
  swap
  · exact Or.inr ⟨e, .owner hp ho h⟩
  rcases word_or_fails mem frame l.executable with ⟨executable, hx⟩ | ⟨e, h⟩
  swap
  · exact Or.inr ⟨e, .executable hp hk h⟩
  rcases instr_or_fails mem l frame with ⟨instr, hi⟩ | ⟨e, h⟩
  swap
  · exact Or.inr ⟨e, .instr hp hk hx h⟩
  by_cases hne : executable &&& l.executableMask = 0
  · exact Or.inr ⟨_, .null hp hk hx hi hne⟩
  rcases word_or_fails mem (executable &&& l.executableMask) l.obType with ⟨obType, ht⟩ | ⟨e, h⟩
  swap
  · exact Or.inr ⟨e, .obType hp hk hx hi hne h⟩
  by_cases hcode : obType = codeType
  · subst hcode
    exact Or.inl ⟨previous, _, .python hp hk hx hi hne ht⟩
  · exact Or.inr ⟨_, .notCode hp hk hx hi hne ht hcode⟩

end Visit

/-! ### The loop -/

section Walk
variable {mem} {l : Layout} {codeType frame : Usize}

/-- The owner bytes of the frames that the walk can come to are those of CPython. -/
def SmallOwners (mem : Memory 64) (l : Layout) (codeType frame : Usize) : Prop :=
  ∀ n frame', Path mem l codeType n frame frame' → SmallOwner mem l frame'

theorem SmallOwners.here (h : SmallOwners mem l codeType frame) : SmallOwner mem l frame :=
  h 0 frame .here

theorem SmallOwners.next (h : SmallOwners mem l codeType frame) {previous : Usize}
    {entry : Option Frame} (hne : frame ≠ 0) (he : Entry mem l codeType frame previous entry) :
    SmallOwners mem l codeType previous :=
  fun n frame' hp => h (n + 1) frame' (.link hne he hp)

theorem walkFrom_null (left : ℕ) (frames : List Frame) (pushed : ℕ) :
    walkFrom mem l codeType left 0 frames pushed = (.ok pushed, frames) := by
  unfold walkFrom
  exact if_pos rfl

theorem walkFrom_skip {left pushed : ℕ} {frames : List Frame} {previous : Usize} (hne : frame ≠ 0)
    (hv : visit mem l codeType frame = .ok (previous, none)) :
    walkFrom mem l codeType (left + 1) frame frames pushed =
      walkFrom mem l codeType left previous frames pushed := by
  conv_lhs => unfold walkFrom
  rw [if_neg hne]
  dsimp only
  rw [hv]

theorem walkFrom_push {left pushed : ℕ} {frames : List Frame} {previous : Usize} {f : Frame}
    (hne : frame ≠ 0) (hv : visit mem l codeType frame = .ok (previous, some f)) :
    walkFrom mem l codeType (left + 1) frame frames pushed =
      if pushed < frames.length then
        walkFrom mem l codeType left previous (frames.set pushed f) (pushed + 1)
      else (.error .truncated, frames) := by
  conv_lhs => unfold walkFrom
  rw [if_neg hne]
  dsimp only
  rw [hv]

theorem stack_pushed (f : Frame) (entries : List (Option Frame)) :
    stack (some f :: entries) = f :: stack entries := rfl

theorem drop_set_succ {frames : List Frame} {pushed : ℕ} (f : Frame) (n : ℕ) :
    (frames.set pushed f).drop (pushed + 1 + n) = frames.drop (pushed + 1 + n) :=
  List.drop_set_of_lt (by omega)

theorem take_set_self {frames : List Frame} {pushed : ℕ} (f : Frame) (h : pushed < frames.length) :
    (frames.set pushed f).take (pushed + 1) = frames.take pushed ++ [f] := by
  rw [List.take_add_one, List.take_set_of_le (le_refl _), List.getElem?_set_self h,
    Option.toList_some]

/- Induction on the chain; the frames pushed so far stay in front. -/
theorem walkFrom_chain (hmask : l.MaskExact) {entries : List (Option Frame)}
    (h : Chain mem l codeType frame entries) (hsmall : SmallOwners mem l codeType frame) (left : ℕ)
    (frames : List Frame) (pushed : ℕ) (hleft : entries.length ≤ left)
    (hroom : pushed + (stack entries).length ≤ frames.length) :
    walkFrom mem l codeType left frame frames pushed = (.ok (pushed + (stack entries).length),
      frames.take pushed ++ stack entries ++ frames.drop (pushed + (stack entries).length)) := by
  induction h generalizing left frames pushed with
  | null =>
    have hsame : frames.take pushed ++ stack [] ++ frames.drop (pushed + (stack []).length) =
        frames := by
      show frames.take pushed ++ [] ++ frames.drop pushed = frames
      rw [List.append_nil, List.take_append_drop]
    rw [walkFrom_null, hsame]
    rfl
  | @link frame previous entry rest hne he hr ih =>
    have hvisit := visit_entry hmask hsmall.here he
    have hnext := hsmall.next hne he
    cases left with
    | zero => exact (Nat.not_succ_le_zero _ hleft).elim
    | succ left =>
      have hleft' : rest.length ≤ left := Nat.le_of_succ_le_succ hleft
      cases entry with
      | none =>
        rw [walkFrom_skip hne hvisit]
        exact ih hnext left frames pushed hleft' hroom
      | some f =>
        rw [stack_pushed, List.length_cons] at hroom
        have hpushed : pushed < frames.length := by omega
        have hlen : (frames.set pushed f).length = frames.length := List.length_set ..
        have hsum : pushed + 1 + (stack rest).length = pushed + ((stack rest).length + 1) := by omega
        rw [walkFrom_push hne hvisit, if_pos hpushed,
          ih hnext left (frames.set pushed f) (pushed + 1) hleft' (by omega), take_set_self f hpushed,
          drop_set_succ, stack_pushed, List.length_cons, hsum, List.append_assoc,
          List.append_assoc, List.append_assoc, List.singleton_append, List.cons_append]

theorem walkFrom_fails (hmask : l.MaskExact) {left room : ℕ} {e : UnwindError}
    (h : WalkFails mem l codeType left frame room e) (hsmall : SmallOwners mem l codeType frame)
    (frames : List Frame) (pushed : ℕ) (hroom : pushed + room = frames.length) :
    (walkFrom mem l codeType left frame frames pushed).1 = .error e := by
  induction h generalizing frames pushed with
  | tooLong hne =>
    unfold walkFrom
    rw [if_neg hne]
  | entry hne he =>
    unfold walkFrom
    rw [if_neg hne]
    dsimp only
    rw [visit_fails hmask hsmall.here he]
  | noRoom hne he =>
    rw [walkFrom_push hne (visit_entry hmask hsmall.here he), if_neg (by omega)]
  | skipped hne he hr ih =>
    rw [walkFrom_skip hne (visit_entry hmask hsmall.here he)]
    exact ih (hsmall.next hne he) frames pushed hroom
  | @pushed left frame previous f room e hne he hr ih =>
    rw [walkFrom_push hne (visit_entry hmask hsmall.here he), if_pos (by omega)]
    refine ih (hsmall.next hne he) _ (pushed + 1) ?_
    rw [List.length_set]
    omega

theorem chain_or_fails (mem : Memory 64) (l : Layout) (codeType : Usize) (left : ℕ)
    (frame : Usize) (room : ℕ) :
    (∃ entries, Chain mem l codeType frame entries ∧ entries.length ≤ left ∧
      (stack entries).length ≤ room) ∨ ∃ e, WalkFails mem l codeType left frame room e := by
  induction left generalizing frame room with
  | zero =>
    by_cases hne : frame = 0
    · subst hne
      exact Or.inl ⟨[], .null, le_refl _, Nat.zero_le _⟩
    · exact Or.inr ⟨_, .tooLong hne⟩
  | succ left ih =>
    by_cases hne : frame = 0
    · subst hne
      exact Or.inl ⟨[], .null, Nat.zero_le _, Nat.zero_le _⟩
    rcases entry_or_fails mem l codeType frame with ⟨previous, entry, he⟩ | ⟨e, he⟩
    swap
    · exact Or.inr ⟨e, .entry hne he⟩
    cases entry with
    | none =>
      rcases ih previous room with ⟨entries, hc, hlen, hfit⟩ | ⟨e, hf⟩
      · exact Or.inl ⟨none :: entries, .link hne he hc, Nat.succ_le_succ hlen, hfit⟩
      · exact Or.inr ⟨e, .skipped hne he hf⟩
    | some f =>
      cases room with
      | zero => exact Or.inr ⟨_, .noRoom hne he⟩
      | succ room =>
        rcases ih previous room with ⟨entries, hc, hlen, hfit⟩ | ⟨e, hf⟩
        · exact Or.inl ⟨some f :: entries, .link hne he hc, Nat.succ_le_succ hlen,
            Nat.succ_le_succ hfit⟩
        · exact Or.inr ⟨e, .pushed hne he hf⟩

/- A chain that goes on for longer, or in a circle, ends at the bound or at the end of
the slice. -/
theorem walkFails_endless {left : ℕ} (room : ℕ)
    (h : ∀ n frame', n ≤ left → Path mem l codeType n frame frame' → frame' ≠ 0 ∧
      (n < left → ∃ previous entry, Entry mem l codeType frame' previous entry)) :
    WalkFails mem l codeType left frame room .truncated := by
  induction left generalizing frame room with
  | zero => exact .tooLong (h 0 frame (le_refl _) .here).1
  | succ left ih =>
    obtain ⟨hne, hentry⟩ := h 0 frame (Nat.zero_le _) .here
    obtain ⟨previous, entry, he⟩ := hentry (Nat.succ_pos _)
    have hnext : ∀ room, WalkFails mem l codeType left previous room .truncated := fun room =>
      ih room fun n frame' hn hp => by
        obtain ⟨hne', hentry'⟩ := h (n + 1) frame' (Nat.succ_le_succ hn) (.link hne he hp)
        exact ⟨hne', fun hlt => hentry' (Nat.succ_lt_succ hlt)⟩
    cases entry with
    | none => exact .skipped hne he (hnext room)
    | some f =>
      cases room with
      | zero => exact .noRoom hne he
      | succ room => exact .pushed hne he (hnext room)

end Walk

/-! ### The whole unwinding -/

section Unwind
variable {mem} {l : Layout} {codeType tstate : Usize} {frames : List Frame} {metrics : Metrics}

theorem currentFrame_ok {frame : Usize} (h : Current mem l tstate frame) :
    currentFrame mem l tstate = .ok frame := by
  unfold Current at h
  unfold currentFrame
  cases hc : l.cframeFrame with
  | none =>
    rw [hc] at h
    rw [readUsize_ok h]
    rfl
  | some offset =>
    rw [hc] at h
    obtain ⟨cframe, hw, hf⟩ := h
    rw [readUsize_ok hw]
    exact readUsize_ok hf

theorem currentFrame_error {e : UnwindError} (h : CurrentFails mem l tstate e) :
    currentFrame mem l tstate = .error e := by
  rw [currentFrame]
  rcases h with h | ⟨offset, cframe, hc, hw, h⟩
  · rw [readUsize_error h]
    rfl
  · rw [readUsize_ok hw, hc]
    exact readUsize_error h

theorem current_or_fails (mem : Memory 64) (l : Layout) (tstate : Usize) :
    (∃ frame, Current mem l tstate frame) ∨ ∃ e, CurrentFails mem l tstate e := by
  unfold Current CurrentFails
  rcases word_or_fails mem tstate l.threadFrame with ⟨word, hw⟩ | ⟨e, h⟩
  swap
  · exact Or.inr ⟨e, Or.inl h⟩
  cases hc : l.cframeFrame with
  | none => exact Or.inl ⟨word, hw⟩
  | some offset =>
    rcases word_or_fails mem word offset with ⟨frame, hf⟩ | ⟨e, h⟩
    · exact Or.inl ⟨frame, word, hw, hf⟩
    · exact Or.inr ⟨e, Or.inr ⟨offset, word, rfl, hw, h⟩⟩

theorem stack_or_fails (mem : Memory 64) (l : Layout) (codeType tstate : Usize) (capacity : ℕ) :
    (∃ s, Stack mem l codeType tstate capacity s) ∨
      ∃ e, UnwindFails mem l codeType tstate capacity e := by
  by_cases hne : tstate = 0
  · exact Or.inr ⟨_, .noThreadState hne⟩
  rcases current_or_fails mem l tstate with ⟨frame, hc⟩ | ⟨e, h⟩
  swap
  · exact Or.inr ⟨e, .current hne h⟩
  rcases chain_or_fails mem l codeType maxFrames frame capacity with ⟨entries, hch, hlen, hfit⟩ | ⟨e, h⟩
  · exact Or.inl ⟨_, hne, frame, entries, hc, hch, hlen, hfit, rfl⟩
  · exact Or.inr ⟨e, .walk hne hc h⟩

/-- The frames that `current_frame` leads to have owners of CPython. -/
def OwnersBelow8 (mem : Memory 64) (l : Layout) (codeType tstate : Usize) : Prop :=
  ∀ frame, Current mem l tstate frame → SmallOwners mem l codeType frame

theorem unwindThread_stack (hmask : l.MaskExact) (hsmall : OwnersBelow8 mem l codeType tstate)
    {s : List Frame} (h : Stack mem l codeType tstate frames.length s) :
    unwindThread mem l codeType tstate frames metrics =
      ⟨.ok s, s ++ frames.drop s.length, metrics⟩ := by
  obtain ⟨hne, frame, entries, hc, hch, hlen, hfit, rfl⟩ := h
  have hwalk := walkFrom_chain hmask hch (hsmall frame hc) maxFrames frames 0 hlen (by omega)
  rw [Nat.zero_add, List.take_zero, List.nil_append] at hwalk
  rw [unwindThread, if_neg hne, walk, currentFrame_ok hc]
  dsimp only
  rw [hwalk]
  dsimp only
  rw [List.take_left]

theorem unwindThread_fails (hmask : l.MaskExact) (hsmall : OwnersBelow8 mem l codeType tstate)
    {e : UnwindError} (h : UnwindFails mem l codeType tstate frames.length e) :
    (unwindThread mem l codeType tstate frames metrics).result = .error e ∧
      (unwindThread mem l codeType tstate frames metrics).metrics = metrics.fetchAdd e.reason := by
  cases h with
  | noThreadState h =>
    rw [unwindThread, if_pos h]
    exact ⟨rfl, rfl⟩
  | current hne h =>
    rw [unwindThread, if_neg hne, walk, currentFrame_error h]
    exact ⟨rfl, rfl⟩
  | @walk frame e hne hc h =>
    have hwalk := walkFrom_fails hmask h (hsmall frame hc) frames 0 (Nat.zero_add _)
    rw [unwindThread, if_neg hne, walk, currentFrame_ok hc]
    dsimp only
    rw [show walkFrom mem l codeType maxFrames frame frames 0 =
      (.error e, (walkFrom mem l codeType maxFrames frame frames 0).2) from Prod.ext hwalk rfl]
    exact ⟨rfl, rfl⟩

/-- What an unwinding returns, writes and counts. -/
structure Exact (mem : Memory 64) (l : Layout) (codeType tstate : Usize) (frames : List Frame)
    (metrics : Metrics) (u : Unwound) : Prop where
  ok : ∀ s, u.result = .ok s ↔ Stack mem l codeType tstate frames.length s
  written : ∀ s, u.result = .ok s → u.frames = s ++ frames.drop s.length ∧ u.metrics = metrics
  error : ∀ e, u.result = .error e ↔ UnwindFails mem l codeType tstate frames.length e
  counted : ∀ e, u.result = .error e → u.metrics = metrics.fetchAdd e.reason
  endless : ∀ frame, tstate ≠ 0 → Current mem l tstate frame →
    (∀ n frame', n ≤ maxFrames → Path mem l codeType n frame frame' → frame' ≠ 0 ∧
      (n < maxFrames → ∃ previous entry, Entry mem l codeType frame' previous entry)) →
    u.result = .error .truncated

theorem unwindThread_exact (v : PyVersion) (mem : Memory 64) (codeType tstate : Usize)
    (frames : List Frame) (metrics : Metrics)
    (hsmall : OwnersBelow8 mem v.layout codeType tstate) :
    Exact mem v.layout codeType tstate frames metrics
      (unwindThread mem v.layout codeType tstate frames metrics) := by
  have hok : ∀ s, Stack mem v.layout codeType tstate frames.length s →
      unwindThread mem v.layout codeType tstate frames metrics =
        ⟨.ok s, s ++ frames.drop s.length, metrics⟩ :=
    fun s => unwindThread_stack v.maskExact hsmall
  have hfails : ∀ e, UnwindFails mem v.layout codeType tstate frames.length e →
      (unwindThread mem v.layout codeType tstate frames metrics).result = .error e ∧
        (unwindThread mem v.layout codeType tstate frames metrics).metrics =
          metrics.fetchAdd e.reason :=
    fun e => unwindThread_fails v.maskExact hsmall
  have hcases := stack_or_fails mem v.layout codeType tstate frames.length
  constructor
  case ok =>
    intro s
    refine ⟨fun h => ?_, fun h => by rw [hok s h]⟩
    rcases hcases with ⟨s', hs⟩ | ⟨e, he⟩
    · rw [hok s' hs] at h
      cases h
      exact hs
    · rw [(hfails e he).1] at h
      cases h
  case written =>
    intro s h
    rcases hcases with ⟨s', hs⟩ | ⟨e, he⟩
    · rw [hok s' hs] at h ⊢
      cases h
      exact ⟨rfl, rfl⟩
    · rw [(hfails e he).1] at h
      cases h
  case error =>
    intro e
    refine ⟨fun h => ?_, fun h => (hfails e h).1⟩
    rcases hcases with ⟨s', hs⟩ | ⟨e', he⟩
    · rw [hok s' hs] at h
      cases h
    · rw [(hfails e' he).1] at h
      cases h
      exact he
  case counted =>
    intro e h
    rcases hcases with ⟨s', hs⟩ | ⟨e', he⟩
    · rw [hok s' hs] at h
      cases h
    · rw [(hfails e' he).1] at h
      cases h
      exact (hfails e he).2
  case endless =>
    intro frame hne hc hpath
    exact (hfails .truncated (.walk hne hc (walkFails_endless _ hpath))).1

end Unwind

/- Three frames of 3.13, of which the interpreter owns the middle one. -/
def skippedBytes : List (Usize × BitVec 8) :=
  [(0x149, 2), (0x201, 3), (0x209, 5), (0x238, 5), (0x309, 4), (0x509, 6), (0x546, 3), (0x601, 7),
    (0x638, 6), (0x709, 4)]

def skippedFrame : Memory 64 :=
  fun a => some (((skippedBytes.find? fun e => e.1 = a).map Prod.snd).getD 0)

theorem unwindThread_exact_skipped_frame :
    (unwindThread skippedFrame PyVersion.v313.layout 0x400 0x100 [⟨7, 7⟩, ⟨7, 7⟩, ⟨7, 7⟩] .zero).result =
        .ok [⟨0x300, 5⟩, ⟨0x700, 6⟩] ∧
      Exact skippedFrame PyVersion.v313.layout 0x400 0x100 [⟨7, 7⟩, ⟨7, 7⟩, ⟨7, 7⟩] .zero
        (unwindThread skippedFrame PyVersion.v313.layout 0x400 0x100 [⟨7, 7⟩, ⟨7, 7⟩, ⟨7, 7⟩] .zero) := by
  refine ⟨by decide +kernel, unwindThread_exact .v313 skippedFrame 0x400 0x100 _ _ ?_⟩
  intro frame _ n frame' _ owner howned
  obtain ⟨offset, b, -, hf, rfl⟩ := howned
  have hb : skippedFrame (frame' + BitVec.ofNat 64 offset) = some b := hf.2.2.1
  rw [← Option.some.inj hb]
  cases hfind : skippedBytes.find? fun e => e.1 = frame' + BitVec.ofNat 64 offset with
  | none => exact by decide
  | some e =>
    have hsmall : (skippedBytes.all fun e => e.2.toNat < 8) = true := by decide
    exact of_decide_eq_true (List.all_eq_true.mp hsmall e (List.mem_of_find?_eq_some hfind))

end Pyroscope.Signal.Unwind
