import Pyroscope.Signal.FrameChain
import Pyroscope.Lib.Call

/-!
# The frame walk on memory that holds anything (crates/python-unwind)

Every read of the walk may find other bytes than the one before it, or fault. The loop is
run step by step, and arithmetic that leaves its range either panics or wraps, as the build
has it.
-/

namespace Pyroscope.Signal.Hostile
open Pyroscope.Lib
open Pyroscope.Signal (Frame UnwindError maxFrames)
open Pyroscope.Signal.Unwind (Layout PyVersion)
open Pyroscope.Ring (Usize)

/-! ### The state of a walk -/

/-- `reads` are the addresses and lengths read so far, `wrapped` says whether some result did
not fit its type. `visits` are the frames visited; `owners` and `skips` the frames whose owner
has been read and those that were skipped, with the byte. -/
structure Walk where
  reads : List (Usize × ℕ)
  wrapped : Bool
  visits : List Usize
  owners : List (Usize × BitVec 8)
  skips : List (Usize × BitVec 8)
  frame : Usize
  visited : ℕ
  pushed : ℕ
  frames : List Frame

inductive Stop where
  | error (e : UnwindError)
  | panic
  deriving DecidableEq

abbrev WalkCall : Type → Type := Call Walk Stop

/-! ### Arithmetic and reads -/

section Operations
variable (overflowChecks : Bool) (mem : ℕ → Memory 64)

/-- `value` is what the operation wraps to. -/
def arithmetic {α : Type} (fits : Prop) [Decidable fits] (value : α) : WalkCall α :=
  if fits then pure value
  else if overflowChecks then Call.fail .panic
  else do
    Call.modify fun s => { s with wrapped := true }
    pure value

def addOne (n : ℕ) : WalkCall ℕ := arithmetic overflowChecks (n + 1 < 2 ^ 64) ((n + 1) % 2 ^ 64)

/-- `1 << amount` of a `u8` -/
def shiftOne (amount : BitVec 8) : WalkCall (BitVec 8) :=
  arithmetic overflowChecks (amount.toNat < 8) (1 <<< (amount.toNat % 8))

/-- `mem k` is the memory at the time of read `k`. -/
def readBytes (base : Usize) (offset n : ℕ) : WalkCall (List (BitVec 8)) := fun s =>
  match checkedAdd base offset with
  | none => (.error (.error .invalid), s)
  | some addr =>
    match checkedAdd addr n with
    | none => (.error (.error .invalid), s)
    | some _ =>
      let read := { s with reads := s.reads ++ [(addr, n)] }
      match (mem s.reads.length).bytes addr n with
      | none => (.error (.error .read), read)
      | some out => (.ok out, read)

def readUsize (base : Usize) (offset : ℕ) : WalkCall Usize := do
  let out ← readBytes mem base offset 8
  return BitVec.ofNat 64 (littleEndian out)

/-- `read_bytes::<1>(base, offset)?[0]` -/
def readU8 (base : Usize) (offset : ℕ) : WalkCall (BitVec 8) := do
  let out ← readBytes mem base offset 1
  match out with
  | b :: _ => return b
  | [] => Call.fail .panic

def readInstr (l : Layout) (frame : Usize) : WalkCall Usize :=
  if l.instrSigned then do
    let out ← readBytes mem frame l.instr 4
    return (BitVec.ofNat 32 (littleEndian out)).signExtend 64
  else readUsize mem frame l.instr

/-! ### The walk -/

def currentFrame (l : Layout) (tstate : Usize) : WalkCall Usize := do
  let frame ← readUsize mem tstate l.threadFrame
  match l.cframeFrame with
  | some offset => readUsize mem frame offset
  | none => return frame

/-- `SKIP_OWNERS & (1 << owner) != 0` -/
def skipped (l : Layout) (frame : Usize) : WalkCall Bool :=
  match l.owner with
  | some offset => do
    let owner ← readU8 mem frame offset
    Call.modify fun s => { s with owners := s.owners ++ [(frame, owner)] }
    let bit ← shiftOne overflowChecks owner
    if l.skipMask &&& bit != 0 then do
      Call.modify fun s => { s with skips := s.skips ++ [(frame, owner)] }
      return true
    else return false
  | none => return false

/-- `*frames.get_mut(pushed).ok_or(Error::Truncated)? = f; pushed += 1` -/
def push (f : Frame) : WalkCall Unit := do
  let s ← Call.get
  Call.failIf (¬s.pushed < s.frames.length) (.error .truncated)
  Call.modify fun s => { s with frames := s.frames.set s.pushed f }
  let pushed ← addOne overflowChecks s.pushed
  Call.modify fun s => { s with pushed }

def pythonFrame (l : Layout) (codeType frame : Usize) : WalkCall Frame := do
  let executable ← readUsize mem frame l.executable
  let code := executable &&& l.executableMask
  let instr ← readInstr mem l frame
  Call.failIf (code = 0) (.error .invalidCodeType)
  let obType ← readUsize mem code l.obType
  Call.failIf (obType ≠ codeType) (.error .invalidCodeType)
  return ⟨code, instr⟩

def body (l : Layout) (codeType : Usize) : WalkCall Unit := do
  let s ← Call.get
  Call.failIf (s.visited = maxFrames) (.error .truncated)
  let visited ← addOne overflowChecks s.visited
  Call.modify fun s => { s with visited, visits := s.visits ++ [s.frame] }
  let previous ← readUsize mem s.frame l.previous
  let skip ← skipped overflowChecks mem l s.frame
  if skip then Call.modify fun s => { s with frame := previous }
  else do
    let f ← pythonFrame mem l codeType s.frame
    push overflowChecks f
    Call.modify fun s => { s with frame := previous }

/-- `none` when `fuel` iterations are not enough. -/
def loop (l : Layout) (codeType : Usize) (fuel : ℕ) (s : Walk) : Option (Except Stop Unit × Walk) :=
  if s.frame = 0 then some (.ok (), s)
  else
    match fuel with
    | 0 => none
    | fuel + 1 =>
      match body overflowChecks mem l codeType s with
      | (.ok (), s) => loop l codeType fuel s
      | (.error stop, s) => some (.error stop, s)

def walk (l : Layout) (codeType tstate : Usize) (frames : List Frame) (fuel : ℕ) :
    Option (Except Stop (List Frame) × Walk) :=
  match currentFrame mem l tstate ⟨[], false, [], [], [], 0, 0, 0, frames⟩ with
  | (.error stop, s) => some (.error stop, s)
  | (.ok frame, s) =>
    match loop overflowChecks mem l codeType fuel { s with frame } with
    | none => none
    | some (.error stop, s) => some (.error stop, s)
    | some (.ok (), s) => some (if s.pushed ≤ s.frames.length then .ok (s.frames.take s.pushed) else .error .panic, s)

end Operations

/-! ### What holds at every step -/

/-- After `n` visits, the last of which may still push `k` frames. -/
structure Sound (l : Layout) (k n : ℕ) (s : Walk) : Prop where
  visits : s.visits.length = n
  visited : s.visited = n
  bound : n ≤ maxFrames
  pushed : s.pushed + k ≤ n
  room : s.pushed ≤ s.frames.length
  addresses : ∀ r ∈ s.reads, r.1.toNat + r.2 < 2 ^ 64
  wrapped : s.wrapped = true ↔ ∃ o ∈ s.owners, 8 ≤ o.2.toNat
  skips : ∀ o ∈ s.skips, o ∈ s.owners ∧ (o.2.toNat < 8 → o.2.toNat ∈ l.skipOwners)

def Ended (l : Layout) : Stop → Walk → Prop
  | .error _, s => ∃ k n, Sound l k n s
  | .panic, s => s.visits.length ≤ maxFrames ∧ ∃ o ∈ s.owners, 8 ≤ o.2.toNat

section Steps
variable {overflowChecks : Bool} {mem : ℕ → Memory 64} {l : Layout} {k n : ℕ} {s : Walk}

theorem Sound.stopped (h : Sound l k n s) (e : UnwindError) : Ended l (.error e) s := ⟨k, n, h⟩

theorem Sound.read (h : Sound l k n s) {addr : Usize} {len : ℕ} (hfits : addr.toNat + len < 2 ^ 64) :
    Sound l k n { s with reads := s.reads ++ [(addr, len)] } := by
  refine ⟨h.visits, h.visited, h.bound, h.pushed, h.room, fun r hr => ?_, h.wrapped, h.skips⟩
  rcases List.mem_append.mp hr with hr | hr
  · exact h.addresses r hr
  · rw [List.mem_singleton.mp hr]
    exact hfits

theorem fits_of_checkedAdd {x y : Usize} {m : ℕ} (h : checkedAdd x m = some y) : x.toNat + m < 2 ^ 64 := by
  by_contra hn
  rw [checkedAdd, if_neg hn] at h
  cases h

/- A read asks for a range of addresses that does not wrap, and returns as many bytes. -/
theorem readBytes_sound (base : Usize) (offset len : ℕ) :
    (readBytes mem base offset len).Ensures (Sound l k n) (fun out s => Sound l k n s ∧ out.length = len) (Ended l) := by
  intro s h
  unfold readBytes
  split
  · exact h.stopped .invalid
  · next addr haddr =>
    split
    · exact h.stopped .invalid
    · next last hlast =>
      have hread := h.read (fits_of_checkedAdd hlast)
      dsimp only
      split
      · exact hread.stopped .read
      · next out hout => exact ⟨hread, (Memory.bytes_eq_some.mp hout).1⟩

theorem readUsize_sound (base : Usize) (offset : ℕ) :
    (readUsize mem base offset).Ensures (Sound l k n) (fun _ => Sound l k n) (Ended l) :=
  .bind (readBytes_sound base offset 8) fun _ => .pure fun _ h => h.1

theorem readU8_sound (base : Usize) (offset : ℕ) :
    (readU8 mem base offset).Ensures (Sound l k n) (fun _ => Sound l k n) (Ended l) := by
  refine .bind (readBytes_sound base offset 1) fun out => ?_
  cases out with
  | nil => exact .fail fun s h => nomatch h.2
  | cons b bs => exact .pure fun _ h => h.1

theorem readInstr_sound (frame : Usize) :
    (readInstr mem l frame).Ensures (Sound l k n) (fun _ => Sound l k n) (Ended l) := by
  unfold readInstr
  split
  · exact .bind (readBytes_sound frame l.instr 4) fun _ => .pure fun _ h => h.1
  · exact readUsize_sound frame l.instr

theorem currentFrame_sound (mem : ℕ → Memory 64) (tstate : Usize) :
    (currentFrame mem l tstate).Ensures (Sound l k n) (fun _ => Sound l k n) (Ended l) := by
  refine .bind (readUsize_sound tstate l.threadFrame) fun frame => ?_
  split
  · exact readUsize_sound frame _
  · exact .pure fun _ h => h

/- An operation whose operands are in range is exact. -/
theorem arithmetic_fits {α : Type} {P : Walk → Prop} {R : Stop → Walk → Prop} {fits : Prop} [Decidable fits]
    (hfits : ∀ s, P s → fits) (value : α) :
    (arithmetic overflowChecks fits value).Ensures P (fun a s => a = value ∧ P s) R := by
  intro s hs
  rw [arithmetic, if_pos (hfits s hs)]
  exact ⟨rfl, hs⟩

theorem pythonFrame_sound (codeType frame : Usize) :
    (pythonFrame mem l codeType frame).Ensures (Sound l k n) (fun _ => Sound l k n) (Ended l) := by
  refine .bind (readUsize_sound frame l.executable) fun executable => ?_
  refine .bind (readInstr_sound frame) fun instr => ?_
  refine .bind (.failIf (Q := fun _ => Sound l k n) (fun _ _ h => h.stopped _) fun _ _ h => h) fun _ => ?_
  refine .bind (readUsize_sound _ l.obType) fun obType => ?_
  exact .bind (.failIf (Q := fun _ => Sound l k n) (fun _ _ h => h.stopped _) fun _ _ h => h) fun _ => .pure fun _ h => h

theorem push_sound (f : Frame) : (push overflowChecks f).Ensures (Sound l 1 n) (fun _ => Sound l 0 n) (Ended l) := by
  refine .bind (Q := fun s₀ s => s = s₀ ∧ Sound l 1 n s) (.get fun s h => ⟨rfl, h⟩) fun s₀ => ?_
  refine .bind (Q := fun _ s => s = s₀ ∧ Sound l 1 n s ∧ s.pushed < s.frames.length) ?_ fun _ => ?_
  · refine .failIf (fun _ _ h => h.2.stopped _) fun hroom s h => ?_
    obtain ⟨rfl, hs⟩ := h
    exact ⟨rfl, hs, not_not.mp hroom⟩
  refine .bind (Q := fun _ s => s.pushed = s₀.pushed ∧ Sound l 1 n s ∧ s.pushed < s.frames.length) (.modify ?_) fun _ => ?_
  · rintro s ⟨rfl, hs, hroom⟩
    refine ⟨rfl, ⟨hs.visits, hs.visited, hs.bound, hs.pushed, ?_, hs.addresses, hs.wrapped, hs.skips⟩, ?_⟩
    · show s.pushed ≤ (s.frames.set s.pushed f).length
      rw [List.length_set]
      exact hs.room
    · show s.pushed < (s.frames.set s.pushed f).length
      rw [List.length_set]
      exact hroom
  have hfits : ∀ s : Walk, s.pushed = s₀.pushed ∧ Sound l 1 n s ∧ s.pushed < s.frames.length →
      s₀.pushed + 1 < 2 ^ 64 := by
    rintro s ⟨he, hs, -⟩
    have hpushed := hs.pushed
    have hbound := hs.bound
    unfold maxFrames at hbound
    omega
  refine .bind (arithmetic_fits hfits _) fun pushed => .modify ?_
  rintro s ⟨rfl, he, hs, hroom⟩
  have hmod : (s₀.pushed + 1) % 2 ^ 64 = s₀.pushed + 1 := Nat.mod_eq_of_lt (hfits s ⟨he, hs, hroom⟩)
  have hpushed := hs.pushed
  refine ⟨hs.visits, hs.visited, hs.bound, ?_, ?_, hs.addresses, hs.wrapped, hs.skips⟩
  · show (s₀.pushed + 1) % 2 ^ 64 + 0 ≤ n
    rw [hmod]
    omega
  · show (s₀.pushed + 1) % 2 ^ 64 ≤ s.frames.length
    rw [hmod]
    omega

/- The shift is where a byte of the frame decides whether the arithmetic fits. -/
theorem shiftOne_sound (frame : Usize) (owner : BitVec 8) :
    (shiftOne overflowChecks owner).Ensures
      (fun s => ∃ s₀, Sound l k n s₀ ∧ s = { s₀ with owners := s₀.owners ++ [(frame, owner)] })
      (fun bit s => bit = 1 <<< (owner.toNat % 8) ∧ (frame, owner) ∈ s.owners ∧ Sound l k n s) (Ended l) := by
  rintro _ ⟨s, h, rfl⟩
  have hmem : (frame, owner) ∈ s.owners ++ [(frame, owner)] := List.mem_append_right _ (List.mem_singleton_self _)
  have hskips : ∀ o ∈ s.skips, o ∈ s.owners ++ [(frame, owner)] ∧ (o.2.toNat < 8 → o.2.toNat ∈ l.skipOwners) :=
    fun o ho => ⟨List.mem_append_left _ (h.skips o ho).1, (h.skips o ho).2⟩
  unfold shiftOne arithmetic
  by_cases hfits : owner.toNat < 8
  · rw [if_pos hfits]
    refine ⟨rfl, hmem, h.visits, h.visited, h.bound, h.pushed, h.room, h.addresses, h.wrapped.trans ?_, hskips⟩
    constructor
    · rintro ⟨o, ho, hbig⟩
      exact ⟨o, List.mem_append_left _ ho, hbig⟩
    · rintro ⟨o, ho, hbig⟩
      rcases List.mem_append.mp ho with ho | ho
      · exact ⟨o, ho, hbig⟩
      · rw [List.mem_singleton.mp ho] at hbig
        exact absurd hbig (Nat.not_le.mpr hfits)
  · have hbig : ∃ o ∈ s.owners ++ [(frame, owner)], 8 ≤ o.2.toNat := ⟨_, hmem, Nat.not_lt.mp hfits⟩
    rw [if_neg hfits]
    split
    · exact ⟨h.visits.trans_le h.bound, hbig⟩
    · exact ⟨rfl, hmem, h.visits, h.visited, h.bound, h.pushed, h.room, h.addresses, iff_of_true rfl hbig, hskips⟩

theorem skipped_sound (hmask : l.MaskExact) (frame : Usize) :
    (skipped overflowChecks mem l frame).Ensures (Sound l k n) (fun _ => Sound l k n) (Ended l) := by
  unfold skipped
  split
  · refine .bind (readU8_sound frame _) fun owner => ?_
    refine .bind (.modify fun s h => ⟨s, h, rfl⟩) fun _ => .bind (shiftOne_sound frame owner) fun bit => ?_
    split
    · next hbit =>
      refine .bind (Q := fun _ => Sound l k n) (.modify ?_) fun _ => .pure fun _ h => h
      rintro s ⟨rfl, hmem, h⟩
      refine ⟨h.visits, h.visited, h.bound, h.pushed, h.room, h.addresses, h.wrapped, fun o ho => ?_⟩
      rcases List.mem_append.mp ho with ho | ho
      · exact h.skips o ho
      · rw [List.mem_singleton.mp ho]
        exact ⟨hmem, fun hlt => of_decide_eq_true ((hmask owner.toNat hlt).symm.trans hbit)⟩
    · exact .pure fun _ h => h.2.2
  · exact .pure fun _ h => h

/- One iteration of the loop. -/
theorem body_sound (overflowChecks : Bool) (mem : ℕ → Memory 64) (hmask : l.MaskExact) (codeType : Usize) :
    (body overflowChecks mem l codeType).Ensures (Sound l 0 n) (fun _ => Sound l 0 (n + 1)) (Ended l) := by
  refine .bind (Q := fun s₀ s => s = s₀ ∧ Sound l 0 n s) (.get fun s h => ⟨rfl, h⟩) fun s₀ => ?_
  refine .bind (Q := fun _ s => s = s₀ ∧ n < maxFrames ∧ Sound l 0 n s) ?_ fun _ => ?_
  · refine .failIf (fun _ _ h => h.2.stopped _) fun hvisited s h => ?_
    obtain ⟨rfl, hs⟩ := h
    have hne : n ≠ maxFrames := fun he => hvisited (hs.visited.trans he)
    exact ⟨rfl, lt_of_le_of_ne hs.bound hne, hs⟩
  have hfits : ∀ s : Walk, s = s₀ ∧ n < maxFrames ∧ Sound l 0 n s → s₀.visited + 1 < 2 ^ 64 := by
    rintro s ⟨rfl, hlt, hs⟩
    rw [hs.visited]
    unfold maxFrames at hlt
    omega
  refine .bind (arithmetic_fits hfits _) fun visited => ?_
  refine .bind (Q := fun _ => Sound l 1 (n + 1)) (.modify ?_) fun _ => ?_
  · rintro s ⟨rfl, rfl, hlt, hs⟩
    have hmod : (s.visited + 1) % 2 ^ 64 = n + 1 := by
      rw [Nat.mod_eq_of_lt (hfits s ⟨rfl, hlt, hs⟩), hs.visited]
    refine ⟨?_, hmod, hlt, Nat.succ_le_succ hs.pushed, hs.room, hs.addresses, hs.wrapped, hs.skips⟩
    rw [List.length_append, hs.visits]
    rfl
  refine .bind (readUsize_sound _ _) fun previous => .bind (skipped_sound hmask _) fun skip => ?_
  split
  · refine .modify fun s hs => ?_
    exact ⟨hs.visits, hs.visited, hs.bound, Nat.le_of_succ_le hs.pushed, hs.room, hs.addresses, hs.wrapped, hs.skips⟩
  · refine .bind (pythonFrame_sound codeType _) fun f => .bind (push_sound f) fun _ => .modify fun s hs => ?_
    exact ⟨hs.visits, hs.visited, hs.bound, hs.pushed, hs.room, hs.addresses, hs.wrapped, hs.skips⟩

/-! ### The loop -/

/- Each iteration visits a frame, so the limit on visits ends the loop. -/
theorem loop_stops (overflowChecks : Bool) (mem : ℕ → Memory 64) (hmask : l.MaskExact) (codeType : Usize) (fuel : ℕ)
    (hfuel : maxFrames + 1 ≤ fuel + n)
    (h : Sound l 0 n s) : ∃ r, (∀ more, fuel ≤ more → loop overflowChecks mem l codeType more s = some r) ∧
      Call.Post (fun _ s => ∃ n, Sound l 0 n s) (Ended l) r := by
  induction fuel generalizing n s with
  | zero =>
    have hbound := h.bound
    omega
  | succ fuel ih =>
    by_cases hnull : s.frame = 0
    · refine ⟨(.ok (), s), fun more _ => ?_, n, h⟩
      rw [loop.eq_def, if_pos hnull]
    · have hbody := body_sound overflowChecks mem hmask codeType s h
      rcases hr : body overflowChecks mem l codeType s with ⟨stop | u, s'⟩ <;> rw [hr] at hbody
      · refine ⟨(.error stop, s'), fun more hmore => ?_, hbody⟩
        obtain ⟨more, rfl⟩ := Nat.exists_eq_add_of_lt hmore
        rw [loop, if_neg hnull]
        simp only [hr]
      · obtain ⟨r, hloop, hpost⟩ := ih (by omega) hbody
        refine ⟨r, fun more hmore => ?_, hpost⟩
        obtain ⟨more, rfl⟩ := Nat.exists_eq_add_of_lt hmore
        rw [loop, if_neg hnull]
        simp only [hr]
        exact hloop _ (by omega)

end Steps

/-! ### The whole walk -/

/-- What is asked of a walk that has ended as `r`. -/
structure Total (l : Layout) (r : Except Stop (List Frame) × Walk) : Prop where
  visits : r.2.visits.length ≤ maxFrames
  noPanic : r.1 ≠ .error .panic
  inRange : r.2.wrapped = false
  addresses : ∀ read ∈ r.2.reads, read.1.toNat + read.2 < 2 ^ 64
  skips : ∀ skip ∈ r.2.skips, skip.2.toNat ∈ l.skipOwners

theorem Sound.total_iff {l : Layout} {k n : ℕ} {s : Walk} (h : Sound l k n s) {r : Except Stop (List Frame)}
    (hr : r ≠ .error .panic) : Total l (r, s) ↔ ∀ owner ∈ s.owners, owner.2.toNat < 8 := by
  constructor
  · intro htotal owner hmem
    by_contra hbig
    have hwrapped := h.wrapped.mpr ⟨owner, hmem, Nat.not_lt.mp hbig⟩
    exact Bool.false_ne_true (htotal.inRange.symm.trans hwrapped)
  · intro hsmall
    refine ⟨h.visits.trans_le h.bound, hr, Bool.eq_false_iff.mpr fun hwrapped => ?_, h.addresses, fun skip hskip => ?_⟩
    · obtain ⟨owner, hmem, hbig⟩ := h.wrapped.mp hwrapped
      exact absurd (hsmall owner hmem) (Nat.not_lt.mpr hbig)
    · obtain ⟨hmem, hlisted⟩ := h.skips skip hskip
      exact hlisted (hsmall skip hmem)

theorem Ended.visits {l : Layout} {stop : Stop} {s : Walk} (h : Ended l stop s) : s.visits.length ≤ maxFrames := by
  cases stop with
  | error e =>
    obtain ⟨k, n, hs⟩ := h
    exact hs.visits.trans_le hs.bound
  | panic => exact h.1

theorem Ended.total_iff {l : Layout} {stop : Stop} {s : Walk} (h : Ended l stop s) :
    Total l (.error stop, s) ↔ ∀ owner ∈ s.owners, owner.2.toNat < 8 := by
  cases stop with
  | error e =>
    obtain ⟨k, n, hs⟩ := h
    exact hs.total_iff nofun
  | panic =>
    obtain ⟨-, owner, hmem, hbig⟩ := h
    exact iff_of_false (fun htotal => htotal.noPanic rfl) fun hsmall => absurd (hsmall owner hmem) (Nat.not_lt.mpr hbig)

/-- The walk always ends within 256 visits. It is free of overflow, and skips frames of the
two owners only, exactly when no owner byte that it reads is 8 or more. -/
theorem walk_total_iff (v : PyVersion) (overflowChecks : Bool) (mem : ℕ → Memory 64) (codeType tstate : Usize)
    (frames : List Frame) : ∃ r, (∀ fuel ≥ maxFrames + 1,
      walk overflowChecks mem v.layout codeType tstate frames fuel = some r) ∧ r.2.visits.length ≤ maxFrames ∧
        (Total v.layout r ↔ ∀ owner ∈ r.2.owners, owner.2.toNat < 8) := by
  have hstart : Sound v.layout 0 0 ⟨[], false, [], [], [], 0, 0, 0, frames⟩ :=
    ⟨rfl, rfl, Nat.zero_le _, le_rfl, Nat.zero_le _, nofun, iff_of_false Bool.false_ne_true nofun, nofun⟩
  have hcurrent := currentFrame_sound mem tstate _ hstart
  rcases hc : currentFrame mem v.layout tstate ⟨[], false, [], [], [], 0, 0, 0, frames⟩ with ⟨stop | frame, s⟩ <;>
    rw [hc] at hcurrent
  · exact ⟨(.error stop, s), fun fuel _ => by simp only [walk, hc], hcurrent.visits, hcurrent.total_iff⟩
  · have hentered : Sound v.layout 0 0 { s with frame } := ⟨hcurrent.visits, hcurrent.visited, hcurrent.bound,
      hcurrent.pushed, hcurrent.room, hcurrent.addresses, hcurrent.wrapped, hcurrent.skips⟩
    obtain ⟨⟨stop | u, s'⟩, hloop, hpost⟩ := loop_stops overflowChecks mem v.maskExact codeType
      (maxFrames + 1) le_rfl hentered
    · exact ⟨(.error stop, s'), fun fuel hfuel => by simp only [walk, hc, hloop fuel hfuel], hpost.visits,
        hpost.total_iff⟩
    · obtain ⟨n, hs⟩ := hpost
      refine ⟨(.ok (s'.frames.take s'.pushed), s'), fun fuel hfuel => ?_, hs.visits.trans_le hs.bound, hs.total_iff nofun⟩
      simp only [walk, hc, hloop fuel hfuel, if_pos hs.room]

/- A thread state of 3.13 whose one frame has 11 as its owner. -/
def ownerEleven : Memory 64 := fun a => some (if a = 0x149 then 2 else if a = 0x246 then 11 else 0)

/- Eleven is three modulo eight: the frame is lost without a word, or the handler panics. -/
theorem owner_eleven_skipped :
    (∃ s, walk false (fun _ => ownerEleven) PyVersion.v313.layout 0x400 0x100 [⟨7, 7⟩] (maxFrames + 1) = some (.ok [], s) ∧
      s.skips = [(0x200, 11)] ∧ s.wrapped = true ∧ 11 ∉ PyVersion.v313.layout.skipOwners) ∧
    ∃ s, walk true (fun _ => ownerEleven) PyVersion.v313.layout 0x400 0x100 [⟨7, 7⟩] (maxFrames + 1) =
      some (.error .panic, s) :=
  ⟨⟨_, rfl, rfl, rfl, by decide⟩, _, rfl⟩

/-! ### On memory that does not change -/

/-- The part of the state that the next iteration reads. -/
def At (visited pushed : ℕ) (frames : List Frame) (s : Walk) : Prop :=
  s.visited = visited ∧ s.pushed = pushed ∧ s.frames = frames

/-- On the same bytes the call computes `r` and leaves the loop's variables alone. -/
def Mirrors {α : Type} (call : WalkCall α) (r : Except UnwindError α) : Prop := ∀ visited pushed frames,
  call.Ensures (At visited pushed frames) (fun a s => r = .ok a ∧ At visited pushed frames s)
    fun stop s => (∃ e, stop = .error e ∧ r = .error e) ∧ At visited pushed frames s

namespace Mirrors
variable {α β : Type} {mem : Memory 64} {l : Layout}

theorem pure (a : α) : Mirrors (Pure.pure a) (.ok a) := fun _ _ _ => .pure fun _ h => ⟨rfl, h⟩

theorem fail (e : UnwindError) : Mirrors (Call.fail (.error e) : WalkCall α) (.error e) :=
  fun _ _ _ => .fail fun _ h => ⟨⟨e, rfl, rfl⟩, h⟩

theorem bind {call : WalkCall α} {f : α → WalkCall β} {r : Except UnwindError α} {g : α → Except UnwindError β}
    (h : Mirrors call r) (hf : ∀ a, r = .ok a → Mirrors (f a) (g a)) : Mirrors (call >>= f) (r >>= g) := by
  intro visited pushed frames s hs
  have hcall := h visited pushed frames s hs
  rcases hr : call s with ⟨stop | a, s'⟩ <;> rw [hr] at hcall
  · rw [Call.bind_of_error hr]
    obtain ⟨⟨e, rfl, rfl⟩, hat⟩ := hcall
    exact ⟨⟨e, rfl, rfl⟩, hat⟩
  · rw [Call.bind_of_ok hr]
    obtain ⟨rfl, hat⟩ := hcall
    exact hf a rfl visited pushed frames s' hat

theorem readBytes (mem : Memory 64) (base : Usize) (offset n : ℕ) :
    Mirrors (Hostile.readBytes (fun _ => mem) base offset n) (Unwind.readBytes mem base offset n) := by
  intro visited pushed frames s hs
  unfold Hostile.readBytes Unwind.readBytes
  cases checkedAdd base offset with
  | none => exact ⟨⟨_, rfl, rfl⟩, hs⟩
  | some addr =>
    dsimp only
    cases checkedAdd addr n with
    | none => exact ⟨⟨_, rfl, rfl⟩, hs⟩
    | some last =>
      dsimp only
      cases mem.bytes addr n with
      | none => exact ⟨⟨_, rfl, rfl⟩, hs⟩
      | some out => exact ⟨rfl, hs⟩

theorem readUsize (mem : Memory 64) (base : Usize) (offset : ℕ) :
    Mirrors (Hostile.readUsize (fun _ => mem) base offset) (Unwind.readUsize mem base offset) :=
  .bind (readBytes mem base offset 8) fun _ _ => .pure _

theorem readBytes_length {base : Usize} {offset n : ℕ} {out : List (BitVec 8)}
    (h : Unwind.readBytes mem base offset n = .ok out) : out.length = n := by
  unfold Unwind.readBytes at h
  split at h
  · cases h
  · split at h
    · cases h
    · split at h
      · cases h
      · next hbytes =>
        cases h
        exact (Memory.bytes_eq_some.mp hbytes).1

theorem readU8 (mem : Memory 64) (base : Usize) (offset : ℕ) :
    Mirrors (Hostile.readU8 (fun _ => mem) base offset) (Unwind.readU8 mem base offset) := by
  refine .bind (readBytes mem base offset 1) fun out hout => ?_
  obtain ⟨b, rfl⟩ := List.length_eq_one_iff.mp (readBytes_length hout)
  have hbyte : BitVec.ofNat 8 (littleEndian [b]) = b := by
    rw [littleEndian, littleEndian, Nat.mul_zero, Nat.add_zero, BitVec.ofNat_toNat, BitVec.setWidth_eq]
  rw [hbyte]
  exact .pure b

theorem readInstr (mem : Memory 64) (l : Layout) (frame : Usize) :
    Mirrors (Hostile.readInstr (fun _ => mem) l frame) (Unwind.readInstr mem l frame) := by
  unfold Hostile.readInstr Unwind.readInstr
  split
  · exact .bind (readBytes mem frame l.instr 4) fun _ _ => .pure _
  · exact readUsize mem frame l.instr

theorem currentFrame (mem : Memory 64) (l : Layout) (tstate : Usize) :
    Mirrors (Hostile.currentFrame (fun _ => mem) l tstate) (Unwind.currentFrame mem l tstate) := by
  refine .bind (readUsize mem tstate l.threadFrame) fun frame _ => ?_
  cases l.cframeFrame with
  | some offset => exact readUsize mem frame offset
  | none => exact .pure frame

/- Without overflow checks the shift wraps, as `Unwind.skipped` has it. -/
theorem skipped (mem : Memory 64) (l : Layout) (frame : Usize) :
    Mirrors (Hostile.skipped false (fun _ => mem) l frame) (Unwind.skipped mem l frame) := by
  unfold Hostile.skipped Unwind.skipped
  cases l.owner with
  | none => exact .pure false
  | some offset =>
    refine .bind (readU8 mem frame offset) fun owner _ visited pushed frames => ?_
    refine .bind (Q := fun _ => At visited pushed frames) (.modify fun _ h => h) fun _ => ?_
    refine .bind (Q := fun (bit : BitVec 8) s => bit = 1 <<< (owner.toNat % 8) ∧ At visited pushed frames s) ?_
      fun bit => ?_
    · intro s hs
      unfold shiftOne arithmetic
      split
      · exact ⟨rfl, hs⟩
      · exact ⟨rfl, hs⟩
    · split
      · next hbit =>
        refine .bind (Q := fun _ s => bit = 1 <<< (owner.toNat % 8) ∧ At visited pushed frames s) (.modify fun _ h => h)
          fun _ => .pure ?_
        rintro s ⟨rfl, hat⟩
        exact ⟨congrArg Except.ok hbit, hat⟩
      · next hbit =>
        refine .pure ?_
        rintro s ⟨rfl, hat⟩
        exact ⟨congrArg Except.ok (Bool.eq_false_iff.mpr hbit), hat⟩

def errorIf (c : Prop) [Decidable c] (e : UnwindError) : Except UnwindError Unit := if c then .error e else .ok ()

theorem failIf (c : Prop) [Decidable c] (e : UnwindError) : Mirrors (Call.failIf c (.error e)) (errorIf c e) := by
  unfold Call.failIf errorIf
  split
  · exact .fail e
  · exact .pure ()

/-- The rest of `Unwind.visit`, for a frame that is not skipped. -/
def pythonPart (mem : Memory 64) (l : Layout) (codeType frame : Usize) : Except UnwindError Frame := do
  let executable ← Unwind.readUsize mem frame l.executable
  let code := executable &&& l.executableMask
  let instr ← Unwind.readInstr mem l frame
  errorIf (code = 0) .invalidCodeType
  let obType ← Unwind.readUsize mem code l.obType
  errorIf (obType ≠ codeType) .invalidCodeType
  return ⟨code, instr⟩

theorem visit_eq (codeType frame : Usize) : Unwind.visit mem l codeType frame = (do
    let previous ← Unwind.readUsize mem frame l.previous
    let skip ← Unwind.skipped mem l frame
    if skip then return (previous, none)
    else do
      let f ← pythonPart mem l codeType frame
      return (previous, some f)) := by
  unfold Unwind.visit pythonPart
  cases Unwind.readUsize mem frame l.previous with
  | error e => rfl
  | ok previous =>
    cases Unwind.skipped mem l frame with
    | error e => rfl
    | ok skip =>
      cases skip with
      | true => rfl
      | false =>
        cases Unwind.readUsize mem frame l.executable with
        | error e => rfl
        | ok executable =>
          cases Unwind.readInstr mem l frame with
          | error e => rfl
          | ok instr =>
            simp only [Bind.bind, Except.bind, Bool.false_eq_true, if_false, errorIf]
            split
            · rfl
            · cases Unwind.readUsize mem (executable &&& l.executableMask) l.obType with
              | error e => rfl
              | ok obType =>
                dsimp only
                split <;> rfl

theorem pythonFrame (mem : Memory 64) (l : Layout) (codeType frame : Usize) :
    Mirrors (Hostile.pythonFrame (fun _ => mem) l codeType frame) (pythonPart mem l codeType frame) := by
  refine .bind (readUsize mem frame l.executable) fun executable _ => .bind (readInstr mem l frame) fun instr _ => ?_
  refine .bind (failIf _ _) fun _ _ => .bind (readUsize mem _ l.obType) fun obType _ => ?_
  exact .bind (failIf _ _) fun _ _ => .pure _

end Mirrors

section Constant
variable {mem : Memory 64} {l : Layout} {codeType frame : Usize} {visited pushed : ℕ} {frames : List Frame}

theorem push_at (hp : pushed < maxFrames) (f : Frame) : (push false f).Ensures (At visited pushed frames)
    (fun _ s => pushed < frames.length ∧ At visited (pushed + 1) (frames.set pushed f) s)
    fun stop s => stop = .error .truncated ∧ ¬pushed < frames.length ∧ s.frames = frames := by
  refine .bind (Q := fun s₀ s => s = s₀ ∧ At visited pushed frames s) (.get fun s h => ⟨rfl, h⟩) fun s₀ => ?_
  refine .bind (Q := fun _ s => s = s₀ ∧ pushed < frames.length ∧ At visited pushed frames s) ?_ fun _ => ?_
  · refine .failIf (fun hfull s h => ?_) fun hroom s h => ?_
    · obtain ⟨rfl, -, rfl, rfl⟩ := h
      exact ⟨rfl, hfull, rfl⟩
    · obtain ⟨rfl, hvisited, rfl, rfl⟩ := h
      exact ⟨rfl, not_not.mp hroom, hvisited, rfl, rfl⟩
  refine .bind (Q := fun _ s => pushed < frames.length ∧ s₀.pushed = pushed ∧
    At visited pushed (frames.set pushed f) s) (.modify ?_) fun _ => ?_
  · rintro s ⟨rfl, hroom, hvisited, rfl, rfl⟩
    exact ⟨hroom, rfl, hvisited, rfl, rfl⟩
  have hfits : ∀ s : Walk, pushed < frames.length ∧ s₀.pushed = pushed ∧ At visited pushed (frames.set pushed f) s →
      s₀.pushed + 1 < 2 ^ 64 := by
    rintro s ⟨-, he, -⟩
    unfold maxFrames at hp
    omega
  refine .bind (arithmetic_fits hfits _) fun next => .modify ?_
  rintro s ⟨rfl, h⟩
  have hmod : (s₀.pushed + 1) % 2 ^ 64 = pushed + 1 := by
    rw [Nat.mod_eq_of_lt (hfits s h), h.2.1]
  exact ⟨h.1, h.2.2.1, hmod, h.2.2.2.2⟩

/- One iteration is one `Unwind.visit`. -/
theorem body_at (mem : Memory 64) (l : Layout) (codeType frame : Usize) (visited pushed : ℕ) (frames : List Frame)
    (hv : visited < maxFrames) (hp : pushed < maxFrames) :
    (body false (fun _ => mem) l codeType).Ensures (fun s => At visited pushed frames s ∧ s.frame = frame)
      (fun _ s => ∃ previous, s.frame = previous ∧
        (Unwind.visit mem l codeType frame = .ok (previous, none) ∧ At (visited + 1) pushed frames s ∨
          ∃ f, Unwind.visit mem l codeType frame = .ok (previous, some f) ∧ pushed < frames.length ∧
            At (visited + 1) (pushed + 1) (frames.set pushed f) s))
      fun stop s => s.frames = frames ∧ ((∃ e, stop = .error e ∧ Unwind.visit mem l codeType frame = .error e) ∨
        ∃ previous f, stop = .error .truncated ∧ Unwind.visit mem l codeType frame = .ok (previous, some f) ∧
          ¬pushed < frames.length) := by
  refine .bind (Q := fun s₀ s => s = s₀ ∧ At visited pushed frames s ∧ s.frame = frame) (.get fun s h => ⟨rfl, h⟩)
    fun s₀ => ?_
  refine .bind (Q := fun _ s => s = s₀ ∧ At visited pushed frames s ∧ s.frame = frame) ?_ fun _ => ?_
  · refine .failIf (fun hfull s h => ?_) fun _ _ h => h
    obtain ⟨rfl, ⟨rfl, -, -⟩, -⟩ := h
    exact absurd hfull hv.ne
  have hfits : ∀ s : Walk, s = s₀ ∧ At visited pushed frames s ∧ s.frame = frame → s₀.visited + 1 < 2 ^ 64 := by
    rintro s ⟨rfl, ⟨he, -, -⟩, -⟩
    unfold maxFrames at hv
    omega
  refine .bind (arithmetic_fits hfits _) fun next => ?_
  refine .bind (Q := fun _ s => s₀.frame = frame ∧ At (visited + 1) pushed frames s) (.modify ?_) fun _ => ?_
  · rintro s ⟨rfl, rfl, ⟨rfl, rfl, rfl⟩, rfl⟩
    exact ⟨rfl, Nat.mod_eq_of_lt (hfits s ⟨rfl, ⟨rfl, rfl, rfl⟩, rfl⟩), rfl, rfl⟩
  rintro s ⟨rfl, hat⟩
  have hprevious := Mirrors.readUsize mem s₀.frame l.previous _ _ _ s hat
  rcases hr : readUsize (fun _ => mem) s₀.frame l.previous s with ⟨stop | previous, s₁⟩ <;> rw [hr] at hprevious
  · obtain ⟨⟨e, rfl, he⟩, hat₁⟩ := hprevious
    rw [Call.bind_of_error hr]
    exact ⟨hat₁.2.2, .inl ⟨e, rfl, by rw [Mirrors.visit_eq, he]; rfl⟩⟩
  obtain ⟨hprev, hat₁⟩ := hprevious
  rw [Call.bind_of_ok hr]
  have hskipped := Mirrors.skipped mem l s₀.frame _ _ _ s₁ hat₁
  rcases hk : skipped false (fun _ => mem) l s₀.frame s₁ with ⟨stop | skip, s₂⟩ <;> rw [hk] at hskipped
  · obtain ⟨⟨e, rfl, he⟩, hat₂⟩ := hskipped
    rw [Call.bind_of_error hk]
    exact ⟨hat₂.2.2, .inl ⟨e, rfl, by rw [Mirrors.visit_eq, hprev, he]; rfl⟩⟩
  obtain ⟨hskip, hat₂⟩ := hskipped
  rw [Call.bind_of_ok hk]
  cases skip with
  | true => exact ⟨previous, rfl, .inl ⟨by rw [Mirrors.visit_eq, hprev, hskip]; rfl, hat₂⟩⟩
  | false =>
    have hpython := Mirrors.pythonFrame mem l codeType s₀.frame _ _ _ s₂ hat₂
    rw [if_neg Bool.false_ne_true]
    rcases hf : pythonFrame (fun _ => mem) l codeType s₀.frame s₂ with ⟨stop | f, s₃⟩ <;> rw [hf] at hpython
    · obtain ⟨⟨e, rfl, he⟩, hat₃⟩ := hpython
      rw [Call.bind_of_error hf]
      refine ⟨hat₃.2.2, .inl ⟨e, rfl, ?_⟩⟩
      rw [Mirrors.visit_eq, hprev, hskip]
      show (Mirrors.pythonPart mem l codeType s₀.frame >>= fun f => _) = _
      rw [he]
      rfl
    obtain ⟨hframe, hat₃⟩ := hpython
    have hvisit : Unwind.visit mem l codeType s₀.frame = .ok (previous, some f) := by
      rw [Mirrors.visit_eq, hprev, hskip]
      show (Mirrors.pythonPart mem l codeType s₀.frame >>= fun f => _) = _
      rw [hframe]
      rfl
    rw [Call.bind_of_ok hf]
    refine Call.Ensures.bind (push_at hp f |>.conseq (fun _ h => h) (fun _ _ h => h) ?_) (fun _ => .modify ?_) s₃ hat₃
    · rintro stop s ⟨rfl, hfull, hframes⟩
      exact ⟨hframes, .inr ⟨previous, f, rfl, hvisit, hfull⟩⟩
    · rintro s ⟨hroom, hat₄⟩
      exact ⟨previous, rfl, .inr ⟨f, hvisit, hroom, hat₄⟩⟩

def Agree (r : Except Stop Unit × Walk) (w : Except UnwindError ℕ × List Frame) : Prop :=
  r.2.frames = w.2 ∧ ((∃ e, r.1 = .error (.error e) ∧ w.1 = .error e) ∨
    (r.1 = .ok () ∧ w.1 = .ok r.2.pushed ∧ r.2.pushed ≤ r.2.frames.length))

theorem loop_null (mem : Memory 64) (l : Layout) (codeType : Usize) {left fuel : ℕ} {s : Walk} (hnull : s.frame = 0)
    (hroom : s.pushed ≤ s.frames.length) : ∃ r, loop false (fun _ => mem) l codeType (fuel + 1) s = some r ∧
      Agree r (Unwind.walkFrom mem l codeType left s.frame s.frames s.pushed) := by
  refine ⟨(.ok (), s), by rw [loop, if_pos hnull], ?_⟩
  rw [Unwind.walkFrom.eq_def]
  cases left with
  | zero =>
    simp only [if_pos hnull]
    exact ⟨rfl, .inr ⟨rfl, rfl, hroom⟩⟩
  | succ left =>
    simp only [if_pos hnull]
    exact ⟨rfl, .inr ⟨rfl, rfl, hroom⟩⟩

theorem loop_constant (mem : Memory 64) (l : Layout) (codeType : Usize) {left fuel : ℕ} {s : Walk} (hleft : s.visited + left = maxFrames) (hp : s.pushed ≤ s.visited)
    (hroom : s.pushed ≤ s.frames.length) (hfuel : left < fuel) : ∃ r, loop false (fun _ => mem) l codeType fuel s = some r ∧
      Agree r (Unwind.walkFrom mem l codeType left s.frame s.frames s.pushed) := by
  induction left generalizing s fuel with
  | zero =>
    obtain ⟨fuel, rfl⟩ := Nat.exists_eq_add_of_lt hfuel
    by_cases hnull : s.frame = 0
    · exact loop_null mem l codeType hnull hroom
    · have hfull : body false (fun _ => mem) l codeType s = (.error (.error .truncated), s) := by
        have hvisited : s.visited = maxFrames := hleft
        have hget : (Call.get : WalkCall Walk) s = (.ok s, s) := rfl
        refine (Call.bind_of_ok hget).trans (Call.bind_of_error ?_)
        rw [Call.failIf, if_pos hvisited]
        rfl
      refine ⟨(.error (.error .truncated), s), ?_, ?_⟩
      · rw [loop, if_neg hnull]
        simp only [hfull]
      · rw [Unwind.walkFrom, if_neg hnull]
        exact ⟨rfl, .inl ⟨.truncated, rfl, rfl⟩⟩
  | succ left ih =>
    obtain ⟨fuel, rfl⟩ := Nat.exists_eq_add_of_lt hfuel
    by_cases hnull : s.frame = 0
    · exact loop_null mem l codeType hnull hroom
    · have hbody := body_at mem l codeType s.frame s.visited s.pushed s.frames (by omega) (by omega) s
        ⟨⟨rfl, rfl, rfl⟩, rfl⟩
      rw [loop, if_neg hnull, Unwind.walkFrom, if_neg hnull]
      rcases hr : body false (fun _ => mem) l codeType s with ⟨stop | u, s'⟩ <;> rw [hr] at hbody
      · refine ⟨(.error stop, s'), rfl, ?_⟩
        obtain ⟨hframes, ⟨e, rfl, he⟩ | ⟨previous, f, rfl, hvisit, hfull⟩⟩ := hbody
        · simp only [he]
          exact ⟨hframes, .inl ⟨e, rfl, rfl⟩⟩
        · simp only [hvisit, if_neg hfull]
          exact ⟨hframes, .inl ⟨.truncated, rfl, rfl⟩⟩
      · obtain ⟨_, rfl, ⟨hvisit, hv, hpushed, hframes⟩ | ⟨f, hvisit, hlt, hv, hpushed, hframes⟩⟩ := hbody
        · simp only [hvisit]
          rw [← hframes] at hroom
          rw [← hpushed, ← hframes]
          exact ih (by omega) (by omega) (by omega) (by omega)
        · have hlength : s'.frames.length = s.frames.length := by rw [hframes, List.length_set]
          simp only [hvisit, if_pos hlt]
          rw [← hpushed, ← hframes]
          exact ih (by omega) (by omega) (by omega) (by omega)

/-- In a build without overflow checks, on memory that does not change, this is `Unwind.walk`. -/
theorem walk_constant (mem : Memory 64) (l : Layout) (codeType tstate : Usize) (frames : List Frame) :
    ∃ s, walk false (fun _ => mem) l codeType tstate frames (maxFrames + 1) =
        some (((Unwind.walk mem l codeType tstate frames).1.mapError Stop.error).map s.frames.take, s) ∧
      s.frames = (Unwind.walk mem l codeType tstate frames).2 := by
  have hcurrent := Mirrors.currentFrame mem l tstate 0 0 frames
    ⟨[], false, [], [], [], 0, 0, 0, frames⟩ ⟨rfl, rfl, rfl⟩
  rw [walk, Unwind.walk]
  rcases hc : currentFrame (fun _ => mem) l tstate ⟨[], false, [], [], [], 0, 0, 0, frames⟩ with ⟨stop | frame, s⟩ <;>
    rw [hc] at hcurrent
  · obtain ⟨⟨e, rfl, he⟩, hat⟩ := hcurrent
    rw [he]
    exact ⟨s, rfl, hat.2.2⟩
  · obtain ⟨hframe, hv, hp, hframes⟩ := hcurrent
    have hvisited : s.visited + maxFrames = maxFrames := by omega
    have hpushed : s.pushed ≤ s.visited := by omega
    have hroom : s.pushed ≤ s.frames.length := by omega
    obtain ⟨⟨r, s'⟩, hloop, hagree⟩ := loop_constant mem l codeType (s := { s with frame }) hvisited hpushed hroom
      (Nat.lt_succ_self maxFrames)
    simp only [hframe, hloop]
    have hsame : Unwind.walkFrom mem l codeType maxFrames frame s.frames s.pushed =
        Unwind.walkFrom mem l codeType maxFrames frame frames 0 := by
      rw [hp, hframes]
    rw [hsame] at hagree
    obtain ⟨hwritten, ⟨e, hr, he⟩ | ⟨hr, hpushed, hfits⟩⟩ := hagree
    · obtain rfl : r = .error (.error e) := hr
      rw [he]
      exact ⟨s', rfl, hwritten⟩
    · obtain rfl : r = .ok () := hr
      rw [hpushed]
      have hslice : (if s'.pushed ≤ s'.frames.length then Except.ok (s'.frames.take s'.pushed)
          else Except.error Stop.panic) = .ok (s'.frames.take s'.pushed) := if_pos hfits
      exact ⟨s', congrArg (fun r => some (r, s')) hslice, hwritten⟩

end Constant

end Pyroscope.Signal.Hostile
