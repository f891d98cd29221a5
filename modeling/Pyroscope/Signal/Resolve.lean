import Pyroscope.Lib.Narrow
import Pyroscope.Lib.Call
import Pyroscope.Signal.FrameChain

/-!
# Resolving recorded stacks (signal_sampler/resolve.rs)

The walk records the instruction of a frame as a word, the resolver turns that word into
the `f_lasti` that py-spy expects. Py-spy's `resolve_frames` is a parameter of each call,
so that what it finds in memory may differ from call to call.
-/

namespace Pyroscope.Signal.Resolve
open Pyroscope.Lib
open Pyroscope.Signal (Frame Metrics ResolvedFrame UnwindError maxFrames)
open Pyroscope.Signal.Unwind (PyVersion Layout visit walk walkFrom currentFrame)
open Pyroscope.Ring (Usize)

inductive Lines where
  | lastInstruction
  | first
  | noLine
  deriving DecidableEq, Repr

/-- Addresses of type objects, checked by py-spy. -/
structure Types where
  code : Usize
  string : Usize
  dict : Usize
  deriving DecidableEq, Repr

structure RawFrame where
  frame : Usize
  code : Usize
  lasti : BitVec 32
  isEntry : Bool
  isShimEntry : Bool
  deriving DecidableEq, Repr

inductive Error (E : Type) where
  | instructionBeforeCode (instr code : Usize)
  | instructionOffset
  | pySpy (e : E)
  deriving DecidableEq, Repr

structure Resolver where
  types : Types
  lines : Lines
  raw : List RawFrame
  deriving DecidableEq, Repr

def Resolver.new (types : Types) (lines : Lines) : Resolver := ⟨types, lines, []⟩

/-- `given` is what the current call has passed to py-spy. -/
structure State where
  resolver : Resolver
  metrics : Metrics
  given : Option (List RawFrame)

/- `copy_locals` is false in every call. -/
abbrev ResolveFrames (E : Type) : Type :=
  List RawFrame → Lines → Types → Except E (List ResolvedFrame)

structure StackCall (E : Type) where
  frames : List Frame
  resolveFrames : ResolveFrames E

section Operations
variable {E : Type} (v : PyVersion)

def i32TryFrom (n : ℤ) : Except (Error E) (BitVec 32) :=
  match toSigned 32 n with
  | some lasti => .ok lasti
  | none => .error .instructionOffset

/-- Code units on 3.10, bytes from the code object on 3.11 and later. -/
def instructionOffset (f : Frame) : Except (Error E) (BitVec 32) :=
  match v with
  | .v310 => i32TryFrom f.instr.toInt
  | _ =>
    match checkedSub f.instr f.code with
    | none => .error (.instructionBeforeCode f.instr f.code)
    | some offset => i32TryFrom offset.toNat

def lasti (lines : Lines) (f : Frame) : Except (Error E) (BitVec 32) :=
  match lines with
  | .lastInstruction => instructionOffset v f
  | .first => .ok 0
  | .noLine => .ok 0

namespace State

def clear (s : State) : State := { s with resolver.raw := [], given := none }

def push (s : State) (raw : RawFrame) : State := { s with resolver.raw := s.resolver.raw ++ [raw] }

def give (s : State) : State := { s with given := some s.resolver.raw }

def countError (s : State) : State := { s with metrics := s.metrics.fetchAdd .resolveError }

end State

def RawFrame.of (f : Frame) (lasti : BitVec 32) : RawFrame := ⟨0, f.code, lasti, false, false⟩

def pushFrame (f : Frame) : Call State (Error E) Unit := do
  let s ← Call.get
  let lasti ← Call.returned (lasti v s.resolver.lines f)
  Call.modify fun s => s.push (.of f lasti)

def resolveStackInner (c : StackCall E) : Call State (Error E) (List ResolvedFrame) := do
  Call.modify State.clear
  Call.forEach (pushFrame v) c.frames
  Call.modify State.give
  let s ← Call.get
  Call.returned ((c.resolveFrames s.resolver.raw s.resolver.lines s.resolver.types).mapError .pySpy)

def resolveStack (c : StackCall E) : Call State (Error E) (List ResolvedFrame) :=
  Call.guarded State.countError (resolveStackInner v c)

/-- The result of a call and what py-spy was given, if it was called. -/
structure Answer (E : Type) where
  result : Except (Error E) (List ResolvedFrame)
  given : Option (List RawFrame)

def answer (c : StackCall E) (s : State) : Answer E × State :=
  let (result, s) := resolveStack v c s
  (⟨result, s.given⟩, s)

def run : List (StackCall E) → State → List (Answer E) × State
  | [], s => ([], s)
  | c :: cs, s =>
    let (a, s) := answer v c s
    let (as, s) := run cs s
    (a :: as, s)

def State.new (types : Types) (lines : Lines) (metrics : Metrics) : State :=
  ⟨.new types lines, metrics, none⟩

/-- The answer of a resolver made for this stack. -/
def alone (types : Types) (lines : Lines) (c : StackCall E) : Answer E :=
  (answer v c (.new types lines .zero)).1

def Answer.failed (a : Answer E) : Bool := !a.result.isOk

end Operations

/-! ### What a call does -/

section Exact
variable {E : Type} {v : PyVersion} {types : Types} {lines : Lines} {m : Metrics}

def rawFrame (v : PyVersion) (lines : Lines) (f : Frame) : Except (Error E) RawFrame :=
  (lasti v lines f).map (RawFrame.of f)

/-- The frames for py-spy, or the error of the first frame that has none. -/
def rawFrames (v : PyVersion) (lines : Lines) : List Frame → Except (Error E) (List RawFrame)
  | [] => .ok []
  | f :: fs =>
    match rawFrame v lines f, rawFrames v lines fs with
    | .ok raw, .ok raws => .ok (raw :: raws)
    | .ok _, .error e => .error e
    | .error e, _ => .error e

theorem pushFrame_ensures (f : Frame) (done : List RawFrame) :
    (pushFrame (E := E) v f).Ensures (fun s => s = ⟨⟨types, lines, done⟩, m, none⟩)
      (fun _ s => ∃ raw, rawFrame (E := E) v lines f = .ok raw ∧ s = ⟨⟨types, lines, done ++ [raw]⟩, m, none⟩)
      (fun e s => rawFrame v lines f = .error e ∧ ∃ left, s = ⟨⟨types, lines, left⟩, m, none⟩) := by
  refine .bind (Q := fun s₀ s => s = s₀ ∧ s = ⟨⟨types, lines, done⟩, m, none⟩) (.get fun _ h => ⟨rfl, h⟩) fun s₀ => ?_
  refine .bind (Q := fun lasti s => rawFrame (E := E) v lines f = .ok (.of f lasti) ∧
    s = ⟨⟨types, lines, done⟩, m, none⟩) (.returned ?_ ?_) fun lasti => .modify ?_
  · rintro lasti hl s ⟨rfl, rfl⟩
    exact ⟨by rw [rawFrame, hl]; rfl, rfl⟩
  · rintro e he s ⟨rfl, rfl⟩
    exact ⟨by rw [rawFrame, he]; rfl, done, rfl⟩
  · rintro s ⟨hraw, rfl⟩
    exact ⟨.of f lasti, hraw, rfl⟩

/- Induction on the frames; what was pushed before stays in front. -/
theorem pushFrames_ensures (frames : List Frame) (done : List RawFrame) :
    (Call.forEach (pushFrame (E := E) v) frames).Ensures (fun s => s = ⟨⟨types, lines, done⟩, m, none⟩)
      (fun _ s => ∃ raws, rawFrames (E := E) v lines frames = .ok raws ∧
        s = ⟨⟨types, lines, done ++ raws⟩, m, none⟩)
      (fun e s => rawFrames v lines frames = .error e ∧ ∃ left, s = ⟨⟨types, lines, left⟩, m, none⟩) := by
  induction frames generalizing done with
  | nil =>
    rintro s rfl
    exact ⟨[], rfl, by rw [List.append_nil]⟩
  | cons f fs ih =>
    rw [Call.forEach]
    refine .bind ((pushFrame_ensures f done).conseq (fun _ h => h) (fun _ _ h => h) ?_) fun _ => ?_
    · rintro e s ⟨he, hs⟩
      exact ⟨by rw [rawFrames, he], hs⟩
    · rintro s ⟨raw, hraw, rfl⟩
      refine (ih (done ++ [raw]) _ rfl).imp ?_ ?_
      · rintro _ s ⟨raws, hraws, rfl⟩
        exact ⟨raw :: raws, by rw [rawFrames, hraw, hraws], by rw [List.append_assoc, List.singleton_append]⟩
      · rintro e s ⟨he, hs⟩
        exact ⟨by rw [rawFrames, hraw, he], hs⟩

/-- The answer from what the resolver never changes. -/
def expected (v : PyVersion) (types : Types) (lines : Lines) (c : StackCall E) : Answer E :=
  match rawFrames v lines c.frames with
  | .ok raws => ⟨(c.resolveFrames raws lines types).mapError .pySpy, some raws⟩
  | .error e => ⟨.error e, none⟩

/- From any contents of the buffer. -/
theorem resolveStackInner_ensures (c : StackCall E) (left : List RawFrame) (given : Option (List RawFrame)) :
    (resolveStackInner v c).Ensures (fun s => s = ⟨⟨types, lines, left⟩, m, given⟩)
      (fun trace s => ⟨.ok trace, s.given⟩ = expected v types lines c ∧ ∃ raw, s = ⟨⟨types, lines, raw⟩, m, s.given⟩)
      (fun e s => ⟨.error e, s.given⟩ = expected v types lines c ∧ ∃ raw, s = ⟨⟨types, lines, raw⟩, m, s.given⟩) := by
  refine .bind (Q := fun _ s => s = ⟨⟨types, lines, []⟩, m, none⟩) (.modify ?_) fun _ => ?_
  · rintro s rfl
    rfl
  refine .bind ((pushFrames_ensures c.frames []).conseq (fun _ h => h) (fun _ _ h => h) ?_) fun _ => ?_
  · rintro e s ⟨he, raw, rfl⟩
    exact ⟨by rw [expected, he], raw, rfl⟩
  refine .bind (Q := fun _ s => ∃ raws, rawFrames (E := E) v lines c.frames = .ok raws ∧
    s = ⟨⟨types, lines, raws⟩, m, some raws⟩) (.modify ?_) fun _ => ?_
  · rintro s ⟨raws, hraws, rfl⟩
    exact ⟨raws, hraws, rfl⟩
  rintro s ⟨raws, hraws, rfl⟩
  show Call.Post _ _ ((c.resolveFrames raws lines types).mapError Error.pySpy, _)
  cases hr : c.resolveFrames raws lines types with
  | ok trace => exact ⟨by rw [expected, hraws]; dsimp only; rw [hr]; rfl, raws, rfl⟩
  | error e => exact ⟨by rw [expected, hraws]; dsimp only; rw [hr]; rfl, raws, rfl⟩

structure Answered (v : PyVersion) (c : StackCall E) (s : State) (r : Answer E × State) : Prop where
  answer : r.1 = expected v s.resolver.types s.resolver.lines c
  types : r.2.resolver.types = s.resolver.types
  lines : r.2.resolver.lines = s.resolver.lines
  metrics : r.2.metrics = if r.1.failed then s.metrics.fetchAdd .resolveError else s.metrics

theorem answer_answered (v : PyVersion) (c : StackCall E) (s : State) : Answered v c s (answer v c s) := by
  have hinner := resolveStackInner_ensures (v := v) c s.resolver.raw s.given s rfl
  rw [answer, resolveStack, Call.guarded]
  rcases h : resolveStackInner v c s with ⟨e | trace, s'⟩
  · rw [h] at hinner
    obtain ⟨hexp, raw, hs⟩ := hinner
    rw [hs]
    exact ⟨hexp, rfl, rfl, rfl⟩
  · rw [h] at hinner
    obtain ⟨hexp, raw, hs⟩ := hinner
    rw [hs]
    exact ⟨hexp, rfl, rfl, rfl⟩

theorem alone_eq (v : PyVersion) (types : Types) (lines : Lines) (c : StackCall E) :
    alone v types lines c = expected v types lines c :=
  (answer_answered v c (.new types lines .zero)).answer

/- Induction on the calls; only the types and the choice of lines are carried along. -/
theorem run_alone (calls : List (StackCall E)) (s : State) :
    (run v calls s).1 = calls.map (alone v s.resolver.types s.resolver.lines) ∧
      ∀ r, (run v calls s).2.metrics r = s.metrics r +
        if r = .resolveError then calls.countP fun c => (alone v s.resolver.types s.resolver.lines c).failed else 0 := by
  induction calls generalizing s with
  | nil => exact ⟨rfl, fun r => by simp [run]⟩
  | cons c calls ih =>
    have hc := answer_answered v c s
    obtain ⟨hanswers, hmetrics⟩ := ih (answer v c s).2
    rw [hc.types, hc.lines] at hanswers hmetrics
    have hfailed : (answer v c s).1 = alone v s.resolver.types s.resolver.lines c := by rw [hc.answer, alone_eq]
    refine ⟨?_, fun r => ?_⟩
    · rw [List.map_cons, ← hanswers, ← hfailed]
      rfl
    · show (run v calls (answer v c s).2).2.metrics r = _
      rw [hmetrics r, hc.metrics, hfailed, List.countP_cons]
      by_cases hr : r = .resolveError <;>
        by_cases hf : (alone v s.resolver.types s.resolver.lines c).failed <;>
        simp [hr, hf, Metrics.fetchAdd]
      omega

end Exact

/-! ### Offsets of 3.11 and later -/

/-- The instruction lies at or after the code object, and near enough. -/
def InRange (f : Frame) : Prop :=
  f.code.toNat ≤ f.instr.toNat ∧ f.instr.toNat - f.code.toNat ≤ 2 ^ 31 - 1

instance (f : Frame) : Decidable (InRange f) := inferInstanceAs (Decidable (_ ∧ _))

/-- `code + offset = instr` -/
def OffsetOf (f : Frame) (raw : RawFrame) : Prop :=
  ∃ lasti, raw = .of f lasti ∧ 0 ≤ lasti.toInt ∧ (f.code.toNat : ℤ) + lasti.toInt = f.instr.toNat

section Offsets
variable {E : Type} {v : PyVersion}

theorem instructionOffset_bytes (hv : v ≠ .v310) (f : Frame) :
    instructionOffset (E := E) v f = match checkedSub f.instr f.code with
      | none => .error (.instructionBeforeCode f.instr f.code)
      | some offset => i32TryFrom offset.toNat := by
  cases v with
  | v310 => exact (hv rfl).elim
  | _ => rfl

theorem rawFrame_inRange (hv : v ≠ .v310) {f : Frame} (h : InRange f) :
    ∃ raw, rawFrame (E := E) v .lastInstruction f = .ok raw ∧ OffsetOf f raw := by
  obtain ⟨hle, hnear⟩ := h
  obtain ⟨offset, hsub, hoffset⟩ := checkedSub_of_le hle
  have hsome : (toSigned 32 (offset.toNat : ℤ)).isSome := (toSigned_isSome (Int.natCast_nonneg _)).mpr (by omega)
  obtain ⟨x, hx⟩ := Option.isSome_iff_exists.mp hsome
  have hint := toInt_toSigned (by decide) hx
  refine ⟨.of f x, ?_, x, rfl, by omega, by omega⟩
  rw [rawFrame, lasti, instructionOffset_bytes hv, hsub]
  dsimp only
  rw [i32TryFrom, hx]
  rfl

theorem rawFrame_outOfRange (hv : v ≠ .v310) {f : Frame} (h : ¬InRange f) :
    ∃ e, rawFrame (E := E) v .lastInstruction f = .error e := by
  rw [rawFrame, lasti, instructionOffset_bytes hv]
  rcases Nat.lt_or_ge f.instr.toNat f.code.toNat with hlt | hle
  · rw [checkedSub_of_lt hlt]
    exact ⟨_, rfl⟩
  · obtain ⟨offset, hsub, hoffset⟩ := checkedSub_of_le hle
    have hfar : ¬offset.toNat < 2 ^ 31 := fun hlt => h ⟨hle, by omega⟩
    have hnone : ¬(toSigned 32 (offset.toNat : ℤ)).isSome := by
      rw [toSigned_isSome (Int.natCast_nonneg _)]
      omega
    rw [hsub]
    dsimp only
    rw [i32TryFrom, Option.not_isSome_iff_eq_none.mp hnone]
    exact ⟨_, rfl⟩

theorem rawFrames_inRange (hv : v ≠ .v310) {frames : List Frame} (h : ∀ f ∈ frames, InRange f) :
    ∃ raws, rawFrames (E := E) v .lastInstruction frames = .ok raws ∧ List.Forall₂ OffsetOf frames raws := by
  induction frames with
  | nil => exact ⟨[], rfl, .nil⟩
  | cons f fs ih =>
    obtain ⟨hf, hfs⟩ := List.forall_mem_cons.mp h
    obtain ⟨raw, hraw, hoffset⟩ := rawFrame_inRange (E := E) hv hf
    obtain ⟨raws, hraws, hoffsets⟩ := ih hfs
    exact ⟨raw :: raws, by rw [rawFrames, hraw, hraws], .cons hoffset hoffsets⟩

theorem rawFrames_outOfRange (hv : v ≠ .v310) {frames : List Frame} (h : ¬∀ f ∈ frames, InRange f) :
    ∃ e, rawFrames (E := E) v .lastInstruction frames = .error e := by
  induction frames with
  | nil => exact (h fun f hf => nomatch hf).elim
  | cons f fs ih =>
    rw [rawFrames]
    by_cases hf : InRange f
    · obtain ⟨raw, hraw, -⟩ := rawFrame_inRange (E := E) hv hf
      obtain ⟨e, he⟩ := ih fun hfs => h (List.forall_mem_cons.mpr ⟨hf, hfs⟩)
      rw [hraw, he]
      exact ⟨e, rfl⟩
    · obtain ⟨e, he⟩ := rawFrame_outOfRange (E := E) hv hf
      rw [he]
      exact ⟨e, rfl⟩

end Offsets

/-! ### Frames that the walk has read -/

section Walk
variable (mem : Memory 64) (l : Layout) (codeType : Usize)

/-- The frames that a walk from this one pushes, with their addresses. -/
inductive Visited : Usize → List (Usize × Frame) → Prop where
  | null : Visited 0 []
  | skipped {frame previous visits} (hne : frame ≠ 0)
      (h : visit mem l codeType frame = .ok (previous, none)) (hr : Visited previous visits) :
    Visited frame visits
  | pushed {frame previous f visits} (hne : frame ≠ 0)
      (h : visit mem l codeType frame = .ok (previous, some f)) (hr : Visited previous visits) :
    Visited frame ((frame, f) :: visits)

/-- The `i32` in the frame object of 3.10. -/
def FLasti (frame : Usize) (lasti : BitVec 32) : Prop :=
  ∃ bs, mem.Field frame PyVersion.v310.layout.instr 4 bs ∧ lasti = BitVec.ofNat 32 (littleEndian bs)

/-- Py-spy gets the code object and the `f_lasti` of the frame. -/
def LastiOf (visited : Usize × Frame) (raw : RawFrame) : Prop :=
  ∃ lasti, FLasti mem visited.1 lasti ∧ raw = .of visited.2 lasti

end Walk

section Walked
variable {E : Type} {mem : Memory 64} {l : Layout} {codeType : Usize}

/- Induction on the iterations that are left; the frames pushed before stay in front. -/
theorem walkFrom_visited {left pushed n : ℕ} {frame : Usize} {frames written : List Frame}
    (h : walkFrom mem l codeType left frame frames pushed = (.ok n, written)) :
    ∃ visits, Visited mem l codeType frame visits ∧
      written.take n = frames.take pushed ++ visits.map Prod.snd := by
  induction left generalizing frame frames pushed with
  | zero =>
    rw [walkFrom] at h
    split at h
    · next hnull =>
      cases h
      rw [hnull]
      exact ⟨[], .null, by rw [List.map_nil, List.append_nil]⟩
    · cases h
  | succ left ih =>
    rw [walkFrom] at h
    split at h
    · next hnull =>
      cases h
      rw [hnull]
      exact ⟨[], .null, by rw [List.map_nil, List.append_nil]⟩
    · next hne =>
      cases hv : visit mem l codeType frame with
      | error e =>
        rw [hv] at h
        cases h
      | ok r =>
        rcases r with ⟨previous, _ | f⟩
        · rw [hv] at h
          obtain ⟨visits, hvisits, htake⟩ := ih h
          exact ⟨visits, .skipped hne hv hvisits, htake⟩
        · rw [hv] at h
          dsimp only at h
          split at h
          · next hroom =>
            obtain ⟨visits, hvisits, htake⟩ := ih h
            refine ⟨(frame, f) :: visits, .pushed hne hv hvisits, ?_⟩
            rw [htake, Unwind.take_set_self f hroom, List.append_assoc, List.map_cons, List.singleton_append]
          · cases h

theorem visit_lasti {frame previous : Usize} {f : Frame}
    (h : visit mem PyVersion.v310.layout codeType frame = .ok (previous, some f)) :
    ∃ lasti, FLasti mem frame lasti ∧ f.instr = lasti.signExtend 64 := by
  have hsmall : Unwind.SmallOwner mem PyVersion.v310.layout frame := by
    rintro owner ⟨offset, b, ho, -, -⟩
    cases ho
  rcases Unwind.entry_or_fails mem PyVersion.v310.layout codeType frame with ⟨previous', entry, he⟩ | ⟨e, he⟩
  · have hentry := Unwind.visit_entry (PyVersion.maskExact .v310) hsmall he
    rw [h] at hentry
    cases hentry
    cases he with
    | python hp hk hx hi hne ht =>
      obtain ⟨bs, hbs, rfl⟩ := hi
      exact ⟨_, ⟨bs, hbs, rfl⟩, rfl⟩
  · rw [Unwind.visit_fails (PyVersion.maskExact .v310) hsmall he] at h
    cases h

/- The sign that the walk extends is the sign that the conversion checks. -/
theorem rawFrame_lasti {f : Frame} {x : BitVec 32} (h : f.instr = x.signExtend 64) :
    rawFrame (E := E) .v310 .lastInstruction f = .ok (.of f x) := by
  rw [rawFrame, lasti, instructionOffset, h, i32TryFrom, toSigned_signExtend (by decide)]
  rfl

theorem rawFrames_visited {frame : Usize} {visits : List (Usize × Frame)}
    (h : Visited mem PyVersion.v310.layout codeType frame visits) :
    ∃ raws, rawFrames (E := E) .v310 .lastInstruction (visits.map Prod.snd) = .ok raws ∧
      List.Forall₂ (LastiOf mem) visits raws := by
  induction h with
  | null => exact ⟨[], rfl, .nil⟩
  | skipped hne h hr ih => exact ih
  | @pushed frame previous f visits hne h hr ih =>
    obtain ⟨x, hx, hinstr⟩ := visit_lasti h
    obtain ⟨raws, hraws, hlasti⟩ := ih
    exact ⟨.of f x :: raws, by rw [List.map_cons, rawFrames, rawFrame_lasti hinstr, hraws], .cons ⟨x, hx, rfl⟩ hlasti⟩

theorem walk_visited {tstate : Usize} {n : ℕ} {frames written : List Frame}
    (h : walk mem l codeType tstate frames = (.ok n, written)) :
    ∃ frame visits, currentFrame mem l tstate = .ok frame ∧ Visited mem l codeType frame visits ∧
      written.take n = visits.map Prod.snd := by
  rw [walk] at h
  cases hc : currentFrame mem l tstate with
  | error e =>
    rw [hc] at h
    cases h
  | ok frame =>
    rw [hc] at h
    obtain ⟨visits, hvisits, htake⟩ := walkFrom_visited h
    exact ⟨frame, visits, rfl, hvisits, htake⟩

end Walked

/-! ### Resolver and walk -/

/-- A walk over the memory of 3.10, and what the resolver makes of its stack. -/
def LastiPassed (E : Type) (types : Types) (mem : Memory 64) (codeType tstate : Usize) (frames : List Frame) : Prop :=
  ∀ ⦃n written⦄, walk mem PyVersion.v310.layout codeType tstate frames = (.ok n, written) →
    ∃ frame visits raws, currentFrame mem PyVersion.v310.layout tstate = .ok frame ∧
      Visited mem PyVersion.v310.layout codeType frame visits ∧ written.take n = visits.map Prod.snd ∧
      List.Forall₂ (LastiOf mem) visits raws ∧
      ∀ resolveFrames : ResolveFrames E, alone .v310 types .lastInstruction ⟨written.take n, resolveFrames⟩ =
        ⟨(resolveFrames raws .lastInstruction types).mapError .pySpy, some raws⟩

/-- Either every frame has an offset, or py-spy is not called. -/
def OffsetsPassed {E : Type} (v : PyVersion) (types : Types) (c : StackCall E) : Prop :=
  if ∀ f ∈ c.frames, InRange f then
    ∃ raws, List.Forall₂ OffsetOf c.frames raws ∧ alone v types .lastInstruction c =
      ⟨(c.resolveFrames raws .lastInstruction types).mapError .pySpy, some raws⟩
  else ∃ e, alone v types .lastInstruction c = ⟨.error e, none⟩

section Claims
variable {E : Type}

theorem lasti_passed (types : Types) (mem : Memory 64) (codeType tstate : Usize) (frames : List Frame) :
    LastiPassed E types mem codeType tstate frames := by
  intro n written h
  obtain ⟨frame, visits, hc, hvisits, htake⟩ := walk_visited h
  obtain ⟨raws, hraws, hlasti⟩ := rawFrames_visited (E := E) hvisits
  refine ⟨frame, visits, raws, hc, hvisits, htake, hlasti, fun resolveFrames => ?_⟩
  rw [alone_eq, expected, htake, hraws]

theorem offsets_passed {v : PyVersion} (hv : v ≠ .v310) (types : Types) (c : StackCall E) :
    OffsetsPassed v types c := by
  unfold OffsetsPassed
  split
  · next h =>
    obtain ⟨raws, hraws, hoffsets⟩ := rawFrames_inRange (E := E) hv h
    exact ⟨raws, hoffsets, by rw [alone_eq, expected, hraws]⟩
  · next h =>
    obtain ⟨e, he⟩ := rawFrames_outOfRange (E := E) hv h
    exact ⟨e, by rw [alone_eq, expected, he]⟩

theorem run_resolver (v : PyVersion) (calls : List (StackCall E)) (s : State) :
    (run v calls s).2.resolver.types = s.resolver.types ∧ (run v calls s).2.resolver.lines = s.resolver.lines := by
  induction calls generalizing s with
  | nil => exact ⟨rfl, rfl⟩
  | cons c calls ih =>
    have hc := answer_answered v c s
    have hrest := ih (answer v c s).2
    rw [hc.types, hc.lines] at hrest
    exact hrest

/-- The other counters may change between the calls, and so may this one. -/
def AsFresh (v : PyVersion) (types : Types) (lines : Lines) (c : StackCall E) (s : State) : Prop :=
  ∀ metrics, (answer v c { s with metrics }).1 = alone v types lines c ∧
    (answer v c { s with metrics }).2.metrics =
      if (alone v types lines c).failed then metrics.fetchAdd .resolveError else metrics

theorem resolve_stack_exact (types : Types) :
    (∀ mem codeType tstate frames, LastiPassed E types mem codeType tstate frames) ∧
      (∀ v, v ≠ .v310 → ∀ c : StackCall E, OffsetsPassed v types c) ∧
      ∀ v lines metrics (calls : List (StackCall E)),
        (run v calls (.new types lines metrics)).1 = calls.map (alone v types lines) ∧
        (∀ r, (run v calls (.new types lines metrics)).2.metrics r = metrics r +
          if r = .resolveError then calls.countP fun c => (alone v types lines c).failed else 0) ∧
        ∀ c : StackCall E, AsFresh v types lines c (run v calls (.new types lines metrics)).2 := by
  refine ⟨lasti_passed types, fun v hv c => offsets_passed hv types c, fun v lines metrics calls => ?_⟩
  have hrun := run_alone (v := v) calls (.new types lines metrics)
  obtain ⟨htypes, hlines⟩ := run_resolver v calls (.new types lines metrics)
  refine ⟨hrun.1, hrun.2, fun c m => ?_⟩
  have hc := answer_answered v c { (run v calls (.new types lines metrics)).2 with metrics := m }
  have hanswer : (answer v c { (run v calls (.new types lines metrics)).2 with metrics := m }).1 =
      alone v types lines c := by
    rw [hc.answer, alone_eq, htypes, hlines]
    rfl
  exact ⟨hanswer, by rw [hc.metrics, hanswer]⟩

end Claims

/- The boundary of the narrowing, and a sign that survives it. -/
example : instructionOffset (E := Unit) .v311 ⟨4096, 4096 + 0x7fffffff⟩ = .ok 0x7fffffff := by decide
example : instructionOffset (E := Unit) .v311 ⟨4096, 4096 + 0x80000000⟩ = .error .instructionOffset := by decide
example : instructionOffset (E := Unit) .v310 ⟨4096, -1⟩ = .ok (-1) := by decide

end Pyroscope.Signal.Resolve
