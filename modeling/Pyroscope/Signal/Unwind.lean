import Pyroscope.Lib.Memory
import Pyroscope.Signal.Session

/-!
# The frame walk (crates/python-unwind, crates/python-offsets)

`unwind_thread` follows the frames of the interrupted thread through its memory, which
does not change meanwhile. The layouts are those of CPython 3.10 to 3.14; words are
little-endian.
-/

namespace Pyroscope.Signal.Unwind
open Pyroscope.Lib
open Pyroscope.Signal (Frame Metrics UnwindError maxFrames)
open Pyroscope.Ring (Usize)

/-! ### Layouts -/

/-- `cframeFrame` is there where the thread state points to a `_PyCFrame`, `owner` and
`skipOwners` where frames have an owner. -/
structure Layout where
  obType : ℕ
  threadFrame : ℕ
  cframeFrame : Option ℕ
  executable : ℕ
  executableTagBits : ℕ
  previous : ℕ
  instr : ℕ
  /-- `f_lasti` of 3.10 is an `i32` -/
  instrSigned : Bool
  owner : Option ℕ
  skipOwners : List ℕ
  deriving DecidableEq, Repr

inductive PyVersion where
  | v310
  | v311
  | v312
  | v313
  | v314
  deriving DecidableEq, Repr

def PyVersion.layout : PyVersion → Layout
  | .v310 =>
    { obType := 8, threadFrame := 24, cframeFrame := none, executable := 32, executableTagBits := 0,
      previous := 24, instr := 96, instrSigned := true, owner := none, skipOwners := [] }
  | .v311 =>
    { obType := 8, threadFrame := 56, cframeFrame := some 8, executable := 32, executableTagBits := 0,
      previous := 48, instr := 56, instrSigned := false, owner := none, skipOwners := [] }
  | .v312 =>
    { obType := 8, threadFrame := 56, cframeFrame := some 0, executable := 0, executableTagBits := 0,
      previous := 8, instr := 56, instrSigned := false, owner := some 70, skipOwners := [3] }
  | .v313 =>
    { obType := 8, threadFrame := 72, cframeFrame := none, executable := 0, executableTagBits := 0,
      previous := 8, instr := 56, instrSigned := false, owner := some 70, skipOwners := [3] }
  | .v314 =>
    { obType := 8, threadFrame := 72, cframeFrame := none, executable := 0, executableTagBits := 3,
      previous := 8, instr := 56, instrSigned := false, owner := some 74, skipOwners := [4, 3] }

def Layout.executableMask (l : Layout) : Usize := ~~~BitVec.ofNat 64 l.executableTagBits

def Layout.skipMask (l : Layout) : BitVec 8 :=
  l.skipOwners.foldl (fun mask owner => mask ||| 1 <<< owner) 0

/-! ### Reads -/

variable (mem : Memory 64)

def readBytes (base : Usize) (offset n : ℕ) : Except UnwindError (List (BitVec 8)) :=
  match checkedAdd base offset with
  | none => .error .invalid
  | some addr =>
    match checkedAdd addr n with
    | none => .error .invalid
    | some _ =>
      match mem.bytes addr n with
      | none => .error .read
      | some out => .ok out

/-- with the same checks as `read_bytes` -/
def readUsize (base : Usize) (offset : ℕ) : Except UnwindError Usize := do
  let out ← readBytes mem base offset 8
  return BitVec.ofNat 64 (littleEndian out)

def readU8 (base : Usize) (offset : ℕ) : Except UnwindError (BitVec 8) := do
  let out ← readBytes mem base offset 1
  return BitVec.ofNat 8 (littleEndian out)

/-- `as isize as usize` extends the sign. -/
def readInstr (l : Layout) (frame : Usize) : Except UnwindError Usize :=
  if l.instrSigned then do
    let out ← readBytes mem frame l.instr 4
    return (BitVec.ofNat 32 (littleEndian out)).signExtend 64
  else readUsize mem frame l.instr

/-! ### The walk -/

def currentFrame (l : Layout) (tstate : Usize) : Except UnwindError Usize := do
  let frame ← readUsize mem tstate l.threadFrame
  match l.cframeFrame with
  | some offset => readUsize mem frame offset
  | none => return frame

/-- `SKIP_OWNERS & (1 << owner) != 0`; the shift of a `u8` takes the amount modulo 8. -/
def skipped (l : Layout) (frame : Usize) : Except UnwindError Bool :=
  match l.owner with
  | some offset => do
    let owner ← readU8 mem frame offset
    return l.skipMask &&& 1 <<< (owner.toNat % 8) != 0
  | none => return false

/-- One iteration: the previous frame, and what is pushed for this one. -/
def visit (l : Layout) (codeType frame : Usize) : Except UnwindError (Usize × Option Frame) := do
  let previous ← readUsize mem frame l.previous
  let skip ← skipped mem l frame
  if skip then return (previous, none)
  else do
    let executable ← readUsize mem frame l.executable
    let executable := executable &&& l.executableMask
    let instr ← readInstr mem l frame
    if executable = 0 then throw .invalidCodeType
    else do
      let obType ← readUsize mem executable l.obType
      if obType ≠ codeType then throw .invalidCodeType
      else return (previous, some ⟨executable, instr⟩)

/-- The loop, with `left = MAX_FRAMES - visited`. The slice comes back with what was
written to it. -/
def walkFrom (l : Layout) (codeType : Usize) (left : ℕ) (frame : Usize) (frames : List Frame)
    (pushed : ℕ) : Except UnwindError ℕ × List Frame :=
  if frame = 0 then (.ok pushed, frames)
  else
    match left with
    | 0 => (.error .truncated, frames)
    | left + 1 =>
      match visit mem l codeType frame with
      | .error e => (.error e, frames)
      | .ok (previous, none) => walkFrom l codeType left previous frames pushed
      | .ok (previous, some f) =>
        if pushed < frames.length then
          walkFrom l codeType left previous (frames.set pushed f) (pushed + 1)
        else (.error .truncated, frames)

def walk (l : Layout) (codeType tstate : Usize) (frames : List Frame) :
    Except UnwindError ℕ × List Frame :=
  match currentFrame mem l tstate with
  | .error e => (.error e, frames)
  | .ok frame => walkFrom mem l codeType maxFrames frame frames 0

structure Unwound where
  result : Except UnwindError (List Frame)
  frames : List Frame
  metrics : Metrics

def unwindThread (l : Layout) (codeType tstate : Usize) (frames : List Frame) (metrics : Metrics) :
    Unwound :=
  let (result, frames) :=
    if tstate = 0 then (.error .noThreadState, frames) else walk mem l codeType tstate frames
  match result with
  | .ok pushed => ⟨.ok (frames.take pushed), frames, metrics⟩
  | .error e => ⟨.error e, frames, metrics.fetchAdd e.reason⟩

end Pyroscope.Signal.Unwind
