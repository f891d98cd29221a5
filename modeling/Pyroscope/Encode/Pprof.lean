import Pyroscope.Encode.Profile
import Mathlib.Data.Fin.VecNotation

/-!
# The pprof builder (encode/pprof.rs, `PProfBuilder`)

`ProfileKind` is the trait of the same name: its associated `Values` array has one
slot per sample type, so its length is tied to the list of sample types here. The
four implementations of `set_profile_type` differ only in the names they intern and
in how the period is computed; they are one definition over that data.
-/

namespace Pyroscope.Encode
open Pyroscope.Lib

structure FFIFrame where
  functionName : StringID
  fileName : StringID
  line : ℤ
  deriving DecidableEq, Repr

/-- `i64` times and `usize` memory figures, by their own fixed-width types. -/
structure FFISampleValues where
  cpuTime : Int64
  wallTime : Int64
  allocSpace : UInt64
  allocCount : UInt64
  heapSpace : UInt64
  heapCount : UInt64
  deriving DecidableEq, Repr

class ProfileKind (K : Type) where
  PeriodConfig : Type
  /-- `(type, unit)` of every emitted sample value, in order. -/
  sampleTypes : List (String × String)
  period : PeriodConfig → Except Panic ℤ
  periodType : String × String

abbrev Values (K : Type) [ProfileKind K] : Type := Fin (ProfileKind.sampleTypes K).length → ℤ

class FfiProfileKind (K : Type) extends ProfileKind K where
  valueSlots : FFISampleValues → Values K
  valueSlots_mem : ∀ values i, InI64 (valueSlots values i)
  period_ok : ∀ config, ∃ p, ProfileKind.period (K := K) config = .ok p

inductive MemoryProfile
inductive PySpyProfile
inductive CpuWallProfile
inductive CpuProfile

theorem int64_mem (x : Int64) : InI64 x.toInt := by
  have h1 := x.le_toInt
  have h2 := x.toInt_lt
  simp only [InI64, i64Min, i64Max]
  omega

instance : ProfileKind MemoryProfile where
  PeriodConfig := UInt64
  sampleTypes := [("alloc_objects", "count"), ("alloc_space", "bytes"),
    ("inuse_objects", "count"), ("inuse_space", "bytes")]
  period heapSampleRate := .ok (asI64 heapSampleRate.toNat)
  periodType := ("space", "bytes")

instance : FfiProfileKind MemoryProfile where
  valueSlots v i := asI64 (![v.allocCount, v.allocSpace, v.heapCount, v.heapSpace] i).toNat
  valueSlots_mem _ _ := asI64_mem _
  period_ok _ := ⟨_, rfl⟩

instance : ProfileKind CpuWallProfile where
  PeriodConfig := Int64
  sampleTypes := [("cpu", "nanoseconds"), ("wall", "nanoseconds")]
  period periodNs := .ok periodNs.toInt
  periodType := ("cpu", "nanoseconds")

instance : FfiProfileKind CpuWallProfile where
  valueSlots v i := (![v.cpuTime, v.wallTime] i).toInt
  valueSlots_mem _ _ := int64_mem _
  period_ok _ := ⟨_, rfl⟩

instance : ProfileKind CpuProfile where
  PeriodConfig := Int64
  sampleTypes := [("cpu", "nanoseconds")]
  period periodNs := .ok periodNs.toInt
  periodType := ("cpu", "nanoseconds")

instance : FfiProfileKind CpuProfile where
  valueSlots v i := (![v.cpuTime] i).toInt
  valueSlots_mem _ _ := int64_mem _
  period_ok _ := ⟨_, rfl⟩

instance : ProfileKind PySpyProfile where
  PeriodConfig := UInt32
  sampleTypes := [("cpu", "nanoseconds")]
  period sampleRate :=
    if sampleRate.toNat = 0 then .error .divideByZero else .ok (1000000000 / sampleRate.toNat)
  periodType := ("cpu", "nanoseconds")

structure FunctionMirror where
  name : StringID
  filename : StringID
  deriving DecidableEq, Repr

structure LocationMirror where
  functionId : ℕ
  line : ℤ
  deriving DecidableEq, Repr

structure TimeRange where
  fromUnixNanos : ℕ
  durationNanos : ℕ
  deriving DecidableEq, Repr

structure PProfBuilder (K : Type) [ProfileKind K] where
  profile : Profile
  functions : HashMap FunctionMirror ℕ
  locations : HashMap LocationMirror ℕ
  ffiSamples : HashMap (List ℕ) (Values K)
  ffiLocationsScratch : List ℕ

def Function.ofMirror (id : ℕ) (fm : FunctionMirror) : Function :=
  ⟨id, fm.name.pprof, 0, fm.filename.pprof, 0⟩

def Location.ofMirror (id : ℕ) (lm : LocationMirror) : Location :=
  ⟨id, 0, 0, [⟨lm.functionId, lm.line⟩], false⟩

def addValueType (strings : StringTable) (t : String × String) :
    Except Panic (ValueType × StringTable) := do
  let (type, strings) ← strings.add t.1
  let (unit, strings) ← strings.add t.2
  .ok (⟨type.pprof, unit.pprof⟩, strings)

def addValueTypes : StringTable → List (String × String) → Except Panic (List ValueType × StringTable)
  | strings, [] => .ok ([], strings)
  | strings, t :: ts => do
    let (vt, strings) ← addValueType strings t
    let (vts, strings) ← addValueTypes strings ts
    .ok (vt :: vts, strings)

/-- `K::set_profile_type`: the sample types, then the period, then its type. -/
def ProfileKind.setProfileType (K : Type) [ProfileKind K] (profile : Profile)
    (strings : StringTable) (config : ProfileKind.PeriodConfig K) :
    Except Panic (Profile × StringTable) := do
  let (sampleType, strings) ← addValueTypes strings (sampleTypes K)
  let period ← ProfileKind.period config
  let (periodType, strings) ← addValueType strings (ProfileKind.periodType K)
  .ok ({ profile with sampleType, period, periodType := some periodType }, strings)

namespace PProfBuilder
variable {K : Type} [ProfileKind K]

def new : PProfBuilder K :=
  { profile := {}
    functions := HashMap.empty
    locations := HashMap.empty
    ffiSamples := HashMap.empty
    ffiLocationsScratch := [] }

/-- `as_nanos() as u64 as i64`. -/
def setTimeRange (b : PProfBuilder K) (range : TimeRange) : PProfBuilder K :=
  { b with profile := { b.profile with
      timeNanos := asI64 ((range.fromUnixNanos % 2 ^ 64 : ℕ) : ℤ)
      durationNanos := asI64 ((range.durationNanos % 2 ^ 64 : ℕ) : ℤ) } }

def setProfileType (b : PProfBuilder K) (strings : StringTable)
    (config : ProfileKind.PeriodConfig K) : Except Panic (PProfBuilder K × StringTable) := do
  let (profile, strings) ← ProfileKind.setProfileType K b.profile strings config
  .ok ({ b with profile }, strings)

/-- Drains `ffi_samples` in the map's own order. -/
def flushFfiSamples (ord : IterOrder (List ℕ × Values K)) (b : PProfBuilder K) : PProfBuilder K :=
  { b with
    profile := { b.profile with
      sample := b.profile.sample ++ (ord.visit b.ffiSamples.toList).map fun e =>
        ⟨e.1, List.ofFn e.2, []⟩ }
    ffiSamples := HashMap.empty }

def addFunctionMirror (b : PProfBuilder K) (fm : FunctionMirror) :
    Except Panic (ℕ × PProfBuilder K) :=
  match b.functions.get fm with
  | some v => .ok (v, b)
  | none =>
    if b.functions.len = b.profile.function.length + 1 then .error .functionIds
    else
      let id := b.functions.len + 1
      .ok (id, { b with
        functions := b.functions.insert fm id
        profile := { b.profile with function := b.profile.function ++ [Function.ofMirror id fm] } })

def addLocationMirror (b : PProfBuilder K) (lm : LocationMirror) :
    Except Panic (ℕ × PProfBuilder K) :=
  match b.locations.get lm with
  | some v => .ok (v, b)
  | none =>
    if b.locations.len = b.profile.location.length + 1 then .error .locationIds
    else
      let id := b.locations.len + 1
      .ok (id, { b with
        locations := b.locations.insert lm id
        profile := { b.profile with location := b.profile.location ++ [Location.ofMirror id lm] } })

/-- The sample types and the period survive; everything else is emptied. -/
def reset (b : PProfBuilder K) : PProfBuilder K :=
  { b with
    profile := { b.profile with
      sample := []
      function := []
      location := []
      stringTable := []
      timeNanos := 0
      durationNanos := 0 }
    locations := HashMap.empty
    functions := HashMap.empty
    ffiSamples := HashMap.empty
    ffiLocationsScratch := [] }

def takeProfileAndReset (ordSamples : IterOrder (List ℕ × Values K))
    (ordStrings : IterOrder (String × StringID)) (b : PProfBuilder K) (st : StringTable)
    (range : TimeRange) : Except Panic (Option Profile × PProfBuilder K) := do
  let b := b.flushFfiSamples ordSamples
  if b.profile.sample.isEmpty then
    .ok (none, b.reset)
  else
    let b := b.setTimeRange range
    let table ← st.clonePprofTable ordStrings b.profile.stringTable
    let profile := { b.profile with stringTable := table }
    let b := { b with profile := {} }
    .ok (some profile, b.reset)

/-- One frame of `add_ffi_sample` or `add_stacktrace`: function, then location. -/
def addFrame (b : PProfBuilder K) (name filename : StringID) (line : ℤ) :
    Except Panic (ℕ × PProfBuilder K) := do
  let (functionId, b) ← b.addFunctionMirror ⟨name, filename⟩
  b.addLocationMirror ⟨functionId, line⟩

def addFfiFrames : PProfBuilder K → List FFIFrame → Except Panic (List ℕ × PProfBuilder K)
  | b, [] => .ok ([], b)
  | b, f :: fs => do
    let (id, b) ← b.addFrame f.functionName f.fileName f.line
    let (ids, b) ← addFfiFrames b fs
    .ok (id :: ids, b)

end PProfBuilder

/-- Element-wise `saturating_add` of the slots. -/
def accumulate {K : Type} [ProfileKind K] (accumulated values : Values K) : Values K :=
  fun i => saturatingAdd (accumulated i) (values i)

/-- The end of `add_ffi_sample`: one entry of `ffi_samples`, and the scratch vector back. -/
def PProfBuilder.pushFfiSample {K : Type} [ProfileKind K] (b : PProfBuilder K)
    (locationIds : List ℕ) (sampleValues : Values K) : PProfBuilder K :=
  let entry := match b.ffiSamples.get locationIds with
    | some accumulated => accumulate accumulated sampleValues
    | none => sampleValues
  { b with
    ffiSamples := b.ffiSamples.insert locationIds entry
    ffiLocationsScratch := locationIds }

def PProfBuilder.addFfiSample {K : Type} [FfiProfileKind K] (b : PProfBuilder K)
    (frames : List FFIFrame) (values : FFISampleValues) : Except Panic (PProfBuilder K) := do
  let sampleValues := FfiProfileKind.valueSlots (K := K) values
  let b := { b with ffiLocationsScratch := [] }
  let (locationIds, b) ← b.addFfiFrames frames
  .ok (b.pushFfiSample locationIds sampleValues)

end Pyroscope.Encode
