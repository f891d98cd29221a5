import Pyroscope.Encode.Windows

/-!
# Builders that were in use before (encode/pprof.rs)

A reset leaves the sample types and the period of the last window in place. Nothing but the
take of a profile reads them or the times, and it writes all of them first. The iteration
orders of the maps decide the order of the samples and nothing else.
-/

namespace Pyroscope.Encode
open Pyroscope.Lib

/-! ### Profiles up to the order of their samples -/

namespace Profile

structure Reordered (p p' : Profile) : Prop where
  sample : p.sample.Perm p'.sample
  rest : p' = { p with sample := p'.sample }

theorem Reordered.refl (p : Profile) : Reordered p p := ⟨List.Perm.refl _, rfl⟩

/-- What a consumer sees: the names of the value types, the period with its type, the times,
and every sample with its frames and labels. -/
structure Contents where
  types : List (Option String × Option String)
  period : ℤ
  periodType : Option (Option String × Option String)
  timeNanos : ℤ
  durationNanos : ℤ
  samples : Multiset (Option (List (String × String × ℤ)) × Option (List (String × String)) × List ℤ)

def namedType (p : Profile) (t : ValueType) : Option String × Option String := (p.string t.type, p.string t.unit)

def contents (p : Profile) : Contents where
  types := p.sampleType.map p.namedType
  period := p.period
  periodType := p.periodType.map p.namedType
  timeNanos := p.timeNanos
  durationNanos := p.durationNanos
  samples := (p.sample.map fun s => (p.namedFrames s, p.labels s, s.value) : List _)

theorem Reordered.contents {p p' : Profile} (h : Reordered p p') : p.contents = p'.contents := by
  have hsample : (p.sample.map fun s => (p.namedFrames s, p.labels s, s.value)).Perm
      (p'.sample.map fun s => (p.namedFrames s, p.labels s, s.value)) := h.sample.map _
  rw [h.rest]
  exact congrArg (Contents.mk (p.sampleType.map p.namedType) p.period (p.periodType.map p.namedType)
    p.timeNanos p.durationNanos) (Multiset.coe_eq_coe.mpr hsample)

end Profile

/-! ### What a builder does not read -/

/-- The fields of a profile that the builder of a window only writes. -/
structure Header where
  sampleType : List ValueType
  period : ℤ
  periodType : Option ValueType
  timeNanos : ℤ
  durationNanos : ℤ

def Profile.header (p : Profile) : Header := ⟨p.sampleType, p.period, p.periodType, p.timeNanos, p.durationNanos⟩

namespace PProfBuilder
variable {K : Type} [ProfileKind K]

def withHeader (b : PProfBuilder K) (h : Header) : PProfBuilder K := { b with profile := { b.profile with
  sampleType := h.sampleType, period := h.period, periodType := h.periodType
  timeNanos := h.timeNanos, durationNanos := h.durationNanos } }

def withTimes (b : PProfBuilder K) (h : Header) : PProfBuilder K :=
  { b with profile := { b.profile with timeNanos := h.timeNanos, durationNanos := h.durationNanos } }

/- Builders with the same content are the same up to the header. -/
theorem eq_withHeader {b b' : PProfBuilder K} (hprofile : b'.profile = { b.profile with
      sampleType := b'.profile.sampleType, period := b'.profile.period, periodType := b'.profile.periodType
      timeNanos := b'.profile.timeNanos, durationNanos := b'.profile.durationNanos })
    (hfunctions : b'.functions = b.functions) (hlocations : b'.locations = b.locations)
    (hsamples : b'.ffiSamples = b.ffiSamples) (hscratch : b'.ffiLocationsScratch = b.ffiLocationsScratch) :
    b' = b.withHeader b'.profile.header := by
  obtain ⟨profile, functions, locations, ffiSamples, scratch⟩ := b'
  subst hfunctions hlocations hsamples hscratch
  exact congrArg (fun p => (⟨p, b.functions, b.locations, b.ffiSamples, b.ffiLocationsScratch⟩ : PProfBuilder K))
    hprofile

theorem addFunctionMirror_header (b : PProfBuilder K) (h : Header) (fm : FunctionMirror) :
    (b.withHeader h).addFunctionMirror fm = (b.addFunctionMirror fm).map fun r => (r.1, r.2.withHeader h) := by
  have hget : (b.withHeader h).functions.get fm = b.functions.get fm := rfl
  simp only [addFunctionMirror, hget]
  cases b.functions.get fm with
  | some v => rfl
  | none =>
    by_cases hlen : b.functions.len = b.profile.function.length + 1
    · have hlen' : (b.withHeader h).functions.len = (b.withHeader h).profile.function.length + 1 := hlen
      simp only [if_pos hlen, if_pos hlen']
      rfl
    · have hlen' : ¬(b.withHeader h).functions.len = (b.withHeader h).profile.function.length + 1 := hlen
      simp only [if_neg hlen, if_neg hlen']
      rfl

theorem addLocationMirror_header (b : PProfBuilder K) (h : Header) (lm : LocationMirror) :
    (b.withHeader h).addLocationMirror lm = (b.addLocationMirror lm).map fun r => (r.1, r.2.withHeader h) := by
  have hget : (b.withHeader h).locations.get lm = b.locations.get lm := rfl
  simp only [addLocationMirror, hget]
  cases b.locations.get lm with
  | some v => rfl
  | none =>
    by_cases hlen : b.locations.len = b.profile.location.length + 1
    · have hlen' : (b.withHeader h).locations.len = (b.withHeader h).profile.location.length + 1 := hlen
      simp only [if_pos hlen, if_pos hlen']
      rfl
    · have hlen' : ¬(b.withHeader h).locations.len = (b.withHeader h).profile.location.length + 1 := hlen
      simp only [if_neg hlen, if_neg hlen']
      rfl

theorem addFrame_header (b : PProfBuilder K) (h : Header) (name filename : StringID) (line : ℤ) :
    (b.withHeader h).addFrame name filename line =
      (b.addFrame name filename line).map fun r => (r.1, r.2.withHeader h) := by
  simp only [addFrame, addFunctionMirror_header]
  cases b.addFunctionMirror ⟨name, filename⟩ with
  | error p => rfl
  | ok r => exact addLocationMirror_header r.2 h ⟨r.1, line⟩

theorem addFfiFrames_header (b : PProfBuilder K) (h : Header) (fs : List FFIFrame) :
    (b.withHeader h).addFfiFrames fs = (b.addFfiFrames fs).map fun r => (r.1, r.2.withHeader h) := by
  induction fs generalizing b with
  | nil => rfl
  | cons f fs ih =>
    simp only [addFfiFrames, addFrame_header]
    cases b.addFrame f.functionName f.fileName f.line with
    | error p => rfl
    | ok r =>
      have hrest := ih r.2
      simp only [Except.map, bind, Except.bind, hrest]
      cases r.2.addFfiFrames fs with
      | error p => rfl
      | ok r' => rfl

end PProfBuilder

section Ffi
variable {K : Type} [FfiProfileKind K]

theorem addFfiSample_header (b : PProfBuilder K) (h : Header) (frames : List FFIFrame)
    (values : FFISampleValues) :
    (b.withHeader h).addFfiSample frames values = (b.addFfiSample frames values).map fun b => b.withHeader h := by
  have hscratch : ({ b.withHeader h with ffiLocationsScratch := [] } : PProfBuilder K) =
      ({ b with ffiLocationsScratch := [] } : PProfBuilder K).withHeader h := rfl
  simp only [PProfBuilder.addFfiSample, hscratch, PProfBuilder.addFfiFrames_header]
  cases ({ b with ffiLocationsScratch := [] } : PProfBuilder K).addFfiFrames frames with
  | error p => rfl
  | ok r => rfl

theorem setProfileType_header (b : PProfBuilder K) (h : Header) (st : StringTable)
    (config : ProfileKind.PeriodConfig K) :
    (b.withHeader h).setProfileType st config =
      (b.setProfileType st config).map fun r => (r.1.withTimes h, r.2) := by
  simp only [PProfBuilder.setProfileType, ProfileKind.setProfileType]
  cases addValueTypes st (ProfileKind.sampleTypes K) with
  | error p => rfl
  | ok r =>
    cases hp : (ProfileKind.period config : Except Panic ℤ) with
    | error p => simp [bind, Except.bind, Except.map]
    | ok period =>
      cases ht : addValueType r.2 (ProfileKind.periodType K) with
      | error p => simp [ht, bind, Except.bind, Except.map]
      | ok r' => simp [ht, bind, Except.bind, Except.map, PProfBuilder.withHeader, PProfBuilder.withTimes]

theorem takenProfile_reordered (b : PProfBuilder K) (h : Header)
    (ordSamples ordSamples' : IterOrder (List ℕ × Values K)) (timeRange : TimeRange) (strings : List String) :
    Profile.Reordered (b.takenProfile ordSamples timeRange strings)
      ((b.withTimes h).takenProfile ordSamples' timeRange strings) := by
  refine ⟨List.Perm.append_left _ (List.Perm.map _ ?_), ?_⟩
  · exact (ordSamples.perm b.ffiSamples.toList).trans (ordSamples'.perm b.ffiSamples.toList).symm
  · simp only [PProfBuilder.takenProfile, PProfBuilder.setTimeRange, PProfBuilder.flushFfiSamples,
      PProfBuilder.withTimes]

/- The times are written before they are read, and the orders permute the samples. -/
theorem takeProfileAndReset_reordered (b : PProfBuilder K) (h : Header) {st : StringTable}
    {strings : List String} (hst : st.Repr strings) (ordSamples ordSamples' : IterOrder (List ℕ × Values K))
    (ordStrings ordStrings' : IterOrder (String × StringID)) (timeRange : TimeRange) :
    ∃ out out' b', b.takeProfileAndReset ordSamples ordStrings st timeRange = .ok (out, b') ∧
      (b.withTimes h).takeProfileAndReset ordSamples' ordStrings' st timeRange = .ok (out', b') ∧
      Option.Rel Profile.Reordered out out' := by
  have htaken := takenProfile_reordered b h ordSamples ordSamples' timeRange strings
  have hperm : (b.flushFfiSamples ordSamples).profile.sample.Perm
      ((b.withTimes h).flushFfiSamples ordSamples').profile.sample := htaken.sample
  by_cases he : (b.flushFfiSamples ordSamples).profile.sample.isEmpty = true
  · have he' : ((b.withTimes h).flushFfiSamples ordSamples').profile.sample.isEmpty = true := by
      rw [List.isEmpty_iff] at he ⊢
      rw [he] at hperm
      exact hperm.symm.eq_nil
    exact ⟨none, none, _, PProfBuilder.takeProfileAndReset_none he ordStrings st timeRange,
      PProfBuilder.takeProfileAndReset_none he' ordStrings' st timeRange, .none⟩
  · have he' : ¬((b.withTimes h).flushFfiSamples ordSamples').profile.sample.isEmpty = true := by
      rw [List.isEmpty_iff] at he ⊢
      intro hnil
      rw [hnil] at hperm
      exact he hperm.eq_nil
    exact ⟨_, _, _, PProfBuilder.takeProfileAndReset_some he ordStrings hst timeRange,
      PProfBuilder.takeProfileAndReset_some he' ordStrings' hst timeRange, .some htaken⟩

end Ffi

end Pyroscope.Encode
