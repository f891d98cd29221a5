import Pyroscope.Encode.Builder
import Pyroscope.Backend.Types

/-!
# Encoding reports (encode/pprof.rs, `encode`)

One pass over all traces interns strings, functions and locations while the samples
already refer to them; the string table is laid out at the end. `Encoding` is the
invariant of the pass: every sample emitted so far reads back, through the tables as
they stand now, to the trace it was made from.
-/

namespace Pyroscope.Encode
open Pyroscope.Lib Pyroscope.Backend StringTable

namespace PProfBuilder

/-- The loop over `stacktrace.frames` in `add_stacktrace`. -/
def addTraceFrames : PProfBuilder PySpyProfile → StringTable → List StackFrame →
    Except Panic (List ℕ × PProfBuilder PySpyProfile × StringTable)
  | b, strings, [] => .ok ([], b, strings)
  | b, strings, sf :: frames => do
    let (name, strings) ← strings.add sf.name
    let (filename, strings) ← strings.add sf.filename
    let (locationId, b) ← b.addFrame name filename sf.line
    let (locationIds, b, strings) ← addTraceFrames b strings frames
    .ok (locationId :: locationIds, b, strings)

/-- The loop over `stacktrace.metadata.tags`. -/
def addLabels : StringTable → List Tag → Except Panic (List Label × StringTable)
  | strings, [] => .ok ([], strings)
  | strings, l :: tags => do
    let (key, strings) ← strings.add l.key
    let (str, strings) ← strings.add l.value
    let (labels, strings) ← addLabels strings tags
    .ok (⟨key.pprof, str.pprof, 0, 0⟩ :: labels, strings)

def addStacktrace (b : PProfBuilder PySpyProfile) (strings : StringTable) (stacktrace : StackTrace)
    (value : ℕ) : Except Panic (PProfBuilder PySpyProfile × StringTable) := do
  let sampleValue := [wrappingMul (asI64 value) b.profile.period]
  let (locationId, b, strings) ← b.addTraceFrames strings stacktrace.frames
  let (label, strings) ← addLabels strings stacktrace.metadata.tags.toList
  let sample : Sample := ⟨locationId, sampleValue, label⟩
  .ok ({ b with profile := { b.profile with sample := b.profile.sample ++ [sample] } }, strings)

/-- The two nested loops of `encode`, over the entries in the order they are met. -/
def addStacktraces : PProfBuilder PySpyProfile → StringTable → List (StackTrace × ℕ) →
    Except Panic (PProfBuilder PySpyProfile × StringTable)
  | b, strings, [] => .ok (b, strings)
  | b, strings, (stacktrace, value) :: rest => do
    let (b, strings) ← b.addStacktrace strings stacktrace value
    addStacktraces b strings rest

end PProfBuilder

def encode (ordData : IterOrder (StackTrace × ℕ)) (ordStrings : IterOrder (String × StringID))
    (reports : List Report) (sampleRate : UInt32) (timeRange : TimeRange) : Except Panic Profile := do
  let strings := StringTable.new
  let b : PProfBuilder PySpyProfile := PProfBuilder.new
  let b := b.setTimeRange timeRange
  let (b, strings) ← b.setProfileType strings sampleRate
  let (b, strings) ← b.addStacktraces strings (reportEntries ordData reports)
  let table ← strings.intoPprofTable ordStrings
  .ok { b.profile with stringTable := table }

/-! ### What one trace asks of the string table, and what it leaves -/

def frameRequests (frames : List StackFrame) : List String :=
  frames.flatMap fun sf => [sf.name, sf.filename]

def labelRequests (tags : List Tag) : List String := tags.flatMap fun l => [l.key, l.value]

def traceRequests (stacktrace : StackTrace) : List String :=
  frameRequests stacktrace.frames ++ labelRequests stacktrace.metadata.tags.toList

def NamedFrame (strings : List String) (sf : StackFrame) (f : FFIFrame) : Prop :=
  strings[f.functionName.index]? = some sf.name ∧ strings[f.fileName.index]? = some sf.filename ∧
    f.line = sf.line

def NamedLabel (strings : List String) (tag : Tag) (l : Label) : Prop :=
  ∃ i j : ℕ, l = ⟨i, j, 0, 0⟩ ∧ strings[i]? = some tag.key ∧ strings[j]? = some tag.value

theorem NamedFrame.mono {strings strings' : List String} (h : strings <+: strings')
    {sf : StackFrame} {f : FFIFrame} (hn : NamedFrame strings sf f) : NamedFrame strings' sf f :=
  ⟨getElem?_mono h hn.1, getElem?_mono h hn.2.1, hn.2.2⟩

theorem NamedLabel.mono {strings strings' : List String} (h : strings <+: strings')
    {tag : Tag} {l : Label} (hn : NamedLabel strings tag l) : NamedLabel strings' tag l := by
  obtain ⟨i, j, he, hi, hj⟩ := hn
  exact ⟨i, j, he, getElem?_mono h hi, getElem?_mono h hj⟩

/-- After the frames `fs` have been added for `frames`. -/
structure FramesAdded (b : PProfBuilder PySpyProfile) (t : Tables) (strings : List String)
    (frames : List StackFrame) (r : List ℕ × PProfBuilder PySpyProfile × StringTable)
    (fs : List FFIFrame) : Prop where
  ids : r.1 = (t.addFrames fs).1
  tables : r.2.1.Repr (t.addFrames fs).2
  touches : PProfBuilder.Touches b r.2.1
  table : r.2.2.Repr (internAll strings (frameRequests frames))
  named : List.Forall₂ (NamedFrame (internAll strings (frameRequests frames))) frames fs

theorem addTraceFrames_outcome {b : PProfBuilder PySpyProfile} {st : StringTable} {t : Tables}
    {strings : List String} (hb : b.Repr t) (hs : st.Repr strings) (frames : List StackFrame) :
    Outcome (Room strings (frameRequests frames)) Panic.stringIds (b.addTraceFrames st frames)
      fun r => ∃ fs, FramesAdded b t strings frames r fs := by
  induction frames generalizing b st t strings with
  | nil => exact Outcome.pure ⟨[], rfl, hb, PProfBuilder.Touches.refl b, hs, List.Forall₂.nil⟩
  | cons sf frames ih =>
    have hreq : frameRequests (sf :: frames) = [sf.name, sf.filename] ++ frameRequests frames := rfl
    rw [hreq]
    refine (add_pair_outcome hs sf.name sf.filename fun r r' hrepr hi hj => ?_).congr
      (room_append ..).symm
    obtain ⟨b', hadd, htables, htouch⟩ := PProfBuilder.addFrame_ok hb ⟨r.1, r'.1, sf.line⟩
    refine Outcome.after hadd ((ih htables hrepr).map fun r₃ h₃ => ?_)
    obtain ⟨fs, h₃⟩ := h₃
    have hnamed : NamedFrame (internAll strings [sf.name, sf.filename]) sf ⟨r.1, r'.1, sf.line⟩ :=
      ⟨hi, hj, rfl⟩
    refine ⟨⟨r.1, r'.1, sf.line⟩ :: fs, ?_, h₃.tables, htouch.trans h₃.touches, ?_, ?_⟩
    · simp only [Tables.addFrames, h₃.ids]
    · rw [hreq, internAll_append]
      exact h₃.table
    · rw [hreq, internAll_append]
      exact List.Forall₂.cons (hnamed.mono (internAll_mono _ _)) h₃.named

theorem addLabels_outcome {st : StringTable} {strings : List String} (hs : st.Repr strings)
    (tags : List Tag) :
    Outcome (Room strings (labelRequests tags)) Panic.stringIds (PProfBuilder.addLabels st tags)
      fun r => r.2.Repr (internAll strings (labelRequests tags)) ∧
        List.Forall₂ (NamedLabel (internAll strings (labelRequests tags))) tags r.1 := by
  induction tags generalizing st strings with
  | nil => exact Outcome.pure ⟨hs, List.Forall₂.nil⟩
  | cons l tags ih =>
    have hreq : labelRequests (l :: tags) = [l.key, l.value] ++ labelRequests tags := rfl
    rw [hreq, internAll_append]
    refine (add_pair_outcome hs l.key l.value fun r r' hrepr hi hj =>
      (ih hrepr).map fun r₃ h₃ => ⟨h₃.1, ?_⟩).congr (room_append ..).symm
    have hnamed : NamedLabel (internAll strings [l.key, l.value]) l ⟨r.1.pprof, r'.1.pprof, 0, 0⟩ :=
      ⟨r.1.index, r'.1.index, rfl, hi, hj⟩
    exact List.Forall₂.cons (hnamed.mono (internAll_mono _ _)) h₃.2

/-! ### The invariant of the pass -/

structure SampleOf (strings : List String) (t : Tables) (period : ℤ) (e : StackTrace × ℕ)
    (s : Sample) : Prop where
  frames : ∃ fs, t.Resolves s.locationId fs ∧ List.Forall₂ (NamedFrame strings) e.1.frames fs
  labels : List.Forall₂ (NamedLabel strings) e.1.metadata.tags.toList s.label
  value : s.value = [wrappingMul (asI64 e.2) period]

theorem SampleOf.mono {strings strings' : List String} {t t' : Tables} (h : strings <+: strings')
    (ht : t.Le t') {period : ℤ} {e : StackTrace × ℕ} {s : Sample}
    (hs : SampleOf strings t period e s) : SampleOf strings' t' period e s := by
  obtain ⟨fs, hfs, hnamed⟩ := hs.frames
  exact ⟨⟨fs, hfs.mono ht, hnamed.imp fun _ _ hn => hn.mono h⟩,
    hs.labels.imp fun _ _ hn => hn.mono h, hs.value⟩

structure Encoding (period : ℤ) (done : List (StackTrace × ℕ)) (b : PProfBuilder PySpyProfile)
    (st : StringTable) (t : Tables) (strings : List String) : Prop where
  tables : b.Repr t
  valid : t.Valid
  table : st.Repr strings
  period_eq : b.profile.period = period
  plain : b.profile.Plain
  types : ∀ vt ∈ b.profile.sampleType ++ b.profile.periodType.toList,
    Profile.InTable strings.length vt.type ∧ Profile.InTable strings.length vt.unit
  named : ∀ fm ∈ t.functions,
    fm.name.index < strings.length ∧ fm.filename.index < strings.length
  samples : List.Forall₂ (SampleOf strings t period) done b.profile.sample

theorem inTable_mono {strings strings' : List String} (h : strings <+: strings') {i : ℤ}
    (hi : Profile.InTable strings.length i) : Profile.InTable strings'.length i := by
  obtain ⟨k, he, hk⟩ := hi
  exact ⟨k, he, lt_of_lt_of_le hk h.length_le⟩

/- The functions added for named frames have their strings in the table. -/
theorem named_addFrames {t : Tables} {strings strings' : List String} (hm : strings <+: strings')
    (h : ∀ fm ∈ t.functions, fm.name.index < strings.length ∧ fm.filename.index < strings.length)
    {frames : List StackFrame} {fs : List FFIFrame}
    (hfs : List.Forall₂ (NamedFrame strings') frames fs) :
    ∀ fm ∈ (t.addFrames fs).2.functions,
      fm.name.index < strings'.length ∧ fm.filename.index < strings'.length := by
  intro fm hfm
  rcases t.mem_addFrames_functions fs hfm with hold | ⟨f, hf, rfl⟩
  · have hlt := h fm hold
    have hle := hm.length_le
    exact ⟨by omega, by omega⟩
  · obtain ⟨sf, -, hn⟩ := Profile.exists_of_forall₂_mem hfs hf
    exact ⟨(List.getElem?_eq_some_iff.mp hn.1).1, (List.getElem?_eq_some_iff.mp hn.2.1).1⟩

theorem addStacktrace_outcome {period : ℤ} {done : List (StackTrace × ℕ)}
    {b : PProfBuilder PySpyProfile} {st : StringTable} {t : Tables} {strings : List String}
    (h : Encoding period done b st t strings) (e : StackTrace × ℕ) :
    Outcome (Room strings (traceRequests e.1)) Panic.stringIds (b.addStacktrace st e.1 e.2)
      fun r => ∃ t', Encoding period (done ++ [e]) r.1 r.2 t' (internAll strings (traceRequests e.1)) := by
  have hreq := internAll_append strings (frameRequests e.1.frames)
    (labelRequests e.1.metadata.tags.toList)
  rw [← traceRequests] at hreq
  refine ((addTraceFrames_outcome h.tables h.table e.1.frames).bind fun r₁ h₁ => ?_).congr
    (room_append ..).symm
  obtain ⟨fs, h₁⟩ := h₁
  refine (addLabels_outcome h₁.table e.1.metadata.tags.toList).map fun r₂ h₂ => ?_
  rw [← hreq] at h₂
  have hmid : internAll strings (frameRequests e.1.frames) <+: internAll strings (traceRequests e.1) := by
    rw [hreq]
    exact internAll_mono _ _
  have hall : strings <+: internAll strings (traceRequests e.1) := internAll_mono _ _
  have hfs := h₁.named.imp fun _ _ hn => hn.mono hmid
  have hprofile := h₁.touches.profile
  refine ⟨(t.addFrames fs).2, ⟨h₁.tables.functions, h₁.tables.locations,
    h₁.tables.lists.function, h₁.tables.lists.location⟩, t.addFrames_valid fs h.valid, h₂.1,
    ?_, ?_, ?_, named_addFrames hall h.named hfs, ?_⟩
  · rw [hprofile]
    exact h.period_eq
  · rw [hprofile]
    exact ⟨h.plain.mapping, h.plain.dropFrames, h.plain.keepFrames, h.plain.comment,
      h.plain.defaultSampleType⟩
  · rw [hprofile]
    intro vt hvt
    exact ⟨inTable_mono hall (h.types vt hvt).1, inTable_mono hall (h.types vt hvt).2⟩
  · rw [hprofile]
    refine List.rel_append (h.samples.imp fun _ _ hs => hs.mono hall (t.addFrames_le fs))
      (List.Forall₂.cons ⟨⟨fs, ?_, hfs⟩, h₂.2, ?_⟩ List.Forall₂.nil)
    · rw [h₁.ids]
      exact t.addFrames_resolves fs
    · rw [h.period_eq]

def entryRequests (entries : List (StackTrace × ℕ)) : List String :=
  entries.flatMap fun e => traceRequests e.1

theorem addStacktraces_outcome {period : ℤ} {done : List (StackTrace × ℕ)}
    {b : PProfBuilder PySpyProfile} {st : StringTable} {t : Tables} {strings : List String}
    (h : Encoding period done b st t strings) (entries : List (StackTrace × ℕ)) :
    Outcome (Room strings (entryRequests entries)) Panic.stringIds (b.addStacktraces st entries)
      fun r => ∃ t', Encoding period (done ++ entries) r.1 r.2 t'
        (internAll strings (entryRequests entries)) := by
  induction entries generalizing done b st t strings with
  | nil =>
    refine Outcome.pure ⟨t, ?_⟩
    rw [List.append_nil]
    exact h
  | cons e entries ih =>
    have hreq : entryRequests (e :: entries) = traceRequests e.1 ++ entryRequests entries := rfl
    rw [hreq, internAll_append]
    refine ((addStacktrace_outcome h e).bind fun r₁ h₁ => ?_).congr (room_append ..).symm
    obtain ⟨t₁, h₁⟩ := h₁
    refine (ih h₁).imp fun r₂ h₂ => ?_
    rwa [List.append_assoc, List.singleton_append] at h₂

/-! ### Reading the result back -/

def entryDecoded (period : ℤ) (e : StackTrace × ℕ) :
    List (String × String × ℤ) × List (String × String) × List ℤ :=
  (e.1.frames.map fun sf => (sf.name, sf.filename, (sf.line : ℤ)),
    e.1.metadata.tags.toList.map fun l => (l.key, l.value), [wrappingMul (asI64 e.2) period])

structure Encoded (period : ℤ) (entries : List (StackTrace × ℕ)) (p : Profile) : Prop where
  first : p.stringTable[0]? = some ""
  closed : p.Closed
  samples : p.decoded = some (entries.map (entryDecoded period))

theorem SampleOf.namedFrames {p : Profile} {t : Tables} {period : ℤ} {e : StackTrace × ℕ}
    {s : Sample} (hl : p.Lists t) (h : SampleOf p.stringTable t period e s) :
    p.namedFrames s = some (e.1.frames.map fun sf => (sf.name, sf.filename, (sf.line : ℤ))) := by
  obtain ⟨fs, hfs, hnamed⟩ := h.frames
  rw [Profile.namedFrames, hl.frames_eq hfs, Option.bind_some]
  refine Profile.mapM_of_forall₂ (List.forall₂_map_right_iff.mpr (hnamed.imp fun sf f hn => ?_))
  simp only [Profile.Lists.lineOf, StringID.pprof, Profile.string_of_getElem hn.1,
    Profile.string_of_getElem hn.2.1, hn.2.2, Option.bind_some, Option.map_some]

theorem SampleOf.labels_eq {p : Profile} {t : Tables} {period : ℤ} {e : StackTrace × ℕ} {s : Sample}
    (h : SampleOf p.stringTable t period e s) :
    p.labels s = some (e.1.metadata.tags.toList.map fun l => (l.key, l.value)) := by
  refine Profile.mapM_of_forall₂ (h.labels.imp fun tag l hn => ?_)
  obtain ⟨i, j, rfl, hi, hj⟩ := hn
  simp only [Profile.string_of_getElem hi, Profile.string_of_getElem hj, Option.bind_some,
    Option.map_some]

theorem Encoding.encoded {period : ℤ} {done : List (StackTrace × ℕ)}
    {b : PProfBuilder PySpyProfile} {st : StringTable} {t : Tables} {strings : List String}
    (h : Encoding period done b st t strings) :
    Encoded period done { b.profile with stringTable := strings } := by
  have hl : ({ b.profile with stringTable := strings } : Profile).Lists t :=
    ⟨h.tables.lists.function, h.tables.lists.location⟩
  have hplain : ({ b.profile with stringTable := strings } : Profile).Plain :=
    ⟨h.plain.mapping, h.plain.dropFrames, h.plain.keepFrames, h.plain.comment,
      h.plain.defaultSampleType⟩
  refine ⟨h.table.first, ⟨?_, hl.function_defined h.valid, hl.location_defined fun s hs => ?_⟩, ?_⟩
  · refine hplain.strings h.table.length_pos h.types (fun s hs l hm => ?_) (fun f hf => ?_)
    · obtain ⟨e, -, he⟩ := Profile.exists_of_forall₂_mem h.samples hs
      obtain ⟨tag, -, j, k, rfl, hj, hk⟩ := Profile.exists_of_forall₂_mem he.labels hm
      exact ⟨Profile.inTable_of_getElem hj, Profile.inTable_of_getElem hk, rfl⟩
    · obtain ⟨fm, hfm, hname, hsys, hfile⟩ := hl.mem_function hf
      have hlt := h.named fm hfm
      exact ⟨⟨_, hname, hlt.1⟩, hsys, ⟨_, hfile, hlt.2⟩⟩
  · obtain ⟨e, -, he⟩ := Profile.exists_of_forall₂_mem h.samples hs
    obtain ⟨fs, hfs, -⟩ := he.frames
    exact ⟨fs, hfs⟩
  · refine Profile.mapM_of_forall₂ (h.samples.imp fun e s hs => ?_)
    have hs' : SampleOf ({ b.profile with stringTable := strings } : Profile).stringTable t period e s := hs
    simp only [hs'.namedFrames hl, hs'.labels_eq, Option.bind_some, Option.map_some, hs.value,
      entryDecoded]

/-! ### `encode` as a whole -/

theorem pySpy_period {sampleRate : UInt32} (h : sampleRate.toNat ≠ 0) :
    ProfileKind.period (K := PySpyProfile) sampleRate = .ok (1000000000 / (sampleRate.toNat : ℤ)) :=
  if_neg h

def encodeRequests (entries : List (StackTrace × ℕ)) : List String :=
  ProfileKind.requests PySpyProfile ++ entryRequests entries

theorem encode_zero_rate (ordData : IterOrder (StackTrace × ℕ))
    (ordStrings : IterOrder (String × StringID)) (reports : List Report) (timeRange : TimeRange) :
    encode ordData ordStrings reports 0 timeRange = .error .divideByZero := rfl

/- With a positive rate the only panic is a full string table. -/
theorem encode_outcome (ordData : IterOrder (StackTrace × ℕ))
    (ordStrings : IterOrder (String × StringID)) (reports : List Report) (sampleRate : UInt32)
    (timeRange : TimeRange) (hrate : sampleRate.toNat ≠ 0) :
    Outcome (Room [""] (encodeRequests (reportEntries ordData reports))) Panic.stringIds
      (encode ordData ordStrings reports sampleRate timeRange) fun p =>
        Encoded (1000000000 / (sampleRate.toNat : ℤ)) (reportEntries ordData reports) p := by
  have hset := setProfileType_outcome new_repr (K := PySpyProfile)
    ((PProfBuilder.new : PProfBuilder PySpyProfile).setTimeRange timeRange).profile
    (pySpy_period hrate)
  have hbuilder : Outcome (Room [""] (ProfileKind.requests PySpyProfile)) Panic.stringIds
      (((PProfBuilder.new : PProfBuilder PySpyProfile).setTimeRange timeRange).setProfileType
        StringTable.new sampleRate) fun r =>
      Encoding (1000000000 / (sampleRate.toNat : ℤ)) [] r.1 r.2 Tables.empty
        (internAll [""] (ProfileKind.requests PySpyProfile)) := by
    refine hset.map fun r hr => ?_
    have hrest := hr.2.rest
    refine ⟨⟨Dense.empty _, Dense.empty _, ?_, ?_⟩, Tables.empty_valid, hr.1, ?_, ?_, hr.2.inTable,
      fun _ h => absurd h List.not_mem_nil, ?_⟩
    · rw [hrest]
      rfl
    · rw [hrest]
      rfl
    · rw [hrest]
    · rw [hrest]
      exact ⟨rfl, rfl, rfl, rfl, rfl⟩
    · rw [hrest]
      exact List.Forall₂.nil
  refine (hbuilder.bind fun r₁ h₁ => (addStacktraces_outcome h₁ _).bind fun r₂ h₂ => ?_).congr
    ((and_congr_right fun _ => iff_of_eq (and_true _)).trans (room_append ..).symm)
  obtain ⟨t, h₂⟩ := h₂
  exact Outcome.after (intoPprofTable_repr h₂.table ordStrings) (Outcome.pure h₂.encoded)

end Pyroscope.Encode
