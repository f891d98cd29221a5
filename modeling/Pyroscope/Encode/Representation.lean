import Pyroscope.Encode.Encode
import Pyroscope.Lib.Transition

/-!
# A builder in use (encode/pprof.rs)

The two maps of a builder and the two vectors of its profile are kept in step by every
operation, in whatever order the operations come. The function ids handed out since the
last clearing are remembered, since these are the ones a location may name.
-/

namespace Pyroscope.Encode
open Pyroscope.Lib Pyroscope.Backend

structure InUse (K : Type) [ProfileKind K] where
  builder : PProfBuilder K
  issued : List ℕ

structure Recorder (K : Type) [ProfileKind K] where
  Input : Type
  add : Input → PProfBuilder K → Except Panic (PProfBuilder K)

def ffiRecorder (K : Type) [FfiProfileKind K] : Recorder K where
  Input := List FFIFrame × FFISampleValues
  add input b := b.addFfiSample input.1 input.2

/- The string table that comes back is the caller's. -/
def stacktraceRecorder : Recorder PySpyProfile where
  Input := StringTable × StackTrace × ℕ
  add input b := do
    let (b, _) ← b.addStacktrace input.1 input.2.1 input.2.2
    .ok b

section Steps
variable {K : Type} [ProfileKind K] (recorder : Recorder K)

def InUse.new : InUse K := ⟨.new, []⟩

inductive InUse.Step : InUse K → InUse K → Prop where
  | addFunctionMirror {s id b} (fm : FunctionMirror) (h : s.builder.addFunctionMirror fm = .ok (id, b)) :
    Step s ⟨b, id :: s.issued⟩
  | addLocationMirror {s id b} (lm : LocationMirror) (hid : lm.functionId ∈ s.issued)
      (h : s.builder.addLocationMirror lm = .ok (id, b)) : Step s ⟨b, s.issued⟩
  | record {s b} (input : recorder.Input) (h : recorder.add input s.builder = .ok b) : Step s ⟨b, s.issued⟩
  | setProfileType {s b strings'} (strings : StringTable) (config : ProfileKind.PeriodConfig K)
      (h : s.builder.setProfileType strings config = .ok (b, strings')) : Step s ⟨b, s.issued⟩
  | setTimeRange {s} (range : TimeRange) : Step s ⟨s.builder.setTimeRange range, s.issued⟩
  | takeProfileAndReset {s out b} (ordSamples : IterOrder (List ℕ × Values K))
      (ordStrings : IterOrder (String × StringID)) (st : StringTable) (range : TimeRange)
      (h : s.builder.takeProfileAndReset ordSamples ordStrings st range = .ok (out, b)) : Step s ⟨b, []⟩
  | reset {s} : Step s ⟨s.builder.reset, []⟩

def InUse.Reached : InUse K → Prop := Reachable (fun s => s = InUse.new) (InUse.Step recorder)

end Steps

/-! ### What is kept -/

namespace Tables

def HasFunction (t : Tables) (id : ℕ) : Prop := ∃ j fm, id = j + 1 ∧ t.functions[j]? = some fm

def HasLocation (t : Tables) (id : ℕ) : Prop := ∃ i lm, id = i + 1 ∧ t.locations[i]? = some lm

variable {t t' : Tables}

theorem HasFunction.mono (h : Le t t') {id : ℕ} (hid : t.HasFunction id) : t'.HasFunction id := by
  obtain ⟨j, fm, rfl, hfm⟩ := hid
  exact ⟨j, fm, rfl, getElem?_mono h.1 hfm⟩

theorem HasLocation.mono (h : Le t t') {id : ℕ} (hid : t.HasLocation id) : t'.HasLocation id := by
  obtain ⟨i, lm, rfl, hlm⟩ := hid
  exact ⟨i, lm, rfl, getElem?_mono h.2 hlm⟩

theorem hasLocation_of_resolve {id : ℕ} {f : FFIFrame} (h : t.resolve id = some f) : t.HasLocation id := by
  obtain ⟨i, -, lm, rfl, hlm, -⟩ := resolve_eq_some.mp h
  exact ⟨i, lm, rfl, hlm⟩

theorem addFrames_hasLocation (t : Tables) (fs : List FFIFrame) {id : ℕ} (hid : id ∈ (t.addFrames fs).1) :
    (t.addFrames fs).2.HasLocation id := by
  obtain ⟨f, -, hf⟩ := (addFrames_resolves t fs).mem hid
  exact hasLocation_of_resolve hf

theorem addFunction_le (t : Tables) (fm : FunctionMirror) : Le t ⟨internKeys t.functions fm, t.locations⟩ :=
  ⟨internKeys_mono _ _, List.prefix_refl _⟩

theorem addLocation_le (t : Tables) (lm : LocationMirror) : Le t ⟨t.functions, internKeys t.locations lm⟩ :=
  ⟨List.prefix_refl _, internKeys_mono _ _⟩

theorem addFunction_valid (h : t.Valid) (fm : FunctionMirror) :
    Valid ⟨internKeys t.functions fm, t.locations⟩ := by
  refine ⟨internKeys_nodup _ _ h.functions, h.locations, fun lm hlm => ?_⟩
  obtain ⟨j, fm', hj, hfm'⟩ := h.closed lm hlm
  exact ⟨j, fm', hj, getElem?_mono (internKeys_mono _ _) hfm'⟩

theorem addLocation_valid (h : t.Valid) {lm : LocationMirror} (hid : t.HasFunction lm.functionId) :
    Valid ⟨t.functions, internKeys t.locations lm⟩ := by
  refine ⟨h.functions, internKeys_nodup _ _ h.locations, fun lm' hlm' => ?_⟩
  rcases (mem_internKeys _ _ _).mp hlm' with hold | rfl
  · exact h.closed lm' hold
  · obtain ⟨j, fm, hj, hfm⟩ := hid
    exact ⟨j, fm, hj, hfm⟩

end Tables

/-- The assertions of `add_function_mirror` and `add_location_mirror`. -/
def NotAsserted (p : Panic) : Prop := p ≠ .functionIds ∧ p ≠ .locationIds

section Kept
variable {K : Type} [ProfileKind K]

/-- The invariant, in terms of the tables that maps and vectors list. -/
structure Kept (t : Tables) (s : InUse K) : Prop where
  tables : s.builder.Repr t
  valid : t.Valid
  sample : ∀ sample ∈ s.builder.profile.sample, ∀ id ∈ sample.locationId, t.HasLocation id
  ffiSamples : ∀ ids v, s.builder.ffiSamples.get ids = some v → ∀ id ∈ ids, t.HasLocation id
  issued : ∀ id ∈ s.issued, t.HasFunction id

theorem kept_cleared {b : PProfBuilder K} (hr : b.Repr Tables.empty) (hs : b.profile.sample = [])
    (hf : b.ffiSamples = HashMap.empty) : Kept Tables.empty ⟨b, []⟩ := by
  refine ⟨hr, Tables.empty_valid, fun sample hm => ?_, fun ids v h => ?_, fun id h => nomatch h⟩
  · rw [hs] at hm
    cases hm
  · rw [hf, HashMap.get_empty] at h
    cases h

theorem kept_reset (b : PProfBuilder K) : Kept Tables.empty ⟨b.reset, []⟩ :=
  kept_cleared (PProfBuilder.reset_repr b) rfl rfl

/- Where only the tables grow, everything that was there stays there. -/
theorem Kept.grow {t t' : Tables} {s : InUse K} {b : PProfBuilder K} (h : Kept t s) (hr : b.Repr t')
    (hv : t'.Valid) (hle : t.Le t') (ht : PProfBuilder.Touches s.builder b) : Kept t' ⟨b, s.issued⟩ := by
  refine ⟨hr, hv, fun sample hm id hid => ?_, fun ids v hget id hid => ?_, fun id hid => (h.issued id hid).mono hle⟩
  · rw [ht.profile] at hm
    exact (h.sample sample hm id hid).mono hle
  · rw [ht.ffiSamples] at hget
    exact (h.ffiSamples ids v hget id hid).mono hle

variable {t : Tables} {s : InUse K}

theorem Kept.addFunctionMirror (h : Kept t s) (fm : FunctionMirror) :
    Lands NotAsserted (fun r => ∃ t', Kept t' ⟨r.2, r.1 :: s.issued⟩) (s.builder.addFunctionMirror fm) := by
  obtain ⟨b, hadd, hrepr, htouches⟩ := PProfBuilder.addFunctionMirror_ok h.tables fm
  have hgrown := h.grow hrepr (Tables.addFunction_valid h.valid fm) (t.addFunction_le fm) htouches
  rw [hadd]
  refine ⟨_, hgrown.tables, hgrown.valid, hgrown.sample, hgrown.ffiSamples, ?_⟩
  rw [List.forall_mem_cons]
  exact ⟨⟨_, fm, rfl, internKeys_getElem _ _⟩, hgrown.issued⟩

theorem Kept.addLocationMirror (h : Kept t s) {lm : LocationMirror} (hid : lm.functionId ∈ s.issued) :
    Lands NotAsserted (fun r => ∃ t', Kept t' ⟨r.2, s.issued⟩) (s.builder.addLocationMirror lm) := by
  obtain ⟨b, hadd, hrepr, htouches⟩ := PProfBuilder.addLocationMirror_ok h.tables lm
  rw [hadd]
  exact ⟨_, h.grow hrepr (Tables.addLocation_valid h.valid (h.issued _ hid)) (t.addLocation_le lm) htouches⟩

end Kept

/-! ### Requests to any string table -/

section Strings

theorem add_lands (st : StringTable) (s : String) : Lands NotAsserted (fun _ => True) (st.add s) := by
  unfold StringTable.add StringID.new
  split
  · next p hp =>
    split at hp
    · cases hp
    · cases hp
      exact ⟨nofun, nofun⟩
  · split <;> trivial

theorem place_lands (v : List String) (x : String × StringID) :
    Lands NotAsserted (fun _ => True) (StringTable.place v x) := by
  unfold StringTable.place
  split
  · trivial
  · exact ⟨by decide, by decide⟩

theorem placeAll_lands (xs : List (String × StringID)) (v : List String) :
    Lands NotAsserted (fun _ => True) (StringTable.placeAll xs v) := by
  induction xs generalizing v with
  | nil => trivial
  | cons x xs ih =>
    have hplace := place_lands v x
    rw [StringTable.placeAll]
    cases hp : StringTable.place v x with
    | error p => exact hplace.error hp
    | ok v => exact ih v

theorem addValueType_lands (strings : StringTable) (t : String × String) :
    Lands NotAsserted (fun _ => True) (addValueType strings t) :=
  (add_lands strings t.1).bind fun r _ => (add_lands r.2 t.2).bind fun _ _ => trivial

theorem addValueTypes_lands (strings : StringTable) (ts : List (String × String)) :
    Lands NotAsserted (fun _ => True) (addValueTypes strings ts) := by
  induction ts generalizing strings with
  | nil => trivial
  | cons t ts ih => exact (addValueType_lands strings t).bind fun r _ => (ih r.2).bind fun _ _ => trivial

theorem addLabels_lands (strings : StringTable) (tags : List Tag) :
    Lands NotAsserted (fun _ => True) (PProfBuilder.addLabels strings tags) := by
  induction tags generalizing strings with
  | nil => trivial
  | cons l tags ih =>
    exact (add_lands strings l.key).bind fun r _ => (add_lands r.2 l.value).bind fun r' _ =>
      (ih r'.2).bind fun _ _ => trivial

end Strings

/-! ### The other operations -/

section Operations
variable {K : Type} [ProfileKind K] {t : Tables} {s : InUse K}

/- Whatever the string table is, only the header is written. -/
theorem Kept.setProfileType (h : Kept t s)
    (hperiod : ∀ config, Lands NotAsserted (fun _ => True) (ProfileKind.period (K := K) config))
    (strings : StringTable) (config : ProfileKind.PeriodConfig K) :
    Lands NotAsserted (fun r => ∃ t', Kept t' ⟨r.1, s.issued⟩) (s.builder.setProfileType strings config) := by
  have hset : Lands NotAsserted (fun r => ∃ t', Kept t' ⟨{ s.builder with profile := r.1 }, s.issued⟩)
      (ProfileKind.setProfileType K s.builder.profile strings config) := by
    refine (addValueTypes_lands strings _).bind fun r₁ _ => (hperiod config).bind fun period _ => ?_
    refine (addValueType_lands r₁.2 _).bind fun r₂ _ => ⟨t, ?_⟩
    exact ⟨⟨h.tables.functions, h.tables.locations, h.tables.lists.function, h.tables.lists.location⟩, h.valid,
      h.sample, h.ffiSamples, h.issued⟩
  exact hset.bind fun r hr => hr

theorem Kept.times (h : Kept t s) (timeNanos durationNanos : ℤ) :
    Kept t ⟨{ s.builder with profile := { s.builder.profile with timeNanos, durationNanos } }, s.issued⟩ :=
  ⟨⟨h.tables.functions, h.tables.locations, h.tables.lists.function, h.tables.lists.location⟩, h.valid,
    h.sample, h.ffiSamples, h.issued⟩

theorem takeProfileAndReset_lands (b : PProfBuilder K) (ordSamples : IterOrder (List ℕ × Values K))
    (ordStrings : IterOrder (String × StringID)) (st : StringTable) (range : TimeRange) :
    Lands NotAsserted (fun r => ∃ b' : PProfBuilder K, r.2 = b'.reset)
      (b.takeProfileAndReset ordSamples ordStrings st range) := by
  unfold PProfBuilder.takeProfileAndReset
  dsimp only
  split
  · exact ⟨_, rfl⟩
  · exact (placeAll_lands _ _).bind fun table _ => ⟨_, rfl⟩

/- One frame of a sample; the location it is given exists. -/
theorem Kept.addFrame (h : Kept t s) (f : FFIFrame) :
    Lands NotAsserted (fun r => Kept (t.addFrame f).2 ⟨r.2, s.issued⟩ ∧ (t.addFrame f).2.HasLocation r.1)
      (s.builder.addFrame f.functionName f.fileName f.line) := by
  obtain ⟨b, hadd, hrepr, htouches⟩ := PProfBuilder.addFrame_ok h.tables f
  rw [hadd]
  exact ⟨h.grow hrepr (t.addFrame_valid f h.valid) (t.addFrame_le f) htouches,
    Tables.hasLocation_of_resolve (t.addFrame_resolve f)⟩

end Operations

section Ffi
variable {K : Type} [FfiProfileKind K] {t : Tables} {s : InUse K}

theorem Kept.pushFfiSample (h : Kept t s) {locationIds : List ℕ} (hids : ∀ id ∈ locationIds, t.HasLocation id)
    (values : Values K) : Kept t ⟨s.builder.pushFfiSample locationIds values, s.issued⟩ := by
  refine ⟨⟨h.tables.functions, h.tables.locations, h.tables.lists⟩, h.valid, h.sample, ?_, h.issued⟩
  intro ids v hget id hid
  by_cases he : ids = locationIds
  · rw [he] at hid
    exact hids id hid
  · have hold : s.builder.ffiSamples.get ids = some v := by
      rw [← hget]
      exact (HashMap.get_insert_ne _ _ he).symm
    exact h.ffiSamples ids v hold id hid

theorem Kept.addFfiSample (h : Kept t s) (frames : List FFIFrame) (values : FFISampleValues) :
    Lands NotAsserted (fun b => ∃ t', Kept t' ⟨b, s.issued⟩) (s.builder.addFfiSample frames values) := by
  have hstart : Kept t ⟨{ s.builder with ffiLocationsScratch := [] }, s.issued⟩ :=
    ⟨⟨h.tables.functions, h.tables.locations, h.tables.lists⟩, h.valid, h.sample, h.ffiSamples, h.issued⟩
  obtain ⟨b, hadd, hrepr, htouches⟩ := PProfBuilder.addFfiFrames_ok hstart.tables frames
  have hgrown := hstart.grow hrepr (t.addFrames_valid frames h.valid) (t.addFrames_le frames) htouches
  rw [PProfBuilder.addFfiSample]
  dsimp only at hadd ⊢
  rw [hadd]
  exact ⟨_, hgrown.pushFfiSample (fun id hid => t.addFrames_hasLocation frames hid) _⟩

end Ffi

section Stacktrace
variable {t : Tables} {s : InUse PySpyProfile}

/- Induction on the frames; the locations of the earlier ones stay. -/
theorem Kept.addTraceFrames (h : Kept t s) (strings : StringTable) (frames : List StackFrame) :
    Lands NotAsserted (fun r => ∃ t', Kept t' ⟨r.2.1, s.issued⟩ ∧ t.Le t' ∧ ∀ id ∈ r.1, t'.HasLocation id)
      (s.builder.addTraceFrames strings frames) := by
  induction frames generalizing s t strings with
  | nil => exact ⟨t, h, Tables.Le.refl t, fun id hid => nomatch hid⟩
  | cons sf frames ih =>
    refine (add_lands strings sf.name).bind fun name _ => (add_lands name.2 sf.filename).bind fun filename _ => ?_
    refine (h.addFrame ⟨name.1, filename.1, sf.line⟩).bind fun r hr => ?_
    refine (ih hr.1 filename.2).bind fun rest hrest => ?_
    obtain ⟨t', hkept, hle, hids⟩ := hrest
    refine ⟨t', hkept, (t.addFrame_le _).trans hle, ?_⟩
    rw [List.forall_mem_cons]
    exact ⟨hr.2.mono hle, hids⟩

theorem Kept.addStacktrace (h : Kept t s) (strings : StringTable) (stacktrace : StackTrace) (value : ℕ) :
    Lands NotAsserted (fun r => ∃ t', Kept t' ⟨r.1, s.issued⟩) (s.builder.addStacktrace strings stacktrace value) := by
  refine (h.addTraceFrames strings stacktrace.frames).bind fun r hr => ?_
  obtain ⟨t', hkept, -, hids⟩ := hr
  refine (addLabels_lands r.2.2 _).bind fun labels _ => ⟨t', ⟨⟨hkept.tables.functions, hkept.tables.locations,
    hkept.tables.lists.function, hkept.tables.lists.location⟩, hkept.valid, ?_, hkept.ffiSamples, hkept.issued⟩⟩
  intro sample hm
  rcases List.mem_append.mp hm with hold | hnew
  · exact hkept.sample sample hold
  · rw [List.mem_singleton.mp hnew]
    exact hids

end Stacktrace

/-! ### Every run -/

section Runs
variable {K : Type} [ProfileKind K] {recorder : Recorder K}

/- One step, given what the recorder of the kind and its period do. -/
theorem Kept.step
    (hrecord : ∀ (t : Tables) (s : InUse K), Kept t s → ∀ input,
      Lands NotAsserted (fun b => ∃ t', Kept t' ⟨b, s.issued⟩) (recorder.add input s.builder))
    (hperiod : ∀ config, Lands NotAsserted (fun _ => True) (ProfileKind.period (K := K) config))
    {s s' : InUse K} (h : ∃ t, Kept t s) (hs : s.Step recorder s') : ∃ t, Kept t s' := by
  obtain ⟨t, h⟩ := h
  cases hs with
  | addFunctionMirror fm hadd => exact (h.addFunctionMirror fm).result hadd
  | addLocationMirror lm hid hadd => exact (h.addLocationMirror hid).result hadd
  | record input hadd => exact (hrecord t s h input).result hadd
  | setProfileType strings config hset => exact (h.setProfileType hperiod strings config).result hset
  | setTimeRange range => exact ⟨t, h.times _ _⟩
  | takeProfileAndReset ordSamples ordStrings st range htake =>
    obtain ⟨b, hb⟩ := (takeProfileAndReset_lands s.builder ordSamples ordStrings st range).result htake
    dsimp only at hb
    rw [hb]
    exact ⟨_, kept_reset b⟩
  | reset => exact ⟨_, kept_reset s.builder⟩

theorem InUse.Reached.kept
    (hrecord : ∀ (t : Tables) (s : InUse K), Kept t s → ∀ input,
      Lands NotAsserted (fun b => ∃ t', Kept t' ⟨b, s.issued⟩) (recorder.add input s.builder))
    (hperiod : ∀ config, Lands NotAsserted (fun _ => True) (ProfileKind.period (K := K) config))
    {s : InUse K} (h : s.Reached recorder) : ∃ t, Kept t s := by
  have hinit : ∀ s : InUse K, s = InUse.new → ∃ t, Kept t s := by
    rintro _ rfl
    exact ⟨_, kept_cleared PProfBuilder.new_repr rfl rfl⟩
  have hstep : ∀ s s' : InUse K, (∃ t, Kept t s) → s.Step recorder s' → ∃ t, Kept t s' :=
    fun s s' hs hss' => hs.elim fun t ht => Kept.step hrecord hperiod ⟨t, ht⟩ hss'
  exact Reachable.invariant hinit hstep h

end Runs

/-! ### The same in terms of the maps and the vectors -/

section Consistent
variable {K : Type} [ProfileKind K]

/-- Keys and ids correspond, an entry is the one its key asks for, and every id that is
mentioned has an entry. -/
structure Consistent (b : PProfBuilder K) : Prop where
  functionIds : Set.BijOn (fun fm => (b.functions.get fm).getD 0) {fm | (b.functions.get fm).isSome}
    (Set.Icc 1 b.profile.function.length)
  locationIds : Set.BijOn (fun lm => (b.locations.get lm).getD 0) {lm | (b.locations.get lm).isSome}
    (Set.Icc 1 b.profile.location.length)
  function : ∀ i f, b.profile.function[i]? = some f → ∃ fm, b.functions.get fm = some (i + 1) ∧
    f = ⟨i + 1, fm.name.pprof, 0, fm.filename.pprof, 0⟩
  location : ∀ i l, b.profile.location[i]? = some l → ∃ lm, b.locations.get lm = some (i + 1) ∧
    l = ⟨i + 1, 0, 0, [⟨lm.functionId, lm.line⟩], false⟩
  lines : ∀ l ∈ b.profile.location, ∀ line ∈ l.line, ∃ f ∈ b.profile.function, f.id = line.functionId
  sample : ∀ sample ∈ b.profile.sample, ∀ id ∈ sample.locationId, ∃ l ∈ b.profile.location, l.id = id
  ffiSamples : ∀ ids v, b.ffiSamples.get ids = some v → ∀ id ∈ ids, ∃ l ∈ b.profile.location, l.id = id

variable {t : Tables} {s : InUse K}

theorem getElem?_zipIdx_map {α β : Type} (f : ℕ → α → β) (l : List α) (i : ℕ) :
    (l.zipIdx.map fun e => f (e.2 + 1) e.1)[i]? = l[i]?.map (f (i + 1)) := by
  rw [List.getElem?_map, List.getElem?_zipIdx, Option.map_map, Nat.zero_add]
  rfl

theorem Kept.function_at (h : Kept t s) (i : ℕ) :
    s.builder.profile.function[i]? = t.functions[i]?.map (Function.ofMirror (i + 1)) := by
  rw [h.tables.lists.function, getElem?_zipIdx_map]

theorem Kept.location_at (h : Kept t s) (i : ℕ) :
    s.builder.profile.location[i]? = t.locations[i]?.map (Location.ofMirror (i + 1)) := by
  rw [h.tables.lists.location, getElem?_zipIdx_map]

theorem Kept.function_exists (h : Kept t s) {id : ℕ} (hid : t.HasFunction id) :
    ∃ f ∈ s.builder.profile.function, f.id = id := by
  obtain ⟨j, fm, rfl, hfm⟩ := hid
  have hat := h.function_at j
  rw [hfm] at hat
  exact ⟨_, List.mem_of_getElem? hat, rfl⟩

theorem Kept.location_exists (h : Kept t s) {id : ℕ} (hid : t.HasLocation id) :
    ∃ l ∈ s.builder.profile.location, l.id = id := by
  obtain ⟨i, lm, rfl, hlm⟩ := hid
  have hat := h.location_at i
  rw [hlm] at hat
  exact ⟨_, List.mem_of_getElem? hat, rfl⟩

theorem Kept.consistent (h : Kept t s) : Consistent s.builder := by
  have hfunctions : s.builder.profile.function.length = t.functions.length := by
    rw [h.tables.lists.function, List.length_map, List.length_zipIdx]
  have hlocations : s.builder.profile.location.length = t.locations.length := by
    rw [h.tables.lists.location, List.length_map, List.length_zipIdx]
  refine ⟨?_, ?_, fun i f hf => ?_, fun i l hl => ?_, fun l hl line hline => ?_,
    fun sample hs id hid => h.location_exists (h.sample sample hs id hid),
    fun ids v hget id hid => h.location_exists (h.ffiSamples ids v hget id hid)⟩
  · rw [hfunctions]
    exact h.tables.functions.bijOn
  · rw [hlocations]
    exact h.tables.locations.bijOn
  · rw [h.function_at, Option.map_eq_some_iff] at hf
    obtain ⟨fm, hfm, rfl⟩ := hf
    exact ⟨fm, (h.tables.functions.get_iff fm _).mpr ⟨i, hfm, rfl⟩, rfl⟩
  · rw [h.location_at, Option.map_eq_some_iff] at hl
    obtain ⟨lm, hlm, rfl⟩ := hl
    exact ⟨lm, (h.tables.locations.get_iff lm _).mpr ⟨i, hlm, rfl⟩, rfl⟩
  · obtain ⟨i, hi⟩ := List.getElem?_of_mem hl
    rw [h.location_at, Option.map_eq_some_iff] at hi
    obtain ⟨lm, hlm, rfl⟩ := hi
    obtain ⟨j, fm, hj, hfm⟩ := h.valid.closed lm (List.mem_of_getElem? hlm)
    rw [List.mem_singleton.mp hline]
    exact h.function_exists ⟨j, fm, hj, hfm⟩

/-- What holds of a builder, and of the assertions in its next operation. -/
structure InUse.Sound (recorder : Recorder K) (s : InUse K) : Prop where
  consistent : Consistent s.builder
  addFunctionMirror : ∀ fm, Lands NotAsserted (fun _ => True) (s.builder.addFunctionMirror fm)
  addLocationMirror : ∀ lm, Lands NotAsserted (fun _ => True) (s.builder.addLocationMirror lm)
  record : ∀ input, Lands NotAsserted (fun _ => True) (recorder.add input s.builder)

theorem Kept.sound {recorder : Recorder K} (h : Kept t s)
    (hrecord : ∀ input, Lands NotAsserted (fun b => ∃ t', Kept t' ⟨b, s.issued⟩) (recorder.add input s.builder)) :
    s.Sound recorder := by
  refine ⟨h.consistent, fun fm => (h.addFunctionMirror fm).imp fun _ _ => trivial, fun lm => ?_,
    fun input => (hrecord input).imp fun _ _ => trivial⟩
  obtain ⟨b, hadd, -⟩ := PProfBuilder.addLocationMirror_ok h.tables lm
  rw [hadd]
  trivial

end Consistent

theorem ffi_sound {K : Type} [FfiProfileKind K] {s : InUse K} (h : s.Reached (ffiRecorder K)) :
    s.Sound (ffiRecorder K) := by
  have hrecord : ∀ (t : Tables) (s : InUse K), Kept t s → ∀ input,
      Lands NotAsserted (fun b => ∃ t', Kept t' ⟨b, s.issued⟩) ((ffiRecorder K).add input s.builder) :=
    fun t s hk input => hk.addFfiSample input.1 input.2
  have hperiod : ∀ config, Lands NotAsserted (fun _ => True) (ProfileKind.period (K := K) config) := by
    intro config
    obtain ⟨p, hp⟩ := FfiProfileKind.period_ok (K := K) config
    rw [hp]
    trivial
  obtain ⟨t, hk⟩ := h.kept hrecord hperiod
  exact hk.sound (hrecord t s hk)

theorem stacktrace_sound {s : InUse PySpyProfile} (h : s.Reached stacktraceRecorder) :
    s.Sound stacktraceRecorder := by
  have hrecord : ∀ (t : Tables) (s : InUse PySpyProfile), Kept t s → ∀ input,
      Lands NotAsserted (fun b => ∃ t', Kept t' ⟨b, s.issued⟩) (stacktraceRecorder.add input s.builder) :=
    fun t s hk input => (hk.addStacktrace input.1 input.2.1 input.2.2).bind fun _ hr => hr
  have hperiod : ∀ config, Lands NotAsserted (fun _ => True) (ProfileKind.period (K := PySpyProfile) config) := by
    intro config
    show Lands _ _ (if _ then _ else _)
    split
    · exact ⟨by decide, by decide⟩
    · trivial
  obtain ⟨t, hk⟩ := h.kept hrecord hperiod
  exact hk.sound (hrecord t s hk)

/-- Whatever is called, in whatever order. -/
theorem builder_representation :
    (∀ (K : Type) [FfiProfileKind K] (s : InUse K), s.Reached (ffiRecorder K) → s.Sound (ffiRecorder K)) ∧
      ∀ s : InUse PySpyProfile, s.Reached stacktraceRecorder → s.Sound stacktraceRecorder :=
  ⟨fun _ _ _ h => ffi_sound h, fun _ h => stacktrace_sound h⟩

end Pyroscope.Encode
