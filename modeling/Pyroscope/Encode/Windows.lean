import Pyroscope.Encode.Builder
import Mathlib.Data.List.Dedup

/-!
# Windows of an FFI builder

Between two takes or resets a builder accumulates the values pushed for each stack.
It does so under the location ids of the stack; `Accumulated` says that this is the
same as accumulating under the stack itself, and `FfiOp.run` is a whole sequence of
calls on one builder. Every call brings the string table it is given.
-/

namespace Pyroscope.Encode
open Pyroscope.Lib StringTable

/-- The pushes since the last take or reset. -/
abbrev Window : Type := List (List FFIFrame × FFISampleValues)

namespace Window

def frameLists (w : Window) : List (List FFIFrame) := w.map Prod.fst

def allFrames (w : Window) : List FFIFrame := w.flatMap Prod.fst

variable (K : Type) [FfiProfileKind K]

/-- The slots pushed for one stack, in order. -/
def pushes (w : Window) (frames : List FFIFrame) : List (Values K) :=
  (w.filter fun e => e.1 = frames).map fun e => FfiProfileKind.valueSlots e.2

end Window

/-- Element-wise saturating fold; the first push is stored as it is. -/
def foldValues {K : Type} [ProfileKind K] : List (Values K) → Values K
  | [] => fun _ => 0
  | v :: vs => vs.foldl accumulate v

theorem foldValues_append {K : Type} [ProfileKind K] {vs : List (Values K)} (h : vs ≠ [])
    (v : Values K) : foldValues (vs ++ [v]) = accumulate (foldValues vs) v := by
  cases vs with
  | nil => exact (h rfl).elim
  | cons u us => simp only [List.cons_append, foldValues, List.foldl_append, List.foldl_cons, List.foldl_nil]

theorem foldl_accumulate {K : Type} [ProfileKind K] (vs : List (Values K)) (v : Values K)
    (i : Fin (ProfileKind.sampleTypes K).length) :
    vs.foldl accumulate v i = (vs.map fun u => u i).foldl saturatingAdd (v i) := by
  induction vs generalizing v with
  | nil => rfl
  | cons u us ih => exact ih (accumulate v u)

/- Non-negative slots saturate their exact sum, so their order does not matter. -/
theorem foldValues_nonneg {K : Type} [ProfileKind K] {vs : List (Values K)} (hne : vs ≠ [])
    (i : Fin (ProfileKind.sampleTypes K).length) (hmem : ∀ v ∈ vs, InI64 (v i))
    (hpos : ∀ v ∈ vs, 0 ≤ v i) : foldValues vs i = min i64Max (vs.map fun v => v i).sum := by
  cases vs with
  | nil => exact (hne rfl).elim
  | cons v us =>
    have hv : v i = min i64Max (v i) := (min_eq_right (hmem v (List.mem_cons_self ..)).2).symm
    have hus : ∀ y ∈ us.map fun u => u i, 0 ≤ y := by
      intro y hy
      obtain ⟨u, hu, rfl⟩ := List.mem_map.mp hy
      exact hpos u (List.mem_cons_of_mem _ hu)
    rw [foldValues, foldl_accumulate, hv, foldl_saturatingAdd _ _ (hpos v (List.mem_cons_self ..)) hus,
      List.map_cons, List.sum_cons]

namespace Window
variable {K : Type} [FfiProfileKind K] (w : Window)

theorem pushes_append (e : List FFIFrame × FFISampleValues) (frames : List FFIFrame) :
    pushes K (w ++ [e]) frames =
      pushes K w frames ++ if e.1 = frames then [FfiProfileKind.valueSlots e.2] else [] := by
  by_cases h : e.1 = frames
  · simp [pushes, h]
  · simp [pushes, h]

theorem pushes_eq_nil {frames : List FFIFrame} : pushes K w frames = [] ↔ frames ∉ w.frameLists := by
  simp only [pushes, frameLists, List.map_eq_nil_iff, List.filter_eq_nil_iff, decide_eq_true_eq,
    List.mem_map, not_exists, not_and]

theorem mem_pushes {frames : List FFIFrame} {v : Values K} (h : v ∈ pushes K w frames)
    (i : Fin (ProfileKind.sampleTypes K).length) : InI64 (v i) := by
  obtain ⟨e, -, rfl⟩ := List.mem_map.mp h
  exact FfiProfileKind.valueSlots_mem e.2 i

end Window

/-! ### The accumulation invariant -/

section Accumulated
variable {K : Type} [FfiProfileKind K]

/-- The builder holds the folded pushes of `w`, keyed by ids that resolve to the stacks. -/
structure Accumulated (b : PProfBuilder K) (t : Tables) (w : Window) : Prop where
  tables : b.Repr t
  valid : t.Valid
  fromWindow : t.From w.allFrames
  noSamples : b.profile.sample = []
  plain : b.profile.Plain
  sound : ∀ ids v, b.ffiSamples.get ids = some v →
    ∃ frames ∈ w.frameLists, t.Resolves ids frames ∧ v = foldValues (w.pushes K frames)
  complete : ∀ frames ∈ w.frameLists, ∃ ids v, t.Resolves ids frames ∧ b.ffiSamples.get ids = some v

theorem empty_accumulated {b : PProfBuilder K} (hr : b.Repr Tables.empty)
    (hs : b.profile.sample = []) (hp : b.profile.Plain) (hf : b.ffiSamples = HashMap.empty) :
    Accumulated b Tables.empty [] := by
  refine ⟨hr, Tables.empty_valid, Tables.empty_from _, hs, hp, ?_, fun _ h => absurd h List.not_mem_nil⟩
  intro ids v h
  rw [hf, HashMap.get_empty] at h
  cases h

theorem new_accumulated : Accumulated (PProfBuilder.new : PProfBuilder K) Tables.empty [] :=
  empty_accumulated PProfBuilder.new_repr rfl ⟨rfl, rfl, rfl, rfl, rfl⟩ rfl

theorem reset_accumulated {b : PProfBuilder K} (h : b.profile.Plain) :
    Accumulated b.reset Tables.empty [] :=
  empty_accumulated (PProfBuilder.reset_repr b) rfl
    ⟨h.mapping, h.dropFrames, h.keepFrames, h.comment, h.defaultSampleType⟩ rfl

/- One more push for the stack that some ids stand for. -/
theorem Accumulated.pushed {b b₁ : PProfBuilder K} {t t' : Tables} {w : Window} (h : Accumulated b t w)
    (hle : t.Le t') (hvalid : t'.Valid) {ids : List ℕ} {frames : List FFIFrame} (hres : t'.Resolves ids frames)
    (hsamples : b₁.ffiSamples = b.ffiSamples) (v : Values K) :
    (b₁.pushFfiSample ids v).ffiSamples.get ids = some (foldValues (w.pushes K frames ++ [v])) := by
  rw [PProfBuilder.pushFfiSample, HashMap.get_insert, Option.some.injEq, hsamples]
  cases hold : b.ffiSamples.get ids with
  | some acc =>
    obtain ⟨frames', hmem, hres', hacc⟩ := h.sound _ _ hold
    have hsame : frames' = frames := (hres'.mono hle).functional hres
    subst hsame
    have hne : w.pushes K frames' ≠ [] := fun hnil => w.pushes_eq_nil.mp hnil hmem
    rw [foldValues_append hne, hacc]
  | none =>
    have hnew : frames ∉ w.frameLists := by
      intro hmem
      obtain ⟨ids', v', hres', hget'⟩ := h.complete frames hmem
      have hsame := (hres'.mono hle).inj hvalid.functions hvalid.locations hres
      rw [hsame, hold] at hget'
      cases hget'
    rw [w.pushes_eq_nil.mpr hnew]
    rfl

theorem addFfiSample_accumulated {b : PProfBuilder K} {t : Tables} {w : Window}
    (h : Accumulated b t w) (frames : List FFIFrame) (values : FFISampleValues) :
    ∃ b', b.addFfiSample frames values = .ok b' ∧
      Accumulated b' (t.addFrames frames).2 (w ++ [(frames, values)]) := by
  have hscratch : ({ b with ffiLocationsScratch := [] } : PProfBuilder K).Repr t :=
    ⟨h.tables.functions, h.tables.locations, h.tables.lists⟩
  obtain ⟨b₁, hadd, hrepr, htouch⟩ := PProfBuilder.addFfiFrames_ok hscratch frames
  have hsamples : b₁.ffiSamples = b.ffiSamples := htouch.ffiSamples
  have hle := t.addFrames_le frames
  have hvalid := t.addFrames_valid frames h.valid
  have hres := t.addFrames_resolves frames
  have hlists : (w ++ [(frames, values)]).frameLists = w.frameLists ++ [frames] := List.map_append
  refine ⟨b₁.pushFfiSample (t.addFrames frames).1 (FfiProfileKind.valueSlots values),
    by simp only [PProfBuilder.addFfiSample, hadd, bind, Except.bind], ?_⟩
  refine ⟨⟨hrepr.functions, hrepr.locations, hrepr.lists⟩, hvalid, ?_, ?_, ?_, ?_, ?_⟩
  · have hall : (w ++ [(frames, values)]).allFrames = w.allFrames ++ frames := by
      simp only [Window.allFrames, List.flatMap_append, List.flatMap_cons, List.flatMap_nil,
        List.append_nil]
    rw [hall]
    exact t.addFrames_from _ frames (h.fromWindow.subset (List.subset_append_left _ _))
      (List.subset_append_right _ _)
  · rw [PProfBuilder.pushFfiSample, htouch.profile]
    exact h.noSamples
  · rw [PProfBuilder.pushFfiSample, htouch.profile]
    exact ⟨h.plain.mapping, h.plain.dropFrames, h.plain.keepFrames, h.plain.comment,
      h.plain.defaultSampleType⟩
  · intro ids v hget
    by_cases hids : ids = (t.addFrames frames).1
    · -- the stack just pushed
      refine ⟨frames, by rw [hlists]; exact List.mem_append_right _ (List.mem_singleton_self _),
        by rw [hids]; exact hres, ?_⟩
      rw [hids, h.pushed hle hvalid hres hsamples, Option.some.injEq] at hget
      rw [← hget, Window.pushes_append, if_pos rfl]
    · rw [PProfBuilder.pushFfiSample, HashMap.get_insert_ne _ _ hids, hsamples] at hget
      obtain ⟨frames', hmem, hres', hv⟩ := h.sound ids v hget
      have hne : frames ≠ frames' := by
        intro he
        subst he
        exact hids ((hres'.mono hle).inj hvalid.functions hvalid.locations hres)
      refine ⟨frames', by rw [hlists]; exact List.mem_append_left _ hmem, hres'.mono hle, ?_⟩
      rw [Window.pushes_append, if_neg hne, List.append_nil]
      exact hv
  · intro frames' hmem
    rw [hlists] at hmem
    by_cases hsame : frames' = frames
    · subst hsame
      exact ⟨_, _, hres, HashMap.get_insert _ _ _⟩
    · have hold : frames' ∈ w.frameLists := by
        rcases List.mem_append.mp hmem with hm | hm
        · exact hm
        · exact (hsame (List.mem_singleton.mp hm)).elim
      obtain ⟨ids, v, hres', hget⟩ := h.complete frames' hold
      have hne : ids ≠ (t.addFrames frames).1 := by
        intro he
        rw [he] at hres'
        exact hsame ((hres'.mono hle).functional hres)
      refine ⟨ids, v, hres'.mono hle, ?_⟩
      rw [PProfBuilder.pushFfiSample, HashMap.get_insert_ne _ _ hne, hsamples]
      exact hget

/-! ### Taking a profile -/

/-- `p` shows the window `w` and nothing else. -/
structure WindowProfile (K : Type) [FfiProfileKind K] (w : Window) (p : Profile) : Prop where
  samples : ∃ lists : List (List FFIFrame), lists.Perm w.frameLists.dedup ∧
    List.Forall₂ (fun frames s => p.frames s = some (frames.map Profile.Lists.lineOf) ∧
      s.value = List.ofFn (foldValues (w.pushes K frames))) lists p.sample
  saturated : ∀ frames ∈ w.frameLists, ∀ i, (∀ v ∈ w.pushes K frames, 0 ≤ v i) →
    foldValues (w.pushes K frames) i = min i64Max ((w.pushes K frames).map fun v => v i).sum
  functions : ∀ f ∈ p.function, ∃ frame ∈ w.allFrames,
    f.name = frame.functionName.pprof ∧ f.filename = frame.fileName.pprof
  locations : ∀ l ∈ p.location, ∃ frame ∈ w.allFrames,
    p.locationLines l.id = some [Profile.Lists.lineOf frame]

def TakeSpec (K : Type) [FfiProfileKind K] (w : Window) : Option Profile → Prop
  | none => w = []
  | some p => w ≠ [] ∧ WindowProfile K w p

/- The stacks read off the accumulated ids are the pushed ones, each once. -/
theorem accumulated_lists {b : PProfBuilder K} {t : Tables} {w : Window} (h : Accumulated b t w)
    (ord : IterOrder (List ℕ × Values K)) :
    ((ord.visit b.ffiSamples.toList).map fun e => t.framesOf e.1).Perm w.frameLists.dedup := by
  have hperm := ord.perm b.ffiSamples.toList
  have hfst : ((ord.visit b.ffiSamples.toList).map Prod.fst).Nodup :=
    (hperm.map Prod.fst).nodup_iff.mpr b.ffiSamples.nodup_fst
  have hmem : ∀ e, e ∈ ord.visit b.ffiSamples.toList ↔ b.ffiSamples.get e.1 = some e.2 := fun e => by
    rw [ord.mem_visit, HashMap.mem_toList]
  have hnodup : ((ord.visit b.ffiSamples.toList).map fun e => t.framesOf e.1).Nodup := by
    have hcomp : ((ord.visit b.ffiSamples.toList).map Prod.fst).map t.framesOf =
        (ord.visit b.ffiSamples.toList).map fun e => t.framesOf e.1 := List.map_map
    rw [← hcomp]
    refine hfst.map_on fun ids hids ids' hids' he => ?_
    obtain ⟨e, hm, rfl⟩ := List.mem_map.mp hids
    obtain ⟨e', hm', rfl⟩ := List.mem_map.mp hids'
    obtain ⟨frames, -, hres, -⟩ := h.sound _ _ ((hmem e).mp hm)
    obtain ⟨frames', -, hres', -⟩ := h.sound _ _ ((hmem e').mp hm')
    rw [hres.framesOf_eq, hres'.framesOf_eq] at he
    rw [he] at hres
    exact hres.inj h.valid.functions h.valid.locations hres'
  refine (List.perm_ext_iff_of_nodup hnodup w.frameLists.nodup_dedup).mpr fun frames => ?_
  rw [List.mem_dedup, List.mem_map]
  refine ⟨fun hin => ?_, fun hin => ?_⟩
  · obtain ⟨e, hm, rfl⟩ := hin
    obtain ⟨frames, hframes, hres, -⟩ := h.sound _ _ ((hmem e).mp hm)
    rw [hres.framesOf_eq]
    exact hframes
  · obtain ⟨ids, v, hres, hget⟩ := h.complete frames hin
    exact ⟨(ids, v), (hmem _).mpr hget, hres.framesOf_eq⟩

theorem accumulated_nil {b : PProfBuilder K} {t : Tables} {w : Window} (h : Accumulated b t w) :
    b.ffiSamples.toList = [] ↔ w = [] := by
  refine ⟨fun hnil => ?_, fun hnil => ?_⟩
  · cases w with
    | nil => rfl
    | cons e w =>
      obtain ⟨ids, v, -, hget⟩ := h.complete e.1 (List.mem_cons_self ..)
      have hm := (HashMap.mem_toList b.ffiSamples ids v).mpr hget
      rw [hnil] at hm
      cases hm
  · refine List.eq_nil_iff_forall_not_mem.mpr fun e hm => ?_
    obtain ⟨frames, hframes, -⟩ := h.sound e.1 e.2 ((HashMap.mem_toList _ _ _).mp hm)
    rw [hnil] at hframes
    cases hframes

def flushed (ord : IterOrder (List ℕ × Values K)) (b : PProfBuilder K) : List Sample :=
  (ord.visit b.ffiSamples.toList).map fun e => ⟨e.1, List.ofFn e.2, []⟩

theorem flushed_windowProfile {b : PProfBuilder K} {t : Tables} {w : Window}
    (h : Accumulated b t w) (ord : IterOrder (List ℕ × Values K)) {p : Profile} (hl : p.Lists t)
    (hs : p.sample = flushed ord b) : WindowProfile K w p := by
  refine ⟨⟨_, accumulated_lists h ord, ?_⟩, ?_, ?_, ?_⟩
  · rw [hs, flushed, List.forall₂_map_left_iff, List.forall₂_map_right_iff, List.forall₂_same]
    intro e hm
    have hget := (HashMap.mem_toList _ _ _).mp ((ord.mem_visit _ e).mp hm)
    obtain ⟨frames, -, hres, hv⟩ := h.sound e.1 e.2 hget
    rw [hres.framesOf_eq, ← hv]
    exact ⟨hl.frames_eq hres, rfl⟩
  · intro frames hframes i hpos
    have hne : w.pushes K frames ≠ [] := fun hnil => w.pushes_eq_nil.mp hnil hframes
    exact foldValues_nonneg hne i (fun v hv => w.mem_pushes hv i) hpos
  · intro f hf
    obtain ⟨fm, hfm, hname, -, hfile⟩ := hl.mem_function hf
    obtain ⟨frame, hframe, rfl⟩ := h.fromWindow.functions fm hfm
    exact ⟨frame, hframe, hname, hfile⟩
  · intro l hloc
    obtain ⟨i, hi, hid⟩ := hl.mem_location hloc
    obtain ⟨frame, hframe, hres⟩ := h.fromWindow.locations i hi
    rw [hid]
    exact ⟨frame, hframe, hl.locationLines hres⟩

theorem takeProfileAndReset_accumulated {b : PProfBuilder K} {t : Tables} {w : Window}
    (h : Accumulated b t w) {st : StringTable} {strings : List String} (hst : st.Repr strings)
    (ordSamples : IterOrder (List ℕ × Values K)) (ordStrings : IterOrder (String × StringID))
    (timeRange : TimeRange) :
    ∃ out b', b.takeProfileAndReset ordSamples ordStrings st timeRange = .ok (out, b') ∧
      TakeSpec K w out ∧ Accumulated b' Tables.empty [] := by
  have hsample : (b.flushFfiSamples ordSamples).profile.sample = flushed ordSamples b := by
    rw [PProfBuilder.flushFfiSamples, h.noSamples, List.nil_append]
    rfl
  have hempty : (b.flushFfiSamples ordSamples).profile.sample.isEmpty = true ↔ w = [] := by
    rw [hsample, List.isEmpty_iff, flushed, List.map_eq_nil_iff, ← List.length_eq_zero_iff,
      ordSamples.visit_length, List.length_eq_zero_iff]
    exact accumulated_nil h
  by_cases hw : w = []
  · exact ⟨_, _, PProfBuilder.takeProfileAndReset_none (hempty.mpr hw) ordStrings st timeRange, hw,
      reset_accumulated ⟨h.plain.mapping, h.plain.dropFrames, h.plain.keepFrames, h.plain.comment,
        h.plain.defaultSampleType⟩⟩
  · have hne : ¬(b.flushFfiSamples ordSamples).profile.sample.isEmpty = true :=
      fun he => hw (hempty.mp he)
    have hl : (b.takenProfile ordSamples timeRange strings).Lists t :=
      ⟨h.tables.lists.function, h.tables.lists.location⟩
    exact ⟨_, _, PProfBuilder.takeProfileAndReset_some hne ordStrings hst timeRange,
      ⟨hw, flushed_windowProfile h ordSamples hl hsample⟩,
      reset_accumulated ⟨rfl, rfl, rfl, rfl, rfl⟩⟩

/-- The types of the profile refer to the table, one per value slot. -/
structure TypesIn (K : Type) [ProfileKind K] (strings : List String) (p : Profile) : Prop where
  references : ∀ vt ∈ p.sampleType ++ p.periodType.toList,
    Profile.InTable strings.length vt.type ∧ Profile.InTable strings.length vt.unit
  count : p.sampleType.length = (ProfileKind.sampleTypes K).length

theorem setProfileType_accumulated {b : PProfBuilder K} {t : Tables} {w : Window}
    (h : Accumulated b t w) {st : StringTable} {strings : List String} (hst : st.Repr strings)
    (config : ProfileKind.PeriodConfig K) :
    Outcome (Room strings (ProfileKind.requests K)) Panic.stringIds (b.setProfileType st config)
      fun r => Accumulated r.1 t w ∧ r.2.Repr (internAll strings (ProfileKind.requests K)) ∧
        TypesIn K (internAll strings (ProfileKind.requests K)) r.1.profile := by
  obtain ⟨period, hperiod⟩ := FfiProfileKind.period_ok (K := K) config
  refine (setProfileType_outcome hst b.profile hperiod).map fun r hr => ?_
  have hrest := hr.2.rest
  refine ⟨⟨⟨h.tables.functions, h.tables.locations, ?_, ?_⟩, h.valid, h.fromWindow, ?_, ?_, h.sound,
    h.complete⟩, hr.1, hr.2.inTable, hr.2.sampleType.length_eq.symm⟩
  · rw [hrest]
    exact h.tables.lists.function
  · rw [hrest]
    exact h.tables.lists.location
  · rw [hrest]
    exact h.noSamples
  · rw [hrest]
    exact ⟨h.plain.mapping, h.plain.dropFrames, h.plain.keepFrames, h.plain.comment,
      h.plain.defaultSampleType⟩

end Accumulated

/-! ### Sequences of calls -/

/-- A table made by `StringTable::new` and `add`, with what it holds. -/
structure LiveTable where
  table : StringTable
  strings : List String
  repr : table.Repr strings

def LiveTable.new : LiveTable := ⟨StringTable.new, [""], new_repr⟩

inductive FfiOp (K : Type) [FfiProfileKind K] where
  | addFfiSample (frames : List FFIFrame) (values : FFISampleValues)
  | setProfileType (strings : LiveTable) (config : ProfileKind.PeriodConfig K)
  | takeProfileAndReset (ordSamples : IterOrder (List ℕ × Values K))
      (ordStrings : IterOrder (String × StringID)) (st : LiveTable) (timeRange : TimeRange)
  | reset

namespace FfiOp
variable {K : Type} [FfiProfileKind K]

/-- The builder after the call, and what a take returned. -/
def step (b : PProfBuilder K) : FfiOp K → Except Panic (List (Option Profile) × PProfBuilder K)
  | .addFfiSample frames values => do
    let b ← b.addFfiSample frames values
    .ok ([], b)
  | .setProfileType strings config => do
    let (b, _) ← b.setProfileType strings.table config
    .ok ([], b)
  | .takeProfileAndReset ordSamples ordStrings st timeRange => do
    let (out, b) ← b.takeProfileAndReset ordSamples ordStrings st.table timeRange
    .ok ([out], b)
  | .reset => .ok ([], b.reset)

/-- What the takes of a sequence of calls return, in order. -/
def run : PProfBuilder K → List (FfiOp K) → Except Panic (List (Option Profile))
  | _, [] => .ok []
  | b, op :: ops => do
    let (out, b) ← op.step b
    let outs ← run b ops
    .ok (out ++ outs)

def window (w : Window) : FfiOp K → Window
  | .addFfiSample frames values => w ++ [(frames, values)]
  | .setProfileType _ _ => w
  | .takeProfileAndReset _ _ _ _ => []
  | .reset => []

/-- The window that the call takes, if it is a take. -/
def taken (w : Window) : FfiOp K → List Window
  | .takeProfileAndReset _ _ _ _ => [w]
  | _ => []

def windows : Window → List (FfiOp K) → List Window
  | _, [] => []
  | w, op :: ops => op.taken w ++ windows (op.window w) ops

/-- `set_profile_type` needs room for the names of the types. -/
def HasRoom : FfiOp K → Prop
  | .setProfileType strings _ => Room strings.strings (ProfileKind.requests K)
  | _ => True

theorem step_outcome {b : PProfBuilder K} {t : Tables} {w : Window} (h : Accumulated b t w)
    (op : FfiOp K) :
    Outcome op.HasRoom Panic.stringIds (op.step b) fun r =>
      List.Forall₂ (TakeSpec K) (op.taken w) r.1 ∧ ∃ t', Accumulated r.2 t' (op.window w) := by
  cases op with
  | addFfiSample frames values =>
    obtain ⟨b', hadd, hacc⟩ := addFfiSample_accumulated h frames values
    exact Outcome.after hadd (Outcome.pure ⟨List.Forall₂.nil, _, hacc⟩)
  | setProfileType strings config =>
    exact (setProfileType_accumulated h strings.repr config).map
      fun r hr => ⟨List.Forall₂.nil, t, hr.1⟩
  | takeProfileAndReset ordSamples ordStrings st timeRange =>
    obtain ⟨out, b', htake, hspec, hacc⟩ :=
      takeProfileAndReset_accumulated h st.repr ordSamples ordStrings timeRange
    exact Outcome.after htake
      (Outcome.pure ⟨List.Forall₂.cons hspec List.Forall₂.nil, _, hacc⟩)
  | reset => exact Outcome.pure ⟨List.Forall₂.nil, _, reset_accumulated h.plain⟩

theorem run_outcome {b : PProfBuilder K} {t : Tables} {w : Window} (h : Accumulated b t w)
    (ops : List (FfiOp K)) :
    Outcome (∀ op ∈ ops, op.HasRoom) Panic.stringIds (run b ops) fun outs =>
      List.Forall₂ (TakeSpec K) (windows w ops) outs := by
  induction ops generalizing b t w with
  | nil =>
    exact (Outcome.pure List.Forall₂.nil).congr
      (iff_of_true trivial fun _ h => absurd h List.not_mem_nil)
  | cons op ops ih =>
    refine ((step_outcome h op).bind fun r hr => ?_).congr List.forall_mem_cons.symm
    obtain ⟨hspec, t', hacc⟩ := hr
    exact (ih hacc).map fun outs houts => List.rel_append hspec houts

end FfiOp

/- Every take of every sequence of calls returns its own window; the only panic is a
`set_profile_type` that finds its string table full. -/
theorem takes_show_their_windows (K : Type) [FfiProfileKind K] (ops : List (FfiOp K)) :
    Outcome (∀ op ∈ ops, op.HasRoom) Panic.stringIds (FfiOp.run PProfBuilder.new ops) fun outs =>
      List.Forall₂ (TakeSpec K) (FfiOp.windows [] ops) outs :=
  FfiOp.run_outcome new_accumulated ops

end Pyroscope.Encode
