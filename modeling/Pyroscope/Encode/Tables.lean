import Pyroscope.Encode.Pprof

/-!
# What the function and location tables mean

`Tables` is the abstract content of the two dedupe maps: the distinct functions and
the distinct locations, in order of first use. A location id stands for one frame
`(function name, file name, line)`; `resolve` reads it back. Ids are stable when the
tables grow and different ids stand for different frames.
-/

namespace Pyroscope.Encode
open Pyroscope.Lib

structure Tables where
  functions : List FunctionMirror
  locations : List LocationMirror

namespace Tables

def empty : Tables := ⟨[], []⟩

/-- Function and location ids start at one. -/
def resolve (t : Tables) : ℕ → Option FFIFrame
  | 0 => none
  | i + 1 =>
    match t.locations[i]? with
    | none => none
    | some lm =>
      match lm.functionId with
      | 0 => none
      | j + 1 => t.functions[j]?.map fun fm => ⟨fm.name, fm.filename, lm.line⟩

def functionKey (f : FFIFrame) : FunctionMirror := ⟨f.functionName, f.fileName⟩

def locationKey (t : Tables) (f : FFIFrame) : LocationMirror :=
  ⟨(internKeys t.functions (functionKey f)).idxOf (functionKey f) + 1, f.line⟩

def addFrame (t : Tables) (f : FFIFrame) : ℕ × Tables :=
  let lm := t.locationKey f
  ((internKeys t.locations lm).idxOf lm + 1,
    ⟨internKeys t.functions (functionKey f), internKeys t.locations lm⟩)

def addFrames : Tables → List FFIFrame → List ℕ × Tables
  | t, [] => ([], t)
  | t, f :: fs =>
    let r := t.addFrame f
    let rest := r.2.addFrames fs
    (r.1 :: rest.1, rest.2)

def Le (t t' : Tables) : Prop := t.functions <+: t'.functions ∧ t.locations <+: t'.locations

theorem Le.refl (t : Tables) : Le t t := ⟨List.prefix_refl _, List.prefix_refl _⟩

theorem Le.trans {t t' t'' : Tables} (h : Le t t') (h' : Le t' t'') : Le t t'' :=
  ⟨h.1.trans h'.1, h.2.trans h'.2⟩

theorem resolve_eq_some {t : Tables} {id : ℕ} {f : FFIFrame} :
    t.resolve id = some f ↔ ∃ i j lm, id = i + 1 ∧ t.locations[i]? = some lm ∧
      lm.functionId = j + 1 ∧ lm.line = f.line ∧ t.functions[j]? = some (functionKey f) := by
  refine ⟨fun h => ?_, fun h => ?_⟩
  · cases id with
    | zero => simp [resolve] at h
    | succ i =>
      simp only [resolve] at h
      cases hl : t.locations[i]? with
      | none => simp [hl] at h
      | some lm =>
        simp only [hl] at h
        cases hj : lm.functionId with
        | zero => simp [hj] at h
        | succ j =>
          simp only [hj, Option.map_eq_some_iff] at h
          obtain ⟨fm, hfm, rfl⟩ := h
          exact ⟨i, j, lm, rfl, hl, hj, rfl, hfm⟩
  · obtain ⟨i, j, lm, rfl, hl, hj, hline, hfm⟩ := h
    simp only [resolve, hl, hj, hfm, Option.map_some, hline]
    rfl

theorem resolve_mono {t t' : Tables} (h : Le t t') {id : ℕ} {f : FFIFrame}
    (hr : t.resolve id = some f) : t'.resolve id = some f := by
  rw [resolve_eq_some] at hr ⊢
  obtain ⟨i, j, lm, hi, hl, hj, hline, hfm⟩ := hr
  exact ⟨i, j, lm, hi, getElem?_mono h.2 hl, hj, hline, getElem?_mono h.1 hfm⟩

/- Two ids of one frame go through the same function and the same location. -/
theorem resolve_inj {t : Tables} (hf : t.functions.Nodup) (hl : t.locations.Nodup) {a b : ℕ}
    {f : FFIFrame} (ha : t.resolve a = some f) (hb : t.resolve b = some f) : a = b := by
  rw [resolve_eq_some] at ha hb
  obtain ⟨i, j, lm, rfl, hla, hja, hna, hfa⟩ := ha
  obtain ⟨i', j', lm', rfl, hlb, hjb, hnb, hfb⟩ := hb
  have hj : j = j' := nodup_getElem?_inj hf hfa hfb
  have hlm : lm = lm' := by
    cases lm
    cases lm'
    simp only at hja hjb hna hnb
    rw [hja, hjb, hna, hnb, hj]
  subst hlm
  rw [nodup_getElem?_inj hl hla hlb]

theorem addFrame_le (t : Tables) (f : FFIFrame) : Le t (t.addFrame f).2 :=
  ⟨internKeys_mono _ _, internKeys_mono _ _⟩

theorem addFrame_resolve (t : Tables) (f : FFIFrame) :
    (t.addFrame f).2.resolve (t.addFrame f).1 = some f := by
  rw [resolve_eq_some]
  exact ⟨_, _, t.locationKey f, rfl, internKeys_getElem _ _, rfl, rfl, internKeys_getElem _ _⟩

theorem mem_addFrames_functions (t : Tables) (fs : List FFIFrame) {fm : FunctionMirror}
    (h : fm ∈ (t.addFrames fs).2.functions) : fm ∈ t.functions ∨ ∃ f ∈ fs, fm = functionKey f := by
  induction fs generalizing t with
  | nil => exact Or.inl h
  | cons f fs ih =>
    rcases ih (t.addFrame f).2 h with hold | ⟨g, hg, he⟩
    · rcases (mem_internKeys _ _ _).mp hold with hold | rfl
      · exact Or.inl hold
      · exact Or.inr ⟨f, List.mem_cons_self .., rfl⟩
    · exact Or.inr ⟨g, List.mem_cons_of_mem _ hg, he⟩

theorem addFrames_le (t : Tables) (fs : List FFIFrame) : Le t (t.addFrames fs).2 := by
  induction fs generalizing t with
  | nil => exact Le.refl t
  | cons f fs ih => exact (addFrame_le t f).trans (ih _)

/-- The ids stand for the frames, one for one and in order. -/
def Resolves (t : Tables) (ids : List ℕ) (fs : List FFIFrame) : Prop :=
  ids.map t.resolve = fs.map some

theorem Resolves.mono {t t' : Tables} (h : Le t t') {ids : List ℕ} {fs : List FFIFrame}
    (hr : t.Resolves ids fs) : t'.Resolves ids fs := by
  induction ids generalizing fs with
  | nil =>
    cases fs with
    | nil => rfl
    | cons f fs => simp [Resolves] at hr
  | cons id ids ih =>
    cases fs with
    | nil => simp [Resolves] at hr
    | cons f fs =>
      simp only [Resolves, List.map_cons, List.cons.injEq] at hr ⊢
      exact ⟨resolve_mono h hr.1, ih hr.2⟩

theorem Resolves.inj {t : Tables} (hf : t.functions.Nodup) (hl : t.locations.Nodup)
    {ids ids' : List ℕ} {fs : List FFIFrame} (h : t.Resolves ids fs) (h' : t.Resolves ids' fs) :
    ids = ids' := by
  induction fs generalizing ids ids' with
  | nil =>
    have h1 : ids = [] := List.map_eq_nil_iff.mp h
    have h2 : ids' = [] := List.map_eq_nil_iff.mp h'
    rw [h1, h2]
  | cons f fs ih =>
    obtain ⟨a, as, rfl, ha, has⟩ := List.map_eq_cons_iff.mp h
    obtain ⟨b, bs, rfl, hb, hbs⟩ := List.map_eq_cons_iff.mp h'
    rw [resolve_inj hf hl ha hb, ih has hbs]

theorem Resolves.mem {t : Tables} {ids : List ℕ} {fs : List FFIFrame} (h : t.Resolves ids fs)
    {id : ℕ} (hid : id ∈ ids) : ∃ f ∈ fs, t.resolve id = some f := by
  have hm : t.resolve id ∈ fs.map some := by
    rw [← h]
    exact List.mem_map_of_mem hid
  obtain ⟨f, hf, he⟩ := List.mem_map.mp hm
  exact ⟨f, hf, he.symm⟩

theorem Resolves.functional {t : Tables} {ids : List ℕ} {fs fs' : List FFIFrame}
    (h : t.Resolves ids fs) (h' : t.Resolves ids fs') : fs = fs' :=
  List.map_injective_iff.mpr (Option.some_injective _) (h.symm.trans h')

def framesOf (t : Tables) (ids : List ℕ) : List FFIFrame := ids.filterMap t.resolve

theorem Resolves.framesOf_eq {t : Tables} {ids : List ℕ} {fs : List FFIFrame}
    (h : t.Resolves ids fs) : t.framesOf ids = fs := by
  induction ids generalizing fs with
  | nil => exact (List.map_eq_nil_iff.mp h.symm).symm
  | cons id ids ih =>
    obtain ⟨f, fs', rfl, hf, hfs⟩ := List.map_eq_cons_iff.mp h.symm
    have hid : t.framesOf (id :: ids) = f :: t.framesOf ids := List.filterMap_cons_some hf.symm
    rw [hid, ih hfs.symm]

theorem addFrames_resolves (t : Tables) (fs : List FFIFrame) :
    (t.addFrames fs).2.Resolves (t.addFrames fs).1 fs := by
  induction fs generalizing t with
  | nil => rfl
  | cons f fs ih =>
    simp only [Resolves, addFrames, List.map_cons, List.cons.injEq]
    exact ⟨resolve_mono (addFrames_le _ fs) (addFrame_resolve t f), ih _⟩

/-- Both lists are duplicate free and every location refers to a listed function. -/
structure Valid (t : Tables) : Prop where
  functions : t.functions.Nodup
  locations : t.locations.Nodup
  closed : ∀ lm ∈ t.locations, ∃ j fm, lm.functionId = j + 1 ∧ t.functions[j]? = some fm

theorem empty_valid : Valid empty :=
  ⟨List.nodup_nil, List.nodup_nil, fun _ h => absurd h List.not_mem_nil⟩

theorem addFrame_valid (t : Tables) (f : FFIFrame) (h : t.Valid) : (t.addFrame f).2.Valid := by
  refine ⟨internKeys_nodup _ _ h.functions, internKeys_nodup _ _ h.locations, ?_⟩
  intro lm hlm
  rcases (mem_internKeys _ _ _).mp hlm with hold | rfl
  · obtain ⟨j, fm, hj, hfm⟩ := h.closed lm hold
    exact ⟨j, fm, hj, getElem?_mono (internKeys_mono _ _) hfm⟩
  · exact ⟨_, _, rfl, internKeys_getElem _ _⟩

theorem addFrames_valid (t : Tables) (fs : List FFIFrame) (h : t.Valid) :
    (t.addFrames fs).2.Valid := by
  induction fs generalizing t with
  | nil => exact h
  | cons f fs ih => exact ih _ (addFrame_valid t f h)

/-- Everything in the tables was asked for by one of the frames. -/
structure From (t : Tables) (fs : List FFIFrame) : Prop where
  functions : ∀ fm ∈ t.functions, ∃ f ∈ fs, fm = functionKey f
  locations : ∀ i < t.locations.length, ∃ f ∈ fs, t.resolve (i + 1) = some f

theorem empty_from (fs : List FFIFrame) : From empty fs :=
  ⟨fun _ h => absurd h List.not_mem_nil, fun _ h => absurd h (Nat.not_lt_zero _)⟩

theorem From.subset {t : Tables} {fs fs' : List FFIFrame} (h : From t fs) (hs : fs ⊆ fs') :
    From t fs' := by
  refine ⟨fun fm hfm => ?_, fun i hi => ?_⟩
  · obtain ⟨f, hf, he⟩ := h.functions fm hfm
    exact ⟨f, hs hf, he⟩
  · obtain ⟨f, hf, he⟩ := h.locations i hi
    exact ⟨f, hs hf, he⟩

theorem addFrame_from (t : Tables) (fs : List FFIFrame) (f : FFIFrame) (h : From t fs) (hf : f ∈ fs) :
    From (t.addFrame f).2 fs := by
  refine ⟨?_, ?_⟩
  · intro fm hfm
    rcases (mem_internKeys _ _ _).mp hfm with hold | rfl
    · exact h.functions fm hold
    · exact ⟨f, hf, rfl⟩
  · intro i hi
    by_cases hold : i < t.locations.length
    · obtain ⟨g, hg, hr⟩ := h.locations i hold
      exact ⟨g, hg, resolve_mono (addFrame_le t f) hr⟩
    · have hlen : i + 1 = (t.addFrame f).1 := by
        have hnew : t.locationKey f ∉ t.locations := by
          intro hm
          have hsame : internKeys t.locations (t.locationKey f) = t.locations := by
            rw [internKeys, if_pos hm]
          simp only [addFrame, hsame] at hi
          exact hold hi
        have hkeys : internKeys t.locations (t.locationKey f) = t.locations ++ [t.locationKey f] := by
          rw [internKeys, if_neg hnew]
        simp only [addFrame, hkeys, List.length_append, List.length_singleton] at hi
        simp only [addFrame, hkeys, List.idxOf_append_of_notMem hnew, List.idxOf_cons_self]
        omega
      exact ⟨f, hf, by rw [hlen]; exact addFrame_resolve t f⟩

theorem addFrames_from (t : Tables) (all fs : List FFIFrame) (h : From t all) (hfs : fs ⊆ all) :
    From (t.addFrames fs).2 all := by
  induction fs generalizing t with
  | nil => exact h
  | cons f fs ih =>
    have hf : f ∈ all := hfs (List.mem_cons_self ..)
    exact ih _ (addFrame_from t all f h hf) (fun g hg => hfs (List.mem_cons_of_mem _ hg))

end Tables

/-! ### The tables in an emitted profile -/

theorem find?_zipIdx {κ β : Type} (f : ℕ → κ → β) (ident : β → ℕ)
    (hid : ∀ i k, ident (f i k) = i) (l : List κ) (start i : ℕ) :
    ((l.zipIdx start).map fun p => f (p.2 + 1) p.1).find? (fun x => ident x == start + i + 1) =
      l[i]?.map (f (start + i + 1)) := by
  induction l generalizing start i with
  | nil => simp
  | cons k l ih =>
    rw [List.zipIdx_cons, List.map_cons, List.find?_cons]
    simp only [hid]
    cases i with
    | zero => simp
    | succ i =>
      have hne : (start + 1 == start + (i + 1) + 1) = false := by
        rw [beq_eq_false_iff_ne]
        omega
      have hidx : start + (i + 1) + 1 = start + 1 + i + 1 := by omega
      rw [hne, hidx, ih (start + 1) i, List.getElem?_cons_succ]

/-- The function and location vectors list the tables, with consecutive ids. -/
structure Profile.Lists (p : Profile) (t : Tables) : Prop where
  function : p.function = t.functions.zipIdx.map fun e => Function.ofMirror (e.2 + 1) e.1
  location : p.location = t.locations.zipIdx.map fun e => Location.ofMirror (e.2 + 1) e.1

namespace Profile.Lists
variable {p : Profile} {t : Tables}

theorem findFunction (h : p.Lists t) (i : ℕ) :
    p.findFunction (i + 1) = t.functions[i]?.map (Function.ofMirror (i + 1)) := by
  have hf := find?_zipIdx Function.ofMirror Function.id (fun _ _ => rfl) t.functions 0 i
  simp only [Nat.zero_add] at hf
  rw [Profile.findFunction, h.function, hf]

theorem findLocation (h : p.Lists t) (i : ℕ) :
    p.findLocation (i + 1) = t.locations[i]?.map (Location.ofMirror (i + 1)) := by
  have hl := find?_zipIdx Location.ofMirror Location.id (fun _ _ => rfl) t.locations 0 i
  simp only [Nat.zero_add] at hl
  rw [Profile.findLocation, h.location, hl]

/-- A frame as the profile spells it. -/
def lineOf (f : FFIFrame) : ℤ × ℤ × ℤ := (f.functionName.pprof, f.fileName.pprof, f.line)

theorem locationLines (h : p.Lists t) {id : ℕ} {f : FFIFrame} (hr : t.resolve id = some f) :
    p.locationLines id = some [lineOf f] := by
  obtain ⟨i, j, lm, rfl, hl, hj, hline, hfm⟩ := Tables.resolve_eq_some.mp hr
  have hfun : p.findFunction lm.functionId = some (Function.ofMirror (j + 1) (Tables.functionKey f)) := by
    rw [hj, h.findFunction, hfm, Option.map_some]
  simp only [Profile.locationLines, h.findLocation, hl, Option.map_some, Option.bind_some,
    Location.ofMirror, List.mapM_cons, List.mapM_nil, Profile.line, hfun, Option.pure_def,
    Option.bind_eq_bind, hline]
  rfl

theorem mapM_locationLines (h : p.Lists t) {ids : List ℕ} {fs : List FFIFrame}
    (hr : t.Resolves ids fs) : ids.mapM p.locationLines = some (fs.map fun f => [lineOf f]) := by
  induction fs generalizing ids with
  | nil =>
    rw [List.map_eq_nil_iff.mp hr]
    rfl
  | cons f fs ih =>
    obtain ⟨id, ids, rfl, hid, hids⟩ := List.map_eq_cons_iff.mp hr
    simp only [List.mapM_cons, h.locationLines hid, ih hids, Option.bind_eq_bind, Option.bind_some,
      Option.pure_def, List.map_cons]

/- Reading a sample back gives the frames its location ids stand for. -/
theorem frames_eq (h : p.Lists t) {s : Sample} {fs : List FFIFrame}
    (hr : t.Resolves s.locationId fs) : p.frames s = some (fs.map lineOf) := by
  rw [Profile.frames, h.mapM_locationLines hr, Option.map_some, ← List.flatMap_def,
    ← List.map_eq_flatMap]

theorem function_ids (h : p.Lists t) :
    p.function.map Function.id = List.range' 1 t.functions.length := by
  have hid : (Function.id ∘ fun e : FunctionMirror × ℕ => Function.ofMirror (e.2 + 1) e.1) =
      (fun i : ℕ => 1 + i) ∘ Prod.snd := funext fun e => Nat.add_comm e.2 1
  rw [h.function, List.map_map, hid, ← List.map_map, List.zipIdx_map_snd, List.map_add_range']

theorem location_ids (h : p.Lists t) :
    p.location.map Location.id = List.range' 1 t.locations.length := by
  have hid : (Location.id ∘ fun e : LocationMirror × ℕ => Location.ofMirror (e.2 + 1) e.1) =
      (fun i : ℕ => 1 + i) ∘ Prod.snd := funext fun e => Nat.add_comm e.2 1
  rw [h.location, List.map_map, hid, ← List.map_map, List.zipIdx_map_snd, List.map_add_range']

theorem count_function (h : p.Lists t) {j : ℕ} (hj : j < t.functions.length) :
    (p.function.map Function.id).count (j + 1) = 1 := by
  rw [h.function_ids]
  exact List.count_eq_one_of_mem (List.nodup_range' ..) (by rw [List.mem_range'_1]; omega)

theorem count_location (h : p.Lists t) {i : ℕ} (hi : i < t.locations.length) :
    (p.location.map Location.id).count (i + 1) = 1 := by
  rw [h.location_ids]
  exact List.count_eq_one_of_mem (List.nodup_range' ..) (by rw [List.mem_range'_1]; omega)

theorem mem_function (h : p.Lists t) {f : Function} (hf : f ∈ p.function) :
    ∃ fm ∈ t.functions, f.name = fm.name.pprof ∧ f.systemName = 0 ∧ f.filename = fm.filename.pprof := by
  rw [h.function] at hf
  obtain ⟨⟨fm, i⟩, hm, rfl⟩ := List.mem_map.mp hf
  exact ⟨fm, List.mem_of_getElem? (List.mem_zipIdx_iff_getElem?.mp hm), rfl, rfl, rfl⟩

theorem mem_location (h : p.Lists t) {l : Location} (hl : l ∈ p.location) :
    ∃ i < t.locations.length, l.id = i + 1 := by
  rw [h.location] at hl
  obtain ⟨⟨lm, i⟩, hm, rfl⟩ := List.mem_map.mp hl
  exact ⟨i, (List.getElem?_eq_some_iff.mp (List.mem_zipIdx_iff_getElem?.mp hm)).1, rfl⟩

/- Locations refer to listed functions and samples to listed locations. -/
theorem function_defined (h : p.Lists t) (hv : t.Valid) :
    ∀ id ∈ p.functionIds, (p.function.map Function.id).count id = 1 := by
  intro id hid
  obtain ⟨l, hl, hid⟩ := List.mem_flatMap.mp hid
  rw [h.location] at hl
  obtain ⟨⟨lm, i⟩, hm, rfl⟩ := List.mem_map.mp hl
  obtain ⟨j, fm, hj, hfm⟩ := hv.closed lm
    (List.mem_of_getElem? (List.mem_zipIdx_iff_getElem?.mp hm))
  have he : id = j + 1 := by
    simpa only [Location.ofMirror, List.map_cons, List.map_nil, List.mem_singleton, hj] using hid
  rw [he]
  exact h.count_function (List.getElem?_eq_some_iff.mp hfm).1

theorem location_defined (h : p.Lists t)
    (hs : ∀ s ∈ p.sample, ∃ fs, t.Resolves s.locationId fs) :
    ∀ id ∈ p.locationIds, (p.location.map Location.id).count id = 1 := by
  intro id hid
  obtain ⟨s, hsample, hid⟩ := List.mem_flatMap.mp hid
  obtain ⟨fs, hfs⟩ := hs s hsample
  obtain ⟨f, -, hf⟩ := hfs.mem hid
  obtain ⟨i, j, lm, rfl, hl, -⟩ := Tables.resolve_eq_some.mp hf
  exact h.count_location (List.getElem?_eq_some_iff.mp hl).1

end Profile.Lists

end Pyroscope.Encode
