import Pyroscope.Encode.Tables

/-!
# The builder refines the tables

`Repr b t` says that the dedupe maps of `b` and the vectors of its profile both list
`t`. Each operation of the builder is matched with the operation on `Tables`; what
else of the builder it touches is said by `Touches`.
-/

namespace Pyroscope.Encode
open Pyroscope.Lib

namespace PProfBuilder
variable {K : Type} [ProfileKind K]

structure Repr (b : PProfBuilder K) (t : Tables) : Prop where
  functions : Dense (fun i => i + 1) b.functions t.functions
  locations : Dense (fun i => i + 1) b.locations t.locations
  lists : b.profile.Lists t

/- Only the function and location vectors of the profile may differ. -/
structure Touches (b b' : PProfBuilder K) : Prop where
  profile : b'.profile =
    { b.profile with function := b'.profile.function, location := b'.profile.location }
  ffiSamples : b'.ffiSamples = b.ffiSamples
  scratch : b'.ffiLocationsScratch = b.ffiLocationsScratch

theorem Touches.refl (b : PProfBuilder K) : Touches b b := ⟨rfl, rfl, rfl⟩

theorem Touches.trans {b b' b'' : PProfBuilder K} (h : Touches b b') (h' : Touches b' b'') :
    Touches b b'' := by
  refine ⟨?_, h'.ffiSamples.trans h.ffiSamples, h'.scratch.trans h.scratch⟩
  rw [h'.profile, h.profile]

theorem new_repr : Repr (new : PProfBuilder K) Tables.empty :=
  ⟨Dense.empty _, Dense.empty _, rfl, rfl⟩

theorem addFunctionMirror_ok {b : PProfBuilder K} {t : Tables} (h : Repr b t) (fm : FunctionMirror) :
    ∃ b', b.addFunctionMirror fm = .ok ((internKeys t.functions fm).idxOf fm + 1, b') ∧
      Repr b' ⟨internKeys t.functions fm, t.locations⟩ ∧ Touches b b' := by
  have hlen : b.functions.len = t.functions.length := h.functions.len_eq
  have hvec : b.profile.function.length = t.functions.length := by
    rw [h.lists.function, List.length_map, List.length_zipIdx]
  rcases h.functions.intern fm with ⟨v, hget, hkeys, hv⟩ | ⟨hget, hkeys, hdense, hidx⟩
  · refine ⟨b, ?_, ?_, Touches.refl b⟩
    · simp only [addFunctionMirror, hget, hv]
    · rw [hkeys]
      exact h
  · have hassert : ¬b.functions.len = b.profile.function.length + 1 := by omega
    have hadd : b.addFunctionMirror fm = .ok (t.functions.length + 1, { b with
        functions := b.functions.insert fm (t.functions.length + 1)
        profile := { b.profile with function := b.profile.function ++
          [Function.ofMirror (t.functions.length + 1) fm] } }) := by
      simp only [addFunctionMirror, hget, if_neg hassert]
      rw [hlen]
    rw [← hidx]
    refine ⟨_, hadd, ⟨hdense, h.locations, ?_, h.lists.location⟩, rfl, rfl, rfl⟩
    simp only [hkeys, h.lists.function, List.zipIdx_append, List.map_append, List.zipIdx_singleton,
      List.map_cons, List.map_nil, Nat.zero_add]

theorem addLocationMirror_ok {b : PProfBuilder K} {t : Tables} (h : Repr b t) (lm : LocationMirror) :
    ∃ b', b.addLocationMirror lm = .ok ((internKeys t.locations lm).idxOf lm + 1, b') ∧
      Repr b' ⟨t.functions, internKeys t.locations lm⟩ ∧ Touches b b' := by
  have hlen : b.locations.len = t.locations.length := h.locations.len_eq
  have hvec : b.profile.location.length = t.locations.length := by
    rw [h.lists.location, List.length_map, List.length_zipIdx]
  rcases h.locations.intern lm with ⟨v, hget, hkeys, hv⟩ | ⟨hget, hkeys, hdense, hidx⟩
  · refine ⟨b, ?_, ?_, Touches.refl b⟩
    · simp only [addLocationMirror, hget, hv]
    · rw [hkeys]
      exact h
  · have hassert : ¬b.locations.len = b.profile.location.length + 1 := by omega
    have hadd : b.addLocationMirror lm = .ok (t.locations.length + 1, { b with
        locations := b.locations.insert lm (t.locations.length + 1)
        profile := { b.profile with location := b.profile.location ++
          [Location.ofMirror (t.locations.length + 1) lm] } }) := by
      simp only [addLocationMirror, hget, if_neg hassert]
      rw [hlen]
    rw [← hidx]
    refine ⟨_, hadd, ⟨h.functions, hdense, h.lists.function, ?_⟩, rfl, rfl, rfl⟩
    simp only [hkeys, h.lists.location, List.zipIdx_append, List.map_append, List.zipIdx_singleton,
      List.map_cons, List.map_nil, Nat.zero_add]

theorem addFrame_ok {b : PProfBuilder K} {t : Tables} (h : Repr b t) (f : FFIFrame) :
    ∃ b', b.addFrame f.functionName f.fileName f.line = .ok ((t.addFrame f).1, b') ∧
      Repr b' (t.addFrame f).2 ∧ Touches b b' := by
  obtain ⟨b₁, hfun, hrepr₁, ht₁⟩ := addFunctionMirror_ok h (Tables.functionKey f)
  obtain ⟨b₂, hloc, hrepr₂, ht₂⟩ := addLocationMirror_ok hrepr₁ (t.locationKey f)
  refine ⟨b₂, ?_, hrepr₂, ht₁.trans ht₂⟩
  have hfun' : b.addFunctionMirror ⟨f.functionName, f.fileName⟩ =
      .ok ((internKeys t.functions (Tables.functionKey f)).idxOf (Tables.functionKey f) + 1, b₁) := hfun
  simp only [addFrame, hfun', bind, Except.bind]
  exact hloc

theorem addFfiFrames_ok {b : PProfBuilder K} {t : Tables} (h : Repr b t) (fs : List FFIFrame) :
    ∃ b', b.addFfiFrames fs = .ok ((t.addFrames fs).1, b') ∧
      Repr b' (t.addFrames fs).2 ∧ Touches b b' := by
  induction fs generalizing b t with
  | nil => exact ⟨b, rfl, h, Touches.refl b⟩
  | cons f fs ih =>
    obtain ⟨b₁, hframe, hrepr₁, ht₁⟩ := addFrame_ok h f
    obtain ⟨b₂, hrest, hrepr₂, ht₂⟩ := ih hrepr₁
    refine ⟨b₂, ?_, hrepr₂, ht₁.trans ht₂⟩
    simp only [addFfiFrames, hframe, hrest, bind, Except.bind, Tables.addFrames]

theorem reset_repr (b : PProfBuilder K) : Repr b.reset Tables.empty :=
  ⟨Dense.empty _, Dense.empty _, rfl, rfl⟩

def takenProfile (b : PProfBuilder K) (ordSamples : IterOrder (List ℕ × Values K))
    (timeRange : TimeRange) (strings : List String) : Profile :=
  { ((b.flushFfiSamples ordSamples).setTimeRange timeRange).profile with stringTable := strings }

theorem takeProfileAndReset_none {b : PProfBuilder K} {ordSamples : IterOrder (List ℕ × Values K)}
    (h : (b.flushFfiSamples ordSamples).profile.sample.isEmpty = true)
    (ordStrings : IterOrder (String × StringID)) (st : StringTable) (timeRange : TimeRange) :
    b.takeProfileAndReset ordSamples ordStrings st timeRange =
      .ok (none, (b.flushFfiSamples ordSamples).reset) := by
  simp only [takeProfileAndReset, h, if_true]

theorem takeProfileAndReset_some {b : PProfBuilder K} {ordSamples : IterOrder (List ℕ × Values K)}
    (h : ¬(b.flushFfiSamples ordSamples).profile.sample.isEmpty = true)
    (ordStrings : IterOrder (String × StringID)) {st : StringTable} {strings : List String}
    (hst : st.Repr strings) (timeRange : TimeRange) :
    b.takeProfileAndReset ordSamples ordStrings st timeRange =
      .ok (some (b.takenProfile ordSamples timeRange strings),
        { b.flushFfiSamples ordSamples with profile := {} }.reset) := by
  have hclone := StringTable.clonePprofTable_repr hst ordStrings
    ((b.flushFfiSamples ordSamples).setTimeRange timeRange).profile.stringTable
  simp only [takeProfileAndReset, if_neg h, hclone, bind, Except.bind]
  rfl

end PProfBuilder

/-! ### Requests to the string table -/

section Requests
open StringTable

def NamedType (strings : List String) (t : String × String) (vt : ValueType) : Prop :=
  ∃ i j : ℕ, vt = ⟨i, j⟩ ∧ strings[i]? = some t.1 ∧ strings[j]? = some t.2

theorem NamedType.mono {strings strings' : List String} (h : strings <+: strings')
    {t : String × String} {vt : ValueType} (hn : NamedType strings t vt) : NamedType strings' t vt := by
  obtain ⟨i, j, he, hi, hj⟩ := hn
  exact ⟨i, j, he, getElem?_mono h hi, getElem?_mono h hj⟩

theorem addValueType_outcome {st : StringTable} {strings : List String} (h : st.Repr strings)
    (t : String × String) :
    Outcome (Room strings [t.1, t.2]) Panic.stringIds (addValueType st t) fun r =>
      r.2.Repr (internAll strings [t.1, t.2]) ∧ NamedType (internAll strings [t.1, t.2]) t r.1 := by
  refine (add_pair_outcome h t.1 t.2 fun r r' hrepr hi hj => Outcome.pure ⟨hrepr, ?_⟩).congr
    (iff_of_eq (and_true _))
  exact ⟨r.1.index, r'.1.index, rfl, hi, hj⟩

def typeRequests (ts : List (String × String)) : List String := ts.flatMap fun t => [t.1, t.2]

theorem addValueTypes_outcome {st : StringTable} {strings : List String} (h : st.Repr strings)
    (ts : List (String × String)) :
    Outcome (Room strings (typeRequests ts)) Panic.stringIds (addValueTypes st ts) fun r =>
      r.2.Repr (internAll strings (typeRequests ts)) ∧
        List.Forall₂ (NamedType (internAll strings (typeRequests ts))) ts r.1 := by
  induction ts generalizing st strings with
  | nil => exact Outcome.pure ⟨h, List.Forall₂.nil⟩
  | cons t ts ih =>
    have hreq : typeRequests (t :: ts) = [t.1, t.2] ++ typeRequests ts := rfl
    rw [hreq, internAll_append]
    refine ((addValueType_outcome h t).bind fun r₁ h₁ => (ih h₁.1).map fun r₂ h₂ => ?_).congr
      (room_append ..).symm
    exact ⟨h₂.1, List.Forall₂.cons (h₁.2.mono (internAll_mono _ _)) h₂.2⟩

variable (K : Type) [ProfileKind K]

/-- The strings that `set_profile_type` asks for, in order. -/
def ProfileKind.requests : List String :=
  typeRequests (sampleTypes K) ++ [(periodType K).1, (periodType K).2]

/-- The profile after `set_profile_type`, its references reading back the names. -/
structure ProfileKind.Typed (strings : List String) (period : ℤ) (p p' : Profile) : Prop where
  rest : p' = { p with
    sampleType := p'.sampleType, period := period, periodType := p'.periodType }
  sampleType : List.Forall₂ (NamedType strings) (sampleTypes K) p'.sampleType
  periodType : ∃ vt, p'.periodType = some vt ∧ NamedType strings (periodType K) vt

variable {K}

theorem setProfileType_outcome {st : StringTable} {strings : List String} (h : st.Repr strings)
    (p : Profile) {config : ProfileKind.PeriodConfig K} {period : ℤ}
    (hp : ProfileKind.period config = .ok period) :
    Outcome (Room strings (ProfileKind.requests K)) Panic.stringIds
      (ProfileKind.setProfileType K p st config) fun r =>
        r.2.Repr (internAll strings (ProfileKind.requests K)) ∧
          ProfileKind.Typed K (internAll strings (ProfileKind.requests K)) period p r.1 := by
  have hreq := internAll_append strings (typeRequests (ProfileKind.sampleTypes K))
    [(ProfileKind.periodType K).1, (ProfileKind.periodType K).2]
  rw [← ProfileKind.requests] at hreq
  refine ((addValueTypes_outcome h (ProfileKind.sampleTypes K)).bind fun r₁ h₁ =>
    Outcome.after hp ((addValueType_outcome h₁.1 (ProfileKind.periodType K)).map
      fun r₂ h₂ => ?_)).congr (room_append ..).symm
  rw [← hreq] at h₂
  refine ⟨h₂.1, rfl, ?_, r₂.1, rfl, h₂.2⟩
  rw [hreq]
  exact h₁.2.imp fun _ _ hn => hn.mono (internAll_mono _ _)

theorem NamedType.inTable {strings : List String} {t : String × String} {vt : ValueType}
    (h : NamedType strings t vt) :
    Profile.InTable strings.length vt.type ∧ Profile.InTable strings.length vt.unit := by
  obtain ⟨i, j, rfl, hi, hj⟩ := h
  exact ⟨Profile.inTable_of_getElem hi, Profile.inTable_of_getElem hj⟩

theorem ProfileKind.Typed.inTable {strings : List String} {period : ℤ}
    {p p' : Profile} (h : ProfileKind.Typed K strings period p p') :
    ∀ vt ∈ p'.sampleType ++ p'.periodType.toList,
      Profile.InTable strings.length vt.type ∧ Profile.InTable strings.length vt.unit := by
  intro vt hvt
  rcases List.mem_append.mp hvt with hvt | hvt
  · obtain ⟨t, -, hn⟩ := Profile.exists_of_forall₂_mem h.sampleType hvt
    exact hn.inTable
  · obtain ⟨vt', hp, hn⟩ := h.periodType
    rw [hp, Option.toList_some, List.mem_singleton] at hvt
    rw [hvt]
    exact hn.inTable

end Requests

end Pyroscope.Encode
