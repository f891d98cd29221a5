import Pyroscope.Agent.Profilers

/-!
# Interned indices keep their meaning

While the string table is not poisoned, every index held by a running profiler and
every index in a builder reads, in the table as it stands, the string it was given
for. The table only grows, except where it is replaced: there nobody holds an index
and the builders are empty, because the profilers were stopped and the builders
emptied first.
-/

namespace Pyroscope.Agent
open Pyroscope.Lib Pyroscope.Encode

structure Emission.Sound (e : Emission) : Prop where
  first : e.profile.stringTable[0]? = some ""
  strings : ∀ i ∈ e.profile.stringIndices, Profile.InTable e.profile.stringTable.length i
  functions : ∀ f ∈ e.profile.function, ∃ g ∈ e.pushed,
    f.name = g.frame.functionName.pprof ∧ f.filename = g.frame.fileName.pprof
  names : ∀ g ∈ e.pushed, e.profile.string g.frame.functionName.pprof = some g.name ∧
    e.profile.string g.frame.fileName.pprof = some g.file
  values : ∀ s ∈ e.profile.sample, s.value.length = e.profile.sampleType.length

/-- The frames read their strings in the table. -/
def FramesIn (strings : List String) (frames : List PushedFrame) : Prop :=
  ∀ g ∈ frames, strings[g.frame.functionName.index]? = some g.name ∧
    strings[g.frame.fileName.index]? = some g.file

def HeldIn (strings : List String) (held : List (StringID × String)) : Prop :=
  ∀ e ∈ held, strings[e.1.index]? = some e.2

theorem FramesIn.mono {strings strings' : List String} (h : strings <+: strings')
    {frames : List PushedFrame} (hf : FramesIn strings frames) : FramesIn strings' frames :=
  fun g hg => ⟨getElem?_mono h (hf g hg).1, getElem?_mono h (hf g hg).2⟩

theorem HeldIn.mono {strings strings' : List String} (h : strings <+: strings')
    {held : List (StringID × String)} (hh : HeldIn strings held) : HeldIn strings' held :=
  fun e he => getElem?_mono h (hh e he)

theorem FramesIn.nil (strings : List String) : FramesIn strings [] := by
  intro g hg
  cases hg

theorem HeldIn.nil (strings : List String) : HeldIn strings [] := by
  intro e he
  cases he

theorem FramesIn.append {strings : List String} {frames frames' : List PushedFrame}
    (h : FramesIn strings frames) (h' : FramesIn strings frames') :
    FramesIn strings (frames ++ frames') := by
  intro g hg
  rcases List.mem_append.mp hg with hg | hg
  · exact h g hg
  · exact h' g hg

theorem HeldFrom.framesIn {strings : List String} {held : List (StringID × String)}
    {frames : List PushedFrame} (hh : HeldIn strings held) (hf : HeldFrom held frames) :
    FramesIn strings frames := fun g hg => ⟨hh _ (hf g hg).1, hh _ (hf g hg).2⟩

/-! ### The interner -/

theorem intern_spec {decode : List UInt8 → String} {i i' : Interner} {view : FFIStringView}
    {id : StringID} {strings : List String} (ht : i.table.Repr strings)
    (h : i.intern decode view = .ok (id, i')) :
    ∃ strings', i'.table.Repr strings' ∧ strings <+: strings' ∧ i'.poisoned = i.poisoned ∧
      (i.poisoned = false → strings'[id.index]? = some (view.str decode)) := by
  obtain ⟨data⟩ := view
  cases data with
  | none =>
    cases h
    exact ⟨strings, ht, List.prefix_refl _, rfl, fun _ => ht.first⟩
  | some bytes =>
    cases bytes with
    | nil =>
      cases h
      exact ⟨strings, ht, List.prefix_refl _, rfl, fun _ => ht.first⟩
    | cons byte bytes =>
      simp only [Interner.intern] at h
      by_cases hp : i.poisoned = true
      · rw [if_pos hp] at h
        cases h
        refine ⟨strings, ht, List.prefix_refl _, rfl, fun hn => ?_⟩
        rw [hp] at hn
        cases hn
      · rw [if_neg hp] at h
        cases hadd : i.table.add (decode (byte :: bytes)) with
        | error p =>
          rw [hadd] at h
          cases h
        | ok r =>
          obtain ⟨-, hid, hrepr⟩ := (StringTable.add_outcome ht (decode (byte :: bytes))).inv hadd
          rw [hadd] at h
          cases h
          refine ⟨_, hrepr, internKeys_mono _ _, rfl, fun _ => ?_⟩
          rw [hid]
          exact internKeys_getElem _ _

/-! ### One builder -/

section Builder
variable {K : Type} [FfiProfileKind K]

/-- The builder accumulates a window made of the frames it remembers. -/
structure Buffered (b : LockedBuilder K) (t : Tables) (w : Window) : Prop where
  accumulated : Accumulated b.builder t w
  pushed : ∀ frame ∈ w.allFrames, ∃ g ∈ b.pushed, g.frame = frame

theorem fresh_buffered : Buffered (LockedBuilder.fresh : LockedBuilder K) Tables.empty [] :=
  ⟨new_accumulated, fun _ h => absurd h List.not_mem_nil⟩

theorem clearSamples_buffered {b : LockedBuilder K} {t : Tables} {w : Window} (h : Buffered b t w) :
    Buffered b.clearSamples Tables.empty [] :=
  ⟨reset_accumulated h.accumulated.plain, fun _ h => absurd h List.not_mem_nil⟩

theorem pushSample_spec {b b' : LockedBuilder K} {t : Tables} {w : Window} (h : Buffered b t w)
    {frames : List PushedFrame} {values : FFISampleValues}
    (hpush : b.pushSample frames values = .ok b') :
    (∃ t' w', Buffered b' t' w') ∧ (b'.pushed = b.pushed ∨ b'.pushed = b.pushed ++ frames) := by
  simp only [LockedBuilder.pushSample] at hpush
  by_cases hp : b.poisoned = true
  · rw [if_pos hp] at hpush
    cases hpush
    exact ⟨⟨t, w, h⟩, Or.inl rfl⟩
  · rw [if_neg hp] at hpush
    obtain ⟨builder, hadd, hacc⟩ :=
      addFfiSample_accumulated h.accumulated (frames.map PushedFrame.frame) values
    rw [hadd] at hpush
    cases hpush
    refine ⟨⟨_, _, hacc, fun frame hframe => ?_⟩, Or.inr rfl⟩
    have hall : frame ∈ w.allFrames ++ frames.map PushedFrame.frame := by
      simpa only [Window.allFrames, List.flatMap_append, List.flatMap_cons, List.flatMap_nil,
        List.append_nil] using hframe
    rcases List.mem_append.mp hall with hold | hnew
    · obtain ⟨g, hg, he⟩ := h.pushed frame hold
      exact ⟨g, List.mem_append_left _ hg, he⟩
    · obtain ⟨g, hg, he⟩ := List.mem_map.mp hnew
      exact ⟨g, List.mem_append_right _ hg, he⟩

/-- What a use of a builder under both locks leaves: the table may have grown, the
builder is still in order, and poison stays. -/
structure Used (b : LockedBuilder K) (i : Interner) (strings : List String) (b' : LockedBuilder K)
    (i' : Interner) : Prop where
  table : ∃ strings', i'.table.Repr strings' ∧ strings <+: strings'
  buffered : ∃ t w, Buffered b' t w
  pushed : b'.pushed = b.pushed ∨ b'.pushed = []
  poisoned : i'.poisoned = false → i.poisoned = false

theorem setProfileType_spec {b : LockedBuilder K} {i : Interner} {t : Tables} {w : Window}
    {strings : List String} (h : Buffered b t w) (ht : i.table.Repr strings)
    (config : ProfileKind.PeriodConfig K) :
    Used b i strings (b.setProfileType i config).1 (b.setProfileType i config).2 ∧
      (b.setProfileType i config).1.pushed = b.pushed ∧
      ((b.setProfileType i config).2.poisoned = false →
        (b.setProfileType i config).1.poisoned = false → ∃ t' w' strings',
          Buffered (b.setProfileType i config).1 t' w' ∧
          (b.setProfileType i config).2.table.Repr strings' ∧ strings <+: strings' ∧
          TypesIn K strings' (b.setProfileType i config).1.builder.profile) := by
  have hset := setProfileType_accumulated h.accumulated ht config
  by_cases hp : (i.poisoned || b.poisoned) = true
  · have he : b.setProfileType i config = (b, i) := by
      rw [LockedBuilder.setProfileType, if_pos hp]
    rw [he]
    refine ⟨⟨⟨strings, ht, List.prefix_refl _⟩, ⟨t, w, h⟩, Or.inl rfl, fun hn => hn⟩, rfl,
      fun hi hb => ?_⟩
    rw [hi, hb] at hp
    cases hp
  · cases hr : b.builder.setProfileType i.table config with
    | error p =>
      have he : b.setProfileType i config =
          ({ b with poisoned := true }, { i with poisoned := true }) := by
        rw [LockedBuilder.setProfileType, if_neg hp, hr]
      rw [he]
      exact ⟨⟨⟨strings, ht, List.prefix_refl _⟩, ⟨t, w, h.accumulated, h.pushed⟩, Or.inl rfl,
        fun hn => by cases hn⟩, rfl, fun hn => by cases hn⟩
    | ok r =>
      have he : b.setProfileType i config =
          ({ b with builder := r.1 }, { i with table := r.2 }) := by
        rw [LockedBuilder.setProfileType, if_neg hp, hr]
      obtain ⟨-, hacc, hrepr, htypes⟩ := hset.inv hr
      have hgrow := StringTable.internAll_mono strings (ProfileKind.requests K)
      rw [he]
      exact ⟨⟨⟨_, hrepr, hgrow⟩, ⟨t, w, hacc, h.pushed⟩, Or.inl rfl, fun hn => hn⟩, rfl,
        fun _ _ => ⟨t, w, _, ⟨hacc, h.pushed⟩, hrepr, hgrow, htypes⟩⟩

/- A take shows exactly the frames it remembers, under their names. -/
theorem takenProfile_sound {b : LockedBuilder K} {t : Tables} {w : Window} {strings : List String}
    (h : Buffered b t w) (hf : FramesIn strings b.pushed) (hfirst : strings[0]? = some "")
    (htypes : TypesIn K strings b.builder.profile) (ordSamples : IterOrder (List ℕ × Values K))
    (timeRange : TimeRange) :
    Emission.Sound ⟨b.builder.takenProfile ordSamples timeRange strings, b.pushed⟩ := by
  have hl : (b.builder.takenProfile ordSamples timeRange strings).Lists t :=
    ⟨h.accumulated.tables.lists.function, h.accumulated.tables.lists.location⟩
  have hsample : (b.builder.takenProfile ordSamples timeRange strings).sample =
      flushed ordSamples b.builder := by
    show b.builder.profile.sample ++ _ = _
    rw [h.accumulated.noSamples, List.nil_append]
    rfl
  have hwindow := flushed_windowProfile h.accumulated ordSamples hl hsample
  have hplain : (b.builder.takenProfile ordSamples timeRange strings).Plain :=
    ⟨h.accumulated.plain.mapping, h.accumulated.plain.dropFrames, h.accumulated.plain.keepFrames,
      h.accumulated.plain.comment, h.accumulated.plain.defaultSampleType⟩
  have hfunctions : ∀ f ∈ (b.builder.takenProfile ordSamples timeRange strings).function,
      ∃ g ∈ b.pushed, f.name = g.frame.functionName.pprof ∧
        f.filename = g.frame.fileName.pprof := by
    intro f hfun
    obtain ⟨frame, hframe, hname, hfile⟩ := hwindow.functions f hfun
    obtain ⟨g, hg, rfl⟩ := h.pushed frame hframe
    exact ⟨g, hg, hname, hfile⟩
  refine ⟨hfirst, ?_, hfunctions, ?_, ?_⟩
  · refine hplain.strings (List.getElem?_eq_some_iff.mp hfirst).1 htypes.references
      (fun s hs l hm => ?_) (fun f hfun => ?_)
    · rw [hsample] at hs
      obtain ⟨e, -, rfl⟩ := List.mem_map.mp hs
      cases hm
    · obtain ⟨g, hg, hname, hfile⟩ := hfunctions f hfun
      obtain ⟨fm, -, -, hsys, -⟩ := hl.mem_function hfun
      rw [hname, hfile]
      exact ⟨Profile.inTable_of_getElem (hf g hg).1, hsys, Profile.inTable_of_getElem (hf g hg).2⟩
  · intro g hg
    exact ⟨Profile.string_of_getElem (hf g hg).1, Profile.string_of_getElem (hf g hg).2⟩
  · intro s hs
    have hcount : (b.builder.takenProfile ordSamples timeRange strings).sampleType.length =
        (ProfileKind.sampleTypes K).length := htypes.count
    rw [hsample] at hs
    obtain ⟨e, -, rfl⟩ := List.mem_map.mp hs
    rw [hcount, List.length_ofFn]

theorem Used.trans {b b₁ b₂ : LockedBuilder K} {i i₁ i₂ : Interner} {strings strings₁ : List String}
    (h : Used b i strings b₁ i₁) (hs : strings <+: strings₁) (h' : Used b₁ i₁ strings₁ b₂ i₂) :
    Used b i strings b₂ i₂ := by
  obtain ⟨strings₂, hrepr, hgrow⟩ := h'.table
  refine ⟨⟨strings₂, hrepr, hs.trans hgrow⟩, h'.buffered, ?_, fun hn => h.poisoned (h'.poisoned hn)⟩
  rcases h'.pushed with he | he
  · rw [he]
    exact h.pushed
  · exact Or.inr he

/- What the take of a dump does, with the types in place. -/
theorem takeProfile_spec {b : LockedBuilder K} {i : Interner} {t : Tables} {w : Window}
    {strings : List String} (hi : i.poisoned = false) (hb : b.poisoned = false)
    (h : Buffered b t w) (ht : i.table.Repr strings) (htypes : TypesIn K strings b.builder.profile)
    (ordSamples : IterOrder (List ℕ × Values K)) (ordStrings : IterOrder (String × StringID))
    (timeRange : TimeRange) :
    ∃ p b', b.takeProfile ordSamples ordStrings timeRange i = (p, b', i) ∧
      Used b i strings b' i ∧
      ∀ profile, p = some profile → FramesIn strings b.pushed →
        Emission.Sound ⟨profile, b.pushed⟩ := by
  have hopen : ¬(i.poisoned || b.poisoned) = true := by
    rw [hi, hb]
    exact Bool.false_ne_true
  have hplain := h.accumulated.plain
  by_cases he : (b.builder.flushFfiSamples ordSamples).profile.sample.isEmpty = true
  · have htake := PProfBuilder.takeProfileAndReset_none he ordStrings i.table timeRange
    refine ⟨none, { b with builder := (b.builder.flushFfiSamples ordSamples).reset, pushed := [] },
      ?_, ⟨⟨strings, ht, List.prefix_refl _⟩, ⟨Tables.empty, [], reset_accumulated
        ⟨hplain.mapping, hplain.dropFrames, hplain.keepFrames, hplain.comment,
          hplain.defaultSampleType⟩, fun _ h => absurd h List.not_mem_nil⟩, Or.inr rfl,
        fun hn => hn⟩, fun profile hp => by cases hp⟩
    simp only [LockedBuilder.takeProfile, if_neg hopen, htake]
  · have htake := PProfBuilder.takeProfileAndReset_some he ordStrings ht timeRange
    refine ⟨some (b.builder.takenProfile ordSamples timeRange strings),
      { b with
        builder := { b.builder.flushFfiSamples ordSamples with profile := {} }.reset, pushed := [] },
      ?_, ⟨⟨strings, ht, List.prefix_refl _⟩, ⟨Tables.empty, [], reset_accumulated
        ⟨rfl, rfl, rfl, rfl, rfl⟩, fun _ h => absurd h List.not_mem_nil⟩, Or.inr rfl,
        fun hn => hn⟩, fun profile hp hf => ?_⟩
    · simp only [LockedBuilder.takeProfile, if_neg hopen, htake]
    · cases hp
      exact takenProfile_sound h hf ht.first htypes ordSamples timeRange

theorem dump_spec {b b' : LockedBuilder K} {i i' : Interner} {t : Tables} {w : Window}
    {strings : List String} {p : Option Profile} (h : Buffered b t w) (ht : i.table.Repr strings)
    {config : ProfileKind.PeriodConfig K} {ordSamples : IterOrder (List ℕ × Values K)}
    {ordStrings : IterOrder (String × StringID)} {timeRange : TimeRange}
    (hd : b.dump config ordSamples ordStrings timeRange i = (p, b', i')) :
    Used b i strings b' i' ∧ ∀ profile, p = some profile →
      i.poisoned = false ∧ (FramesIn strings b.pushed → Emission.Sound ⟨profile, b.pushed⟩) := by
  obtain ⟨hused, hpushed, hopen⟩ := setProfileType_spec h ht config
  rw [LockedBuilder.dump] at hd
  generalize b.setProfileType i config = r at hd hused hpushed hopen
  obtain ⟨b₁, i₁⟩ := r
  simp only at hd hused hpushed hopen
  by_cases hp : (i₁.poisoned || b₁.poisoned) = true
  · rw [LockedBuilder.takeProfile, if_pos hp] at hd
    cases hd
    exact ⟨hused, fun profile hn => by cases hn⟩
  · rw [Bool.or_eq_true, not_or, Bool.not_eq_true, Bool.not_eq_true] at hp
    obtain ⟨t₁, w₁, strings₁, hbuf, hrepr, hgrow, htypes⟩ := hopen hp.1 hp.2
    obtain ⟨p₁, b₂, htake, hused₁, hsound⟩ := takeProfile_spec hp.1 hp.2 hbuf hrepr htypes
      ordSamples ordStrings timeRange
    rw [htake] at hd
    cases hd
    refine ⟨hused.trans hgrow hused₁, fun profile hn => ⟨hused.poisoned hp.1, fun hf => ?_⟩⟩
    rw [← hpushed] at hf ⊢
    exact hsound profile hn (hf.mono hgrow)

end Builder

/-! ### The process -/

def Control.rank : Control → ℕ
  | .clearMemory => 1
  | .stopStack => 2
  | .clearWall => 3
  | .clearOncpu => 4
  | .clearStrings => 5
  | _ => 0

structure TornDown (s : State) : Prop where
  memory : 1 ≤ s.control.rank → s.memoryRunning = false ∧ s.memoryHeld = []
  memoryEmpty : 2 ≤ s.control.rank → s.memory.pushed = []
  stack : 3 ≤ s.control.rank → s.stackRunning = false ∧ s.stackHeld = []
  wallEmpty : 4 ≤ s.control.rank → s.wall.pushed = []
  oncpuEmpty : 5 ≤ s.control.rank → s.oncpu.pushed = []

/-- Every index that somebody keeps reads its string in the table. -/
structure Meanings (s : State) (strings : List String) : Prop where
  memory : FramesIn strings s.memory.pushed
  wall : FramesIn strings s.wall.pushed
  oncpu : FramesIn strings s.oncpu.pushed
  memoryHeld : HeldIn strings s.memoryHeld
  stackHeld : HeldIn strings s.stackHeld

structure Inv (s : State) : Prop where
  table : ∃ strings, s.interner.table.Repr strings ∧
    (s.interner.poisoned = false → Meanings s strings)
  memory : ∃ t w, Buffered s.memory t w
  wall : ∃ t w, Buffered s.wall t w
  oncpu : ∃ t w, Buffered s.oncpu t w
  tornDown : TornDown s
  emitted : ∀ e ∈ s.emitted, e.Sound

theorem TornDown.of_rank_zero {s : State} (h : s.control.rank = 0) : TornDown s := by
  refine ⟨?_, ?_, ?_, ?_, ?_⟩ <;> intro hr <;> omega

theorem Meanings.mono {s : State} {strings strings' : List String} (h : Meanings s strings)
    (hs : strings <+: strings') : Meanings s strings' :=
  ⟨h.memory.mono hs, h.wall.mono hs, h.oncpu.mono hs, h.memoryHeld.mono hs, h.stackHeld.mono hs⟩

theorem initial_inv : Inv State.initial := by
  refine ⟨⟨[""], StringTable.new_repr, fun _ => ⟨FramesIn.nil _, FramesIn.nil _, FramesIn.nil _,
    HeldIn.nil _, HeldIn.nil _⟩⟩, ⟨_, _, fresh_buffered⟩, ⟨_, _, fresh_buffered⟩,
    ⟨_, _, fresh_buffered⟩, TornDown.of_rank_zero rfl, fun _ h => absurd h List.not_mem_nil⟩

/- A step that only moves the thread in `run` or `stop` along, outside of a teardown. -/
theorem Inv.goto {s : State} (h : Inv s) {control : Control} (hr : control.rank = 0)
    (memoryRunning stackRunning : Bool) :
    Inv { s with control, memoryRunning, stackRunning } := by
  obtain ⟨strings, hrepr, hmeans⟩ := h.table
  refine ⟨⟨strings, hrepr, fun hp => ?_⟩, h.memory, h.wall, h.oncpu, TornDown.of_rank_zero hr,
    h.emitted⟩
  have hm := hmeans hp
  exact ⟨hm.memory, hm.wall, hm.oncpu, hm.memoryHeld, hm.stackHeld⟩

theorem Meanings.of_empty {s : State} (hm : s.memory.pushed = []) (hw : s.wall.pushed = [])
    (ho : s.oncpu.pushed = []) (hmh : s.memoryHeld = []) (hsh : s.stackHeld = [])
    (strings : List String) : Meanings s strings := by
  constructor
  · rw [hm]
    exact FramesIn.nil strings
  · rw [hw]
    exact FramesIn.nil strings
  · rw [ho]
    exact FramesIn.nil strings
  · rw [hmh]
    exact HeldIn.nil strings
  · rw [hsh]
    exact HeldIn.nil strings

theorem TornDown.rank_of_memoryRunning {s : State} (h : TornDown s) (hr : s.memoryRunning = true) :
    s.control.rank = 0 := by
  by_contra hn
  have := (h.memory (by omega)).1
  rw [hr] at this
  cases this

theorem TornDown.rank_of_stackRunning {s : State} (h : TornDown s) (hr : s.stackRunning = true) :
    s.control.rank < 3 := by
  by_contra hn
  have := (h.stack (by omega)).1
  rw [hr] at this
  cases this

theorem emitted_append {s : State} (h : ∀ e ∈ s.emitted, e.Sound) {p : Option Profile}
    {pushed : List PushedFrame} (hp : ∀ profile, p = some profile → Emission.Sound ⟨profile, pushed⟩) :
    ∀ e ∈ s.emitted ++ emission p pushed, e.Sound := by
  intro e he
  rcases List.mem_append.mp he with he | he
  · exact h e he
  · obtain ⟨profile, hprofile, rfl⟩ := List.mem_map.mp he
    exact hp profile (Option.mem_toList.mp hprofile)

/- What a builder remembers after a use keeps its meaning, or is empty. -/
theorem Used.framesIn {K : Type} [FfiProfileKind K] {b b' : LockedBuilder K} {i i' : Interner}
    {strings strings' : List String} (h : Used b i strings b' i') (hs : strings <+: strings')
    (hf : FramesIn strings b.pushed) : FramesIn strings' b'.pushed := by
  rcases h.pushed with he | he <;> rw [he]
  · exact hf.mono hs
  · exact FramesIn.nil strings'

theorem Used.empty {K : Type} [FfiProfileKind K] {b b' : LockedBuilder K} {i i' : Interner}
    {strings : List String} (h : Used b i strings b' i') (he : b.pushed = []) : b'.pushed = [] := by
  rcases h.pushed with h | h
  · rw [h, he]
  · exact h

/-! ### Interning and pushing -/

theorem Inv.internMemory {s : State} (h : Inv s) (running : s.memoryRunning = true)
    {decode : List UInt8 → String} {view : FFIStringView} {id : StringID} {i : Interner}
    (hi : s.interner.intern decode view = .ok (id, i)) :
    Inv { s with interner := i, memoryHeld := (id, view.str decode) :: s.memoryHeld } := by
  obtain ⟨strings, hrepr, hmeans⟩ := h.table
  obtain ⟨strings', hrepr', hgrow, hpoison, hid⟩ := intern_spec hrepr hi
  refine ⟨⟨strings', hrepr', fun hp => ?_⟩, h.memory, h.wall, h.oncpu,
    TornDown.of_rank_zero (h.tornDown.rank_of_memoryRunning running), h.emitted⟩
  have hn : s.interner.poisoned = false := hpoison.symm.trans hp
  have hm := (hmeans hn).mono hgrow
  exact ⟨hm.memory, hm.wall, hm.oncpu, List.forall_mem_cons.mpr ⟨hid hn, hm.memoryHeld⟩,
    hm.stackHeld⟩

theorem Inv.internStack {s : State} (h : Inv s) (running : s.stackRunning = true)
    {decode : List UInt8 → String} {view : FFIStringView} {id : StringID} {i : Interner}
    (hi : s.interner.intern decode view = .ok (id, i)) :
    Inv { s with interner := i, stackHeld := (id, view.str decode) :: s.stackHeld } := by
  obtain ⟨strings, hrepr, hmeans⟩ := h.table
  obtain ⟨strings', hrepr', hgrow, hpoison, hid⟩ := intern_spec hrepr hi
  have hrank := h.tornDown.rank_of_stackRunning running
  have ht := h.tornDown
  refine ⟨⟨strings', hrepr', fun hp => ?_⟩, h.memory, h.wall, h.oncpu, ?_, h.emitted⟩
  · have hn : s.interner.poisoned = false := hpoison.symm.trans hp
    have hm := (hmeans hn).mono hgrow
    exact ⟨hm.memory, hm.wall, hm.oncpu, hm.memoryHeld,
      List.forall_mem_cons.mpr ⟨hid hn, hm.stackHeld⟩⟩
  · exact ⟨ht.memory, ht.memoryEmpty, fun hr => absurd hrank (Nat.not_lt.mpr hr), ht.wallEmpty,
      ht.oncpuEmpty⟩

/- A push adds frames whose indices are held. -/
theorem pushed_framesIn {K : Type} [FfiProfileKind K] {b b' : LockedBuilder K}
    {strings : List String} {held : List (StringID × String)} {frames : List PushedFrame}
    (hp : b'.pushed = b.pushed ∨ b'.pushed = b.pushed ++ frames) (hf : FramesIn strings b.pushed)
    (hheld : HeldIn strings held) (hfrom : HeldFrom held frames) : FramesIn strings b'.pushed := by
  rcases hp with hp | hp <;> rw [hp]
  · exact hf
  · exact hf.append (hfrom.framesIn hheld)

theorem Inv.pushMemory {s : State} (h : Inv s) (running : s.memoryRunning = true)
    {frames : List PushedFrame} {values : FFISampleValues} (held : HeldFrom s.memoryHeld frames)
    {b : LockedBuilder MemoryProfile} (hb : s.memory.pushSample frames values = .ok b) :
    Inv { s with memory := b } := by
  obtain ⟨strings, hrepr, hmeans⟩ := h.table
  obtain ⟨t, w, hbuf⟩ := h.memory
  obtain ⟨hbuf', hpushed⟩ := pushSample_spec hbuf hb
  refine ⟨⟨strings, hrepr, fun hp => ?_⟩, hbuf', h.wall, h.oncpu,
    TornDown.of_rank_zero (h.tornDown.rank_of_memoryRunning running), h.emitted⟩
  have hm := hmeans hp
  exact ⟨pushed_framesIn hpushed hm.memory hm.memoryHeld held, hm.wall, hm.oncpu, hm.memoryHeld,
    hm.stackHeld⟩

theorem Inv.pushWall {s : State} (h : Inv s) (running : s.stackRunning = true)
    {frames : List PushedFrame} {values : FFISampleValues} (held : HeldFrom s.stackHeld frames)
    {b : LockedBuilder CpuWallProfile} (hb : s.wall.pushSample frames values = .ok b) :
    Inv { s with wall := b } := by
  obtain ⟨strings, hrepr, hmeans⟩ := h.table
  obtain ⟨t, w, hbuf⟩ := h.wall
  obtain ⟨hbuf', hpushed⟩ := pushSample_spec hbuf hb
  have hrank := h.tornDown.rank_of_stackRunning running
  have ht := h.tornDown
  refine ⟨⟨strings, hrepr, fun hp => ?_⟩, h.memory, hbuf', h.oncpu, ?_, h.emitted⟩
  · have hm := hmeans hp
    exact ⟨hm.memory, pushed_framesIn hpushed hm.wall hm.stackHeld held, hm.oncpu, hm.memoryHeld,
      hm.stackHeld⟩
  · exact ⟨ht.memory, ht.memoryEmpty, ht.stack,
      fun (hr : 4 ≤ s.control.rank) => absurd hrank (by omega), ht.oncpuEmpty⟩

theorem Inv.pushOncpu {s : State} (h : Inv s) (running : s.stackRunning = true)
    {frames : List PushedFrame} {values : FFISampleValues} (held : HeldFrom s.stackHeld frames)
    {b : LockedBuilder CpuProfile} (hb : s.oncpu.pushSample frames values = .ok b) :
    Inv { s with oncpu := b } := by
  obtain ⟨strings, hrepr, hmeans⟩ := h.table
  obtain ⟨t, w, hbuf⟩ := h.oncpu
  obtain ⟨hbuf', hpushed⟩ := pushSample_spec hbuf hb
  have hrank := h.tornDown.rank_of_stackRunning running
  have ht := h.tornDown
  refine ⟨⟨strings, hrepr, fun hp => ?_⟩, h.memory, h.wall, hbuf', ?_, h.emitted⟩
  · have hm := hmeans hp
    exact ⟨hm.memory, hm.wall, pushed_framesIn hpushed hm.oncpu hm.stackHeld held, hm.memoryHeld,
      hm.stackHeld⟩
  · exact ⟨ht.memory, ht.memoryEmpty, ht.stack, ht.wallEmpty,
      fun (hr : 5 ≤ s.control.rank) => absurd hrank (by omega)⟩

/-! ### Dumps and profile types -/

theorem Inv.useMemory {s : State} (h : Inv s) {strings : List String}
    (hmeans : s.interner.poisoned = false → Meanings s strings) {b : LockedBuilder MemoryProfile}
    {i : Interner} (hu : Used s.memory s.interner strings b i) {emitted : List Emission}
    (he : ∀ e ∈ emitted, e.Sound) : Inv { s with interner := i, memory := b, emitted } := by
  obtain ⟨strings', hrepr, hgrow⟩ := hu.table
  have ht := h.tornDown
  refine ⟨⟨strings', hrepr, fun hp => ?_⟩, hu.buffered, h.wall, h.oncpu,
    ⟨ht.memory, fun hr => hu.empty (ht.memoryEmpty hr), ht.stack, ht.wallEmpty, ht.oncpuEmpty⟩, he⟩
  have hm := hmeans (hu.poisoned hp)
  have hm' := hm.mono hgrow
  exact ⟨hu.framesIn hgrow hm.memory, hm'.wall, hm'.oncpu, hm'.memoryHeld, hm'.stackHeld⟩

theorem Inv.useWall {s : State} (h : Inv s) {strings : List String}
    (hmeans : s.interner.poisoned = false → Meanings s strings) {b : LockedBuilder CpuWallProfile}
    {i : Interner} (hu : Used s.wall s.interner strings b i) {emitted : List Emission}
    (he : ∀ e ∈ emitted, e.Sound) : Inv { s with interner := i, wall := b, emitted } := by
  obtain ⟨strings', hrepr, hgrow⟩ := hu.table
  have ht := h.tornDown
  refine ⟨⟨strings', hrepr, fun hp => ?_⟩, h.memory, hu.buffered, h.oncpu,
    ⟨ht.memory, ht.memoryEmpty, ht.stack, fun hr => hu.empty (ht.wallEmpty hr), ht.oncpuEmpty⟩, he⟩
  have hm := hmeans (hu.poisoned hp)
  have hm' := hm.mono hgrow
  exact ⟨hm'.memory, hu.framesIn hgrow hm.wall, hm'.oncpu, hm'.memoryHeld, hm'.stackHeld⟩

theorem Inv.useOncpu {s : State} (h : Inv s) {strings : List String}
    (hmeans : s.interner.poisoned = false → Meanings s strings) {b : LockedBuilder CpuProfile}
    {i : Interner} (hu : Used s.oncpu s.interner strings b i) {emitted : List Emission}
    (he : ∀ e ∈ emitted, e.Sound) : Inv { s with interner := i, oncpu := b, emitted } := by
  obtain ⟨strings', hrepr, hgrow⟩ := hu.table
  have ht := h.tornDown
  refine ⟨⟨strings', hrepr, fun hp => ?_⟩, h.memory, h.wall, hu.buffered,
    ⟨ht.memory, ht.memoryEmpty, ht.stack, ht.wallEmpty, fun hr => hu.empty (ht.oncpuEmpty hr)⟩, he⟩
  have hm := hmeans (hu.poisoned hp)
  have hm' := hm.mono hgrow
  exact ⟨hm'.memory, hm'.wall, hu.framesIn hgrow hm.oncpu, hm'.memoryHeld, hm'.stackHeld⟩

/-! ### Teardown -/

theorem Inv.memallocStop {s : State} (h : Inv s) {control : Control} (hc : control.rank ≤ 1) :
    Inv { s.memallocStop with control } := by
  obtain ⟨strings, hrepr, hmeans⟩ := h.table
  refine ⟨⟨strings, hrepr, fun hp => ?_⟩, h.memory, h.wall, h.oncpu, ?_, h.emitted⟩
  · have hm := hmeans hp
    exact ⟨hm.memory, hm.wall, hm.oncpu, HeldIn.nil strings, hm.stackHeld⟩
  · constructor <;> intro (hr : _ ≤ control.rank) <;> first | exact ⟨rfl, rfl⟩ | omega

theorem Inv.clearMemory {s : State} (h : Inv s) {control : Control} (hc : control.rank ≤ 2)
    (hs : control.rank = 0 ∨ 1 ≤ s.control.rank) :
    Inv { s with control, memory := s.memory.clearSamples } := by
  obtain ⟨strings, hrepr, hmeans⟩ := h.table
  obtain ⟨t, w, hbuf⟩ := h.memory
  refine ⟨⟨strings, hrepr, fun hp => ?_⟩, ⟨_, _, clearSamples_buffered hbuf⟩, h.wall, h.oncpu, ?_,
    h.emitted⟩
  · have hm := hmeans hp
    exact ⟨FramesIn.nil strings, hm.wall, hm.oncpu, hm.memoryHeld, hm.stackHeld⟩
  · constructor <;> intro (hr : _ ≤ control.rank)
    case memory => exact h.tornDown.memory (by omega)
    case memoryEmpty => rfl
    all_goals omega

theorem Inv.samplerStop {s : State} (h : Inv s) (hs : s.control.rank = 2) :
    Inv { s.samplerStop with control := .clearWall } := by
  obtain ⟨strings, hrepr, hmeans⟩ := h.table
  refine ⟨⟨strings, hrepr, fun hp => ?_⟩, h.memory, h.wall, h.oncpu, ?_, h.emitted⟩
  · have hm := hmeans hp
    exact ⟨hm.memory, hm.wall, hm.oncpu, hm.memoryHeld, HeldIn.nil strings⟩
  · constructor <;> intro (hr : _ ≤ 3)
    case memory => exact h.tornDown.memory (by omega)
    case memoryEmpty => exact h.tornDown.memoryEmpty (by omega)
    case stack => exact ⟨rfl, rfl⟩
    all_goals omega

theorem Inv.clearWall {s : State} (h : Inv s) (hs : s.control.rank = 3) :
    Inv { s with control := .clearOncpu, wall := s.wall.clearSamples } := by
  obtain ⟨strings, hrepr, hmeans⟩ := h.table
  obtain ⟨t, w, hbuf⟩ := h.wall
  refine ⟨⟨strings, hrepr, fun hp => ?_⟩, h.memory, ⟨_, _, clearSamples_buffered hbuf⟩, h.oncpu, ?_,
    h.emitted⟩
  · have hm := hmeans hp
    exact ⟨hm.memory, FramesIn.nil strings, hm.oncpu, hm.memoryHeld, hm.stackHeld⟩
  · constructor <;> intro (hr : _ ≤ 4)
    case memory => exact h.tornDown.memory (by omega)
    case memoryEmpty => exact h.tornDown.memoryEmpty (by omega)
    case stack => exact h.tornDown.stack (by omega)
    case wallEmpty => rfl
    all_goals omega

theorem Inv.clearOncpu {s : State} (h : Inv s) (hs : s.control.rank = 4) :
    Inv { s with control := .clearStrings, oncpu := s.oncpu.clearSamples } := by
  obtain ⟨strings, hrepr, hmeans⟩ := h.table
  obtain ⟨t, w, hbuf⟩ := h.oncpu
  refine ⟨⟨strings, hrepr, fun hp => ?_⟩, h.memory, h.wall, ⟨_, _, clearSamples_buffered hbuf⟩, ?_,
    h.emitted⟩
  · have hm := hmeans hp
    exact ⟨hm.memory, hm.wall, FramesIn.nil strings, hm.memoryHeld, hm.stackHeld⟩
  · constructor <;> intro (hr : _ ≤ 5)
    case memory => exact h.tornDown.memory (by omega)
    case memoryEmpty => exact h.tornDown.memoryEmpty (by omega)
    case stack => exact h.tornDown.stack (by omega)
    case wallEmpty => exact h.tornDown.wallEmpty (by omega)
    case oncpuEmpty => rfl

/- The one step that takes meanings away: nobody is left who could miss them. -/
theorem Inv.clearStrings {s : State} (h : Inv s) (hs : s.control.rank = 5) :
    Inv { s.internerClear with control := .idle } := by
  have ht := h.tornDown
  have hmeans : Meanings s [""] := Meanings.of_empty (ht.memoryEmpty (by omega))
    (ht.wallEmpty (by omega)) (ht.oncpuEmpty (by omega)) (ht.memory (by omega)).2
    (ht.stack (by omega)).2 _
  exact ⟨⟨[""], StringTable.new_repr, fun _ => ⟨hmeans.memory, hmeans.wall, hmeans.oncpu,
    hmeans.memoryHeld, hmeans.stackHeld⟩⟩, h.memory, h.wall, h.oncpu, TornDown.of_rank_zero rfl,
    h.emitted⟩

theorem Inv.fork {s : State} (h : Inv s) : Inv s.atForkAfterInChild :=
  ⟨⟨[""], StringTable.new_repr, fun _ => Meanings.of_empty rfl rfl rfl rfl rfl _⟩,
    ⟨_, _, clearSamples_buffered fresh_buffered⟩, ⟨_, _, clearSamples_buffered fresh_buffered⟩,
    ⟨_, _, clearSamples_buffered fresh_buffered⟩, TornDown.of_rank_zero rfl, h.emitted⟩

theorem step_inv {s s' : State} (h : Inv s) (hs : Step s s') : Inv s' := by
  obtain ⟨strings, hrepr, hmeans⟩ := h.table
  cases hs with
  | internMemory running decode view hi => exact h.internMemory running hi
  | internStack running decode view hi => exact h.internStack running hi
  | pushMemory running frames values held hb => exact h.pushMemory running held hb
  | pushWall running frames values held hb => exact h.pushWall running held hb
  | pushOncpu running frames values held hb => exact h.pushOncpu running held hb
  | dumpMemory config ordSamples ordStrings timeRange hd =>
    obtain ⟨t, w, hbuf⟩ := h.memory
    obtain ⟨hu, hsound⟩ := dump_spec hbuf hrepr hd
    exact h.useMemory hmeans hu (emitted_append h.emitted fun profile hp =>
      (hsound profile hp).2 (hmeans (hsound profile hp).1).memory)
  | dumpWall config ordSamples ordStrings timeRange hd =>
    obtain ⟨t, w, hbuf⟩ := h.wall
    obtain ⟨hu, hsound⟩ := dump_spec hbuf hrepr hd
    exact h.useWall hmeans hu (emitted_append h.emitted fun profile hp =>
      (hsound profile hp).2 (hmeans (hsound profile hp).1).wall)
  | dumpOncpu config ordSamples ordStrings timeRange hd =>
    obtain ⟨t, w, hbuf⟩ := h.oncpu
    obtain ⟨hu, hsound⟩ := dump_spec hbuf hrepr hd
    exact h.useOncpu hmeans hu (emitted_append h.emitted fun profile hp =>
      (hsound profile hp).2 (hmeans (hsound profile hp).1).oncpu)
  | setTypeMemory config hd =>
    obtain ⟨t, w, hbuf⟩ := h.memory
    have hu := (setProfileType_spec hbuf hrepr config).1
    rw [hd] at hu
    exact h.useMemory hmeans hu h.emitted
  | setTypeWall config hd =>
    obtain ⟨t, w, hbuf⟩ := h.wall
    have hu := (setProfileType_spec hbuf hrepr config).1
    rw [hd] at hu
    exact h.useWall hmeans hu h.emitted
  | setTypeOncpu config hd =>
    obtain ⟨t, w, hbuf⟩ := h.oncpu
    have hu := (setProfileType_spec hbuf hrepr config).1
    rw [hd] at hu
    exact h.useOncpu hmeans hu h.emitted
  | run config hc => exact h.goto rfl _ _
  | memoryOff hc off => exact h.goto rfl _ _
  | memoryFails hc on => exact h.goto rfl _ _
  | memoryStarts hc on => exact h.goto rfl _ _
  | memoryStartsWithError hc on => exact h.goto rfl _ _
  | undoMemory hc => exact h.memallocStop (Nat.zero_le 1)
  | undoMemoryClear hc => exact h.clearMemory (Nat.zero_le 2) (Or.inl rfl)
  | stackOff hc off => exact h.goto rfl _ _
  | stackFails hc on => exact h.goto rfl _ _
  | stackStarts hc on => exact h.goto rfl _ _
  | stackInstallFails hc on => exact h.goto rfl _ _
  | buildFails hc => exact h.goto rfl _ _
  | buildOk hc => exact h.goto rfl _ _
  | stop hc => exact h.goto rfl _ _
  | stopMemory hc => exact h.memallocStop (Nat.le_refl 1)
  | clearMemory hc => exact h.clearMemory (Nat.le_refl 2) (Or.inr (by rw [hc]; exact Nat.le_refl 1))
  | stopStack hc => exact h.samplerStop (by rw [hc]; rfl)
  | clearWall hc => exact h.clearWall (by rw [hc]; rfl)
  | clearOncpu hc => exact h.clearOncpu (by rw [hc]; rfl)
  | clearStrings hc => exact h.clearStrings (by rw [hc]; rfl)
  | fork => exact h.fork

theorem reachable_inv {s : State} (h : Reachable (· = State.initial) Step s) : Inv s := by
  refine h.invariant (fun s hs => ?_) fun s s' hi hs => step_inv hi hs
  rw [hs]
  exact initial_inv

/-- Every profile that a run emits decodes: the first string is empty, no index dangles,
the indices of a function are those of a frame pushed in its window and read the
strings whose interning gave them, and every sample has a value for each type. -/
theorem emitted_sound {s : State} (h : Reachable (· = State.initial) Step s) :
    ∀ e ∈ s.emitted, e.Sound := (reachable_inv h).emitted

/- One window of the memory profiler with one sample. -/
theorem emitted_sound_memory : ∃ s, Reachable (· = State.initial) Step s ∧ s.emitted.length = 1 ∧
    ∀ e ∈ s.emitted, e.Sound := by
  have h : Reachable (· = State.initial) Step State.initial := .init rfl
  have h := h.step (.run ⟨true, false⟩ rfl)
  have h := h.step (.memoryStarts rfl rfl)
  have h := h.step (.stackOff rfl rfl)
  have h := h.step (.buildOk rfl)
  have h := h.step (.internMemory rfl fromAscii ⟨some [102]⟩ rfl)
  have h := h.step (.internMemory rfl fromUtf8 ⟨some [97]⟩ rfl)
  have h := h.step (.pushMemory rfl [⟨⟨⟨1⟩, ⟨2⟩, 7⟩, "f", "a"⟩] ⟨0, 0, 64, 1, 64, 1⟩
    (List.forall_mem_singleton.mpr ⟨.tail _ (.head _), .head _⟩) rfl)
  have h := h.step (.dumpMemory (512 : UInt64) (.stored _) (.stored _) ⟨0, 10⟩ rfl)
  exact ⟨_, h, rfl, emitted_sound h⟩

end Pyroscope.Agent
