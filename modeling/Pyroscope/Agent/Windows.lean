import Pyroscope.Agent.Interning

/-!
# What becomes of a pushed sample (memory.rs, stack/mod.rs)

Beside each builder stands what was pushed to it, cut where a dump took the builder apart,
where it was emptied and where the process was forked. A dump shows its window by the
strings for which the indices of its frames were interned, whatever the two other
builders and the table went through in the meantime.
-/

namespace Pyroscope.Agent
open Pyroscope.Lib Pyroscope.Encode

/-- A call of `push_sample`. -/
abbrev Push : Type := List PushedFrame × FFISampleValues

/-- A frame as a reader of a profile sees it. -/
def PushedFrame.named (f : PushedFrame) : String × String × ℤ := (f.name, f.file, f.frame.line)

def windowOf (pushes : List Push) : Window := pushes.map fun p => (p.1.map PushedFrame.frame, p.2)

def framesOf (pushes : List Push) : List PushedFrame := pushes.flatMap Prod.fst

def stacksOf (pushes : List Push) : List (List (String × String × ℤ)) :=
  pushes.map fun p => p.1.map PushedFrame.named

/-- The values pushed for one stack, in order. -/
def slotsOf (K : Type) [FfiProfileKind K] (pushes : List Push) (stack : List (String × String × ℤ)) :
    List (Values K) :=
  (pushes.filter fun p => p.1.map PushedFrame.named = stack).map fun p => FfiProfileKind.valueSlots p.2

/-- The profile decodes to the stacks that were pushed, each once and with its own values,
under the types of the profiler. -/
structure Shows (K : Type) [FfiProfileKind K] (pushes : List Push) (p : Profile) : Prop where
  decoded : ∃ shown : List (List (String × String × ℤ)), shown.Perm (stacksOf pushes).dedup ∧
    p.decoded = some (shown.map fun stack => (stack, [], List.ofFn (foldValues (slotsOf K pushes stack))))
  sums : ∀ stack ∈ stacksOf pushes, ∀ i, (∀ v ∈ slotsOf K pushes stack, 0 ≤ v i) →
    foldValues (slotsOf K pushes stack) i = min i64Max ((slotsOf K pushes stack).map fun v => v i).sum
  types : List.Forall₂ (NamedType p.stringTable) (ProfileKind.sampleTypes K) p.sampleType

/-- How a window ended; a dump that finds nothing gives no profile. -/
inductive Closing where
  | dumped (profile : Option Profile)
  | cleared

/-- `pushed` is all that the builder accepted, `opened` the window under way. -/
structure WindowLog where
  pushed : List Push
  closed : List (List Push × Closing)
  opened : List Push

namespace WindowLog

def empty : WindowLog := ⟨[], [], []⟩

def push (log : WindowLog) (p : Push) : WindowLog :=
  { log with pushed := log.pushed ++ [p], opened := log.opened ++ [p] }

def close (log : WindowLog) (closing : Closing) : WindowLog :=
  { log with closed := log.closed ++ [(log.opened, closing)], opened := [] }

/-- A push to a poisoned builder is dropped. -/
def pushSample (log : WindowLog) (refused : Bool) (p : Push) : WindowLog :=
  if refused then log else log.push p

/-- The log from now on; the window under way stays. -/
def restart (log : WindowLog) : WindowLog := ⟨log.opened, [], log.opened⟩

/-- A dump that cannot enter its locks takes nothing. -/
def dump (log : WindowLog) (refused : Bool) (profile : Option Profile) : WindowLog :=
  if refused then log else log.close (.dumped profile)

end WindowLog

/-! ### Names and indices -/

section Names
variable {strings : List String}

/-- What the table says of a frame. -/
def readFrame (strings : List String) (f : FFIFrame) : String × String × ℤ :=
  (strings.getD f.functionName.index "", strings.getD f.fileName.index "", f.line)

theorem readFrame_eq {f : FFIFrame} {name file : String} (hname : strings[f.functionName.index]? = some name)
    (hfile : strings[f.fileName.index]? = some file) : readFrame strings f = (name, file, f.line) := by
  simp only [readFrame, List.getD_eq_getElem?_getD, hname, hfile, Option.getD_some]

theorem readFrame_named {frames : List PushedFrame} (h : FramesIn strings frames) :
    (frames.map PushedFrame.frame).map (readFrame strings) = frames.map PushedFrame.named := by
  rw [List.map_map]
  exact List.map_congr_left fun g hg => readFrame_eq (h g hg).1 (h g hg).2

/- Two frames that read alike are one frame, since no string is in the table twice. -/
theorem readFrame_inj (hn : strings.Nodup) {f g : FFIFrame}
    (hf : f.functionName.index < strings.length ∧ f.fileName.index < strings.length)
    (hg : g.functionName.index < strings.length ∧ g.fileName.index < strings.length)
    (he : readFrame strings f = readFrame strings g) : f = g := by
  obtain ⟨⟨fname⟩, ⟨ffile⟩, fline⟩ := f
  obtain ⟨⟨gname⟩, ⟨gfile⟩, gline⟩ := g
  simp only [readFrame, Prod.mk.injEq, List.getD_eq_getElem?_getD, List.getElem?_eq_getElem hf.1,
    List.getElem?_eq_getElem hf.2, List.getElem?_eq_getElem hg.1, List.getElem?_eq_getElem hg.2,
    Option.getD_some] at he
  obtain ⟨hname, hfile, hline⟩ := he
  obtain rfl := (List.Nodup.getElem_inj_iff hn).mp hname
  obtain rfl := (List.Nodup.getElem_inj_iff hn).mp hfile
  rw [hline]

theorem FramesIn.bounds {frames : List PushedFrame} (h : FramesIn strings frames) {f : FFIFrame}
    (hf : f ∈ frames.map PushedFrame.frame) :
    f.functionName.index < strings.length ∧ f.fileName.index < strings.length := by
  obtain ⟨g, hg, rfl⟩ := List.mem_map.mp hf
  exact ⟨(List.getElem?_eq_some_iff.mp (h g hg).1).1, (List.getElem?_eq_some_iff.mp (h g hg).2).1⟩

theorem readFrames_inj (hn : strings.Nodup) {fs gs : List FFIFrame}
    (hf : ∀ f ∈ fs, f.functionName.index < strings.length ∧ f.fileName.index < strings.length)
    (hg : ∀ g ∈ gs, g.functionName.index < strings.length ∧ g.fileName.index < strings.length)
    (he : fs.map (readFrame strings) = gs.map (readFrame strings)) : fs = gs := by
  induction fs generalizing gs with
  | nil => exact (List.map_eq_nil_iff.mp he.symm).symm
  | cons f fs ih =>
    cases gs with
    | nil => cases he
    | cons g gs =>
      simp only [List.map_cons, List.cons.injEq] at he
      rw [readFrame_inj hn (hf f (List.mem_cons_self ..)) (hg g (List.mem_cons_self ..)) he.1,
        ih (fun f hm => hf f (List.mem_cons_of_mem _ hm)) (fun g hm => hg g (List.mem_cons_of_mem _ hm)) he.2]

/-! ### A window under its names -/

variable {pushes : List Push}

theorem framesIn_of_mem (h : FramesIn strings (framesOf pushes)) {p : Push} (hp : p ∈ pushes) :
    FramesIn strings p.1 := fun g hg => h g (List.mem_flatMap.mpr ⟨p, hp, hg⟩)

theorem windowOf_bounds (h : FramesIn strings (framesOf pushes)) {fs : List FFIFrame}
    (hfs : fs ∈ (windowOf pushes).frameLists) :
    ∀ f ∈ fs, f.functionName.index < strings.length ∧ f.fileName.index < strings.length := by
  obtain ⟨e, he, rfl⟩ := List.mem_map.mp hfs
  obtain ⟨p, hp, rfl⟩ := List.mem_map.mp he
  exact fun f hf => (framesIn_of_mem h hp).bounds hf

theorem stacksOf_eq (h : FramesIn strings (framesOf pushes)) :
    (windowOf pushes).frameLists.map (List.map (readFrame strings)) = stacksOf pushes := by
  rw [Window.frameLists, windowOf, List.map_map, List.map_map, stacksOf]
  exact List.map_congr_left fun p hp => readFrame_named (framesIn_of_mem h hp)

theorem dedup_stacks (hn : strings.Nodup) (h : FramesIn strings (framesOf pushes)) :
    ((windowOf pushes).frameLists.dedup.map (List.map (readFrame strings))).Perm
      (stacksOf pushes).dedup := by
  have hnodup : ((windowOf pushes).frameLists.dedup.map (List.map (readFrame strings))).Nodup := by
    refine (List.nodup_dedup _).map_on fun fs hfs gs hgs he => ?_
    exact readFrames_inj hn (windowOf_bounds h (List.mem_dedup.mp hfs))
      (windowOf_bounds h (List.mem_dedup.mp hgs)) he
  refine (List.perm_ext_iff_of_nodup hnodup (List.nodup_dedup _)).mpr fun stack => ?_
  rw [List.mem_dedup, ← stacksOf_eq h, List.mem_map, List.mem_map]
  simp only [List.mem_dedup]

/- The pushes of a stack are those of its indices. -/
theorem slotsOf_eq (K : Type) [FfiProfileKind K] (hn : strings.Nodup)
    (h : FramesIn strings (framesOf pushes)) {fs : List FFIFrame}
    (hfs : fs ∈ (windowOf pushes).frameLists) :
    slotsOf K pushes (fs.map (readFrame strings)) = (windowOf pushes).pushes K fs := by
  rw [slotsOf, Window.pushes, windowOf, List.filter_map, List.map_map]
  refine congrArg _ (List.filter_congr fun p hp => ?_)
  have hin := framesIn_of_mem h hp
  rw [← readFrame_named hin]
  refine decide_eq_decide.mpr ⟨fun he => ?_, fun he => ?_⟩
  · exact readFrames_inj hn (fun f hf => hin.bounds hf) (windowOf_bounds h hfs) he
  · rw [show p.1.map PushedFrame.frame = fs from he]

end Names

/-! ### A dump -/

section Builder
variable {K : Type} [FfiProfileKind K]

theorem namedFrames_read {p : Profile} {s : Sample} {frames : List FFIFrame}
    (hs : p.frames s = some (frames.map Profile.Lists.lineOf))
    (hb : ∀ f ∈ frames, f.functionName.index < p.stringTable.length ∧
      f.fileName.index < p.stringTable.length) :
    p.namedFrames s = some (frames.map (readFrame p.stringTable)) := by
  rw [Profile.namedFrames, hs, Option.bind_some]
  refine Profile.mapM_of_forall₂ (List.forall₂_map_right_iff.mpr (List.forall₂_same.mpr fun f hf => ?_))
  have hname := List.getElem?_eq_getElem (hb f hf).1
  have hfile := List.getElem?_eq_getElem (hb f hf).2
  simp only [Profile.Lists.lineOf, StringID.pprof, Profile.string_of_getElem hname,
    Profile.string_of_getElem hfile, Option.bind_some, Option.map_some, readFrame_eq hname hfile]

theorem decodes_window {pushes : List Push} {p : Profile} (hw : WindowProfile K (windowOf pushes) p)
    (hn : p.stringTable.Nodup) (hf : FramesIn p.stringTable (framesOf pushes))
    (hlabels : ∀ s ∈ p.sample, s.label = []) :
    ∃ shown : List (List (String × String × ℤ)), shown.Perm (stacksOf pushes).dedup ∧
      p.decoded = some
        (shown.map fun stack => (stack, [], List.ofFn (foldValues (slotsOf K pushes stack)))) := by
  obtain ⟨lists, hperm, hsamples⟩ := hw.samples
  refine ⟨lists.map (List.map (readFrame p.stringTable)), (hperm.map _).trans (dedup_stacks hn hf), ?_⟩
  have hmem : ∀ fs ∈ lists, fs ∈ (windowOf pushes).frameLists := fun fs hfs =>
    List.mem_dedup.mp (hperm.mem_iff.mp hfs)
  rw [List.map_map, Profile.decoded]
  refine Profile.mapM_of_forall₂ (List.forall₂_iff_get.mpr ⟨hsamples.length_eq, fun k hk hk' => ?_⟩)
  obtain ⟨hread, hvalue⟩ := (List.forall₂_iff_get.mp hsamples).2 k hk hk'
  have hin := hmem _ (List.get_mem lists ⟨k, hk⟩)
  have hnone : p.labels (p.sample.get ⟨k, hk'⟩) = some [] := by
    rw [Profile.labels, hlabels _ (List.get_mem ..)]
    rfl
  simp only [namedFrames_read hread (windowOf_bounds hf hin), hnone, Option.bind_some, Option.map_some,
    hvalue, Function.comp_apply, slotsOf_eq K hn hf hin]

theorem shows_window {pushes : List Push} {p : Profile} (hw : WindowProfile K (windowOf pushes) p)
    (hn : p.stringTable.Nodup) (hf : FramesIn p.stringTable (framesOf pushes))
    (hlabels : ∀ s ∈ p.sample, s.label = [])
    (htypes : List.Forall₂ (NamedType p.stringTable) (ProfileKind.sampleTypes K) p.sampleType) :
    Shows K pushes p := by
  refine ⟨decodes_window hw hn hf hlabels, fun stack hstack i hpos => ?_, htypes⟩
  rw [← stacksOf_eq hf] at hstack
  obtain ⟨fs, hfs, rfl⟩ := List.mem_map.mp hstack
  rw [slotsOf_eq K hn hf hfs] at hpos ⊢
  exact hw.saturated fs hfs i hpos

/-- The samples of the builder are these pushes, folded. -/
def Buffers (b : LockedBuilder K) (pushes : List Push) : Prop :=
  ∃ t, Accumulated b.builder t (windowOf pushes)

/-- The builder holds the window under way, and each dump showed its own. -/
structure Tracks (K : Type) [FfiProfileKind K] (b : LockedBuilder K) (log : WindowLog) : Prop where
  builder : Buffers b log.opened
  frames : b.pushed = framesOf log.opened
  pushed : log.pushed = log.closed.flatMap Prod.fst ++ log.opened
  shown : ∀ e ∈ log.closed, ∀ p, e.2 = .dumped (some p) → Shows K e.1 p
  nothing : ∀ e ∈ log.closed, e.2 = .dumped none → e.1 = []

theorem fresh_tracks : Tracks K (LockedBuilder.fresh : LockedBuilder K) .empty :=
  ⟨⟨_, new_accumulated⟩, rfl, rfl, fun _ h => absurd h List.not_mem_nil,
    fun _ h => absurd h List.not_mem_nil⟩

namespace Tracks
variable {b b' : LockedBuilder K} {log : WindowLog}

theorem pushSample (h : Tracks K b log) {frames : List PushedFrame} {values : FFISampleValues}
    (hb : b.pushSample frames values = .ok b') :
    Tracks K b' (log.pushSample b.poisoned (frames, values)) := by
  rw [LockedBuilder.pushSample] at hb
  by_cases hp : b.poisoned = true
  · rw [if_pos hp] at hb
    cases hb
    rw [WindowLog.pushSample, if_pos hp]
    exact h
  · rw [if_neg hp] at hb
    obtain ⟨t, hacc⟩ := h.builder
    obtain ⟨builder, hadd, hacc'⟩ := addFfiSample_accumulated hacc (frames.map PushedFrame.frame) values
    rw [hadd] at hb
    cases hb
    rw [WindowLog.pushSample, if_neg hp]
    refine ⟨⟨(t.addFrames (frames.map PushedFrame.frame)).2, ?_⟩, ?_, ?_, h.shown, h.nothing⟩
    · rw [WindowLog.push, windowOf, List.map_append]
      exact hacc'
    · rw [WindowLog.push, framesOf, List.flatMap_append, List.flatMap_singleton]
      exact congrArg (· ++ frames) h.frames
    · rw [WindowLog.push, ← List.append_assoc]
      exact congrArg (· ++ [(frames, values)]) h.pushed

/- A window ends, and the builder begins anew. -/
theorem close (h : Tracks K b log) {closing : Closing} (hb : ∃ t, Accumulated b'.builder t [])
    (hframes : b'.pushed = []) (hshown : ∀ p, closing = .dumped (some p) → Shows K log.opened p)
    (hnothing : closing = .dumped none → log.opened = []) : Tracks K b' (log.close closing) := by
  refine ⟨hb, hframes, ?_, fun e he p hp => ?_, fun e he hp => ?_⟩
  · rw [WindowLog.close, List.flatMap_append, List.flatMap_singleton, List.append_nil]
    exact h.pushed
  · rcases List.mem_append.mp he with he | he
    · exact h.shown e he p hp
    · obtain rfl := List.mem_singleton.mp he
      exact hshown p hp
  · rcases List.mem_append.mp he with he | he
    · exact h.nothing e he hp
    · obtain rfl := List.mem_singleton.mp he
      exact hnothing hp

theorem clearSamples (h : Tracks K b log) : Tracks K b.clearSamples (log.close .cleared) := by
  obtain ⟨t, hacc⟩ := h.builder
  exact h.close ⟨_, reset_accumulated hacc.plain⟩ rfl (fun _ hp => by cases hp) (fun hp => by cases hp)

theorem replaced (h : Tracks K b log) :
    Tracks K (LockedBuilder.fresh : LockedBuilder K).clearSamples (log.close .cleared) :=
  h.close ⟨_, reset_accumulated new_accumulated.plain⟩ rfl (fun _ hp => by cases hp)
    (fun hp => by cases hp)

end Tracks

theorem setProfileType_profile {b : PProfBuilder K} {st : StringTable}
    {config : ProfileKind.PeriodConfig K} {r : PProfBuilder K × StringTable}
    (h : b.setProfileType st config = .ok r) :
    ProfileKind.setProfileType K b.profile st config = .ok (r.1.profile, r.2) := by
  rw [PProfBuilder.setProfileType] at h
  cases hr : ProfileKind.setProfileType K b.profile st config with
  | error e =>
    rw [hr] at h
    cases h
  | ok r' =>
    rw [hr] at h
    cases h
    rfl

/-- The builder under its types, with the table grown. -/
structure Typed (b : LockedBuilder K) (log : WindowLog) (strings : List String)
    (i : Interner) : Prop where
  builder : ∃ t, Accumulated b.builder t (windowOf log.opened)
  table : i.table.Repr strings
  types : List.Forall₂ (NamedType strings) (ProfileKind.sampleTypes K) b.builder.profile.sampleType

theorem setProfileType_tracks {b : LockedBuilder K} {i : Interner} {log : WindowLog}
    {strings : List String} (h : Tracks K b log) (ht : i.table.Repr strings)
    (config : ProfileKind.PeriodConfig K) :
    Tracks K (b.setProfileType i config).1 log ∧
      (((b.setProfileType i config).2.poisoned || (b.setProfileType i config).1.poisoned) = false →
        i.poisoned = false ∧ ∃ strings', strings <+: strings' ∧
          Typed (b.setProfileType i config).1 log strings' (b.setProfileType i config).2) := by
  by_cases hp : (i.poisoned || b.poisoned) = true
  · rw [LockedBuilder.setProfileType, if_pos hp]
    exact ⟨h, fun hn => by rw [hp] at hn; cases hn⟩
  · obtain ⟨t, hacc⟩ := h.builder
    rw [LockedBuilder.setProfileType, if_neg hp]
    cases hr : b.builder.setProfileType i.table config with
    | error e => exact ⟨⟨⟨t, hacc⟩, h.frames, h.pushed, h.shown, h.nothing⟩, fun hn => by cases hn⟩
    | ok r =>
      obtain ⟨-, hacc', hrepr, -⟩ := (setProfileType_accumulated hacc ht config).inv hr
      obtain ⟨period, hperiod⟩ := FfiProfileKind.period_ok (K := K) config
      obtain ⟨-, -, htyped⟩ := (setProfileType_outcome ht b.builder.profile hperiod).inv
        (setProfileType_profile hr)
      refine ⟨⟨⟨t, hacc'⟩, h.frames, h.pushed, h.shown, h.nothing⟩, fun hn => ?_⟩
      rw [Bool.or_eq_false_iff] at hn
      exact ⟨hn.1, _, StringTable.internAll_mono strings (ProfileKind.requests K), ⟨t, hacc'⟩, hrepr,
        htyped.sampleType⟩

theorem taken_eq {b b' : PProfBuilder K} {st : StringTable} {strings : List String} {p : Profile}
    {ordSamples : IterOrder (List ℕ × Values K)} {ordStrings : IterOrder (String × StringID)}
    {timeRange : TimeRange} (hst : st.Repr strings)
    (h : b.takeProfileAndReset ordSamples ordStrings st timeRange = .ok (some p, b')) :
    p = b.takenProfile ordSamples timeRange strings := by
  by_cases he : (b.flushFfiSamples ordSamples).profile.sample.isEmpty = true
  · rw [PProfBuilder.takeProfileAndReset_none he] at h
    cases h
  · rw [PProfBuilder.takeProfileAndReset_some he ordStrings hst] at h
    cases h
    rfl

/- What the take of a dump does to the log, with both locks open. -/
theorem takeProfile_tracks {b : LockedBuilder K} {i : Interner} {log : WindowLog} {strings : List String}
    (h : Tracks K b log) (ht : Typed b log strings i) (hf : FramesIn strings b.pushed)
    (hopen : (i.poisoned || b.poisoned) = false) (ordSamples : IterOrder (List ℕ × Values K))
    (ordStrings : IterOrder (String × StringID)) (timeRange : TimeRange) :
    ∃ profile b', b.takeProfile ordSamples ordStrings timeRange i = (profile, b', i) ∧
      b'.poisoned = b.poisoned ∧ Tracks K b' (log.close (.dumped profile)) := by
  obtain ⟨t, hacc⟩ := ht.builder
  obtain ⟨out, builder, htake, hspec, hreset⟩ :=
    takeProfileAndReset_accumulated hacc ht.table ordSamples ordStrings timeRange
  refine ⟨out, { b with builder, pushed := [] }, ?_, rfl,
    h.close ⟨_, hreset⟩ rfl (fun p hp => ?_) fun hp => ?_⟩
  · rw [LockedBuilder.takeProfile, hopen, htake]
    rfl
  · cases hp
    obtain rfl := taken_eq ht.table htake
    rw [h.frames] at hf
    refine shows_window hspec.2 ht.table.nodup hf (fun s hs => ?_) ht.types
    replace hs : s ∈ b.builder.profile.sample ++ flushed ordSamples b.builder := hs
    rw [hacc.noSamples, List.nil_append] at hs
    obtain ⟨e, -, rfl⟩ := List.mem_map.mp hs
    rfl
  · cases hp
    exact List.map_eq_nil_iff.mp hspec

theorem dump_tracks {b b' : LockedBuilder K} {i i' : Interner} {log : WindowLog} {strings : List String}
    {profile : Option Profile} (h : Tracks K b log) (ht : i.table.Repr strings)
    (hf : i.poisoned = false → FramesIn strings b.pushed) {config : ProfileKind.PeriodConfig K}
    {ordSamples : IterOrder (List ℕ × Values K)} {ordStrings : IterOrder (String × StringID)}
    {timeRange : TimeRange}
    (hd : b.dump config ordSamples ordStrings timeRange i = (profile, b', i')) :
    Tracks K b' (log.dump (i'.poisoned || b'.poisoned) profile) := by
  obtain ⟨htracks, htyped⟩ := setProfileType_tracks h ht config
  have hframes : (b.setProfileType i config).1.pushed = b.pushed := by rw [htracks.frames, h.frames]
  rw [LockedBuilder.dump] at hd
  generalize b.setProfileType i config = r at hd htracks htyped hframes
  obtain ⟨b₁, i₁⟩ := r
  dsimp only at hd htracks htyped hframes
  cases hp : i₁.poisoned || b₁.poisoned with
  | true =>
    rw [LockedBuilder.takeProfile, hp] at hd
    cases hd
    rw [hp]
    exact htracks
  | false =>
    obtain ⟨hi, strings', hgrow, ht'⟩ := htyped hp
    have hf' : FramesIn strings' b₁.pushed := by
      rw [hframes]
      exact (hf hi).mono hgrow
    obtain ⟨profile', b₂, htake, hpoison, hlog⟩ :=
      takeProfile_tracks htracks ht' hf' hp ordSamples ordStrings timeRange
    rw [htake] at hd
    cases hd
    rw [hpoison, hp]
    exact hlog

/- A dump that gives a profile has entered its locks. -/
theorem dump_refused {b b' : LockedBuilder K} {i i' : Interner} {config : ProfileKind.PeriodConfig K}
    {ordSamples : IterOrder (List ℕ × Values K)} {ordStrings : IterOrder (String × StringID)}
    {timeRange : TimeRange} {profile : Option Profile}
    (hd : b.dump config ordSamples ordStrings timeRange i = (profile, b', i'))
    (hp : (i'.poisoned || b'.poisoned) = true) : profile = none := by
  rw [LockedBuilder.dump] at hd
  generalize b.setProfileType i config = r at hd
  obtain ⟨b₁, i₁⟩ := r
  dsimp only at hd
  rw [LockedBuilder.takeProfile] at hd
  split at hd
  · cases hd
    rfl
  · rename_i hopen
    split at hd
    · cases hd
      exact (hopen hp).elim
    · cases hd
      rfl

theorem Tracks.restart {b : LockedBuilder K} {log : WindowLog} (h : Tracks K b log) :
    Tracks K b log.restart :=
  ⟨h.builder, h.frames, rfl, fun _ he => absurd he List.not_mem_nil, fun _ he => absurd he List.not_mem_nil⟩

end Builder

/-! ### The process -/

structure Logged where
  process : State
  memory : WindowLog
  wall : WindowLog
  oncpu : WindowLog

namespace Logged

def initial : Logged := ⟨.initial, .empty, .empty, .empty⟩

/-- After a dump of the memory builder that gave `p`. -/
def dumpMemory (l : Logged) (p : Option Profile) (b : LockedBuilder MemoryProfile) (i : Interner) :
    Logged :=
  { l with
    process := { l.process with
      interner := i, memory := b
      emitted := l.process.emitted ++ emission p l.process.memory.pushed }
    memory := l.memory.dump (i.poisoned || b.poisoned) p }

def dumpWall (l : Logged) (p : Option Profile) (b : LockedBuilder CpuWallProfile) (i : Interner) :
    Logged :=
  { l with
    process := { l.process with
      interner := i, wall := b
      emitted := l.process.emitted ++ emission p l.process.wall.pushed }
    wall := l.wall.dump (i.poisoned || b.poisoned) p }

def dumpOncpu (l : Logged) (p : Option Profile) (b : LockedBuilder CpuProfile) (i : Interner) :
    Logged :=
  { l with
    process := { l.process with
      interner := i, oncpu := b
      emitted := l.process.emitted ++ emission p l.process.oncpu.pushed }
    oncpu := l.oncpu.dump (i.poisoned || b.poisoned) p }

end Logged

inductive DumpKind where
  | memory
  | wall
  | oncpu
  deriving DecidableEq

def Logged.log (l : Logged) : DumpKind → WindowLog
  | .memory => l.memory
  | .wall => l.wall
  | .oncpu => l.oncpu

def Logged.restart (l : Logged) : Logged :=
  ⟨l.process, l.memory.restart, l.wall.restart, l.oncpu.restart⟩

def Control.clearsMemory : Control → Bool
  | .undoMemoryClear => true
  | .clearMemory => true
  | _ => false

def Control.clearsWall : Control → Bool
  | .clearWall => true
  | _ => false

def Control.clearsOncpu : Control → Bool
  | .clearOncpu => true
  | _ => false

def WindowLog.closeIf (log : WindowLog) (cleared : Bool) : WindowLog :=
  if cleared then log.close .cleared else log

/-- The steps of the process, with their entries in the logs. -/
inductive LoggedStep : Logged → Logged → Prop where
  | internMemory {l id i} (running : l.process.memoryRunning = true) (decode : List UInt8 → String)
      (view : FFIStringView) (h : l.process.interner.intern decode view = .ok (id, i)) :
    LoggedStep l { l with process := { l.process with
      interner := i, memoryHeld := (id, view.str decode) :: l.process.memoryHeld } }
  | internStack {l id i} (running : l.process.stackRunning = true) (decode : List UInt8 → String)
      (view : FFIStringView) (h : l.process.interner.intern decode view = .ok (id, i)) :
    LoggedStep l { l with process := { l.process with
      interner := i, stackHeld := (id, view.str decode) :: l.process.stackHeld } }
  | pushMemory {l b} (running : l.process.memoryRunning = true) (frames : List PushedFrame)
      (values : FFISampleValues) (held : HeldFrom l.process.memoryHeld frames)
      (h : l.process.memory.pushSample frames values = .ok b) :
    LoggedStep l { l with
      process := { l.process with memory := b }
      memory := l.memory.pushSample l.process.memory.poisoned (frames, values) }
  | pushWall {l b} (running : l.process.stackRunning = true) (frames : List PushedFrame)
      (values : FFISampleValues) (held : HeldFrom l.process.stackHeld frames)
      (h : l.process.wall.pushSample frames values = .ok b) :
    LoggedStep l { l with
      process := { l.process with wall := b }
      wall := l.wall.pushSample l.process.wall.poisoned (frames, values) }
  | pushOncpu {l b} (running : l.process.stackRunning = true) (frames : List PushedFrame)
      (values : FFISampleValues) (held : HeldFrom l.process.stackHeld frames)
      (h : l.process.oncpu.pushSample frames values = .ok b) :
    LoggedStep l { l with
      process := { l.process with oncpu := b }
      oncpu := l.oncpu.pushSample l.process.oncpu.poisoned (frames, values) }
  | dumpMemory {l p b i} (config ordSamples ordStrings timeRange)
      (h : l.process.memory.dump config ordSamples ordStrings timeRange l.process.interner = (p, b, i)) :
    LoggedStep l (l.dumpMemory p b i)
  | dumpWall {l p b i} (config ordSamples ordStrings timeRange)
      (h : l.process.wall.dump config ordSamples ordStrings timeRange l.process.interner = (p, b, i)) :
    LoggedStep l (l.dumpWall p b i)
  | dumpOncpu {l p b i} (config ordSamples ordStrings timeRange)
      (h : l.process.oncpu.dump config ordSamples ordStrings timeRange l.process.interner = (p, b, i)) :
    LoggedStep l (l.dumpOncpu p b i)
  | setTypeMemory {l b i} (config)
      (h : l.process.memory.setProfileType l.process.interner config = (b, i)) :
    LoggedStep l { l with process := { l.process with interner := i, memory := b } }
  | setTypeWall {l b i} (config)
      (h : l.process.wall.setProfileType l.process.interner config = (b, i)) :
    LoggedStep l { l with process := { l.process with interner := i, wall := b } }
  | setTypeOncpu {l b i} (config)
      (h : l.process.oncpu.setProfileType l.process.interner config = (b, i)) :
    LoggedStep l { l with process := { l.process with interner := i, oncpu := b } }
  /-- the thread in `run` or `stop` goes on -/
  | control {l s} (h : Step l.process s) (moved : s.control ≠ l.process.control)
      (busy : s.control ≠ .idle) :
    LoggedStep l
      { process := s
        memory := l.memory.closeIf l.process.control.clearsMemory
        wall := l.wall.closeIf l.process.control.clearsWall
        oncpu := l.oncpu.closeIf l.process.control.clearsOncpu }
  | clearStrings {l} (h : l.process.control = .clearStrings) :
    LoggedStep l { l with process := { l.process.internerClear with control := .idle } }
  | fork {l} : LoggedStep l
      { process := l.process.atForkAfterInChild
        memory := l.memory.close .cleared
        wall := l.wall.close .cleared
        oncpu := l.oncpu.close .cleared }

/-! ### The steps of the process -/

/- What the thread in `run` or `stop` does to the builders. -/
theorem control_builders {s s' : State} (h : Step s s') (moved : s'.control ≠ s.control)
    (busy : s'.control ≠ .idle) :
    s'.memory = (if s.control.clearsMemory then s.memory.clearSamples else s.memory) ∧
    s'.wall = (if s.control.clearsWall then s.wall.clearSamples else s.wall) ∧
    s'.oncpu = (if s.control.clearsOncpu then s.oncpu.clearSamples else s.oncpu) := by
  cases h
  all_goals first
    | exact (moved rfl).elim
    | exact (busy rfl).elim
    | simp_all [Control.clearsMemory, Control.clearsWall, Control.clearsOncpu, State.memallocStop, State.samplerStop]

theorem loggedStep_step {l l' : Logged} (h : LoggedStep l l') : Step l.process l'.process := by
  cases h with
  | internMemory running decode view h => exact .internMemory running decode view h
  | internStack running decode view h => exact .internStack running decode view h
  | pushMemory running frames values held h => exact .pushMemory running frames values held h
  | pushWall running frames values held h => exact .pushWall running frames values held h
  | pushOncpu running frames values held h => exact .pushOncpu running frames values held h
  | dumpMemory config ordSamples ordStrings timeRange h =>
    exact .dumpMemory config ordSamples ordStrings timeRange h
  | dumpWall config ordSamples ordStrings timeRange h =>
    exact .dumpWall config ordSamples ordStrings timeRange h
  | dumpOncpu config ordSamples ordStrings timeRange h =>
    exact .dumpOncpu config ordSamples ordStrings timeRange h
  | setTypeMemory config h => exact .setTypeMemory config h
  | setTypeWall config h => exact .setTypeWall config h
  | setTypeOncpu config h => exact .setTypeOncpu config h
  | control h moved busy => exact h
  | clearStrings h => exact .clearStrings h
  | fork => exact .fork

/- Whatever the process does, it does with an entry in the logs. -/
theorem step_logged {l : Logged} {s : State} (h : Step l.process s) :
    ∃ l', LoggedStep l l' ∧ l'.process = s := by
  have hstep := h
  cases h with
  | internMemory running decode view h => exact ⟨_, .internMemory running decode view h, rfl⟩
  | internStack running decode view h => exact ⟨_, .internStack running decode view h, rfl⟩
  | pushMemory running frames values held h => exact ⟨_, .pushMemory running frames values held h, rfl⟩
  | pushWall running frames values held h => exact ⟨_, .pushWall running frames values held h, rfl⟩
  | pushOncpu running frames values held h => exact ⟨_, .pushOncpu running frames values held h, rfl⟩
  | dumpMemory config ordSamples ordStrings timeRange h =>
    exact ⟨_, .dumpMemory config ordSamples ordStrings timeRange h, rfl⟩
  | dumpWall config ordSamples ordStrings timeRange h =>
    exact ⟨_, .dumpWall config ordSamples ordStrings timeRange h, rfl⟩
  | dumpOncpu config ordSamples ordStrings timeRange h =>
    exact ⟨_, .dumpOncpu config ordSamples ordStrings timeRange h, rfl⟩
  | setTypeMemory config h => exact ⟨_, .setTypeMemory config h, rfl⟩
  | setTypeWall config h => exact ⟨_, .setTypeWall config h, rfl⟩
  | setTypeOncpu config h => exact ⟨_, .setTypeOncpu config h, rfl⟩
  | clearStrings hc => exact ⟨_, .clearStrings hc, rfl⟩
  | fork => exact ⟨_, .fork, rfl⟩
  | _ => exact ⟨_, .control hstep (by simp_all) (by simp), rfl⟩

structure LogsTrack (l : Logged) : Prop where
  memory : Tracks MemoryProfile l.process.memory l.memory
  wall : Tracks CpuWallProfile l.process.wall l.wall
  oncpu : Tracks CpuProfile l.process.oncpu l.oncpu

theorem Tracks.closeIf {K : Type} [FfiProfileKind K] {b b' : LockedBuilder K} {log : WindowLog}
    (h : Tracks K b log) {cleared : Bool} (hb : b' = if cleared then b.clearSamples else b) :
    Tracks K b' (log.closeIf cleared) := by
  subst hb
  cases cleared with
  | true => exact h.clearSamples
  | false => exact h

theorem loggedStep_tracks {l l' : Logged} (hi : Inv l.process) (h : LogsTrack l)
    (hs : LoggedStep l l') : LogsTrack l' := by
  obtain ⟨strings, hrepr, hmeans⟩ := hi.table
  cases hs with
  | internMemory running decode view hd => exact ⟨h.memory, h.wall, h.oncpu⟩
  | internStack running decode view hd => exact ⟨h.memory, h.wall, h.oncpu⟩
  | pushMemory running frames values held hd => exact ⟨h.memory.pushSample hd, h.wall, h.oncpu⟩
  | pushWall running frames values held hd => exact ⟨h.memory, h.wall.pushSample hd, h.oncpu⟩
  | pushOncpu running frames values held hd => exact ⟨h.memory, h.wall, h.oncpu.pushSample hd⟩
  | dumpMemory config ordSamples ordStrings timeRange hd =>
    exact ⟨dump_tracks h.memory hrepr (fun hp => (hmeans hp).memory) hd, h.wall, h.oncpu⟩
  | dumpWall config ordSamples ordStrings timeRange hd =>
    exact ⟨h.memory, dump_tracks h.wall hrepr (fun hp => (hmeans hp).wall) hd, h.oncpu⟩
  | dumpOncpu config ordSamples ordStrings timeRange hd =>
    exact ⟨h.memory, h.wall, dump_tracks h.oncpu hrepr (fun hp => (hmeans hp).oncpu) hd⟩
  | setTypeMemory config hd =>
    have htracks := (setProfileType_tracks h.memory hrepr config).1
    rw [hd] at htracks
    exact ⟨htracks, h.wall, h.oncpu⟩
  | setTypeWall config hd =>
    have htracks := (setProfileType_tracks h.wall hrepr config).1
    rw [hd] at htracks
    exact ⟨h.memory, htracks, h.oncpu⟩
  | setTypeOncpu config hd =>
    have htracks := (setProfileType_tracks h.oncpu hrepr config).1
    rw [hd] at htracks
    exact ⟨h.memory, h.wall, htracks⟩
  | control hstep moved busy =>
    obtain ⟨hmemory, hwall, honcpu⟩ := control_builders hstep moved busy
    exact ⟨h.memory.closeIf hmemory, h.wall.closeIf hwall, h.oncpu.closeIf honcpu⟩
  | clearStrings hc => exact ⟨h.memory, h.wall, h.oncpu⟩
  | fork => exact ⟨h.memory.replaced, h.wall.replaced, h.oncpu.replaced⟩

theorem logged_process {l : Logged} (h : Reachable (· = Logged.initial) LoggedStep l) :
    Reachable (· = State.initial) Step l.process := by
  refine h.simulation Logged.process (fun l hl => ?_) fun l l' _ hs => Or.inr (loggedStep_step hs)
  rw [hl]
  rfl

theorem logged_tracks {l : Logged} (h : Reachable (· = Logged.initial) LoggedStep l) : LogsTrack l := by
  refine h.invariant_with (fun l hl => reachable_inv (logged_process hl)) (fun l hl => ?_)
    fun l l' hi ht hs => loggedStep_tracks hi ht hs
  rw [hl]
  exact ⟨fresh_tracks, fresh_tracks, fresh_tracks⟩

/-- What a builder accepted is cut into windows: each dump that found its locks open took
one and shows it, or found nothing in it; the others were emptied by a stop, a rollback or
a fork; the last is in the builder. -/
structure Accounted (K : Type) [FfiProfileKind K] (b : LockedBuilder K) (log : WindowLog) : Prop where
  pushed : log.pushed = log.closed.flatMap Prod.fst ++ log.opened
  opened : Buffers b log.opened
  shown : ∀ e ∈ log.closed, ∀ p, e.2 = .dumped (some p) → Shows K e.1 p
  nothing : ∀ e ∈ log.closed, e.2 = .dumped none → e.1 = []

theorem pushes_accounted {l : Logged} (h : Reachable (· = Logged.initial) LoggedStep l) :
    Accounted MemoryProfile l.process.memory l.memory ∧ Accounted CpuWallProfile l.process.wall l.wall ∧
      Accounted CpuProfile l.process.oncpu l.oncpu := by
  obtain ⟨hmemory, hwall, honcpu⟩ := logged_tracks h
  exact ⟨⟨hmemory.pushed, hmemory.builder, hmemory.shown, hmemory.nothing⟩,
    ⟨hwall.pushed, hwall.builder, hwall.shown, hwall.nothing⟩,
    ⟨honcpu.pushed, honcpu.builder, honcpu.shown, honcpu.nothing⟩⟩

/- A stack is pushed twice and dumped, then once more before the profilers are stopped. -/
theorem pushes_accounted_memory : ∃ l : Logged, (l.memory.closed.map fun e => e.1.length) = [2, 1] ∧
    (∃ p, l.memory.closed.map Prod.snd = [.dumped (some p), .cleared]) ∧
    Accounted MemoryProfile l.process.memory l.memory ∧ Accounted CpuWallProfile l.process.wall l.wall ∧
    Accounted CpuProfile l.process.oncpu l.oncpu := by
  have held : HeldFrom [(⟨2⟩, "a"), (⟨1⟩, "f")] [⟨⟨⟨1⟩, ⟨2⟩, 7⟩, "f", "a"⟩] :=
    List.forall_mem_singleton.mpr ⟨.tail _ (.head _), .head _⟩
  have h : Reachable (· = Logged.initial) LoggedStep Logged.initial := .init rfl
  have h := h.step (.control (.run ⟨true, false⟩ rfl) (by simp [Logged.initial, State.initial]) (by simp))
  have h := h.step (.control (.memoryStarts rfl rfl) (by simp) (by simp))
  have h := h.step (.control (.stackOff rfl rfl) (by simp) (by simp))
  have h := h.step (.control (.buildOk rfl) (by simp) (by simp))
  have h := h.step (.internMemory rfl fromAscii ⟨some [102]⟩ rfl)
  have h := h.step (.internMemory rfl fromUtf8 ⟨some [97]⟩ rfl)
  have h := h.step (.pushMemory rfl _ ⟨0, 0, 64, 1, 64, 1⟩ held rfl)
  have h := h.step (.pushMemory rfl _ ⟨0, 0, 32, 1, 0, 0⟩ held rfl)
  have h := h.step (.dumpMemory (512 : UInt64) (.stored _) (.stored _) ⟨0, 10⟩ rfl)
  have h := h.step (.pushMemory rfl _ ⟨0, 0, 64, 1, 64, 1⟩ held rfl)
  have h := h.step (.control (.stop rfl) (by rintro ⟨⟩) (by simp))
  have h := h.step (.control (.stopMemory rfl) (by simp) (by simp))
  have h := h.step (.control (.clearMemory rfl) (by simp) (by simp))
  exact ⟨_, rfl, ⟨_, rfl⟩, pushes_accounted h⟩

end Pyroscope.Agent
