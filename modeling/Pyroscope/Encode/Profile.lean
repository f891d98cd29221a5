import Pyroscope.Encode.StringTable

/-!
# The pprof message (encode/gen/google.rs)

Field for field the generated structures. String references are indices into
`stringTable`, function and location references are ids. `Profile.frames` and
`Profile.labels` read a sample back the way a pprof consumer does.
-/

namespace Pyroscope.Encode

structure ValueType where
  type : ℤ
  unit : ℤ
  deriving DecidableEq, Repr

structure Label where
  key : ℤ
  str : ℤ
  num : ℤ
  numUnit : ℤ
  deriving DecidableEq, Repr

structure Sample where
  locationId : List ℕ
  value : List ℤ
  label : List Label
  deriving DecidableEq, Repr

structure Mapping where
  id : ℕ
  memoryStart : ℕ
  memoryLimit : ℕ
  fileOffset : ℕ
  filename : ℤ
  buildId : ℤ
  hasFunctions : Bool
  hasFilenames : Bool
  hasLineNumbers : Bool
  hasInlineFrames : Bool
  deriving DecidableEq, Repr

structure Line where
  functionId : ℕ
  line : ℤ
  deriving DecidableEq, Repr

structure Location where
  id : ℕ
  mappingId : ℕ
  address : ℕ
  line : List Line
  isFolded : Bool
  deriving DecidableEq, Repr

structure Function where
  id : ℕ
  name : ℤ
  systemName : ℤ
  filename : ℤ
  startLine : ℤ
  deriving DecidableEq, Repr

/-- The defaults are those of `prost` (`std::mem::take` leaves them behind). -/
structure Profile where
  sampleType : List ValueType := []
  sample : List Sample := []
  mapping : List Mapping := []
  location : List Location := []
  function : List Function := []
  stringTable : List String := []
  dropFrames : ℤ := 0
  keepFrames : ℤ := 0
  timeNanos : ℤ := 0
  durationNanos : ℤ := 0
  periodType : Option ValueType := none
  period : ℤ := 0
  comment : List ℤ := []
  defaultSampleType : ℤ := 0
  deriving DecidableEq, Repr

namespace Profile

/-- `string_table[index as usize]`. -/
def string (p : Profile) (index : ℤ) : Option String :=
  if 0 ≤ index then p.stringTable[index.toNat]? else none

def findFunction (p : Profile) (id : ℕ) : Option Function := p.function.find? fun f => f.id == id

def findLocation (p : Profile) (id : ℕ) : Option Location := p.location.find? fun l => l.id == id

/-- A resolved line: name reference, file reference, line number. -/
def line (p : Profile) (l : Line) : Option (ℤ × ℤ × ℤ) :=
  (p.findFunction l.functionId).map fun f => (f.name, f.filename, l.line)

def locationLines (p : Profile) (id : ℕ) : Option (List (ℤ × ℤ × ℤ)) :=
  (p.findLocation id).bind fun l => l.line.mapM p.line

/-- location → line → function, over all locations of a sample, in order. -/
def frames (p : Profile) (s : Sample) : Option (List (ℤ × ℤ × ℤ)) :=
  (s.locationId.mapM p.locationLines).map List.flatten

def namedFrames (p : Profile) (s : Sample) : Option (List (String × String × ℤ)) :=
  (p.frames s).bind fun fs => fs.mapM fun f =>
    (p.string f.1).bind fun name => (p.string f.2.1).map fun filename => (name, filename, f.2.2)

def labels (p : Profile) (s : Sample) : Option (List (String × String)) :=
  s.label.mapM fun l => (p.string l.key).bind fun key => (p.string l.str).map fun str => (key, str)

/-- Frames, labels and values of every sample. -/
def decoded (p : Profile) :
    Option (List (List (String × String × ℤ) × List (String × String) × List ℤ)) :=
  p.sample.mapM fun s => (p.namedFrames s).bind fun fs => (p.labels s).map fun ls => (fs, ls, s.value)

def valueTypeIndices (t : ValueType) : List ℤ := [t.type, t.unit]

def stringIndices (p : Profile) : List ℤ :=
  p.sampleType.flatMap valueTypeIndices ++ p.periodType.toList.flatMap valueTypeIndices ++
  p.sample.flatMap (fun s => s.label.flatMap fun l => [l.key, l.str, l.numUnit]) ++
  p.mapping.flatMap (fun m => [m.filename, m.buildId]) ++
  p.function.flatMap (fun f => [f.name, f.systemName, f.filename]) ++
  [p.dropFrames, p.keepFrames, p.defaultSampleType] ++ p.comment

def functionIds (p : Profile) : List ℕ := p.location.flatMap fun l => l.line.map Line.functionId

def locationIds (p : Profile) : List ℕ := p.sample.flatMap Sample.locationId

theorem mapM_of_forall₂ {α β γ : Type} {g : β → Option γ} {f : α → γ} {as : List α} {bs : List β}
    (h : List.Forall₂ (fun a b => g b = some (f a)) as bs) : bs.mapM g = some (as.map f) := by
  induction h with
  | nil => rfl
  | cons hab _ ih =>
    simp only [List.mapM_cons, hab, ih, Option.bind_eq_bind, Option.bind_some, Option.pure_def,
      List.map_cons]

theorem exists_of_forall₂_mem {α β : Type} {R : α → β → Prop} {as : List α} {bs : List β}
    (h : List.Forall₂ R as bs) {b : β} (hb : b ∈ bs) : ∃ a ∈ as, R a b := by
  induction h with
  | nil => cases hb
  | cons hab _ ih =>
    rcases List.mem_cons.mp hb with rfl | hb
    · exact ⟨_, List.mem_cons_self .., hab⟩
    · obtain ⟨a, ha, hr⟩ := ih hb
      exact ⟨a, List.mem_cons_of_mem _ ha, hr⟩

/-- A string reference into a table of `n` strings. -/
def InTable (n : ℕ) (i : ℤ) : Prop := ∃ k : ℕ, i = k ∧ k < n

/-- Each reference used in the profile has exactly one definition in it. -/
structure Closed (p : Profile) : Prop where
  strings : ∀ i ∈ p.stringIndices, InTable p.stringTable.length i
  functions : ∀ id ∈ p.functionIds, (p.function.map Function.id).count id = 1
  locations : ∀ id ∈ p.locationIds, (p.location.map Location.id).count id = 1

/-- The parts that the builders leave at their defaults. -/
structure Plain (p : Profile) : Prop where
  mapping : p.mapping = []
  dropFrames : p.dropFrames = 0
  keepFrames : p.keepFrames = 0
  comment : p.comment = []
  defaultSampleType : p.defaultSampleType = 0

theorem inTable_of_getElem {strings : List String} {k : ℕ} {s : String} (h : strings[k]? = some s) :
    InTable strings.length k := ⟨k, rfl, (List.getElem?_eq_some_iff.mp h).1⟩

/- The references of a plain profile are those of its types, labels and functions. -/
theorem Plain.strings {p : Profile} (h : p.Plain) {n : ℕ} (hn : 0 < n)
    (htypes : ∀ t ∈ p.sampleType ++ p.periodType.toList, InTable n t.type ∧ InTable n t.unit)
    (hlabels : ∀ s ∈ p.sample, ∀ l ∈ s.label, InTable n l.key ∧ InTable n l.str ∧ l.numUnit = 0)
    (hfunctions : ∀ f ∈ p.function, InTable n f.name ∧ f.systemName = 0 ∧ InTable n f.filename) :
    ∀ i ∈ p.stringIndices, InTable n i := by
  intro i hi
  have hzero : InTable n 0 := ⟨0, rfl, hn⟩
  simp only [stringIndices, h.mapping, h.dropFrames, h.keepFrames, h.comment, h.defaultSampleType,
    List.flatMap_nil, List.append_nil, List.mem_append, List.mem_flatMap, valueTypeIndices,
    List.mem_cons, List.not_mem_nil, or_false] at hi
  rcases hi with (((⟨t, ht, hi⟩ | ⟨t, ht, hi⟩) | ⟨s, hs, l, hl, hi⟩) | ⟨f, hf, hi⟩) | hi
  · have hin := htypes t (List.mem_append_left _ ht)
    rcases hi with rfl | rfl
    · exact hin.1
    · exact hin.2
  · have hin := htypes t (List.mem_append_right _ ht)
    rcases hi with rfl | rfl
    · exact hin.1
    · exact hin.2
  · have hin := hlabels s hs l hl
    rcases hi with rfl | rfl | rfl
    · exact hin.1
    · exact hin.2.1
    · rw [hin.2.2]
      exact hzero
  · have hin := hfunctions f hf
    rcases hi with rfl | rfl | rfl
    · exact hin.1
    · rw [hin.2.1]
      exact hzero
    · exact hin.2.2
  · rcases hi with rfl | rfl | rfl <;> exact hzero

theorem string_of_getElem {p : Profile} {n : ℕ} {s : String} (h : p.stringTable[n]? = some s) :
    p.string n = some s := by
  rw [string, if_pos (Int.natCast_nonneg n), Int.toNat_natCast]
  exact h

end Profile

end Pyroscope.Encode
