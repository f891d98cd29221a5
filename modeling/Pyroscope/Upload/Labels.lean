import Pyroscope.Lib.Keyed
import Pyroscope.Upload.Push

/-!
# The labels of a series (session.rs)

One forced label, the tags of the user and five defaults that give way to the tags.
-/

namespace Pyroscope.Upload
open Pyroscope.Lib

/-- What the agent says about a name when the user does not. -/
def agentDefault (config : PyroscopeConfig) (name : String) : Option String :=
  if name = "service_name" then some config.applicationName
  else if name = "otel.scope.name" then some "com.grafana.pyroscope/python"
  else if name = "otel.scope.version" then some config.spyVersion
  else if name = "process.runtime.name" then some config.runtimeName
  else if name = "process.runtime.version" then some config.runtimeVersion
  else none

/-- In the order in which they are pushed. -/
def defaultLabels (config : PyroscopeConfig) : List LabelPair :=
  [⟨"service_name", config.applicationName⟩, ⟨"otel.scope.name", "com.grafana.pyroscope/python"⟩,
    ⟨"otel.scope.version", config.spyVersion⟩, ⟨"process.runtime.name", config.runtimeName⟩,
    ⟨"process.runtime.version", config.runtimeVersion⟩]

/-- The tags in the order of one iteration, without the name that is forced. -/
def tagLabels (ordTags : IterOrder (String × String)) (config : PyroscopeConfig) : List LabelPair :=
  ((ordTags.visit config.tags.toList).filter fun tag => tag.1 ≠ "__name__").map fun tag => ⟨tag.1, tag.2⟩

section Labels
variable (ordTags : IterOrder (String × String)) (config : PyroscopeConfig) (profileType : String)

theorem foldl_tags (tags : List (String × String)) (labels : List LabelPair) :
    tags.foldl (fun labels (k, v) => if k == "__name__" then labels else labels ++ [⟨k, v⟩]) labels =
      labels ++ (tags.filter fun tag => tag.1 ≠ "__name__").map fun tag => ⟨tag.1, tag.2⟩ := by
  induction tags generalizing labels with
  | nil => exact (List.append_nil labels).symm
  | cons tag tags ih =>
    obtain ⟨k, v⟩ := tag
    rw [List.foldl_cons, ih]
    by_cases h : k = "__name__" <;> simp [h]

theorem labelsForProfile_eq :
    labelsForProfile ordTags config profileType =
      (defaultLabels config).foldl (Keyed.pushNew LabelPair.name)
        (⟨"__name__", profileType⟩ :: tagLabels ordTags config) := by
  have htags := foldl_tags (ordTags.visit config.tags.toList) [⟨"__name__", profileType⟩]
  rw [labelsForProfile]
  dsimp only
  rw [htags]
  rfl

/- The keys of a map are distinct in whatever order it is visited. -/
theorem nodup_tagLabels : ((⟨"__name__", profileType⟩ :: tagLabels ordTags config).map LabelPair.name).Nodup := by
  have hvisit : ((ordTags.visit config.tags.toList).map Prod.fst).Nodup :=
    ((ordTags.perm config.tags.toList).map Prod.fst).nodup_iff.mpr (HashMap.nodup_fst config.tags)
  have hnames : (tagLabels ordTags config).map LabelPair.name =
      ((ordTags.visit config.tags.toList).filter fun tag => tag.1 ≠ "__name__").map Prod.fst := by
    rw [tagLabels, List.map_map]
    rfl
  rw [List.map_cons, hnames, List.nodup_cons]
  constructor
  · simp
  · exact hvisit.sublist (List.Sublist.map _ List.filter_sublist)

theorem mem_tagLabels {name : String} (hname : name ≠ "__name__") (value : String) :
    ⟨name, value⟩ ∈ tagLabels ordTags config ↔ config.tags.get name = some value := by
  rw [← HashMap.mem_toList, ← ordTags.mem_visit]
  simp [tagLabels, hname]

/- An entry that is found has the name it is found under. -/
theorem find_label (labels : List LabelPair) (name value : String) :
    Keyed.find LabelPair.name labels name = some ⟨name, value⟩ ↔
      (Keyed.find LabelPair.name labels name).map LabelPair.value = some value := by
  rw [Option.map_eq_some_iff]
  constructor
  · intro hfind
    exact ⟨_, hfind, rfl⟩
  · rintro ⟨⟨n, v⟩, hfind, rfl⟩
    have hn : n = name := by simpa using List.find?_some hfind
    rw [hfind, hn]

theorem find_tagLabels {name : String} (hname : name ≠ "__name__") :
    (Keyed.find LabelPair.name (⟨"__name__", profileType⟩ :: tagLabels ordTags config) name).map LabelPair.value =
      config.tags.get name := by
  have hnodup := (List.nodup_cons.mp (nodup_tagLabels ordTags config profileType)).2
  rw [Keyed.find_cons, if_neg fun h => hname h.symm]
  apply Option.ext
  intro value
  rw [← mem_tagLabels ordTags config hname, Keyed.mem_iff_find _ hnodup]
  exact (find_label (tagLabels ordTags config) name value).symm

theorem find_defaultLabels (name : String) :
    (Keyed.find LabelPair.name (defaultLabels config) name).map LabelPair.value = agentDefault config name := by
  simp only [defaultLabels, Keyed.find_cons, agentDefault, eq_comm (b := name)]
  split_ifs <;> rfl

theorem nodup_labelsForProfile : ((labelsForProfile ordTags config profileType).map LabelPair.name).Nodup := by
  rw [labelsForProfile_eq]
  exact Keyed.nodup_pushAll LabelPair.name (defaultLabels config) (nodup_tagLabels ordTags config profileType)

/-- Labels are a function: the profile type, then what the user says, then what the agent says. -/
theorem labels_for_profile_precedence :
    ((labelsForProfile ordTags config profileType).map LabelPair.name).Nodup ∧
      (labelsForProfile ordTags config profileType).head? = some ⟨"__name__", profileType⟩ ∧
      ∀ name, name ≠ "__name__" → ∀ value, ⟨name, value⟩ ∈ labelsForProfile ordTags config profileType ↔
        (config.tags.get name).or (agentDefault config name) = some value := by
  have hnodup := nodup_labelsForProfile ordTags config profileType
  rw [labelsForProfile_eq] at hnodup ⊢
  refine ⟨hnodup, Keyed.head_pushAll _ _ _ _, fun name hname value => ?_⟩
  have hvalue := find_label ((defaultLabels config).foldl (Keyed.pushNew LabelPair.name)
    (⟨"__name__", profileType⟩ :: tagLabels ordTags config)) name value
  rw [Keyed.mem_iff_find _ hnodup, hvalue, Keyed.find_pushAll, Option.map_or,
    find_tagLabels ordTags config profileType hname, find_defaultLabels]

end Labels

/- No series of an upload carries a label twice. -/
theorem Session.series_labels_nodup (crates : Crates) (chance : Chance) (config : PyroscopeConfig)
    (timeRange : Encode.TimeRange) {k : ℕ} {batch : List ReportBatch} {rows : List RawProfileSeries}
    (h : Session.series crates chance config timeRange k batch = .ok rows) :
    ∀ row ∈ rows, (row.labels.map LabelPair.name).Nodup := by
  induction batch generalizing k rows with
  | nil =>
    cases h
    exact fun row hrow => nomatch hrow
  | cons b batch ih =>
    obtain ⟨profileType, data⟩ := b
    rw [Session.series] at h
    cases hraw : Session.rawProfile crates chance config timeRange k data with
    | error p =>
      rw [hraw] at h
      cases h
    | ok rawProfile =>
      rw [hraw] at h
      cases hrest : Session.series crates chance config timeRange (k + 1) batch with
      | error p =>
        simp only [hrest, bind, Except.bind] at h
        cases h
      | ok rest =>
        simp only [hrest, bind, Except.bind] at h
        cases h
        rw [List.forall_mem_cons]
        exact ⟨nodup_labelsForProfile (chance.ordTags k) config profileType, ih hrest⟩

end Pyroscope.Upload
