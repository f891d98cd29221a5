import Pyroscope.Lib.HashMap
import Pyroscope.Lib.BTreeSet
import Mathlib.Data.String.Basic
import Mathlib.Data.Prod.Lex

/-!
# Stack traces, buffers and reports (backend/types.rs)

A `StackBuffer` counts stack traces. Turning it into reports groups the traces by
`Metadata::get_id`, a hash of the metadata; the hash is a parameter here, so that
colliding ones are included. Counts are natural numbers: their additions are assumed
not to overflow.
-/

namespace Pyroscope.Backend
open Pyroscope.Lib

structure Tag where
  key : String
  value : String
  deriving DecidableEq, Repr

/-- The derived order: by key, then by value. -/
def Tag.toPair (t : Tag) : Lex (String × String) := toLex (t.key, t.value)

theorem Tag.toPair_injective : Function.Injective Tag.toPair := by
  intro s t h
  cases s
  cases t
  cases h
  rfl

instance : LinearOrder Tag := LinearOrder.lift' Tag.toPair Tag.toPair_injective

structure ThreadId where
  pthread : ℕ
  deriving DecidableEq, Repr

structure BackendConfig where
  reportThreadId : Bool
  reportThreadName : Bool
  reportPid : Bool
  deriving DecidableEq, Repr

structure Metadata where
  tags : BTreeSet Tag
  deriving DecidableEq

def Metadata.default : Metadata := ⟨BTreeSet.empty⟩

def Metadata.addTag (m : Metadata) (tag : Tag) : Metadata := ⟨m.tags.insert tag⟩

structure StackFrame where
  name : String
  filename : String
  line : ℕ
  deriving DecidableEq, Repr

structure StackTrace where
  pid : Option ℕ
  threadId : Option ThreadId
  threadName : Option String
  frames : List StackFrame
  metadata : Metadata
  deriving DecidableEq

/-- A tag for the value, if the configuration asks for it and there is one. -/
def Metadata.addIf (m : Metadata) (enabled : Bool) (key : String) (value : Option String) :
    Metadata :=
  match enabled, value with
  | true, some v => m.addTag ⟨key, v⟩
  | _, _ => m

def StackTrace.new (config : BackendConfig) (pid : Option ℕ) (threadId : Option ThreadId)
    (threadName : Option String) (frames : List StackFrame) : StackTrace :=
  let metadata := Metadata.default
  let metadata := metadata.addIf config.reportPid "pid" (pid.map toString)
  let metadata := metadata.addIf config.reportThreadId "thread_id"
    (threadId.map fun t => toString t.pthread)
  let metadata := metadata.addIf config.reportThreadName "thread_name" threadName
  ⟨pid, threadId, threadName, frames, metadata⟩

structure StackBuffer where
  data : HashMap StackTrace ℕ

namespace StackBuffer

def default : StackBuffer := ⟨HashMap.empty⟩

def record (b : StackBuffer) (stackTrace : StackTrace) : StackBuffer :=
  ⟨b.data.addCount stackTrace 1⟩

def recordWithCount (b : StackBuffer) (stackTrace : StackTrace) (count : ℕ) : StackBuffer :=
  ⟨b.data.addCount stackTrace count⟩

def total (b : StackBuffer) : ℕ := b.data.total

@[simp] theorem total_default : default.total = 0 := rfl

@[simp] theorem total_record (b : StackBuffer) (stackTrace : StackTrace) :
    (b.record stackTrace).total = b.total + 1 := HashMap.total_addCount ..

@[simp] theorem total_recordWithCount (b : StackBuffer) (stackTrace : StackTrace) (count : ℕ) :
    (b.recordWithCount stackTrace count).total = b.total + count := HashMap.total_addCount ..

def count (b : StackBuffer) (stackTrace : StackTrace) : ℕ := b.data.count stackTrace

@[simp] theorem count_default (t : StackTrace) : default.count t = 0 := HashMap.count_empty t

theorem count_record (b : StackBuffer) (stackTrace t : StackTrace) :
    (b.record stackTrace).count t = b.count t + if stackTrace = t then 1 else 0 :=
  HashMap.count_addCount ..

theorem count_recordWithCount (b : StackBuffer) (stackTrace t : StackTrace) (n : ℕ) :
    (b.recordWithCount stackTrace n).count t = b.count t + if stackTrace = t then n else 0 :=
  HashMap.count_addCount ..

end StackBuffer

structure Report where
  data : HashMap StackTrace ℕ
  metadata : Metadata

namespace Report

def new (data : HashMap StackTrace ℕ) : Report := ⟨data, Metadata.default⟩

def withMetadata (r : Report) (metadata : Metadata) : Report := ⟨r.data, metadata⟩

def recordWithCount (r : Report) (stackTrace : StackTrace) (count : ℕ) : Report :=
  { r with data := r.data.addCount stackTrace count }

end Report

section Grouping
variable {Id : Type} [DecidableEq Id]

/-- One iteration of the fold in `From<StackBuffer> for Vec<Report>`. -/
def groupOne (getId : Metadata → Id) (acc : HashMap Id Report) (e : StackTrace × ℕ) :
    HashMap Id Report :=
  match acc.get (getId e.1.metadata) with
  | some report => acc.insert (getId e.1.metadata) (report.recordWithCount e.1 e.2)
  | none =>
    let report := (Report.new HashMap.empty).withMetadata e.1.metadata
    acc.insert (getId e.1.metadata) (report.recordWithCount e.1 e.2)

/-- `From<StackBuffer> for Vec<Report>`, with the iteration orders of the two maps. -/
def reportsOfBuffer (getId : Metadata → Id) (ordBuffer : IterOrder (StackTrace × ℕ))
    (ordReports : IterOrder (Id × Report)) (b : StackBuffer) : List Report :=
  let acc := (ordBuffer.visit b.data.toList).foldl (groupOne getId) HashMap.empty
  (ordReports.visit acc.toList).map Prod.snd

/-- The traces of a list of reports, report by report. -/
def reportEntries (ordData : IterOrder (StackTrace × ℕ)) (reports : List Report) :
    List (StackTrace × ℕ) := reports.flatMap fun r => ordData.visit r.data.toList

/-- The traces held by a map of reports. -/
def grouped (acc : HashMap Id Report) : List (StackTrace × ℕ) :=
  acc.toList.flatMap fun e => e.2.data.toList

/- Recording a trace that no report holds adds that one entry, whether or not its
identifier is already taken by other metadata. -/
theorem grouped_groupOne (getId : Metadata → Id) (acc : HashMap Id Report) (e : StackTrace × ℕ)
    (hnew : e.1 ∉ (grouped acc).map Prod.fst) :
    (grouped (groupOne getId acc e)).Perm (e :: grouped acc) := by
  cases hget : acc.get (getId e.1.metadata) with
  | none =>
    have hins : groupOne getId acc e = acc.insert (getId e.1.metadata)
        (((Report.new HashMap.empty).withMetadata e.1.metadata).recordWithCount e.1 e.2) := by
      simp only [groupOne, hget]
    rw [hins, grouped, HashMap.toList_insert_new acc _ _ hget, List.flatMap_cons]
    have hdata : (((Report.new HashMap.empty).withMetadata e.1.metadata).recordWithCount
        e.1 e.2).data.toList = [e] :=
      HashMap.toList_addCount_new HashMap.empty e.1 e.2 (HashMap.get_empty e.1)
    rw [hdata]
    exact List.Perm.refl _
  | some report =>
    obtain ⟨rest, hacc, hins⟩ := HashMap.toList_insert_present acc (getId e.1.metadata) report
      (report.recordWithCount e.1 e.2) hget
    have hstep : groupOne getId acc e = acc.insert (getId e.1.metadata)
        (report.recordWithCount e.1 e.2) := by
      simp only [groupOne, hget]
    have hold : (grouped acc).Perm (report.data.toList ++ rest.flatMap fun r => r.2.data.toList) := by
      have hp := hacc.flatMap_right fun r => r.2.data.toList
      rwa [List.flatMap_cons] at hp
    have hfresh : report.data.get e.1 = none := by
      cases hr : report.data.get e.1 with
      | none => rfl
      | some c =>
        have hm : (e.1, c) ∈ report.data.toList := (HashMap.mem_toList _ _ _).mpr hr
        have hg : (e.1, c) ∈ grouped acc := hold.mem_iff.mpr (List.mem_append_left _ hm)
        exact (hnew (List.mem_map.mpr ⟨_, hg, rfl⟩)).elim
    have hdata : (report.recordWithCount e.1 e.2).data.toList = e :: report.data.toList :=
      HashMap.toList_addCount_new report.data e.1 e.2 hfresh
    have hnewp : (grouped (groupOne getId acc e)).Perm
        ((e :: report.data.toList) ++ rest.flatMap fun r => r.2.data.toList) := by
      have hp := hins.flatMap_right fun r => r.2.data.toList
      rw [hstep]
      rwa [List.flatMap_cons, hdata] at hp
    exact hnewp.trans (hold.symm.cons e)

theorem grouped_foldl (getId : Metadata → Id) (es : List (StackTrace × ℕ)) (acc : HashMap Id Report)
    (hn : ((grouped acc ++ es).map Prod.fst).Nodup) :
    (grouped (es.foldl (groupOne getId) acc)).Perm (grouped acc ++ es) := by
  induction es generalizing acc with
  | nil => simp
  | cons e es ih =>
    have hswap : (grouped acc ++ e :: es).Perm ((e :: grouped acc) ++ es) := List.perm_middle
    have hn' := (hswap.map Prod.fst).nodup_iff.mp hn
    have hnew : e.1 ∉ (grouped acc).map Prod.fst := by
      intro hm
      rw [List.cons_append, List.map_cons, List.nodup_cons, List.map_append] at hn'
      exact hn'.1 (List.mem_append_left _ hm)
    have hone := grouped_groupOne getId acc e hnew
    have hrest := ih (groupOne getId acc e)
      (((hone.append_right es).map Prod.fst).nodup_iff.mpr hn')
    exact hrest.trans ((hone.append_right es).trans hswap.symm)

/- Grouping loses, merges and duplicates no entry of the buffer. -/
theorem reportEntries_perm (getId : Metadata → Id) (ordBuffer ordData : IterOrder (StackTrace × ℕ))
    (ordReports : IterOrder (Id × Report)) (b : StackBuffer) :
    (reportEntries ordData (reportsOfBuffer getId ordBuffer ordReports b)).Perm b.data.toList := by
  have hvisit := ordBuffer.perm b.data.toList
  have hn : ((ordBuffer.visit b.data.toList).map Prod.fst).Nodup :=
    (hvisit.map Prod.fst).nodup_iff.mpr b.data.nodup_fst
  have hfold := grouped_foldl getId (ordBuffer.visit b.data.toList) HashMap.empty hn
  have hdata : ∀ rs : List (Id × Report),
      (reportEntries ordData (rs.map Prod.snd)).Perm (rs.flatMap fun r => r.2.data.toList) := by
    intro rs
    induction rs with
    | nil => exact List.Perm.refl _
    | cons r rs ih => exact (ordData.perm r.2.data.toList).append ih
  refine (hdata _).trans ?_
  exact ((ordReports.perm _).flatMap_right _).trans (hfold.trans hvisit)

end Grouping

end Pyroscope.Backend
