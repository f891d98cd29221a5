import Pyroscope.Upload.Delivery

/-!
# From a thread's tags to the labels of a profile (pyspy_backend.rs, ruleset.rs, types.rs)

The sampler thread converts a trace of py-spy, passes it through `add_tag_rules` under
the lock of the rules and records it under the lock of the buffer, while the threads of
the program add and remove tags. Beside each recorded trace stands what it was made of.
-/

namespace Pyroscope.Backend.Pyspy
open Pyroscope.Lib

/-! ### Traces of py-spy -/

/-- `py_spy::Frame`, without what the conversion does not read. -/
structure Frame where
  name : String
  filename : String
  module : Option String
  line : Int32

/-- `py_spy::StackTrace` -/
structure RawTrace where
  pid : Int32
  threadId : UInt64
  threadName : Option String
  frames : List Frame
  active : Bool
  ownsGil : Bool

def Frame.formattedName (frame : Frame) : String :=
  match frame.module with
  | some module => s!"{module}.{frame.name}"
  | none => frame.name

/-- `StackFrameWrapper`; the line is cast to `u32`. -/
def Frame.stackFrame (frame : Frame) : StackFrame :=
  ⟨frame.formattedName, frame.filename, frame.line.toUInt32.toNat⟩

/-- `StackTraceWrapper` -/
def RawTrace.stackTrace (config : BackendConfig) (raw : RawTrace) : StackTrace :=
  StackTrace.new config (some raw.pid.toUInt32.toNat) (some ⟨raw.threadId.toNat⟩) raw.threadName
    (raw.frames.map Frame.stackFrame)

def RawTrace.trace (config : BackendConfig) (raw : RawTrace) : Trace :=
  ⟨raw.active, raw.ownsGil, raw.stackTrace config⟩

end Pyroscope.Backend.Pyspy

namespace Pyroscope.Backend
open Pyroscope.Lib

/-! ### The call of the sampler thread -/

/-- The trace that is passed through `add_tag_rules`. -/
def Caller.sampling : Caller → Option StackTrace
  | .locking (.sample trace) => some trace
  | .visiting trace _ _ _ => some trace
  | _ => none

section Rules
variable {r r' : RulesState} {t : ThreadId} {trace : StackTrace}

end Rules

end Pyroscope.Backend

namespace Pyroscope.Upload.Flush
open Pyroscope.Lib Pyroscope.Backend Pyroscope.Encode

/-! ### The profiler beside the threads that tag -/

/-- The traces of the sample under way. -/
def samplerTraces : Pyspy.Sampler → List Pyspy.Trace
  | .recording traces => traces
  | _ => []

/-- `pending` is the trace that is tagged and not recorded yet, `made` says of each recorded
trace what it was made of. -/
structure Tagging where
  upload : State Pyspy.State (StackTrace → ℕ)
  rules : RulesState
  pending : Option Tagged
  made : List Tagged

section Steps
variable {Id : Type} [DecidableEq Id] (getId : Metadata → Id) (crates : Crates)
  (agentConfig : PyroscopeConfig) (config : Pyspy.Config) (backendConfig : BackendConfig)
  (sampler : ThreadId)

def Tagging.Initial (j : Tagging) : Prop :=
  Flush.Initial (Pyspy.source config getId) j.upload ∧ RulesInitial j.rules ∧ j.pending = none ∧ j.made = []

end Steps

section
variable {Id : Type} [DecidableEq Id] {getId : Metadata → Id} {crates : Crates}
  {agentConfig : PyroscopeConfig} {config : Pyspy.Config} {backendConfig : BackendConfig}
  {sampler : ThreadId}

/-- The trace that the sampler thread has under way. -/
def UnderWay (config : Pyspy.Config) (j : Tagging) (trace : StackTrace) : Prop :=
  ∃ t traces, j.upload.source.sampler = .recording (t :: traces) ∧ config.skips t = false ∧ t.trace = trace

variable (getId crates agentConfig config backendConfig sampler) in
structure Tagging.Inv (j : Tagging) : Prop where
  upload : Reachable (Flush.Initial (Pyspy.source config getId))
    (fun s s' => Step (Pyspy.source config getId) crates agentConfig s s' ∧ AfterEpoch s) j.upload
  rules : Reachable RulesInitial RulesStep j.rules
  raw : ∀ t ∈ samplerTraces j.upload.source.sampler, ∃ raw, t = Pyspy.RawTrace.trace backendConfig raw
  busy : j.rules.pcs sampler ≠ .idle →
    j.pending = none ∧ ∃ trace, (j.rules.pcs sampler).sampling = some trace ∧ UnderWay config j trace
  pending : ∀ e, j.pending = some e → e ∈ j.rules.tagged ∧ UnderWay config j e.trace ∧
    ∃ ord, e.result = e.trace.addTagRules ord j.upload.source.rules
  later : ∀ e, j.pending = some e → ∀ e' ∈ j.made, e'.before <+: e.before
  recorded : j.upload.source.recorded = j.made.map Tagged.result
  made : ∀ e ∈ j.made, e ∈ j.rules.tagged ∧ ∃ raw, e.trace = Pyspy.RawTrace.stackTrace backendConfig raw
  order : j.made.Pairwise fun e e' => e.before <+: e'.before

theorem UnderWay.raw {j : Tagging} (h : j.Inv getId crates agentConfig config backendConfig sampler)
    {trace : StackTrace} (hw : UnderWay config j trace) :
    ∃ raw, trace = Pyspy.RawTrace.stackTrace backendConfig raw := by
  obtain ⟨t, traces, hsampler, -, rfl⟩ := hw
  obtain ⟨raw, rfl⟩ := h.raw t (by rw [hsampler]; exact List.mem_cons_self ..)
  exact ⟨raw, rfl⟩

def Within (recorded : List StackTrace) (b : StackBuffer) : Prop := ∀ e ∈ b.data.toList, e.1 ∈ recorded

theorem Within.grow {recorded recorded' : List StackTrace} {b : StackBuffer} (h : Within recorded b)
    (hr : recorded <+: recorded') : Within recorded' b := fun e he => hr.subset (h e he)

theorem Within.record {recorded : List StackTrace} {b : StackBuffer} (h : Within recorded b) (t : StackTrace) :
    Within (recorded ++ [t]) (b.record t) := by
  rintro ⟨t', n⟩ he
  by_cases ht : t' = t
  · rw [ht]
    exact List.mem_append_right _ (List.mem_singleton_self t)
  · rw [StackBuffer.record, HashMap.mem_toList, HashMap.addCount, HashMap.get_insert_ne _ _ ht] at he
    exact List.mem_append_left _ (h (t', n) ((HashMap.mem_toList _ _ _).mpr he))

end

/-! ### A run with a tag -/

end Pyroscope.Upload.Flush
