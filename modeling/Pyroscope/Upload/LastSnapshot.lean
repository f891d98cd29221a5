import Pyroscope.Backend.Pyspy
import Pyroscope.Signal.Backlog

/-!
# What the last snapshot hands over

`stop` has the snapshot thread take one more report and only then stops the profiler.
With py-spy everything recorded before `stop` is in the buffer of that report. With
signals a record can still be in `RECORDS`, or in the hands of the sampler thread.
-/

namespace Pyroscope.Upload.Flush
open Pyroscope.Lib Pyroscope.Backend Pyroscope.Encode Pyroscope.Signal

variable {σ κ : Type}

/-- The sessions sent to the SessionManager show at least so many of each stack. -/
def HandsOver (crates : Crates) (s : State σ κ) (need : StackTrace → ℕ) : Prop :=
  ∃ handed, List.Forall₂ (Hands crates) s.agent.sent handed ∧
    ∀ t, need t ≤ (handed.map (·.count t)).sum

/-- Every stack in the buffer when `stop` was called is handed over with its count. -/
def PyspyKept (crates : Crates) (s : State Pyspy.State (StackTrace → ℕ)) : Prop :=
  ∃ c, s.captured = some c ∧ HandsOver crates s c

/-- Every record captured when `stop` was called has become a stack or a counted failure,
and these and the drops counted by then are handed over. -/
def SignalKept {ι : Type} (config : BackendConfig) (pid : ℕ) (crates : Crates)
    (s : State (Backlog.State ι) Backlog.Captured) : Prop :=
  ∃ c, s.captured = some c ∧ (∀ k ∈ c.records, k ∈ s.source.fates.settled.map Prod.fst) ∧
    HandsOver crates s fun t =>
      s.source.fates.shownOf c.records t + c.lost.shown config pid Reason.all t

/-! ### The conditions -/

/-- The stop watch was not started before 1970. -/
def AfterEpoch (s : State σ κ) : Prop := s.stage = .lapping → 0 ≤ s.watch

/-- The report fits a profile: distinct strings have numbers, values are `i64`. -/
def ReportFits (sampleRate : UInt32) (s : State σ κ) : Prop :=
  ∀ timeRange others b, s.stage = .reported timeRange others b → 0 < sampleRate.toNat ∧
    ("" :: "cpu" :: "nanoseconds" :: entryRequests b.data.toList).toFinset.card < u32Max ∧
    ∀ e ∈ b.data.toList, (e.2 : ℤ) * (1000000000 / (sampleRate.toNat : ℤ)) ≤ i64Max

/-- When the last report takes the buffer, the sampler thread has recorded every record
that was captured when `stop` was called. -/
def Drained {ι : Type} (s s' : State (Backlog.State ι) Backlog.Captured) : Prop :=
  Takes s s' → isFinal s.agent.snapshot = true →
    ∀ c, s.captured = some c → ∀ k ∈ c.records, k ∈ s.source.fates.settled.map Prod.fst

namespace Drained
variable {ι : Type} {s s' : State (Backlog.State ι) Backlog.Captured}

theorem of_taken (h : s.stage.taken = true) : Drained s s' := fun ht => by
  rw [ht.1] at h
  cases h

theorem of_untaken (h : s'.stage.taken = false) : Drained s s' := fun ht => by
  rw [ht.2] at h
  cases h

end Drained

section
variable {Id : Type} [DecidableEq Id] (getId : Metadata → Id) (crates : Crates)
  (agentConfig : PyroscopeConfig)

theorem pyspy_kept (config : Pyspy.Config) {s : State Pyspy.State (StackTrace → ℕ)}
    (h : Reachable (Initial (Pyspy.source config getId)) (fun s s' =>
      Step (Pyspy.source config getId) crates agentConfig s s' ∧ AfterEpoch s) s)
    (hdone : s.agent.stopper = .done) : PyspyKept crates s := by
  have hsound : Reachable (Initial (Pyspy.source config getId))
      (SoundStep crates
        (Pyspy.ledger config getId agentConfig.sampleRate)) s :=
    h.mono fun s s' hs => ⟨hs.1, hs.2, fun _ _ _ _ => trivial, fun _ _ _ _ => trivial⟩
  obtain ⟨c, hc, -, hhands, hneed⟩ := handed_of_done _ hsound hdone
  exact ⟨c, hc, _, hhands, hneed⟩

theorem signal_kept {ι : Type} [DecidableEq ι] (config : BackendConfig) (pid : ℕ) (counter : Ring.Usize)
    {s : State (Backlog.State ι) Backlog.Captured}
    (h : Reachable (Initial (Backlog.source config pid getId counter agentConfig.sampleRate))
      (fun s s' => Step (Backlog.source config pid getId counter agentConfig.sampleRate) crates
        agentConfig s s' ∧ AfterEpoch s ∧ ReportFits agentConfig.sampleRate s ∧ Drained s s') s)
    (hdone : s.agent.stopper = .done) : SignalKept config pid crates s := by
  have hsound : Reachable (Initial (Backlog.source config pid getId counter agentConfig.sampleRate))
      (SoundStep crates
        (Backlog.ledger getId counter agentConfig.sampleRate)) s :=
    h.mono fun s s' hs => ⟨hs.1, hs.2.1, hs.2.2.1, hs.2.2.2⟩
  obtain ⟨c, hc, hwhole, hhands, hneed⟩ := handed_of_done _ hsound hdone
  exact ⟨c, hc, hwhole, _, hhands, hneed⟩

end

/-- For py-spy nothing but the clock can keep a stack from being handed over; for signals
the reports have to fit and the last one has to find the records drained. -/
theorem captured_handed_over {Id : Type} [DecidableEq Id] (getId : Metadata → Id) (crates : Crates)
    (agentConfig : PyroscopeConfig) :
    (∀ (config : Pyspy.Config) (s : State Pyspy.State (StackTrace → ℕ)),
      Reachable (Initial (Pyspy.source config getId)) (fun s s' =>
        Step (Pyspy.source config getId) crates agentConfig s s' ∧ AfterEpoch s) s →
      s.agent.stopper = .done → PyspyKept crates s) ∧
    ∀ (ι : Type) [DecidableEq ι] (config : BackendConfig) (pid : ℕ) (counter : Ring.Usize)
      (s : State (Backlog.State ι) Backlog.Captured),
      Reachable (Initial (Backlog.source config pid getId counter agentConfig.sampleRate))
        (fun s s' => Step (Backlog.source config pid getId counter agentConfig.sampleRate) crates
          agentConfig s s' ∧ AfterEpoch s ∧ ReportFits agentConfig.sampleRate s ∧ Drained s s') s →
      s.agent.stopper = .done → SignalKept config pid crates s :=
  ⟨fun config _ h hdone => pyspy_kept getId crates agentConfig config h hdone,
    fun _ _ config pid counter _ h hdone =>
      signal_kept getId crates agentConfig config pid counter h hdone⟩

/-! ### Runs that meet the conditions -/

def agentConfig : PyroscopeConfig := .new "http://localhost:4040" "app" 100 "pyroscope-python" "0"

def backendConfig : BackendConfig := ⟨false, false, false⟩

def pyspySource : Source Pyspy.State (StackTrace → ℕ) :=
  Pyspy.source ⟨false, false⟩ fun _ => (0 : ℕ)

def signalSource : Source (Backlog.State Unit) Backlog.Captured :=
  Backlog.source backendConfig 1 (fun _ => (0 : ℕ)) 0 agentConfig.sampleRate

def pyspyStarted : State Pyspy.State (StackTrace → ℕ) :=
  ⟨Shutdown.State.initial, .idle, 0, true,
    ⟨.starting, .new, .default, none, []⟩, none, []⟩

def started : State (Backlog.State Unit) Backlog.Captured :=
  ⟨Shutdown.State.initial, .idle, 0, true,
    ⟨⟨Ring.RingBuffer.start 0 fun _ => none, Metrics.zero, fun _ => .idle, .sleeping, fun _ => .idle,
      .default, false, 0, [], [], []⟩, false, fun _ => none, ∅, Metrics.zero, ⟨[], [], ∅⟩⟩, none, []⟩

def oneStack : StackBuffer := StackBuffer.default.record (sampleTrace "f" [])

def oneStackReports : List Report :=
  reportsOfBuffer (fun _ => (0 : ℕ)) (IterOrder.stored _) (IterOrder.stored _) oneStack

def oneStackSession : Session :=
  ⟨agentConfig, [⟨"process_cpu", .reports oneStackReports⟩], ⟨0, 0⟩⟩

/- One stack recorded by py-spy before `stop`, and sent in the last snapshot. -/
theorem pyspy_run : ∃ s, Reachable (Initial pyspySource)
    (fun s s' => Step pyspySource splitCrates agentConfig s s' ∧ AfterEpoch s) s ∧
      s.agent.stopper = .done ∧ s.agent.sent = [oneStackSession] ∧ s.handed = [oneStack] := by
  have h : Reachable (Initial pyspySource)
      (fun s s' => Step pyspySource splitCrates agentConfig s s' ∧ AfterEpoch s) pyspyStarted :=
    .init ⟨_, _, ⟨rfl, rfl, rfl, rfl⟩, rfl⟩
  have h := h.step ⟨.runs (.samplerNew rfl), nofun⟩
  have h := h.step ⟨.runs (.sample [⟨true, true, sampleTrace "f" []⟩] rfl rfl), nofun⟩
  have h := h.step ⟨.runs (.record (IterOrder.stored _) rfl rfl), nofun⟩
  have h := h.step ⟨.stop rfl, nofun⟩
  have h := h.step ⟨.wakes rfl rfl, nofun⟩
  have h := h.step ⟨.lap 0 rfl le_rfl, fun _ => le_rfl⟩
  have h := h.step ⟨.dump [] rfl, nofun⟩
  have h := h.step ⟨.take rfl rfl, nofun⟩
  have h := h.step ⟨.finish rfl ⟨rfl, rfl⟩, nofun⟩
  have h := h.step ⟨.session rfl ⟨IterOrder.stored _, IterOrder.stored _, rfl⟩ rfl nofun, nofun⟩
  have h := h.step ⟨.send rfl rfl nofun rfl, nofun⟩
  have h := h.step ⟨.joinSnapshot rfl rfl, nofun⟩
  have h := h.step ⟨.clearRunning rfl, nofun⟩
  have h := h.step ⟨.runs (.nextSample rfl), nofun⟩
  have h := h.step ⟨.runs (.samplerEnds rfl), nofun⟩
  have h := h.step ⟨.joinSampler rfl rfl rfl, nofun⟩
  have h := h.step ⟨.kill rfl (.sendKill rfl nofun rfl), nofun⟩
  have h := h.step ⟨.manager (.recvSession rfl rfl), nofun⟩
  have h := h.step ⟨.manager (.pushReturns rfl), nofun⟩
  have h := h.step ⟨.manager (.recvKill rfl rfl), nofun⟩
  have h := h.step ⟨.joinManager rfl (.joinManager rfl rfl), nofun⟩
  exact ⟨_, h, rfl, rfl, rfl⟩

/-- The snapshot neither takes a lap nor encodes a report. -/
def Stage.isQuiet : Stage → Bool
  | .lapping => false
  | .reported .. => false
  | _ => true

theorem quiet_afterEpoch {s : State σ κ} (hquiet : s.stage.isQuiet = true) : AfterEpoch s := by
  intro hlap
  rw [hlap] at hquiet
  cases hquiet

theorem quiet_reportFits {s : State σ κ} (sampleRate : UInt32) (hquiet : s.stage.isQuiet = true) :
    ReportFits sampleRate s := by
  intro timeRange others b hreport
  rw [hreport] at hquiet
  cases hquiet

theorem quiet_step {s s' : State (Backlog.State Unit) Backlog.Captured}
    (hs : Step signalSource splitCrates agentConfig s s') (hquiet : s.stage.isQuiet = true)
    (huntaken : s'.stage.taken = false) :
    Step signalSource splitCrates agentConfig s s' ∧ AfterEpoch s ∧
      ReportFits agentConfig.sampleRate s ∧ Drained s s' :=
  ⟨hs, quiet_afterEpoch hquiet, quiet_reportFits _ hquiet, .of_untaken huntaken⟩

def popBuffer : List Frame := List.replicate maxFrames ⟨0, 0⟩

theorem popBuffer_length : popBuffer.length = maxFrames := List.length_replicate

def oneTick : StackBuffer :=
  StackBuffer.default.record (toStackTrace [⟨"f", "app.py", 7⟩] backendConfig 1)

theorem oneTick_room : ("" :: "cpu" :: "nanoseconds" :: entryRequests oneTick.data.toList).toFinset.card < u32Max := by
  decide

theorem oneTick_values : ∀ e ∈ oneTick.data.toList,
    (e.2 : ℤ) * (1000000000 / (agentConfig.sampleRate.toNat : ℤ)) ≤ i64Max := by
  decide

theorem oneTick_payload : ∃ p, Backlog.payload (fun _ => (0 : ℕ)) agentConfig.sampleRate ⟨0, 0⟩
    oneTick (.ok (.pprof (some p))) := by
  obtain ⟨p, hp, -⟩ := (encode_outcome (IterOrder.stored _) (IterOrder.stored _)
    (reportsOfBuffer (fun _ => (0 : ℕ)) (IterOrder.stored _) (IterOrder.stored _) oneTick)
    agentConfig.sampleRate ⟨0, 0⟩ (by decide)).ok (room_of_perm (reportEntries_perm ..) oneTick_room)
  refine ⟨p, ?_⟩
  rw [Backlog.payload, if_neg nofun]
  exact ⟨_, _, _, _, by rw [hp]; rfl⟩

def oneTickSession (p : Profile) : Session :=
  ⟨agentConfig, [⟨"process_cpu", .rawPprof (splitCrates.encodeProfile p)⟩], ⟨0, 0⟩⟩

/- One tick, whose record is drained before `stop` and sent in the last snapshot. -/
theorem signal_run : ∃ s p, Reachable (Initial signalSource)
    (fun s s' => Step signalSource splitCrates agentConfig s s' ∧ AfterEpoch s ∧
      ReportFits agentConfig.sampleRate s ∧ Drained s s') s ∧
      s.agent.stopper = .done ∧ s.captured.map (·.records) = some {0} ∧
      s.agent.sent = [oneTickSession p] ∧ s.handed = [oneTick] := by
  obtain ⟨p, hpayload⟩ := oneTick_payload
  have h : Reachable (Initial signalSource)
      (fun s s' => Step signalSource splitCrates agentConfig s s' ∧ AfterEpoch s ∧
        ReportFits agentConfig.sampleRate s ∧ Drained s s') started :=
    .init ⟨_, _, ⟨⟨_, rfl⟩, rfl, fun _ => rfl, rfl, rfl, rfl⟩, rfl⟩
  -- the tick, and the handler
  have h := h.step (quiet_step (.runs (.handler () (.tick [⟨0x300, 5⟩] (by decide)))) rfl rfl)
  have h := h.step (quiet_step (.runs (.handler () (.producer rfl))) rfl rfl)
  have h := h.step (quiet_step (.runs (.handler () .loadHead)) rfl rfl)
  have h := h.step (quiet_step (.runs (.handler () .loadTail)) rfl rfl)
  have h := h.step (quiet_step (.runs (.handler () (.pushFits rfl))) rfl rfl)
  have h := h.step (quiet_step (.runs (.handler () (.writeValue rfl))) rfl rfl)
  have h := h.step (quiet_step (.runs (.handler () .writeLen)) rfl rfl)
  have h := h.step (quiet_step (.runs (.handler () .publish)) rfl rfl)
  have h := h.step (quiet_step (.runs (.handler () .drop)) rfl rfl)
  have h := h.step (quiet_step (.runs (.handler () .return)) rfl rfl)
  simp only [started, Ring.logged, Function.update_self, Function.update_idem] at h
  -- a drain
  have h := h.step (quiet_step (.runs (.enterLoop rfl rfl)) rfl rfl)
  have h := h.step (quiet_step (.runs (.sampler (.consumer rfl) (fun _ => rfl) (by simp))) rfl rfl)
  have h := h.step (quiet_step (.runs (.sampler .loadHead (by simp) (by simp))) rfl rfl)
  have h := h.step (quiet_step (.runs (.sampler .loadTail (by simp) (by simp))) rfl rfl)
  have h := h.step (quiet_step (.runs (.sampler
    (.popReady popBuffer popBuffer_length (by decide) (by decide)) (by simp) (by simp))) rfl rfl)
  have h := h.step (quiet_step (.runs (.sampler
    (.readLen rfl (by rw [popBuffer_length]; decide)) (by simp) (by simp))) rfl rfl)
  have h := h.step (quiet_step (.runs (.sampler (.readValue (by decide) rfl) (by simp) (by simp))) rfl rfl)
  have h := h.step (quiet_step (.runs (.sampler .store (by simp) (by simp))) rfl rfl)
  have h := h.step (quiet_step (.runs (.sampler (.resolved [⟨"f", "app.py", 7⟩]) (by simp) (by simp))) rfl rfl)
  simp only [Ring.logged] at h
  have h := h.step (quiet_step (.runs (.sampler
    (.popRefresh popBuffer popBuffer_length (by decide) rfl) (by simp) (by simp))) rfl rfl)
  have h := h.step (quiet_step (.runs (.sampler (.refreshEmpty rfl) (by simp) (by simp))) rfl rfl)
  have h := h.step (quiet_step (.runs (.sampler .drop (by simp) (by simp))) rfl rfl)
  have h := h.step (quiet_step (.runs (.sampler .lock (by simp) (by simp))) rfl rfl)
  have h := h.step (quiet_step (.runs (.sampler .record (by simp) (by simp))) rfl rfl)
  have h := h.step (quiet_step (.runs (.sampler .unlock (by simp) (by simp))) rfl rfl)
  simp only [Ring.logged] at h
  -- the report
  have h := h.step (quiet_step (.stop rfl) rfl rfl)
  have h := h.step (quiet_step (.wakes rfl rfl) rfl rfl)
  have h := h.step ⟨.lap 0 rfl le_rfl, fun _ => le_rfl, fun _ _ _ hst => (by cases hst), .of_untaken rfl⟩
  have h := h.step (quiet_step (.dump [] rfl) rfl rfl)
  have h := h.step (quiet_step (.lock rfl ⟨rfl, _, _, _, _, .lock, rfl⟩) rfl rfl)
  have h := h.step ⟨.take rfl ⟨rfl, _, _, _, _, .take, rfl⟩, fun hst => (by cases hst),
    fun _ _ _ hst => (by cases hst), by
      rintro - - c hc k hk
      cases hc
      revert k
      decide⟩
  simp only [Reason.all] at h
  -- one swap for each counter
  iterate 8 replace h := h.step ⟨.swap rfl ⟨⟨_, _, _, rfl⟩, _, _, _, _, .swap, rfl⟩,
    fun hst => (by cases hst), fun _ _ _ hst => (by cases hst), .of_taken rfl⟩
  have h := h.step (quiet_step (.finish rfl ⟨_, _, _, _, .finish, rfl⟩) rfl rfl)
  simp only [Metrics.clear, Metrics.zero, Function.update_apply, ite_self,
    List.nil_append, List.cons_append, recordDroppedStacks, if_true] at h
  have h := h.step ⟨.session rfl hpayload rfl (by simp [batch, Payload.isEmpty]),
    fun hst => (by cases hst), by
      rintro timeRange others b hb
      cases hb
      exact ⟨by decide, oneTick_room, oneTick_values⟩, .of_untaken rfl⟩
  have h := h.step (quiet_step (.send rfl rfl (by rintro ⟨⟩) rfl) rfl rfl)
  have h := h.step (quiet_step (.joinSnapshot rfl rfl) rfl rfl)
  have h := h.step (quiet_step (.clearRunning rfl) rfl rfl)
  have h := h.step (quiet_step (.runs (.leaveLoop rfl rfl rfl)) rfl rfl)
  have h := h.step (quiet_step (.joinSampler rfl rfl rfl) rfl rfl)
  have h := h.step (quiet_step (.kill rfl (.sendKill rfl (by rintro ⟨⟩) rfl)) rfl rfl)
  have h := h.step (quiet_step (.manager (.recvSession rfl rfl)) rfl rfl)
  have h := h.step (quiet_step (.manager (.pushReturns rfl)) rfl rfl)
  have h := h.step (quiet_step (.manager (.recvKill rfl rfl)) rfl rfl)
  have h := h.step (quiet_step (.joinManager rfl (.joinManager rfl rfl)) rfl rfl)
  exact ⟨_, p, h, rfl, rfl, rfl, rfl⟩

theorem captured_handed_over_runs :
    (∃ s : State Pyspy.State (StackTrace → ℕ), s.agent.sent = [oneStackSession] ∧
      PyspyKept splitCrates s) ∧
    ∃ s : State (Backlog.State Unit) Backlog.Captured,
      s.captured.map (·.records) = some {0} ∧ SignalKept backendConfig 1 splitCrates s := by
  obtain ⟨s, hs, hdone, hsent, -⟩ := pyspy_run
  obtain ⟨s', p, hs', hdone', hrecords, -⟩ := signal_run
  exact ⟨⟨s, hsent, (captured_handed_over _ _ _).1 _ s hs hdone⟩,
    ⟨s', hrecords, (captured_handed_over _ _ _).2 _ _ _ _ s' hs' hdone'⟩⟩

/-! ### A record that nobody waits for -/

def frame : Frame := ⟨16, 0⟩

/-- Past the last snapshot: a record at the head of `RECORDS`, the sampler thread asleep. -/
def snapshotTaken (slots : ℕ → Option (Ring.Slot Frame)) (metrics lost : Metrics)
    (handlers : Unit → Handler) (reporters : Unit → Reporter) (reports : List StackBuffer)
    (tickets : Unit → Option ℕ) (captured : Backlog.Captured) :
    State (Backlog.State Unit) Backlog.Captured :=
  ⟨⟨true, .empty, .exited, .receiving, .joined, [], [], []⟩, .idle, 0, false,
    ⟨⟨⟨slots, Ring.advance 0 1, 0, false, false⟩, metrics, handlers, .sleeping, reporters, .default,
      false, 1, [[frame]], [], reports⟩, true, tickets, {0}, lost, ⟨[], [], ∅⟩⟩, some captured, []⟩

/- The sampler thread goes to sleep, a handler run publishes a record and returns, and
`stop` has the last snapshot taken of an empty buffer. -/
theorem snapshotTaken_reachable : ∃ slots metrics lost handlers reporters reports tickets captured,
    slots 0 = some (.len 1) ∧ slots 1 = some (.value frame) ∧ captured.records = {0} ∧
    Reachable (Initial signalSource) (Step signalSource splitCrates agentConfig)
      (snapshotTaken slots metrics lost handlers reporters reports tickets captured) := by
  have h : Reachable (Initial signalSource) (Step signalSource splitCrates agentConfig) started :=
    .init ⟨_, _, ⟨⟨_, rfl⟩, rfl, fun _ => rfl, rfl, rfl, rfl⟩, rfl⟩
  have h := h.step (.runs (.enterLoop rfl rfl))
  have h := h.step (.runs (.handler () (.tick [frame] (by decide))))
  have h := h.step (.runs (.handler () (.producer rfl)))
  have h := h.step (.runs (.handler () .loadHead))
  have h := h.step (.runs (.handler () .loadTail))
  have h := h.step (.runs (.handler () (.pushFits (by decide))))
  have h := h.step (.runs (.handler () (.writeValue rfl)))
  have h := h.step (.runs (.handler () .writeLen))
  have h := h.step (.runs (.handler () .publish))
  have h := h.step (.runs (.handler () .drop))
  have h := h.step (.runs (.handler () .return))
  have h := h.step (.stop rfl)
  have h := h.step (.wakes rfl rfl)
  have h := h.step (.lap 0 rfl le_rfl)
  have h := h.step (.dump [] rfl)
  have h := h.step (.lock rfl ⟨rfl, _, _, _, _, .lock, rfl⟩)
  have h := h.step (.take rfl ⟨rfl, _, _, _, _, .take, rfl⟩)
  -- one swap for each counter
  iterate 8 replace h := h.step (.swap rfl ⟨⟨_, _, _, rfl⟩, _, _, _, _, .swap, rfl⟩)
  have h := h.step (.finish rfl ⟨_, _, _, _, .finish, rfl⟩)
  have h := h.step (.empty rfl rfl rfl rfl)
  have h := h.step (.joinSnapshot rfl rfl)
  have h := h.step (.clearRunning rfl)
  exact ⟨_, _, _, _, _, _, _, _, rfl, rfl, rfl, h⟩

/- The sampler thread wakes up and puts the record in a buffer that no report takes. -/
theorem late_record : ∃ s,
    Reachable (Initial signalSource) (Step signalSource splitCrates agentConfig) s ∧
    s.agent.stopper = .done ∧ s.captured.map (·.records) = some {0} ∧ s.agent.sent = [] := by
  obtain ⟨slots, metrics, lost, handlers, reporters, reports, tickets, captured, hlen, hvalue,
    hrecords, h⟩ := snapshotTaken_reachable
  rw [snapshotTaken] at h
  have hbuf : (List.replicate maxFrames frame).length = maxFrames := List.length_replicate
  have hfits : 1 ≤ (List.replicate maxFrames frame).length := by
    rw [hbuf]
    decide
  have hlen : ∀ head tail p c, (⟨slots, head, tail, p, c⟩ : Ring.RingBuffer Frame).slot recordSlots 0 =
      some (.len 1) := fun _ _ _ _ => hlen
  have hvalue : ∀ head tail p c, (⟨slots, head, tail, p, c⟩ : Ring.RingBuffer Frame).slot recordSlots
      (Ring.advance 0 0) = some (.value frame) := fun _ _ _ _ => hvalue
  have hready : (0 : Ring.Usize) ≠ Ring.advance 0 1 := by decide
  have h := h.step (.runs (.sampler (.consumer rfl) (fun _ => rfl) (by nofun)))
  have h := h.step (.runs (.sampler .loadHead (by nofun) (by nofun)))
  have h := h.step (.runs (.sampler .loadTail (by nofun) (by nofun)))
  have h := h.step (.runs (.sampler (.popReady _ hbuf (by decide : 0 < maxDrainStacks) hready) (by nofun)
    (by nofun)))
  have h := h.step (.runs (.sampler (.readLen (hlen _ _ _ _) hfits) (by nofun) (by nofun)))
  have h := h.step (.runs (.sampler (.readValue Nat.one_pos (hvalue _ _ _ _)) (by nofun) (by nofun)))
  have h := h.step (.runs (.sampler .store (by nofun) (by nofun)))
  have h := h.step (.runs (.sampler (.resolved []) (by nofun) (by nofun)))
  have h := h.step (.runs (.sampler (.popRefresh _ hbuf (by decide : 1 < maxDrainStacks) rfl) (by nofun)
    (by nofun)))
  have h := h.step (.runs (.sampler (.refreshEmpty rfl) (by nofun) (by nofun)))
  have h := h.step (.runs (.sampler .drop (by nofun) (by nofun)))
  have h := h.step (.runs (.sampler .lock (by nofun) (by nofun)))
  have h := h.step (.runs (.sampler .record (by nofun) (by nofun)))
  have h := h.step (.runs (.sampler .unlock (by nofun) (by nofun)))
  have h := h.step (.runs (.leaveLoop rfl rfl rfl))
  have h := h.step (.joinSampler rfl rfl rfl)
  have h := h.step (.kill rfl (.sendKill rfl nofun rfl))
  have h := h.step (.manager (.recvKill rfl rfl))
  have h := h.step (.joinManager rfl (.joinManager rfl rfl))
  exact ⟨_, h, rfl, congrArg some hrecords, rfl⟩

theorem late_record_lost : ∃ s,
    Reachable (Initial signalSource) (Step signalSource splitCrates agentConfig) s ∧
    s.agent.stopper = .done ∧ ¬SignalKept backendConfig 1 splitCrates s := by
  obtain ⟨s, h, hdone, hrecords, hsent⟩ := late_record
  refine ⟨s, h, hdone, fun ⟨c, hc, hwhole, handed, hhands, hneed⟩ => ?_⟩
  rw [hc] at hrecords
  have hzero : c.records = {0} := Option.some.inj hrecords
  have hkey := hwhole 0 (by rw [hzero]; exact Finset.mem_singleton_self 0)
  obtain ⟨⟨k, trace⟩, hmem, rfl⟩ := List.mem_map.mp hkey
  rw [hsent] at hhands
  cases hhands
  have hpos : 0 < s.source.fates.shownOf c.records trace :=
    List.countP_pos_iff.mpr ⟨_, hmem, by simp [hzero]⟩
  have hle : s.source.fates.shownOf c.records trace +
      c.lost.shown backendConfig 1 Reason.all trace ≤ 0 := hneed trace
  omega

end Pyroscope.Upload.Flush
