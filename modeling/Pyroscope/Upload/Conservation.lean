import Pyroscope.Upload.LastSnapshot

/-!
# Nothing is handed over twice

What a profiler has recorded is at every moment in one place: in the sessions that were
sent, in the snapshot under way, or still with the profiler. Only an encoder that panics
takes stacks away, and the snapshot thread ends with it; nothing is ever there twice.
-/

namespace Pyroscope.Upload.Flush
open Pyroscope.Lib Pyroscope.Backend Pyroscope.Encode Pyroscope.Signal

section
variable {σ κ : Type} {S : Source σ κ} {config : PyroscopeConfig}

/-- At the start nothing is recorded that `entered` does not count, and a batch is left
out only when there are no stacks in the report. -/
structure Exact (L : Ledger S config.sampleRate) : Prop where
  starts : ∀ {a}, S.initial a → ∀ t, L.pending a t ≤ L.entered a t
  empties : ∀ {timeRange b payload}, S.payload timeRange b (.ok payload) →
    payload.isEmpty = true → b.data.toList = []

variable {crates : Crates} (L : Ledger S config.sampleRate)

/-- Every report so far could be encoded. -/
def FitsStep (L : Ledger S config.sampleRate) (s : State σ κ) : Prop :=
  ∀ timeRange others b, s.stage = .reported timeRange others b → L.Fits b

/-- The sum of the places a stack can be in. -/
def State.places (s : State σ κ) (t : StackTrace) : ℕ :=
  s.out t + L.taken s.source t + L.pending s.source t

/-- Where the snapshot thread can be in each stage. -/
def During : Shutdown.Snapshot → Stage → Prop
  | .snapping _, stage => stage.snapping = true
  | .sending _ _, .sending _ => True
  | .waiting, .idle => True
  | .exited, .idle => True
  | _, _ => False

theorem During.idle {phase : Shutdown.Snapshot} {stage : Stage} (h : During phase stage)
    (hsnapping : ∀ final, phase ≠ .snapping final)
    (hsending : ∀ final session, phase ≠ .sending final session) : stage = .idle := by
  cases phase with
  | snapping final => exact (hsnapping final rfl).elim
  | sending final session => exact (hsending final session rfl).elim
  | _ =>
    cases stage with
    | idle => rfl
    | _ => exact h.elim

theorem During.next {phase : Shutdown.Snapshot} {stage stage' : Stage} (h : During phase stage)
    (hstage : stage.snapping = true) (hstage' : stage'.snapping = true) : During phase stage' := by
  cases phase with
  | snapping final => exact hstage'
  | _ =>
    cases stage with
    | idle => cases hstage
    | sending b => cases hstage
    | _ => exact h.elim

theorem during_after (final : Bool) : During (Shutdown.Snapshot.after final) .idle := by
  cases final <;> exact trivial

variable (crates) in
structure Conserved (fits : Prop) (s : State σ κ) : Prop where
  source : L.Inv s.source
  during : During s.agent.snapshot s.stage
  untaken : s.stage.taken = false → ∀ t, L.taken s.source t = 0
  upper : ∀ t, s.places L t ≤ L.entered s.source t
  lower : fits ∨ s.agent.snapshot ≠ .exited → ∀ t, L.entered s.source t ≤ s.places L t
  sending : fits → ∀ final session b, s.agent.snapshot = .sending final session →
    s.stage = .sending b → Hands crates session b
  hands : fits → List.Forall₂ (Hands crates) s.agent.sent s.handed

variable {L} {fits : Prop}

theorem initial_conserved (hL : Exact L) {s : State σ κ} (h : Initial S s) :
    Conserved crates L fits s := by
  obtain ⟨watch, source, hsource, rfl⟩ := h
  have hplaces : ∀ t, State.places L
      (⟨Shutdown.State.initial, .idle, watch, true, source, none, []⟩ : State σ κ) t =
      L.pending source t := by
    intro t
    simp only [State.places, State.out, Stage.carried, StackBuffer.count_default, List.map_nil,
      List.sum_nil, L.taken_initial hsource]
    omega
  refine ⟨L.inv_initial hsource, trivial, fun _ => L.taken_initial hsource, fun t => ?_, fun _ t => ?_,
    fun _ _ _ _ hsnapshot _ => (by cases hsnapshot), fun _ => .nil⟩
  · rw [hplaces]
    exact hL.starts hsource t
  · rw [hplaces]
    exact L.entered_initial hsource t

namespace Conserved
variable {s s' : State σ κ}

/- What the other threads of the agent change. -/
theorem agent (h : Conserved crates L fits s) {agent : Shutdown.State}
    (hsnapshot : agent.snapshot = s.agent.snapshot) (hsent : agent.sent = s.agent.sent) :
    Conserved crates L fits { s with agent := agent } := by
  refine ⟨h.source, ?_, h.untaken, h.upper, ?_, ?_, ?_⟩
  · rw [hsnapshot]
    exact h.during
  · rw [hsnapshot]
    exact h.lower
  · rw [hsnapshot]
    exact h.sending
  · rw [hsent]
    exact h.hands

/- A step that only moves stacks from one place to another. -/
theorem moves (h : Conserved crates L fits s) (hsource : L.Inv s'.source)
    (hduring : During s'.agent.snapshot s'.stage)
    (huntaken : s'.stage.taken = false → ∀ t, L.taken s'.source t = 0)
    (hplaces : ∀ t, L.entered s'.source t + s.places L t = L.entered s.source t + s'.places L t)
    (halive : s'.agent.snapshot ≠ .exited → s.agent.snapshot ≠ .exited)
    (hsending : fits → ∀ final session b, s'.agent.snapshot = .sending final session →
      s'.stage = .sending b → Hands crates session b)
    (hhands : fits → List.Forall₂ (Hands crates) s'.agent.sent s'.handed) :
    Conserved crates L fits s' := by
  refine ⟨hsource, hduring, huntaken, fun t => ?_, fun hf t => ?_, hsending, hhands⟩
  · have hold := h.upper t
    have hnew := hplaces t
    omega
  · have hold := h.lower (hf.imp_right halive) t
    have hnew := hplaces t
    omega

/- The profiler and the report work on the stacks; nobody sends meanwhile. -/
theorem report (h : Conserved crates L fits s) {source : σ} {stage : Stage}
    (hs : S.Moves s.source source) (hduring : During s.agent.snapshot stage)
    (huntaken : stage.taken = false → ∀ t, L.taken source t = 0)
    (hplaces : ∀ t, L.entered source t +
        (s.stage.carried.count t + (L.taken s.source t + L.pending s.source t)) =
      L.entered s.source t + (stage.carried.count t + (L.taken source t + L.pending source t)))
    (hsending : ∀ b, stage = .sending b → s.stage = .sending b) :
    Conserved crates L fits { s with source := source, stage := stage } := by
  refine h.moves (L.inv_moves h.source hs) hduring huntaken (fun t => ?_) id
    (fun hf final session b hsnap hst => h.sending hf final session b hsnap (hsending b hst)) h.hands
  have hp := hplaces t
  simp only [State.places, State.out]
  omega

/- The snapshot thread goes on without stacks in its hands. -/
theorem clear (h : Conserved crates L fits s) {agent : Shutdown.State} {stage : Stage} {watch : ℤ}
    (hold : ∀ t, s.stage.carried.count t = 0) (hcarried : stage.carried = .default)
    (htaken : s.stage.taken = false) (hduring : During agent.snapshot stage)
    (halive : agent.snapshot ≠ .exited → s.agent.snapshot ≠ .exited)
    (hsending : ∀ b, stage ≠ .sending b) (hsent : agent.sent = s.agent.sent) :
    Conserved crates L fits { s with agent := agent, stage := stage, watch := watch } := by
  refine h.moves h.source hduring (fun _ => h.untaken htaken) (fun t => ?_) halive
    (fun _ final session b _ hst => (hsending b hst).elim) (fun hf => ?_)
  · simp only [State.places, State.out, hold, hcarried, StackBuffer.count_default]
  · rw [hsent]
    exact h.hands hf

/- What the encoder could not show is gone, and so is the snapshot thread. -/
theorem lose (h : Conserved crates L fits s) {agent : Shutdown.State}
    (hfits : ¬fits) (htaken : s.stage.taken = false) (hexited : agent.snapshot = .exited) :
    Conserved crates L fits { s with agent := agent, stage := .idle } := by
  refine ⟨h.source, ?_, fun _ => h.untaken htaken, fun t => ?_, ?_, fun hf => (hfits hf).elim,
    fun hf => (hfits hf).elim⟩
  · rw [hexited]
    trivial
  · have hold := h.upper t
    simp only [State.places, State.out, Stage.carried, StackBuffer.count_default] at hold ⊢
    omega
  · rintro (hf | halive)
    · exact (hfits hf).elim
    · exact (halive hexited).elim

end Conserved

theorem step_conserved (hL : Exact L) {s s' : State σ κ} (hagent : Shutdown.Inv s.agent)
    (h : Conserved crates L fits s) (hfit : fits → FitsStep L s)
    (hs : Step S crates config s s') : Conserved crates L fits s' := by
  cases hs with
  | runs hr =>
    refine h.report (.runs _ hr) h.during (fun hst t => ?_) (fun t => ?_) fun b hb => hb
    · rw [L.runs_taken hr]
      exact h.untaken hst t
    · have hbalance := L.runs_balance h.source hr t
      have htaken := L.runs_taken hr t
      omega
  | wakes hw hf =>
    have hidle : s.stage = .idle := h.during.idle (by simp [hw]) (by simp [hw])
    exact h.clear (by simp [hidle, Stage.carried]) rfl (by rw [hidle]; rfl) rfl
      (fun _ => by simp [hw]) (fun _ hb => by cases hb) rfl
  | lap now hst epoch =>
    exact h.clear (by simp [hst, Stage.carried]) rfl (by rw [hst]; rfl)
      (h.during.next (by rw [hst]; rfl) rfl) id (fun _ hb => by cases hb) rfl
  | lapFails hst epoch hf =>
    exact h.clear (by simp [hst, Stage.carried]) rfl (by rw [hst]; rfl) trivial
      (fun he => (he rfl).elim) (fun _ hb => by cases hb) rfl
  | dump others hst =>
    exact h.clear (by simp [hst, Stage.carried]) rfl (by rw [hst]; rfl)
      (h.during.next (by rw [hst]; rfl) rfl) id (fun _ hb => by cases hb) rfl
  | lock hst hl =>
    refine h.report (.lock hl) h.during (fun hst t => ?_) (fun t => ?_) fun b hb => hb
    · rw [(L.lock_same hl t).2.2]
      exact h.untaken hst t
    · obtain ⟨hentered, hpending, htaken⟩ := L.lock_same hl t
      omega
  | take hst ht =>
    have hzero := h.untaken (by rw [hst]; rfl)
    refine h.report (.take ht) (h.during.next (by rw [hst]; rfl) rfl) (fun ht => by cases ht)
      (fun t => ?_) fun _ hb => by cases hb
    have ht0 := hzero t
    have htake := L.take_balance ht t ht0
    rw [hst]
    simp only [Stage.carried]
    omega
  | swap hst hw =>
    refine h.report (.swap hw) h.during (fun ht => ?_) (fun t => ?_) fun b hb => hb
    · rw [hst] at ht
      cases ht
    · have hbalance := L.swap_balance hw t
      omega
  | finish hst hf =>
    refine h.report (.finish _ hf) (h.during.next (by rw [hst]; rfl) rfl)
      (fun _ t => (L.finish_balance hf t).2.2) (fun t => ?_) fun _ hb => by cases hb
    obtain ⟨hentered, hbalance, htaken⟩ := L.finish_balance hf t
    rw [hst]
    simp only [Stage.carried, StackBuffer.count_default]
    omega
  | panics hst hp hf =>
    refine h.lose (fun hfits => ?_) (by rw [hst]; rfl) rfl
    obtain ⟨payload, hok, -⟩ := L.shows (hfit hfits _ _ _ hst) hp
    cases hok
  | @empty timeRange others b payload final hst hp hf hb =>
    have hisEmpty : payload.isEmpty = true := by
      by_contra hne
      rw [batch, if_neg hne] at hb
      exact List.cons_ne_nil _ _ (List.append_eq_nil_iff.mp hb).2
    have hnone : ∀ t, b.count t = 0 := HashMap.count_of_toList_nil (hL.empties hp hisEmpty)
    exact h.clear (by simpa [hst, Stage.carried] using hnone) rfl (by rw [hst]; rfl)
      (during_after _) (fun _ => by simp [hf]) (fun _ hb => by cases hb) rfl
  | session hst hp hf hb =>
    refine h.moves h.source trivial (fun _ => h.untaken (by rw [hst]; rfl)) (fun t => ?_)
      (fun _ => by simp [hf]) (fun hfits final' session' b' hsnap hst' => ?_) h.hands
    · simp only [State.places, State.out, hst, Stage.carried]
    · obtain ⟨payload', hok, hshows⟩ := L.shows (hfit hfits _ _ _ hst) hp
      cases hok
      cases hsnap
      cases hst'
      exact ⟨_, _, rfl, hshows⟩
  | send hst hf alive hc =>
    refine h.moves h.source (during_after _) (fun _ => h.untaken (by rw [hst]; rfl)) (fun t => ?_)
      (fun _ => by simp [hf]) (fun _ final session b _ hb => by cases hb) (fun hfits => ?_)
    · simp only [State.places, State.out, hst, Stage.carried, List.map_append, List.map_cons,
        List.map_nil, List.sum_append, List.sum_cons, List.sum_nil, StackBuffer.count_default]
      omega
    · exact List.rel_append (h.hands hfits) (.cons (h.sending hfits _ _ _ hf hst) .nil)
  | sendFails hf gone =>
    -- the SessionManager is still there while the snapshot thread can send
    have hkills := hagent.kills_of_exited gone
    have hjoined : s.agent.stopper.hasJoined = true := by
      by_contra hj
      rw [Bool.not_eq_true] at hj
      rw [Shutdown.Stopper.kills_of_not_joined hj] at hkills
      cases hkills
    cases hf.symm.trans (hagent.joined hjoined)
  | manager hman =>
    obtain ⟨hsnapshot, -, hsent⟩ := manager_quiet hman
    exact h.agent hsnapshot hsent
  | stop hst =>
    exact ⟨h.source, h.during, h.untaken, h.upper, h.lower, h.sending, h.hands⟩
  | joinSnapshot hst exited => exact h.agent rfl rfl
  | clearRunning hst =>
    exact ⟨h.source, h.during, h.untaken, h.upper, h.lower, h.sending, h.hands⟩
  | joinSampler hst stopped ended => exact h.agent rfl rfl
  | kill hst hk =>
    obtain ⟨hsnapshot, -, hsent⟩ := stopper_quiet hk (by simp [hst])
    exact h.agent hsnapshot hsent
  | joinManager hst hk =>
    obtain ⟨hsnapshot, -, hsent⟩ := stopper_quiet hk (by simp [hst])
    exact h.agent hsnapshot hsent

theorem reachable_conserved (fits : Prop) (hL : Exact L) {s : State σ κ}
    (h : Reachable (Initial S) (fun s s' => Step S crates config s s' ∧ (fits → FitsStep L s)) s) :
    Conserved crates L fits s := by
  refine h.invariant_with (fun s hs => ?_) (fun s hs => initial_conserved hL hs)
    fun s s' ha hinv hs => step_conserved hL ha hinv hs.2 hs.1
  have hplain : Reachable (Initial S) (Step S crates config) s := hs.mono fun _ _ hs => hs.1
  exact Shutdown.reachable_inv (agent_reachable S crates config hplain)

end

/-! ### The two profilers -/

section Profilers
variable {Id : Type} [DecidableEq Id] (getId : Metadata → Id) (crates : Crates)
  (agentConfig : PyroscopeConfig)

theorem pyspy_exact (config : Pyspy.Config) :
    Exact (Pyspy.ledger config getId agentConfig.sampleRate) where
  starts h t := by
    obtain ⟨-, hbuffer, -, -⟩ := h
    show StackBuffer.count _ t ≤ _
    rw [hbuffer, StackBuffer.count_default]
    exact Nat.zero_le _
  empties hp he := by
    obtain ⟨payload, hok, hshows⟩ :=
      (Pyspy.ledger config getId agentConfig.sampleRate).shows trivial hp
    cases hok
    exact hshows.nil_of_isEmpty he

theorem signal_exact {ι : Type} [DecidableEq ι] (config : BackendConfig) (pid : ℕ)
    (counter : Ring.Usize) :
    Exact (Backlog.ledger getId counter agentConfig.sampleRate :
      Ledger (Backlog.source config pid getId counter agentConfig.sampleRate :
        Source (Backlog.State ι) Backlog.Captured) agentConfig.sampleRate) where
  starts {a} h t := by
    obtain ⟨⟨slots, hs⟩, -⟩ := h
    have hnone : Backlog.pending config pid a t = 0 := by
      rw [Backlog.pending, hs, StackBuffer.count_default, Metrics.shown_zero]
    show Backlog.pending config pid a t ≤ _
    rw [hnone]
    exact Nat.zero_le _
  empties {timeRange b payload} hp he := by
    have hp' : Backlog.payload getId agentConfig.sampleRate timeRange b (.ok payload) := hp
    rw [Backlog.payload] at hp'
    split at hp'
    · assumption
    · -- an encoded profile is never empty
      obtain ⟨ordBuffer, ordData, ordReports, ordStrings, hencode⟩ := hp'
      cases hprofile : encode ordData ordStrings (reportsOfBuffer getId ordBuffer ordReports b)
        agentConfig.sampleRate timeRange with
      | error p =>
        rw [hprofile] at hencode
        cases hencode
      | ok profile =>
        rw [hprofile] at hencode
        cases hencode
        cases he

end Profilers

end Pyroscope.Upload.Flush
