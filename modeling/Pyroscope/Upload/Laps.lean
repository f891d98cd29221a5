import Pyroscope.Upload.Delivery

/-!
# The windows of the sessions (pyroscope.rs, utils.rs)

Each snapshot laps the stop watch: its window starts where the lap before it ended, and
ends at the clock. No instant since the start is left out, also when the clock is set
back; while it is not, no instant is in two laps, and the sent sessions have windows
among the laps, in order and apart.
-/

namespace Pyroscope.Upload.Flush
open Pyroscope.Lib Pyroscope.Backend Pyroscope.Encode

section
variable {σ κ : Type} {S : Source σ κ} {crates : Crates} {config : PyroscopeConfig}

/-- The window that is lapped in a step. -/
def lapped : Stage → Stage → Option TimeRange
  | .lapping, .dumping timeRange => some timeRange
  | _, _ => none

/-- The runs with the laps so far; `start` is the stop watch of the first state. In those
that are `forward` the clock is not set back. -/
inductive Laps (S : Source σ κ) (crates : Crates) (config : PyroscopeConfig) (forward : Prop)
    (start : ℤ) : State σ κ → List TimeRange → Prop where
  | init {s} (h : Initial S s) (hstart : s.watch = start) :
    Laps S crates config forward start s []
  | step {s s' laps} (h : Laps S crates config forward start s laps)
      (hs : Step S crates config s s') (clock : forward → s.watch ≤ s'.watch) :
    Laps S crates config forward start s' (laps ++ (lapped s.stage s'.stage).toList)

/-- Where a window ends, and the instants it holds. -/
def windowEnd (w : TimeRange) : ℤ := w.fromUnixNanos + w.durationNanos

def Holds (t : ℤ) (w : TimeRange) : Prop := w.fromUnixNanos ≤ t ∧ t < windowEnd w

instance (t : ℤ) : DecidablePred (Holds t) := fun _ => inferInstanceAs (Decidable (_ ∧ _))

/-- The first window is over when the second starts. -/
def Apart (w w' : TimeRange) : Prop := windowEnd w ≤ w'.fromUnixNanos

/-- The window of the snapshot under way, and the windows of the sessions. -/
def inHand : Shutdown.Snapshot → Stage → List TimeRange
  | _, .dumping timeRange => [timeRange]
  | _, .reporting timeRange _ _ => [timeRange]
  | _, .reported timeRange _ _ => [timeRange]
  | .sending _ session, .sending _ => [session.timeRange]
  | _, _ => []

theorem lapped_self (stage : Stage) : lapped stage stage = none := by
  cases stage <;> rfl

theorem lapped_none {stage stage' : Stage} (h : ∀ timeRange, stage' ≠ .dumping timeRange) :
    lapped stage stage' = none := by
  cases stage' with
  | dumping timeRange => exact (h timeRange rfl).elim
  | _ => cases stage <;> rfl

def State.windows (s : State σ κ) : List TimeRange := s.agent.sent.map Session.timeRange

structure Lapped (forward : Prop) (start : ℤ) (s : State σ κ) (laps : List TimeRange) : Prop where
  covered : ∀ t, start ≤ t → t < s.watch → ∃ w ∈ laps, Holds t w
  apart : forward → laps.Pairwise Apart
  between : forward → ∀ w ∈ laps, start ≤ w.fromUnixNanos ∧ windowEnd w ≤ s.watch
  started : forward → start ≤ s.watch
  inOrder : (s.windows ++ inHand s.agent.snapshot s.stage).Sublist laps

namespace Lapped
variable {forward : Prop} {start : ℤ} {s s' : State σ κ} {laps : List TimeRange}

/- A step that lets the stop watch be. -/
theorem keep (h : Lapped forward start s laps) (hwatch : s'.watch = s.watch)
    (hnone : lapped s.stage s'.stage = none)
    (hwindows : (s'.windows ++ inHand s'.agent.snapshot s'.stage).Sublist
      (s.windows ++ inHand s.agent.snapshot s.stage)) :
    Lapped forward start s' (laps ++ (lapped s.stage s'.stage).toList) := by
  rw [hnone, Option.toList_none, List.append_nil]
  refine ⟨?_, h.apart, ?_, ?_, hwindows.trans h.inOrder⟩
  · rw [hwatch]
    exact h.covered
  · rw [hwatch]
    exact h.between
  · rw [hwatch]
    exact h.started

/- The snapshot gives its window up. -/
theorem drop (h : Lapped forward start s laps) (hwatch : s'.watch = s.watch)
    (hsent : s'.agent.sent = s.agent.sent) (hhand : inHand s'.agent.snapshot s'.stage = [])
    (hnone : lapped s.stage s'.stage = none) :
    Lapped forward start s' (laps ++ (lapped s.stage s'.stage).toList) := by
  refine h.keep hwatch hnone ?_
  have hwindows : s'.windows = s.windows := by rw [State.windows, hsent, State.windows]
  rw [hwindows, hhand, List.append_nil]
  exact List.sublist_append_left _ _

/- The window goes on with the snapshot, or to the server. -/
theorem pass (h : Lapped forward start s laps) (hwatch : s'.watch = s.watch)
    (hwindows : s'.windows ++ inHand s'.agent.snapshot s'.stage =
      s.windows ++ inHand s.agent.snapshot s.stage)
    (hnone : lapped s.stage s'.stage = none) :
    Lapped forward start s' (laps ++ (lapped s.stage s'.stage).toList) := by
  refine h.keep hwatch hnone ?_
  rw [hwindows]

/- What the other threads of the agent change. -/
theorem agent (h : Lapped forward start s laps) {agent : Shutdown.State}
    (hsnapshot : agent.snapshot = s.agent.snapshot) (hsent : agent.sent = s.agent.sent) :
    Lapped forward start { s with agent := agent }
      (laps ++ (lapped s.stage s.stage).toList) := by
  refine h.pass rfl ?_ (lapped_self _)
  show agent.sent.map Session.timeRange ++ inHand agent.snapshot s.stage = _
  rw [hsnapshot, hsent, State.windows]

/- `StopWatch::lap` -/
theorem lap (h : Lapped forward start s laps) {now : ℤ} (hst : s.stage = .lapping)
    (epoch : 0 ≤ s.watch) (hclock : forward → s.watch ≤ now) :
    Lapped forward start
      { s with stage := .dumping ⟨s.watch.toNat, (now - s.watch).toNat⟩, watch := now }
      (laps ++ [⟨s.watch.toNat, (now - s.watch).toNat⟩]) := by
  have hfrom : ((s.watch.toNat : ℕ) : ℤ) = s.watch := Int.toNat_of_nonneg epoch
  have hhand : inHand s.agent.snapshot s.stage = [] := by
    rw [hst]
    cases s.agent.snapshot <;> rfl
  refine ⟨fun t hstart hnow => ?_, fun hf => ?_, fun hf w hw => ?_, fun hf => ?_, ?_⟩
  · by_cases ht : t < s.watch
    · obtain ⟨w, hw, hholds⟩ := h.covered t hstart ht
      exact ⟨w, List.mem_append_left _ hw, hholds⟩
    · refine ⟨_, List.mem_append_right _ (List.mem_singleton_self _), ?_, ?_⟩
      · show ((s.watch.toNat : ℕ) : ℤ) ≤ t
        omega
      · have hend : t < now := hnow
        show t < ((s.watch.toNat : ℕ) : ℤ) + ((now - s.watch).toNat : ℕ)
        omega
  · refine List.pairwise_append.mpr ⟨h.apart hf, List.pairwise_singleton _ _, fun w hw w' hw' => ?_⟩
    obtain rfl := List.mem_singleton.mp hw'
    have hend := (h.between hf w hw).2
    show windowEnd w ≤ ((s.watch.toNat : ℕ) : ℤ)
    omega
  · have hnow := hclock hf
    show start ≤ w.fromUnixNanos ∧ windowEnd w ≤ now
    rcases List.mem_append.mp hw with hw | hw
    · obtain ⟨hfirst, hend⟩ := h.between hf w hw
      exact ⟨hfirst, hend.trans hnow⟩
    · obtain rfl := List.mem_singleton.mp hw
      have hstarted := h.started hf
      refine ⟨?_, ?_⟩
      · show start ≤ ((s.watch.toNat : ℕ) : ℤ)
        omega
      · show ((s.watch.toNat : ℕ) : ℤ) + ((now - s.watch).toNat : ℕ) ≤ now
        omega
  · exact (h.started hf).trans (hclock hf)
  · have hold := h.inOrder
    rw [hhand, List.append_nil] at hold
    exact hold.append (.refl _)

end Lapped

theorem initial_lapped {forward : Prop} {s : State σ κ} (h : Initial S s) :
    Lapped forward s.watch s [] := by
  obtain ⟨watch, source, -, rfl⟩ := h
  refine ⟨fun t hstart hnow => ?_, fun _ => .nil, fun _ => nofun, fun _ => le_rfl, .refl _⟩
  exact absurd hnow (not_lt.mpr hstart)

theorem step_lapped {forward : Prop} {start : ℤ} {s s' : State σ κ} {laps : List TimeRange}
    (h : Lapped forward start s laps) (hs : Step S crates config s s')
    (hclock : forward → s.watch ≤ s'.watch) :
    Lapped forward start s' (laps ++ (lapped s.stage s'.stage).toList) := by
  cases hs with
  | lap now hst epoch =>
    rw [hst]
    exact h.lap hst epoch hclock
  | wakes hw hf => exact h.drop rfl rfl rfl (lapped_none fun _ => nofun)
  | lapFails hst epoch hf => exact h.drop rfl rfl rfl (lapped_none fun _ => nofun)
  | dump others hst =>
    refine h.pass rfl ?_ (lapped_none fun _ => nofun)
    simp only [State.windows, inHand, hst]
  | take hst ht =>
    refine h.pass rfl ?_ (lapped_none fun _ => nofun)
    simp only [State.windows, inHand, hst]
  | finish hst hf =>
    refine h.pass rfl ?_ (lapped_none fun _ => nofun)
    simp only [State.windows, inHand, hst]
  | panics hst hp hf => exact h.drop rfl rfl rfl (lapped_none fun _ => nofun)
  | empty hst hp hf hb =>
    refine h.drop rfl rfl ?_ (lapped_none fun _ => nofun)
    simp only [inHand]
  | session hst hp hf hb =>
    refine h.pass rfl ?_ (lapped_none fun _ => nofun)
    simp only [State.windows, inHand, hst]
  | send hst hf alive hc =>
    refine h.pass rfl ?_ (lapped_none fun _ => nofun)
    simp only [State.windows, inHand, hst, hf, List.map_append, List.map_cons, List.map_nil,
      List.append_nil]
  | sendFails hf gone => exact h.drop rfl rfl rfl (lapped_none fun _ => nofun)
  | manager hman =>
    obtain ⟨hsnapshot, -, hsent⟩ := manager_quiet hman
    exact h.agent hsnapshot hsent
  | kill hst hk =>
    obtain ⟨hsnapshot, -, hsent⟩ := stopper_quiet hk (by rw [hst]; exact nofun)
    exact h.agent hsnapshot hsent
  | joinManager hst hk =>
    obtain ⟨hsnapshot, -, hsent⟩ := stopper_quiet hk (by rw [hst]; exact nofun)
    exact h.agent hsnapshot hsent
  | _ => exact h.pass rfl rfl (lapped_self _)

theorem laps_lapped {forward : Prop} {start : ℤ} {s : State σ κ} {laps : List TimeRange}
    (h : Laps S crates config forward start s laps) : Lapped forward start s laps := by
  induction h with
  | init hinit hstart =>
    subst hstart
    exact initial_lapped hinit
  | step _ hs hclock ih => exact step_lapped ih hs hclock

/- Windows that are apart hold an instant at most once. -/
theorem countP_holds_le {laps : List TimeRange} (h : laps.Pairwise Apart) (t : ℤ) :
    laps.countP (Holds t) ≤ 1 := by
  induction h with
  | nil => exact Nat.zero_le _
  | @cons w laps hw _ ih =>
    rw [List.countP_cons]
    by_cases ht : Holds t w
    · have hnone : laps.countP (Holds t) = 0 := by
        refine List.countP_eq_zero.mpr fun w' hw' hholds => ?_
        have hapart : windowEnd w ≤ w'.fromUnixNanos := hw w' hw'
        have hend := ht.2
        have hstart := (of_decide_eq_true hholds).1
        omega
      rw [hnone]
      split <;> omega
    · simp only [ht, decide_false]
      exact ih

/-- In every run each instant from the start to the last lap is in a lap. While the clock
is not set back it is in one lap only, and the windows of the sent sessions are apart, in
the order in which they are sent. -/
theorem windows_apart_and_gapless (S : Source σ κ) (crates : Crates) (config : PyroscopeConfig)
    {forward : Prop} {start : ℤ} {s : State σ κ} {laps : List TimeRange}
    (h : Laps S crates config forward start s laps) :
    (∀ t, start ≤ t → t < s.watch → 0 < laps.countP (Holds t)) ∧
    s.windows.Sublist laps ∧
    (forward → s.windows.Pairwise Apart ∧
      ∀ t, laps.countP (Holds t) = if start ≤ t ∧ t < s.watch then 1 else 0) := by
  have hl := laps_lapped h
  have hcovered : ∀ t, start ≤ t → t < s.watch → 0 < laps.countP (Holds t) := by
    intro t hstart hnow
    obtain ⟨w, hw, hholds⟩ := hl.covered t hstart hnow
    exact List.countP_pos_iff.mpr ⟨w, hw, decide_eq_true hholds⟩
  have hsub : s.windows.Sublist laps := (List.sublist_append_left _ _).trans hl.inOrder
  refine ⟨hcovered, hsub, fun hf => ⟨(hl.apart hf).sublist hsub, fun t => ?_⟩⟩
  split
  · rename_i ht
    have hle := countP_holds_le (hl.apart hf) t
    have hpos := hcovered t ht.1 ht.2
    omega
  · rename_i ht
    refine List.countP_eq_zero.mpr fun w hw hholds => ht ?_
    obtain ⟨hfirst, hend⟩ := hl.between hf w hw
    obtain ⟨hstart, hstop⟩ := of_decide_eq_true hholds
    exact ⟨hfirst.trans hstart, hstop.trans_le hend⟩

end

/- Two snapshots, of which the first has a stack to send. -/
theorem pyspy_laps_run : ∃ s, Laps pyspySource splitCrates agentConfig True 0 s [⟨0, 10⟩, ⟨10, 5⟩] ∧
    s.watch = 15 ∧ s.windows = [⟨0, 10⟩] := by
  have h : Laps pyspySource splitCrates agentConfig True 0 pyspyStarted [] :=
    .init ⟨_, _, ⟨rfl, rfl, rfl, rfl⟩, rfl⟩ rfl
  have h := h.step (.runs (.samplerNew rfl)) fun _ => le_rfl
  have h := h.step (.runs (.sample [⟨true, true, sampleTrace "f" []⟩] rfl rfl)) fun _ => le_rfl
  have h := h.step (.runs (.record (IterOrder.stored _) rfl rfl)) fun _ => le_rfl
  have h := h.step (.wakes rfl rfl) fun _ => le_rfl
  have h := h.step (.lap 10 rfl le_rfl) fun _ => (by decide : (0 : ℤ) ≤ 10)
  have h := h.step (.dump [] rfl) fun _ => le_rfl
  have h := h.step (.take rfl rfl) fun _ => le_rfl
  have h := h.step (.finish rfl ⟨rfl, rfl⟩) fun _ => le_rfl
  have h := h.step (.session rfl ⟨IterOrder.stored _, IterOrder.stored _, rfl⟩ rfl nofun) fun _ => le_rfl
  have h := h.step (.send rfl rfl nofun rfl) fun _ => le_rfl
  have h := h.step (.wakes rfl rfl) fun _ => le_rfl
  have h := h.step (.lap 15 rfl (by decide)) fun _ => (by decide : (10 : ℤ) ≤ 15)
  exact ⟨_, h, rfl, rfl⟩

theorem windows_apart_and_gapless_runs : ∃ s : State Pyspy.State (StackTrace → ℕ),
    s.windows = [⟨0, 10⟩] ∧ s.windows.Sublist [⟨0, 10⟩, ⟨10, 5⟩] ∧
    ∀ t, [(⟨0, 10⟩ : TimeRange), ⟨10, 5⟩].countP (Holds t) = if 0 ≤ t ∧ t < 15 then 1 else 0 := by
  obtain ⟨s, h, hwatch, hwindows⟩ := pyspy_laps_run
  obtain ⟨-, hsub, hone⟩ := windows_apart_and_gapless pyspySource splitCrates agentConfig h
  rw [hwatch] at hone
  exact ⟨s, hwindows, hsub, (hone trivial).2⟩

end Pyroscope.Upload.Flush
