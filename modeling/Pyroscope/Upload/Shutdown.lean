import Pyroscope.Upload.Manager
import Pyroscope.Lib.Channel
import Pyroscope.Lib.Transition

/-!
# Stopping a running agent (pyroscope.rs, session.rs)

Three threads: the snapshot thread of `start`, the SessionManager thread, and the one
that calls `stop`. The snapshot thread sends sessions over a channel of capacity 10;
`stop` drops the terminate channel, joins the snapshot thread, sends `Kill` over the
same session channel and joins the SessionManager thread. Uploads are assumed to
return, with any result.
-/

namespace Pyroscope.Upload.Shutdown
open Pyroscope.Lib

/-- The snapshot thread; `final` once it has seen the terminate channel disconnected. -/
inductive Snapshot where
  | waiting
  | snapping (final : Bool)
  | sending (final : Bool) (session : Session)
  | exited

/-- After one `Self::snapshot`: the last one is followed by `break Ok(())`. -/
def Snapshot.after (final : Bool) : Snapshot := if final then .exited else .waiting

inductive Manager where
  | receiving
  | pushing (session : Session)
  | exited

inductive Stopper where
  | running
  | joining
  | joined
  | killing
  | joiningManager
  | done

/-- `sent` are the sessions whose `send` succeeded, `handled` the signals that the
SessionManager thread received, `pushed` the sessions it passed to `Session::push`. -/
structure State where
  terminated : Bool
  channel : Channel SessionSignal 10
  snapshot : Snapshot
  manager : Manager
  stopper : Stopper
  sent : List Session
  handled : List SessionSignal
  pushed : List Session

def State.initial : State := ⟨false, .empty, .waiting, .receiving, .running, [], [], []⟩

inductive Thread where
  | snapshot
  | manager
  | stopper

inductive Step : Thread → State → State → Prop where
  | timeout {s} (h : s.snapshot = .waiting) (open' : s.terminated = false) :
    Step .snapshot s { s with snapshot := .snapping false }
  | disconnected {s} (h : s.snapshot = .waiting) (closed : s.terminated = true) :
    Step .snapshot s { s with snapshot := .snapping true }
  /-- the clock, a lock or a report fails: the thread returns the error -/
  | snapshotFails {s final} (h : s.snapshot = .snapping final) :
    Step .snapshot s { s with snapshot := .exited }
  | emptyBatch {s final} (h : s.snapshot = .snapping final) :
    Step .snapshot s { s with snapshot := .after final }
  | batch {s final} (h : s.snapshot = .snapping final) (session : Session) :
    Step .snapshot s { s with snapshot := .sending final session }
  | send {s final session c} (h : s.snapshot = .sending final session) (alive : s.manager ≠ .exited)
      (hc : s.channel.send (.session session) = some c) :
    Step .snapshot s
      { s with snapshot := .after final, channel := c, sent := s.sent ++ [session] }
  | sendFails {s final session} (h : s.snapshot = .sending final session) (gone : s.manager = .exited) :
    Step .snapshot s { s with snapshot := .exited }
  | recvSession {s session c} (h : s.manager = .receiving)
      (hc : s.channel.recv = some (.session session, c)) :
    Step .manager s { s with
      manager := .pushing session, channel := c, handled := s.handled ++ [.session session]
      pushed := s.pushed ++ [session] }
  /-- `push` has returned, `Ok` or `Err` -/
  | pushReturns {s session} (h : s.manager = .pushing session) :
    Step .manager s { s with manager := .receiving }
  | recvKill {s c} (h : s.manager = .receiving) (hc : s.channel.recv = some (.kill, c)) :
    Step .manager s { s with manager := .exited, channel := c, handled := s.handled ++ [.kill] }
  | recvDisconnected {s} (h : s.manager = .receiving) (hq : s.channel.queue = [])
      (noSnapshot : s.snapshot = .exited) (noAgent : s.stopper = .done) :
    Step .manager s { s with manager := .exited }
  | stop {s} (h : s.stopper = .running) :
    Step .stopper s { s with stopper := .joining, terminated := true }
  | joinSnapshot {s} (h : s.stopper = .joining) (exited : s.snapshot = .exited) :
    Step .stopper s { s with stopper := .joined }
  | shutdownBackend {s} (h : s.stopper = .joined) : Step .stopper s { s with stopper := .killing }
  | sendKill {s c} (h : s.stopper = .killing) (alive : s.manager ≠ .exited)
      (hc : s.channel.send .kill = some c) :
    Step .stopper s { s with stopper := .joiningManager, channel := c }
  | killFails {s} (h : s.stopper = .killing) (gone : s.manager = .exited) :
    Step .stopper s { s with stopper := .joiningManager }
  | joinManager {s} (h : s.stopper = .joiningManager) (exited : s.manager = .exited) :
    Step .stopper s { s with stopper := .done }

def Run (s s' : State) : Prop := ∃ t, Step t s s'

/-! ### Where `Kill` is -/

def Stopper.kills : Stopper → List SessionSignal
  | .joiningManager | .done => [.kill]
  | _ => []

def Manager.kills : Manager → List SessionSignal
  | .exited => [.kill]
  | _ => []

def Stopper.hasJoined : Stopper → Bool
  | .running | .joining => false
  | _ => true

structure Inv (s : State) : Prop where
  fifo : Channel.Fifo (s.sent.map .session ++ s.stopper.kills) s.handled s.channel
  handled : s.handled = s.pushed.map .session ++ s.manager.kills
  joined : s.stopper.hasJoined = true → s.snapshot = .exited
  terminated : s.terminated = true ↔ s.stopper ≠ .running
  done : s.stopper = .done → s.manager = .exited

theorem initial_inv : Inv State.initial := ⟨rfl, rfl, nofun, ⟨nofun, fun h => (h rfl).elim⟩, nofun⟩

theorem Stopper.kills_of_not_joined {st : Stopper} (h : st.hasJoined = false) : st.kills = [] := by
  cases st <;> first | rfl | cases h

theorem Manager.kills_of_ne {m : Manager} (h : m ≠ .exited) : m.kills = [] := by
  cases m <;> first | rfl | exact (h rfl).elim

/- Two logs of sessions, each with a `Kill` at its end or not, compared. -/
theorem kill_last {xs ys : List Session} {queue : List SessionSignal}
    (h : xs.map SessionSignal.session ++ .kill :: queue = ys.map .session ++ [.kill]) :
    xs = ys ∧ queue = [] := by
  induction xs generalizing ys with
  | nil =>
    cases ys with
    | nil => exact ⟨rfl, (List.cons.inj h).2⟩
    | cons y ys => cases (List.cons.inj h).1
  | cons x xs ih =>
    cases ys with
    | nil => cases (List.cons.inj h).1
    | cons y ys =>
      obtain ⟨hxy, hrest⟩ := List.cons.inj h
      cases hxy
      obtain ⟨rfl, hq⟩ := ih hrest
      exact ⟨rfl, hq⟩

theorem kill_nowhere {xs ys : List Session} {queue : List SessionSignal}
    (h : xs.map SessionSignal.session ++ .kill :: queue = ys.map .session) : False := by
  have hm : SessionSignal.kill ∈ ys.map SessionSignal.session := by
    rw [← h]
    exact List.mem_append_right _ List.mem_cons_self
  obtain ⟨y, -, hy⟩ := List.mem_map.mp hm
  cases hy

namespace Inv
variable {s : State}

/- The `Kill` that the manager acted on was sent by the stopping thread. -/
theorem kills_of_exited (h : Inv s) (hm : s.manager = .exited) : s.stopper.kills = [.kill] := by
  have hfifo := h.fifo
  rw [Channel.Fifo, h.handled, hm] at hfifo
  cases hs : s.stopper with
  | joiningManager => rfl
  | done => rfl
  | _ =>
    rw [hs] at hfifo
    have hno : s.pushed.map SessionSignal.session ++ .kill :: s.channel.queue = s.sent.map .session := by
      simpa [Manager.kills, Stopper.kills] using hfifo
    exact (kill_nowhere hno).elim

end Inv

theorem step_inv {t : Thread} {s s' : State} (h : Inv s) (hs : Step t s s') : Inv s' := by
  have running_snapshot : s.snapshot ≠ .exited → s.stopper.hasJoined = false := fun hne => by
    rw [← Bool.not_eq_true]
    exact fun hj => hne (h.joined hj)
  cases hs with
  | timeout hp open' =>
    refine ⟨h.fifo, h.handled, fun hj => ?_, h.terminated, h.done⟩
    cases hp.symm.trans (h.joined hj)
  | disconnected hp closed =>
    refine ⟨h.fifo, h.handled, fun hj => ?_, h.terminated, h.done⟩
    cases hp.symm.trans (h.joined hj)
  | snapshotFails hp => exact ⟨h.fifo, h.handled, fun _ => rfl, h.terminated, h.done⟩
  | emptyBatch hp =>
    refine ⟨h.fifo, h.handled, fun hj => ?_, h.terminated, h.done⟩
    cases hp.symm.trans (h.joined hj)
  | batch hp session =>
    refine ⟨h.fifo, h.handled, fun hj => ?_, h.terminated, h.done⟩
    cases hp.symm.trans (h.joined hj)
  | @send _ final session c hp alive hc =>
    have hj := running_snapshot (by rw [hp]; exact nofun)
    have hk := Stopper.kills_of_not_joined hj
    refine ⟨?_, h.handled, fun hj' => ?_, h.terminated, h.done⟩
    · have hfifo := h.fifo.send hc
      rw [hk, List.append_nil] at hfifo
      simp only [hk, List.append_nil, List.map_append, List.map_cons, List.map_nil]
      exact hfifo
    · cases hp.symm.trans (h.joined hj')
  | sendFails hp gone => exact ⟨h.fifo, h.handled, fun _ => rfl, h.terminated, h.done⟩
  | @recvSession _ session c hp hc =>
    refine ⟨h.fifo.recv hc, ?_, h.joined, h.terminated, fun hd => ?_⟩
    · have hhandled := h.handled
      rw [hp] at hhandled
      simpa [Manager.kills] using hhandled
    · cases hp.symm.trans (h.done hd)
  | pushReturns hp =>
    refine ⟨h.fifo, ?_, h.joined, h.terminated, fun hd => ?_⟩
    · have hhandled := h.handled
      rw [hp] at hhandled
      exact hhandled
    · cases hp.symm.trans (h.done hd)
  | recvKill hp hc =>
    refine ⟨h.fifo.recv hc, ?_, h.joined, h.terminated, fun _ => rfl⟩
    have hhandled := h.handled
    rw [hp] at hhandled
    simpa [Manager.kills] using hhandled
  | recvDisconnected hp hq noSnapshot noAgent => cases hp.symm.trans (h.done noAgent)
  | stop hp =>
    have hfifo := h.fifo
    rw [hp] at hfifo
    exact ⟨hfifo, h.handled, nofun, ⟨fun _ => nofun, fun _ => rfl⟩, nofun⟩
  | joinSnapshot hp exited =>
    have hstop := h.terminated.mpr (by rw [hp]; exact nofun)
    have hfifo := h.fifo
    rw [hp] at hfifo
    exact ⟨hfifo, h.handled, fun _ => exited, ⟨fun _ => nofun, fun _ => hstop⟩, nofun⟩
  | shutdownBackend hp =>
    have hstop := h.terminated.mpr (by rw [hp]; exact nofun)
    have hfifo := h.fifo
    rw [hp] at hfifo
    exact ⟨hfifo, h.handled, fun _ => h.joined (by rw [hp]; rfl), ⟨fun _ => nofun, fun _ => hstop⟩,
      nofun⟩
  | sendKill hp alive hc =>
    have hstop := h.terminated.mpr (by rw [hp]; exact nofun)
    refine ⟨?_, h.handled, fun _ => h.joined (by rw [hp]; rfl), ⟨fun _ => nofun, fun _ => hstop⟩, nofun⟩
    have hfifo := h.fifo.send hc
    rw [hp] at hfifo
    simpa [Stopper.kills] using hfifo
  | killFails hp gone =>
    have hk := h.kills_of_exited gone
    rw [hp] at hk
    cases hk
  | joinManager hp exited =>
    have hstop := h.terminated.mpr (by rw [hp]; exact nofun)
    have hfifo := h.fifo
    rw [hp] at hfifo
    exact ⟨hfifo, h.handled, fun _ => h.joined (by rw [hp]; rfl), ⟨fun _ => nofun, fun _ => hstop⟩,
      fun _ => exited⟩

theorem reachable_inv {s : State} (h : Reachable (· = State.initial) Run s) : Inv s := by
  refine h.invariant (fun s hs => ?_) fun s s' hi ⟨t, hs⟩ => step_inv hi hs
  rw [hs]
  exact initial_inv

/-! ### Nothing is lost -/

def session? : SessionSignal → Option Session
  | .session session => some session
  | .kill => none

theorem filterMap_sessions (sessions : List Session) :
    (sessions.map SessionSignal.session).filterMap session? = sessions := by
  induction sessions with
  | nil => rfl
  | cons session sessions ih => exact congrArg (session :: ·) ih

theorem filterMap_stopperKills (st : Stopper) : st.kills.filterMap session? = [] := by
  cases st <;> rfl

theorem filterMap_managerKills (m : Manager) : m.kills.filterMap session? = [] := by
  cases m <;> rfl

namespace Inv
variable {s : State}

/- A session that was sent has been passed to `push`, or is still queued. -/
theorem sent_eq (h : Inv s) : s.sent = s.pushed ++ s.channel.queue.filterMap session? := by
  have hfifo := congrArg (List.filterMap session?) h.fifo
  rw [h.handled] at hfifo
  simp only [List.filterMap_append, filterMap_sessions, filterMap_stopperKills,
    filterMap_managerKills, List.append_nil] at hfifo
  exact hfifo.symm

theorem queue_of_exited (h : Inv s) (hm : s.manager = .exited) :
    s.pushed = s.sent ∧ s.channel.queue = [] := by
  have hfifo := h.fifo
  rw [Channel.Fifo, h.handled, hm, h.kills_of_exited hm, List.append_assoc] at hfifo
  exact kill_last hfifo

theorem exited_of_kill (h : Inv s) (hk : .kill ∈ s.handled) : s.manager = .exited := by
  rw [h.handled] at hk
  rcases List.mem_append.mp hk with hk | hk
  · obtain ⟨session, -, he⟩ := List.mem_map.mp hk
    cases he
  · cases hm : s.manager with
    | exited => rfl
    | receiving =>
      rw [hm] at hk
      cases hk
    | pushing session =>
      rw [hm] at hk
      cases hk

end Inv

/- A thread that has ended does nothing. -/
theorem pushed_of_exited {t : Thread} {s s' : State} (hm : s.manager = .exited) (hs : Step t s s') :
    s'.pushed = s.pushed := by
  cases hs with
  | recvSession hp hc => cases hp.symm.trans hm
  | _ => rfl

/-! ### Nobody waits for ever -/

/-- The thread is in a call that cannot return as things stand. -/
def Blocked (s : State) : Thread → Prop
  | .snapshot => s.snapshot ≠ .exited ∧ ∀ s', ¬Step .snapshot s s'
  | .manager => s.manager ≠ .exited ∧ ∀ s', ¬Step .manager s s'
  | .stopper => s.stopper ≠ .running ∧ s.stopper ≠ .done ∧ ∀ s', ¬Step .stopper s s'

theorem manager_step {s : State} (hm : s.manager ≠ .exited) (hq : s.channel.queue ≠ []) :
    ∃ s', Step .manager s s' := by
  cases hp : s.manager with
  | exited => exact (hm hp).elim
  | pushing session => exact ⟨_, .pushReturns hp⟩
  | receiving =>
    cases hqueue : s.channel.queue with
    | nil => exact (hq hqueue).elim
    | cons signal queue =>
      obtain ⟨c, hc⟩ := Channel.exists_recv hqueue
      cases signal with
      | session session => exact ⟨_, .recvSession hp hc⟩
      | kill => exact ⟨_, .recvKill hp hc⟩

/- The snapshot thread only ever waits for room in the queue. -/
theorem snapshot_step {s : State} (hp : s.snapshot ≠ .exited) (hq : s.channel.queue.length < 10) :
    ∃ s', Step .snapshot s s' := by
  cases hs : s.snapshot with
  | exited => exact (hp hs).elim
  | waiting =>
    cases ht : s.terminated with
    | false => exact ⟨_, .timeout hs ht⟩
    | true => exact ⟨_, .disconnected hs ht⟩
  | snapping final => exact ⟨_, .emptyBatch hs⟩
  | sending final session =>
    by_cases hm : s.manager = .exited
    · exact ⟨_, .sendFails hs hm⟩
    · obtain ⟨c, hc⟩ := Channel.exists_send hq (.session session)
      exact ⟨_, .send hs hm hc⟩

/- A full queue keeps the receiver busy, an empty one lets the sender go on. -/
theorem not_both_blocked (s : State) : ¬(Blocked s .snapshot ∧ Blocked s .manager) := by
  intro ⟨⟨hsnap, hno⟩, ⟨hman, hno'⟩⟩
  by_cases hq : s.channel.queue = []
  · have hlen : s.channel.queue.length < 10 := by
      rw [hq]
      decide
    obtain ⟨s', hs'⟩ := snapshot_step hsnap hlen
    exact hno s' hs'
  · obtain ⟨s', hs'⟩ := manager_step hman hq
    exact hno' s' hs'

/- A thread that wants to send: either there is room, or the receiver can make some. -/
theorem room_or_manager_step {s : State} (hm : s.manager ≠ .exited) :
    s.channel.queue.length < 10 ∨ ∃ s', Step .manager s s' := by
  by_cases hq : s.channel.queue = []
  · refine Or.inl ?_
    rw [hq]
    decide
  · exact Or.inr (manager_step hm hq)

theorem progress {s : State} (h : Inv s) (hrun : s.stopper ≠ .running) (hdone : s.stopper ≠ .done) :
    ∃ s', Run s s' := by
  cases hp : s.stopper with
  | running => exact (hrun hp).elim
  | done => exact (hdone hp).elim
  | joining =>
    by_cases hs : s.snapshot = .exited
    · exact ⟨_, _, .joinSnapshot hp hs⟩
    · by_cases hm : s.manager = .exited
      · have hk := h.kills_of_exited hm
        rw [hp] at hk
        cases hk
      · rcases room_or_manager_step hm with hlen | ⟨s', hs'⟩
        · obtain ⟨s', hs'⟩ := snapshot_step hs hlen
          exact ⟨s', _, hs'⟩
        · exact ⟨s', _, hs'⟩
  | joined => exact ⟨_, _, .shutdownBackend hp⟩
  | killing =>
    by_cases hm : s.manager = .exited
    · exact ⟨_, _, .killFails hp hm⟩
    · rcases room_or_manager_step hm with hlen | ⟨s', hs'⟩
      · obtain ⟨c, hc⟩ := Channel.exists_send hlen .kill
        exact ⟨_, _, .sendKill hp hm hc⟩
      · exact ⟨s', _, hs'⟩
  | joiningManager =>
    by_cases hm : s.manager = .exited
    · exact ⟨_, _, .joinManager hp hm⟩
    · have hq : s.channel.queue ≠ [] := by
        intro hq
        have hfifo := h.fifo
        rw [Channel.Fifo, h.handled, Manager.kills_of_ne hm, hq, hp] at hfifo
        exact kill_nowhere (by simpa [Stopper.kills] using hfifo.symm)
      obtain ⟨s', hs'⟩ := manager_step hm hq
      exact ⟨s', _, hs'⟩

/-! ### `stop` returns -/

def Snapshot.weight : Snapshot → ℕ
  | .snapping final => if final then 4 else 9
  | .sending final _ => if final then 3 else 8
  | .waiting => 5
  | .exited => 0

def Manager.weight : Manager → ℕ
  | .pushing _ => 1
  | _ => 0

def Stopper.weight : Stopper → ℕ
  | .running => 7
  | .joining => 6
  | .joined => 5
  | .killing => 4
  | .joiningManager => 1
  | .done => 0

theorem Snapshot.weight_exited : Snapshot.exited.weight = 0 := rfl

/-- A bound on the steps that are left once the terminate channel is gone. -/
def State.weight (s : State) : ℕ :=
  2 * s.channel.queue.length + s.snapshot.weight + s.manager.weight + s.stopper.weight

theorem Snapshot.weight_after (final : Bool) (session : Session) :
    (Snapshot.after final).weight + 3 = (Snapshot.sending final session).weight ∧
      (Snapshot.sending final session).weight + 1 = (Snapshot.snapping final).weight := by
  cases final <;> exact ⟨rfl, rfl⟩

theorem weight_lt {t : Thread} {s s' : State} (h : Inv s) (ht : s.terminated = true)
    (hs : Step t s s') : s'.weight < s.weight := by
  cases hs with
  | timeout hp open' => cases ht.symm.trans open'
  | disconnected hp closed =>
    simp only [State.weight, hp, Snapshot.weight, if_true]
    omega
  | @snapshotFails _ final hp =>
    have hw : 0 < (Snapshot.snapping final).weight := by cases final <;> decide
    simp only [State.weight, hp, Snapshot.weight_exited]
    omega
  | @emptyBatch _ final hp =>
    have hw : (Snapshot.after final).weight < (Snapshot.snapping final).weight := by
      cases final <;> decide
    simp only [State.weight, hp]
    omega
  | @batch _ final hp session =>
    have hw := Snapshot.weight_after final session
    simp only [State.weight, hp]
    omega
  | @send _ final session c hp alive hc =>
    have hw := Snapshot.weight_after final session
    simp only [State.weight, hp, Channel.send_queue hc, List.length_append, List.length_singleton]
    omega
  | @sendFails _ final session hp gone =>
    have hw := Snapshot.weight_after final session
    simp only [State.weight, hp, Snapshot.weight_exited]
    omega
  | recvSession hp hc =>
    simp only [State.weight, hp, Channel.recv_queue hc, List.length_cons, Manager.weight]
    omega
  | pushReturns hp =>
    simp only [State.weight, hp, Manager.weight]
    omega
  | recvKill hp hc =>
    simp only [State.weight, hp, Channel.recv_queue hc, List.length_cons, Manager.weight]
    omega
  | recvDisconnected hp hq noSnapshot noAgent => cases hp.symm.trans (h.done noAgent)
  | stop hp => exact (h.terminated.mp ht hp).elim
  | joinSnapshot hp exited =>
    simp only [State.weight, hp, Stopper.weight]
    omega
  | shutdownBackend hp =>
    simp only [State.weight, hp, Stopper.weight]
    omega
  | sendKill hp alive hc =>
    simp only [State.weight, hp, Channel.send_queue hc, List.length_append, List.length_singleton,
      Stopper.weight]
    omega
  | killFails hp gone =>
    simp only [State.weight, hp, Stopper.weight]
    omega
  | joinManager hp exited =>
    simp only [State.weight, hp, Stopper.weight]
    omega

theorem terminated_step {t : Thread} {s s' : State} (ht : s.terminated = true) (hs : Step t s s') :
    s'.terminated = true := by
  cases hs with
  | stop hp => rfl
  | _ => exact ht

/- Once `stop` has been called it returns, whatever the order of the steps from there:
every step brings the end nearer, and until the end there is one. -/
theorem stop_returns {s : State} (h : Reachable (· = State.initial) Run s)
    (ht : s.terminated = true) :
    ∃ s', Relation.ReflTransGen Run s s' ∧ s'.stopper = .done := by
  refine @reaches_done State Run (fun s => Inv s ∧ s.terminated = true) (fun s => s.stopper = .done)
    State.weight ?_ ?_ s ⟨reachable_inv h, ht⟩
  · intro s s' ⟨hi, ht⟩ ⟨t, hs⟩
    exact ⟨⟨step_inv hi hs, terminated_step ht hs⟩, weight_lt hi ht hs⟩
  · intro s ⟨hi, ht⟩ hdone
    exact progress hi (hi.terminated.mp ht) hdone

/-! ### The promise -/

structure ShutdownSound (s : State) : Prop where
  sent : s.sent = s.pushed ++ s.channel.queue.filterMap session?
  returned : s.stopper = .done → s.manager = .exited ∧ s.pushed = s.sent
  afterKill : .kill ∈ s.handled → ∀ t s', Step t s s' → s'.pushed = s.pushed
  unblocked : ¬∀ t, Blocked s t
  progress : s.stopper ≠ .running → s.stopper ≠ .done → ∃ s', Run s s'

/-- Every session that was sent is passed to `push` once and in order before `stop`
returns, none is after `Kill`, and the threads never all wait. -/
theorem shutdown_loses_nothing {s : State} (h : Reachable (· = State.initial) Run s) :
    ShutdownSound s := by
  have hi := reachable_inv h
  refine ⟨hi.sent_eq, fun hd => ?_, fun hk t s' hs => ?_,
    fun hb => not_both_blocked s ⟨hb .snapshot, hb .manager⟩, progress hi⟩
  · exact ⟨hi.done hd, (hi.queue_of_exited (hi.done hd)).1⟩
  · exact pushed_of_exited (hi.exited_of_kill hk) hs

/- One session before the stop, a second one, the last, after it. -/
theorem shutdown_loses_nothing_last : ∃ s, Reachable (· = State.initial) Run s ∧
    s.stopper = .done ∧ s.pushed = [localhostSession, localhostSession] ∧ ShutdownSound s := by
  have h : Reachable (· = State.initial) Run State.initial := .init rfl
  have h := h.step ⟨_, .timeout rfl rfl⟩
  have h := h.step ⟨_, @Step.batch _ false rfl localhostSession⟩
  have h := h.step ⟨_, @Step.send _ false localhostSession _ rfl nofun rfl⟩
  have h := h.step ⟨_, .stop rfl⟩
  have h := h.step ⟨_, .disconnected rfl rfl⟩
  have h := h.step ⟨_, @Step.batch _ true rfl localhostSession⟩
  have h := h.step ⟨_, .recvSession rfl rfl⟩
  have h := h.step ⟨_, @Step.send _ true localhostSession _ rfl nofun rfl⟩
  have h := h.step ⟨_, .joinSnapshot rfl rfl⟩
  have h := h.step ⟨_, .shutdownBackend rfl⟩
  have h := h.step ⟨_, .sendKill rfl nofun rfl⟩
  have h := h.step ⟨_, @Step.pushReturns _ localhostSession rfl⟩
  have h := h.step ⟨_, .recvSession rfl rfl⟩
  have h := h.step ⟨_, @Step.pushReturns _ localhostSession rfl⟩
  have h := h.step ⟨_, .recvKill rfl rfl⟩
  have h := h.step ⟨_, .joinManager rfl rfl⟩
  exact ⟨_, h, rfl, rfl, shutdown_loses_nothing h⟩

/-! ### The same thread as a function -/

theorem beforeKill_sessions (sessions : List Session) (signals : List SessionSignal) :
    beforeKill (sessions.map .session ++ signals) = sessions ++ beforeKill signals := by
  induction sessions with
  | nil => rfl
  | cons session sessions ih => exact congrArg (session :: ·) ih

/- The loop over the signals that were received attempts exactly what was pushed here. -/
theorem recvLoop_pushed {s : State} (h : Reachable (· = State.initial) Run s) (crates : Crates)
    (env : ℕ → Env)
    (hp : ∀ p ∈ s.pushed.zipIdx, p.1.Pushable crates (env p.2).chance) :
    (recvLoop crates env 0 s.handled).1 = s.pushed := by
  have hkills : ∀ m : Manager, beforeKill m.kills = [] := fun m => by cases m <;> rfl
  have hbefore : beforeKill s.handled = s.pushed := by
    rw [(reachable_inv h).handled, beforeKill_sessions, hkills, List.append_nil]
  have hreturns : ∀ p ∈ (beforeKill s.handled).zipIdx 0,
      ∃ r, p.1.push crates (env p.2).chance (env p.2).server = .ok r := by
    rw [hbefore]
    exact fun p hmem => (Session.push_returns crates _ _ p.1).mpr (hp p hmem)
  have hsurvives := survives_of_returns crates env s.handled 0 hreturns
  rw [hsurvives.attempted, hbefore]

end Pyroscope.Upload.Shutdown
