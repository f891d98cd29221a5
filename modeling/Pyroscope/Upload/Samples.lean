import Pyroscope.Upload.Dumps

/-!
# From `push_sample` to the server (lib.rs, pyroscope.rs, session.rs)

When `stop` has returned, every sample that a builder accepted is in a request posted to
the server or still in the builder; those accepted before `stop` was called are in a
request, if the last dumps could enter their locks.
-/

namespace Pyroscope.Upload.Flush
open Pyroscope.Lib Pyroscope.Backend Pyroscope.Encode
open Pyroscope.Agent (Logged LoggedStep WindowLog DumpKind Push)

section
variable {σ κ : Type} {S : Source σ κ} {crates : Crates} {config : PyroscopeConfig}
  {mem : MemConfig} {stack : StackConfig}

/-! ### The request -/

/-- The series is the profile of the dump, under its name. -/
def Dump.Row (crates : Crates) (d : Dump) (row : RawProfileSeries) : Prop :=
  row.labels.head? = some ⟨"__name__", profileType d.kind⟩ ∧
    ∃ id, row.samples = [⟨crates.encodeProfile d.profile, id⟩]

/-- The request posted for the session begins with the profiles of the dumps, which cover
its window. -/
def PostsDumps (crates : Crates) (chance : Chance) (session : Session) (dumps : List Dump) : Prop :=
  ∃ request rows rest, Session.Posts crates chance session request ∧
    crates.gzip (crates.encodePushRequest ⟨rows ++ rest⟩) = .ok request.body ∧
    List.Forall₂ (Dump.Row crates) dumps rows ∧ rest.length ≤ 1 ∧
    ∀ d ∈ dumps, d.profile.Covers session.timeRange

theorem rows_of_dumps {chance : Chance} {timeRange : TimeRange} {dumps : List Dump} {k : ℕ}
    {rows : List RawProfileSeries}
    (h : List.Forall₂ (Session.RowOf crates chance config timeRange)
      ((dumps.map (Dump.batch crates)).zipIdx k) rows) : List.Forall₂ (Dump.Row crates) dumps rows := by
  induction dumps generalizing k rows with
  | nil =>
    cases h
    exact .nil
  | cons d dumps ih =>
    rw [List.map_cons, List.zipIdx_cons] at h
    cases h with
    | cons hrow hrest =>
      obtain ⟨bytes, hbytes, rfl⟩ := hrow
      cases hbytes
      exact .cons ⟨head_labelsForProfile _ _ _, _, rfl⟩ (ih hrest)

theorem postsDumps_of_carries {chance : Chance} {session : Session} {dumps : List Dump}
    (h : Carries crates config session dumps) (hpushable : session.Pushable crates chance)
    {url : crates.Url} (hurl : crates.parse config.url = .ok url) :
    PostsDumps crates chance session dumps := by
  obtain ⟨hconfig, ⟨others, hbatch, hfew⟩, hcovers⟩ := h
  rw [← hconfig] at hurl
  obtain ⟨rows, request, url', hposts, hrows, -, -, hbody⟩ :=
    Session.push_posts crates chance hpushable hurl
  have hall := Session.series_rows crates chance hrows
  rw [hbatch, List.zipIdx_append] at hall
  have hsplit := List.take_append_drop dumps.length rows
  have hlength : ((dumps.map (Dump.batch crates)).zipIdx 0).length = dumps.length := by
    rw [List.length_zipIdx, List.length_map]
  have htake := (List.forall₂_take_append _ _ _ hall.flip).flip
  have hdrop := (List.forall₂_drop_append _ _ _ hall.flip).length_eq
  rw [hlength] at htake hdrop
  refine ⟨request, rows.take dumps.length, rows.drop dumps.length, hposts, ?_, rows_of_dumps htake, ?_,
    hcovers⟩
  · rw [hsplit]
    exact hbody
  · rw [hdrop, List.length_zipIdx]
    exact hfew

/-- When `stop` has returned, every session has been posted with the dumps behind it, each
of which shows its window; what the builders accepted is, in order, what these dumps show
and what is still in the builders, as their samples. -/
structure SamplesPosted (crates : Crates) (env : ℕ → Env) (j : Joint σ κ) : Prop where
  pushed : j.upload.agent.pushed = j.upload.agent.sent
  posted : List.Forall₂ (fun p dumps => PostsDumps crates (env p.2).chance p.1 dumps)
    j.upload.agent.pushed.zipIdx j.handed
  shown : ∀ d ∈ j.handed.flatten, d.Shows
  accounted : ∀ k, (j.logged.log k).pushed =
    ((j.handed.flatten.filter fun d => d.kind = k).flatMap Dump.pushes) ++ (j.logged.log k).opened
  memory : Agent.Buffers j.logged.process.memory (j.logged.log .memory).opened
  wall : Agent.Buffers j.logged.process.wall (j.logged.log .wall).opened
  oncpu : Agent.Buffers j.logged.process.oncpu (j.logged.log .oncpu).opened

/- An agent that has stopped has no batch under way. -/
theorem Joint.Inv.carried_of_done {j : Joint σ κ} (h : j.Inv S crates config)
    (hdone : j.upload.agent.stopper = .done) : j.carried = [] := by
  have hexited := h.agent.joined (by rw [hdone]; rfl)
  exact (h.holds.idle (Or.inr hexited)).2

theorem posted_of_done {env : ℕ → Env} {j : Joint σ κ} (h : j.Inv S crates config)
    (hdone : j.upload.agent.stopper = .done) {url : crates.Url} (hurl : crates.parse config.url = .ok url)
    (hpushable : ∀ p ∈ j.upload.agent.sent.zipIdx, p.1.Pushable crates (env p.2).chance) :
    j.upload.agent.pushed = j.upload.agent.sent ∧
    List.Forall₂ (fun p dumps => PostsDumps crates (env p.2).chance p.1 dumps)
      j.upload.agent.pushed.zipIdx j.handed := by
  obtain ⟨hpushed, -⟩ := h.agent.queue_of_exited (h.agent.done hdone)
  refine ⟨hpushed, ?_⟩
  rw [hpushed]
  exact forall₂_zipIdx h.handed fun p hp dumps _ hcarries =>
    postsDumps_of_carries hcarries (hpushable p hp) hurl

/- What was dumped has been handed over. -/
theorem handed_pushes {j : Joint σ κ} (h : j.Inv S crates config) (hdone : j.upload.agent.stopper = .done)
    (k : DumpKind) : (j.handed.flatten.filter fun d => d.kind = k).flatMap Dump.pushes =
      (j.logged.log k).closed.flatMap Prod.fst := by
  have hclosed := h.closed_pushes k
  rw [h.carried_of_done hdone, List.append_nil] at hclosed
  exact hclosed

/-- From `push_sample` to the server: whatever the profilers and the snapshots did, each
sample that was accepted is in one posted profile, which shows it, or still in its builder. -/
theorem samples_posted (env : ℕ → Env) {j : Joint σ κ} (h : Reachable (Joint.Initial S)
      (fun j j' => JointStep S crates config mem stack j j' ∧ Fine S j) j)
    (hdone : j.upload.agent.stopper = .done) {url : crates.Url} (hurl : crates.parse config.url = .ok url)
    (hpushable : ∀ p ∈ j.upload.agent.sent.zipIdx, p.1.Pushable crates (env p.2).chance) :
    SamplesPosted crates env j := by
  have hinv := reachable_joint h
  obtain ⟨hpushed, hposted⟩ := posted_of_done hinv hdone hurl hpushable
  refine ⟨hpushed, hposted, fun d hd => hinv.shows (List.mem_append_left _ hd), fun k => ?_,
    hinv.tracks.memory.builder, hinv.tracks.wall.builder, hinv.tracks.oncpu.builder⟩
  rw [handed_pushes hinv hdone k]
  exact hinv.log_pushed k

/-! ### The samples before `stop` -/

/-- No interpreter is finalizing, and the locks of the dumps can be entered. -/
structure Joint.Open (j : Joint σ κ) : Prop where
  attached : j.attached = true
  memory : refuses j.logged.process.interner j.logged.process.memory = false
  wall : refuses j.logged.process.interner j.logged.process.wall = false
  oncpu : refuses j.logged.process.interner j.logged.process.oncpu = false

/-- The conditions on a step: the snapshot does not panic, the stop watch was not started
before the epoch, and the last snapshot can make its dumps. -/
structure Flushes (S : Source σ κ) (j : Joint σ κ) : Prop where
  fine : Fine S j
  epoch : AfterEpoch j.upload
  last : isFinal j.upload.agent.snapshot = true → j.upload.stage.isDumping = true → j.Open

/-- The profiles that a snapshot dumps. -/
def dumps (mem : MemConfig) (stack : StackConfig) : DumpKind → Bool
  | .memory => mem.enabled
  | .wall => stack.enabled && !stack.oncpu
  | .oncpu => stack.enabled && stack.oncpu

def Dumping.past : Dumping → DumpKind → Bool
  | .memory, _ => false
  | .stack, .memory => true
  | .stack, _ => false
  | .done, _ => true

/-- The snapshot has come past the dump. -/
def Stage.pastDump (dumping : Dumping) (kind : DumpKind) : Stage → Bool
  | .lapping => false
  | .dumping _ => dumping.past kind
  | _ => true

variable (mem stack) in
structure Joint.Flushed (j : Joint σ κ) : Prop where
  dumping : j.upload.stage.isDumping = false → j.dumping = .memory
  final : isFinal j.upload.agent.snapshot = true → j.upload.agent.terminated = true
  stopped : j.upload.agent.terminated = true → ∀ k, j.atStop k <+: (j.logged.log k).pushed
  flushed : isFinal j.upload.agent.snapshot = true → ∀ k, dumps mem stack k = true →
    j.upload.stage.pastDump j.dumping k = true →
    j.atStop k <+: (j.logged.log k).closed.flatMap Prod.fst

theorem flushed_initial {j : Joint σ κ} (h : j.Initial S) : j.Flushed mem stack := by
  obtain ⟨l, -, -, ⟨watch, source, -, hupload⟩, -, hdumping, -, -⟩ := h
  refine ⟨fun _ => hdumping, fun hf => ?_, fun ht => ?_, fun hf => ?_⟩
  · rw [hupload] at hf
    cases hf
  · rw [hupload] at ht
    cases ht
  · rw [hupload] at hf
    cases hf

namespace Joint.Flushed
variable {j : Joint σ κ} {u : State σ κ}

/- The snapshot thread does not come past a dump, except from it. -/
theorem next (h : j.Flushed mem stack) (hd : j.upload.stage.isDumping = true → u.stage.isDumping = true)
    (hterminated : u.agent.terminated = j.upload.agent.terminated)
    (hfinal : isFinal u.agent.snapshot = true → u.agent.terminated = true)
    (hpast : isFinal u.agent.snapshot = true → ∀ k, u.stage.pastDump j.dumping k = true →
      isFinal j.upload.agent.snapshot = true ∧ j.upload.stage.pastDump j.dumping k = true) :
    (j.next u).Flushed mem stack := by
  have hatStop : (j.next u).atStop = j.atStop := if_pos hterminated
  refine ⟨fun hn => h.dumping ?_, hfinal, fun ht => ?_, fun hf k hk hp => ?_⟩
  · by_contra hc
    rw [Bool.not_eq_false] at hc
    cases (hd hc).symm.trans hn
  · rw [hatStop]
    exact h.stopped (hterminated ▸ ht)
  · obtain ⟨hf', hp'⟩ := hpast hf k hp
    rw [hatStop]
    exact h.flushed hf' k hk hp'

/- The other threads of the agent. -/
theorem next_agent (h : j.Flushed mem stack) {agent : Shutdown.State} {running : Bool} {source : σ}
    {captured : Option κ} (hsnapshot : agent.snapshot = j.upload.agent.snapshot)
    (hterminated : agent.terminated = j.upload.agent.terminated) :
    (j.next { j.upload with agent, running, source, captured }).Flushed mem stack := by
  refine h.next id hterminated (fun hf => ?_) fun hf k hp => ?_
  · show agent.terminated = true
    rw [hterminated]
    exact h.final (hsnapshot ▸ hf)
  · exact ⟨hsnapshot ▸ hf, hp⟩

/- A snapshot goes on behind its dumps. -/
theorem next_behind (h : j.Flushed mem stack) (hterminated : u.agent.terminated = j.upload.agent.terminated)
    (hfinal : isFinal u.agent.snapshot = true → isFinal j.upload.agent.snapshot = true)
    (hdumping : j.upload.stage.isDumping = false)
    (hbehind : ∀ k, j.upload.stage.pastDump j.dumping k = true) : (j.next u).Flushed mem stack := by
  refine h.next (fun hd => ?_) hterminated (fun hf => ?_) fun hf k _ => ⟨hfinal hf, hbehind k⟩
  · cases hdumping.symm.trans hd
  · rw [hterminated]
    exact h.final (hfinal hf)

end Joint.Flushed

theorem upload_flushed {j : Joint σ κ} {u : State σ κ} (hi : j.Inv S crates config)
    (h : j.Flushed mem stack) (hflush : Flushes S j) (hs : Step S crates config j.upload u)
    (hd : j.upload.stage.isDumping = true → u.stage.isDumping = true) :
    (j.next u).Flushed mem stack := by
  cases hs with
  | runs hr => exact h.next_agent rfl rfl
  | @wakes final hw hf =>
    refine h.next (fun hdump => ?_) rfl (fun hfinal => ?_) fun _ k hp => ?_
    · rw [(hi.holds.idle (Or.inl hw)).1] at hdump
      cases hdump
    · exact hf.trans hfinal
    · cases hp
  | lap now hst epoch =>
    refine h.next (fun _ => rfl) rfl h.final fun _ k hp => ?_
    have hp' : j.dumping.past k = true := hp
    rw [h.dumping (by rw [hst]; rfl)] at hp'
    cases hp'
  | lapFails hst epoch hf => exact absurd (hflush.epoch hst) (not_le.mpr epoch)
  | dump others hst =>
    rw [hst] at hd
    cases hd rfl
  | lock hst hl => exact h.next_agent rfl rfl
  | take hst ht => exact h.next_behind rfl id (by rw [hst]; rfl) fun k => by rw [hst]; rfl
  | swap hst hw => exact h.next_agent rfl rfl
  | finish hst hf => exact h.next_behind rfl id (by rw [hst]; rfl) fun k => by rw [hst]; rfl
  | panics hst hp hf => exact (hflush.fine.encodes _ _ _ _ hst hp).elim
  | empty hst hp hf hb =>
    refine h.next_behind rfl (fun hfinal => ?_) (by rw [hst]; rfl) fun k => by rw [hst]; rfl
    rw [hf]
    exact isFinal_after hfinal
  | session hst hp hf hb =>
    refine h.next_behind rfl (fun hfinal => ?_) (by rw [hst]; rfl) fun k => by rw [hst]; rfl
    rw [hf]
    exact hfinal
  | send hst hf alive hc =>
    refine h.next_behind rfl (fun hfinal => ?_) (by rw [hst]; rfl) fun k => by rw [hst]; rfl
    rw [hf]
    exact isFinal_after hfinal
  | sendFails hf gone => exact (hi.sends gone hf).elim
  | manager hman =>
    obtain ⟨hsnapshot, hterminated, -⟩ := manager_quiet hman
    exact h.next_agent hsnapshot hterminated
  | stop hst =>
    -- what `stop` finds pushed is flushed by a snapshot that is yet to begin
    have hopen : ¬isFinal j.upload.agent.snapshot = true := fun hf =>
      hi.agent.terminated.mp (h.final hf) hst
    have hterminated : j.upload.agent.terminated = false := by
      rw [Bool.eq_false_iff]
      exact fun ht => hi.agent.terminated.mp ht hst
    refine ⟨h.dumping, fun hf => (hopen hf).elim, fun _ k => ?_, fun hf => (hopen hf).elim⟩
    have hatStop : (j.next { j.upload with
        agent := { j.upload.agent with stopper := .joining, terminated := true }
        captured := some (S.capture j.upload.source) }).atStop = fun k => (j.logged.log k).pushed := by
      refine if_neg ?_
      rw [hterminated]
      exact Bool.noConfusion
    rw [hatStop]
    exact List.prefix_rfl
  | joinSnapshot hst exited => exact h.next_agent rfl rfl
  | clearRunning hst => exact h.next_agent rfl rfl
  | joinSampler hst stopped ended => exact h.next_agent rfl rfl
  | kill hst hk =>
    obtain ⟨hsnapshot, hterminated, -⟩ := stopper_quiet hk (by simp [hst])
    exact h.next_agent hsnapshot hterminated
  | joinManager hst hk =>
    obtain ⟨hsnapshot, hterminated, -⟩ := stopper_quiet hk (by simp [hst])
    exact h.next_agent hsnapshot hterminated

/-! ### The dumps of the last snapshot -/

theorem pushSample_pushed (log : WindowLog) (refused : Bool) (p : Push) :
    log.pushed <+: (log.pushSample refused p).pushed := by
  cases refused with
  | true => exact List.prefix_rfl
  | false => exact List.prefix_append _ _

theorem dump_pushed (log : WindowLog) (refused : Bool) (profile : Option Profile) :
    (log.dump refused profile).pushed = log.pushed := by
  cases refused <;> rfl

theorem closeIf_pushed (log : WindowLog) (cleared : Bool) : (log.closeIf cleared).pushed = log.pushed := by
  cases cleared <;> rfl

/- No step forgets what was pushed. -/
theorem loggedStep_pushed {l l' : Logged} (h : LoggedStep l l') (k : DumpKind) :
    (l.log k).pushed <+: (l'.log k).pushed := by
  cases h with
  | pushMemory running frames values held hp =>
    cases k with
    | memory => exact pushSample_pushed _ _ _
    | _ => exact List.prefix_rfl
  | pushWall running frames values held hp =>
    cases k with
    | wall => exact pushSample_pushed _ _ _
    | _ => exact List.prefix_rfl
  | pushOncpu running frames values held hp =>
    cases k with
    | oncpu => exact pushSample_pushed _ _ _
    | _ => exact List.prefix_rfl
  | dumpMemory config ordSamples ordStrings timeRange hd =>
    cases k with
    | memory => exact (dump_pushed _ _ _) ▸ List.prefix_rfl
    | _ => exact List.prefix_rfl
  | dumpWall config ordSamples ordStrings timeRange hd =>
    cases k with
    | wall => exact (dump_pushed _ _ _) ▸ List.prefix_rfl
    | _ => exact List.prefix_rfl
  | dumpOncpu config ordSamples ordStrings timeRange hd =>
    cases k with
    | oncpu => exact (dump_pushed _ _ _) ▸ List.prefix_rfl
    | _ => exact List.prefix_rfl
  | control hc moved busy => cases k <;> exact (closeIf_pushed _ _) ▸ List.prefix_rfl
  | _ => cases k <;> exact List.prefix_rfl

theorem dump_closed (log : WindowLog) (refused : Bool) (profile : Option Profile) :
    log.closed <+: (log.dump refused profile).closed := by
  cases refused with
  | true => exact List.prefix_rfl
  | false => exact List.prefix_append _ _

/- The dumps that a step comes past have emptied their builders. -/
theorem Joint.Flushed.dump {j : Joint σ κ} (h : j.Flushed mem stack) {timeRange : TimeRange}
    (hst : j.upload.stage = .dumping timeRange) {l : Logged} {dumping : Dumping} {carried : List Dump}
    (hpushed : ∀ k, (j.logged.log k).pushed <+: (l.log k).pushed)
    (hclosed : ∀ k, (j.logged.log k).closed <+: (l.log k).closed)
    (hnew : isFinal j.upload.agent.snapshot = true → ∀ k, dumps mem stack k = true →
      dumping.past k = true → j.dumping.past k = true ∨ (l.log k).pushed = (l.log k).closed.flatMap Prod.fst) :
    Joint.Flushed mem stack { j with logged := l, dumping, carried } := by
  refine ⟨fun hn => ?_, h.final, fun ht k => (h.stopped ht k).trans (hpushed k), fun hf k hk hp => ?_⟩
  · have hn' : j.upload.stage.isDumping = false := hn
    rw [hst] at hn'
    cases hn'
  · have hp' : j.upload.stage.pastDump dumping k = true := hp
    rw [hst] at hp'
    rcases hnew hf k hk hp' with hold | hempty
    · have hflushed := h.flushed hf k hk (by rw [hst]; exact hold)
      exact hflushed.trans ((hclosed k).flatMap _)
    · show j.atStop k <+: (l.log k).closed.flatMap Prod.fst
      rw [← hempty]
      exact (h.stopped (h.final hf) k).trans (hpushed k)

/- A dump that enters its locks leaves nothing in the window. -/
theorem dump_empties {log log' : WindowLog} {refused : Bool} {profile : Option Profile}
    (hlog : log' = log.dump refused profile) (hopen : refused = false)
    (hpushed : log'.pushed = log'.closed.flatMap Prod.fst ++ log'.opened) :
    log'.pushed = log'.closed.flatMap Prod.fst := by
  subst hlog hopen
  rw [hpushed]
  exact List.append_nil _

theorem jointStep_flushed {j j' : Joint σ κ} (hi : j.Inv S crates config) (h : j.Flushed mem stack)
    (hflush : Flushes S j) (hs : JointStep S crates config mem stack j j') : j'.Flushed mem stack := by
  have hi' := jointStep_inv hi hflush.fine hs
  cases hs with
  | upload hu hd => exact upload_flushed hi h hflush hu hd
  | process hl up closed =>
    refine ⟨h.dumping, h.final, fun ht k => (h.stopped ht k).trans (loggedStep_pushed hl k),
      fun hf k hk hp => ?_⟩
    show j.atStop k <+: _
    rw [closed k]
    exact h.flushed hf k hk hp
  | finalize => exact ⟨h.dumping, h.final, h.stopped, h.flushed⟩
  | memoryOff hst hd off =>
    refine h.dump hst (fun _ => List.prefix_rfl) (fun _ => List.prefix_rfl) fun _ k hk hp => ?_
    cases k with
    | memory => cases off.symm.trans hk
    | wall => cases hp
    | oncpu => cases hp
  | notAttached hst hd on detached =>
    refine h.dump hst (fun _ => List.prefix_rfl) (fun _ => List.prefix_rfl) fun hf k hk hp => ?_
    cases detached.symm.trans (hflush.last hf (by rw [hst]; rfl)).attached
  | dumpMemory ordSamples ordStrings hst hd on hp fine =>
    refine h.dump hst (loggedStep_pushed (.dumpMemory _ _ _ _ hp)) (fun k => ?_) fun hf k hk hpast => ?_
    · cases k with
      | memory => exact dump_closed _ _ _
      | _ => exact List.prefix_rfl
    · cases k with
      | memory =>
        have hopen := fine.trans (hflush.last hf (by rw [hst]; rfl)).memory
        exact Or.inr (dump_empties rfl hopen (hi'.log_pushed .memory))
      | wall => cases hpast
      | oncpu => cases hpast
  | stackOff hst hd off =>
    refine h.dump hst (fun _ => List.prefix_rfl) (fun _ => List.prefix_rfl) fun _ k hk hp => ?_
    cases k with
    | memory => exact Or.inl (by rw [hd]; rfl)
    | wall => simp [dumps, off] at hk
    | oncpu => simp [dumps, off] at hk
  | dumpWall intervalUs ordSamples ordStrings hst hd on wall hp fine =>
    refine h.dump hst (loggedStep_pushed (.dumpWall _ _ _ _ hp)) (fun k => ?_) fun hf k hk hpast => ?_
    · cases k with
      | wall => exact dump_closed _ _ _
      | _ => exact List.prefix_rfl
    · cases k with
      | memory => exact Or.inl (by rw [hd]; rfl)
      | wall =>
        have hopen := fine.trans (hflush.last hf (by rw [hst]; rfl)).wall
        exact Or.inr (dump_empties rfl hopen (hi'.log_pushed .wall))
      | oncpu => simp [dumps, wall] at hk
  | dumpOncpu intervalUs ordSamples ordStrings hst hd on oncpu hp fine =>
    refine h.dump hst (loggedStep_pushed (.dumpOncpu _ _ _ _ hp)) (fun k => ?_) fun hf k hk hpast => ?_
    · cases k with
      | oncpu => exact dump_closed _ _ _
      | _ => exact List.prefix_rfl
    · cases k with
      | memory => exact Or.inl (by rw [hd]; rfl)
      | wall => simp [dumps, oncpu] at hk
      | oncpu =>
        have hopen := fine.trans (hflush.last hf (by rw [hst]; rfl)).oncpu
        exact Or.inr (dump_empties rfl hopen (hi'.log_pushed .oncpu))
  | dumpPanics hst hf hl => exact (dump_fine hi (hflush.fine.room (by rw [hst]; rfl)) hl).elim
  | report hst hd =>
    refine ⟨fun _ => rfl, h.final, h.stopped, fun hf k hk _ => ?_⟩
    refine h.flushed hf k hk ?_
    rw [hst, hd]
    rfl

/-- No sample pushed before `stop` is lost: those of the profiles that are dumped are, in
order, the first that the posted requests show. -/
theorem stop_flushes_samples (env : ℕ → Env) {j : Joint σ κ} (h : Reachable (Joint.Initial S)
      (fun j j' => JointStep S crates config mem stack j j' ∧ Flushes S j) j)
    (hdone : j.upload.agent.stopper = .done) {url : crates.Url} (hurl : crates.parse config.url = .ok url)
    (hpushable : ∀ p ∈ j.upload.agent.sent.zipIdx, p.1.Pushable crates (env p.2).chance) :
    j.upload.agent.pushed = j.upload.agent.sent ∧
    List.Forall₂ (fun p dumps => PostsDumps crates (env p.2).chance p.1 dumps)
      j.upload.agent.pushed.zipIdx j.handed ∧
    ∀ k, dumps mem stack k = true →
      j.atStop k <+: (j.handed.flatten.filter fun d => d.kind = k).flatMap Dump.pushes := by
  have hinvs : ∀ {j : Joint σ κ}, Reachable (Joint.Initial S)
      (fun j j' => JointStep S crates config mem stack j j' ∧ Flushes S j) j → j.Inv S crates config :=
    fun hj => reachable_joint (hj.mono fun _ _ hs => ⟨hs.1, hs.2.fine⟩)
  have hinv := hinvs h
  have hflushed : j.Flushed mem stack :=
    h.invariant_with (fun _ hj => hinvs hj) (fun _ hj => flushed_initial hj)
      fun _ _ hi hf hs => jointStep_flushed hi hf hs.2 hs.1
  obtain ⟨hpushed, hposted⟩ := posted_of_done hinv hdone hurl hpushable
  refine ⟨hpushed, hposted, fun k hk => ?_⟩
  have hexited := hinv.agent.joined (by rw [hdone]; rfl)
  obtain ⟨hidle, -⟩ := hinv.holds.idle (Or.inr hexited)
  rw [handed_pushes hinv hdone k]
  refine hflushed.flushed (by rw [hexited]; rfl) k hk ?_
  rw [hidle]
  rfl

end

/-! ### A run without a reporter -/

/-- `reporter` is `None`. -/
def noReporter : Source Unit Unit where
  initial _ := True
  runs _ _ _ := False
  lock _ _ := False
  take a a' := a' = a
  swap _ _ := False
  finish a b a' := b = .default ∧ a' = a
  payload _ _ r := r = .ok (.pprof none)
  capture _ := ()
  ended _ := True

theorem noReporter_fine {j : Joint Unit Unit} (hroom : j.upload.stage.isDumping = true →
    j.logged.process.interner.table.set.toList.length ≤ 100) : Fine noReporter j := by
  refine ⟨fun timeRange others b p _ hp => (by cases hp), fun hd strings hrepr k => ?_⟩
  refine StringTable.room_of_length _ _ ?_
  have hlength := hrepr.dense.entries.length_eq
  rw [List.length_map, List.length_zipIdx] at hlength
  have hlen := hroom hd
  have hfew : (requests k).length ≤ 100 := by cases k <;> decide
  have hmax : u32Max = 4294967295 := rfl
  omega

theorem flushes_dumping {j : Joint Unit Unit} (hwatch : 0 ≤ j.upload.watch) (hopen : j.Open)
    (hroom : j.logged.process.interner.table.set.toList.length ≤ 100) : Flushes noReporter j :=
  ⟨noReporter_fine fun _ => hroom, fun _ => hwatch, fun _ _ => hopen⟩

theorem flushes_quiet {j : Joint Unit Unit} (hwatch : 0 ≤ j.upload.watch)
    (hd : j.upload.stage.isDumping = false) : Flushes noReporter j := by
  refine ⟨noReporter_fine fun hd' => ?_, fun _ => hwatch, fun _ hd' => ?_⟩
  · cases hd.symm.trans hd'
  · cases hd.symm.trans hd'

theorem dump_pushable (d : Dump) (timeRange : TimeRange) :
    (⟨agentConfig, [d.batch splitCrates], timeRange⟩ : Session).Pushable splitCrates storedChance := by
  refine ⟨List.forall_mem_singleton.mpr trivial, ?_⟩
  have hbase : Session.BaseUrl splitCrates agentConfig := by
    intro url hurl
    cases hurl
    rfl
  exact hbase

/- What is in the memory builder is dumped in the last snapshot. -/
theorem memory_upload {l : Logged} (hl : Reachable (· = Logged.initial) LoggedStep l)
    (hcontrol : l.process.control = .build) {p : Profile} {b : Agent.LockedBuilder MemoryProfile}
    {i : Agent.Interner} (ordSamples ordStrings)
    (hp : l.process.memory.dump (512 : UInt64) ordSamples ordStrings ⟨0, 5⟩ l.process.interner = (some p, b, i))
    (hopen : refuses l.process.interner l.process.memory = false ∧ refuses i b = false)
    (hwall : refuses l.process.interner l.process.wall = false ∧ refuses i l.process.wall = false)
    (honcpu : refuses l.process.interner l.process.oncpu = false ∧ refuses i l.process.oncpu = false)
    (hroom : l.process.interner.table.set.toList.length ≤ 100 ∧ i.table.set.toList.length ≤ 100) :
    ∃ j : Joint Unit Unit, Reachable (Joint.Initial noReporter)
      (fun j j' => JointStep noReporter splitCrates agentConfig ⟨true, 512⟩ ⟨false, false⟩ j j' ∧
        Flushes noReporter j) j ∧ j.upload.agent.stopper = .done ∧ j.atStop .memory = l.memory.opened ∧
      j.upload.agent.sent = [⟨agentConfig, [Dump.batch splitCrates ⟨.memory, l.memory.opened, p⟩], ⟨0, 5⟩⟩] := by
  have h : Reachable (Joint.Initial noReporter)
      (fun j j' => JointStep noReporter splitCrates agentConfig ⟨true, 512⟩ ⟨false, false⟩ j j' ∧
        Flushes noReporter j)
      ⟨⟨Shutdown.State.initial, .idle, 0, true, (), none, []⟩, l.restart, .memory, true, [], [],
        fun _ => []⟩ :=
    .init ⟨_, hl, hcontrol, ⟨0, (), trivial, rfl⟩, rfl, rfl, rfl, rfl⟩
  have hwatch : (0 : ℤ) ≤ 5 := by decide
  have h := h.step ⟨.upload (.stop rfl) id, flushes_quiet le_rfl rfl⟩
  have h := h.step ⟨.upload (.wakes rfl rfl) (by rintro ⟨⟩), flushes_quiet le_rfl rfl⟩
  have h := h.step ⟨.upload (.lap 5 rfl le_rfl) (by rintro ⟨⟩), flushes_quiet le_rfl rfl⟩
  have h := h.step ⟨.dumpMemory ordSamples ordStrings rfl rfl rfl hp (hopen.2.trans hopen.1.symm),
    flushes_dumping hwatch ⟨rfl, hopen.1, hwall.1, honcpu.1⟩ hroom.1⟩
  have h := h.step ⟨.stackOff rfl rfl rfl, flushes_dumping hwatch ⟨rfl, hopen.2, hwall.2, honcpu.2⟩ hroom.2⟩
  have h := h.step ⟨.report rfl rfl, flushes_dumping hwatch ⟨rfl, hopen.2, hwall.2, honcpu.2⟩ hroom.2⟩
  have h := h.step ⟨.upload (.take rfl rfl) (by rintro ⟨⟩), flushes_quiet hwatch rfl⟩
  have h := h.step ⟨.upload (.finish rfl ⟨rfl, rfl⟩) (by rintro ⟨⟩), flushes_quiet hwatch rfl⟩
  have h := h.step ⟨.upload (.session rfl rfl rfl (List.cons_ne_nil _ _)) (by rintro ⟨⟩),
    flushes_quiet hwatch rfl⟩
  have h := h.step ⟨.upload (.send rfl rfl (by rintro ⟨⟩) rfl) (by rintro ⟨⟩), flushes_quiet hwatch rfl⟩
  have h := h.step ⟨.upload (.joinSnapshot rfl rfl) id, flushes_quiet hwatch rfl⟩
  have h := h.step ⟨.upload (.clearRunning rfl) id, flushes_quiet hwatch rfl⟩
  have h := h.step ⟨.upload (.joinSampler rfl rfl trivial) id, flushes_quiet hwatch rfl⟩
  have h := h.step ⟨.upload (.kill rfl (.sendKill rfl (by rintro ⟨⟩) rfl)) id, flushes_quiet hwatch rfl⟩
  have h := h.step ⟨.upload (.manager (.recvSession rfl rfl)) id, flushes_quiet hwatch rfl⟩
  have h := h.step ⟨.upload (.manager (.pushReturns rfl)) id, flushes_quiet hwatch rfl⟩
  have h := h.step ⟨.upload (.manager (.recvKill rfl rfl)) id, flushes_quiet hwatch rfl⟩
  have h := h.step ⟨.upload (.joinManager rfl (.joinManager rfl rfl)) id, flushes_quiet hwatch rfl⟩
  exact ⟨_, h, rfl, rfl, rfl⟩

/- One sample, pushed before the agent starts. -/
theorem sample_upload_run : ∃ j : Joint Unit Unit, Reachable (Joint.Initial noReporter)
    (fun j j' => JointStep noReporter splitCrates agentConfig ⟨true, 512⟩ ⟨false, false⟩ j j' ∧
      Flushes noReporter j) j ∧ j.upload.agent.stopper = .done ∧ (j.atStop .memory).length = 1 ∧
    ∀ p ∈ j.upload.agent.sent.zipIdx, p.1.Pushable splitCrates (acceptingEnv p.2).chance := by
  have held : Agent.HeldFrom [(⟨2⟩, "a"), (⟨1⟩, "f")] [⟨⟨⟨1⟩, ⟨2⟩, 7⟩, "f", "a"⟩] :=
    List.forall_mem_singleton.mpr ⟨.tail _ (.head _), .head _⟩
  have hl : Reachable (· = Logged.initial) LoggedStep Logged.initial := .init rfl
  have hl := hl.step (.control (.run ⟨true, false⟩ rfl) (by simp [Logged.initial, Agent.State.initial]) (by simp))
  have hl := hl.step (.control (.memoryStarts rfl rfl) (by simp) (by simp))
  have hl := hl.step (.control (.stackOff rfl rfl) (by simp) (by simp))
  have hl := hl.step (.internMemory rfl Agent.fromAscii ⟨some [102]⟩ rfl)
  have hl := hl.step (.internMemory rfl Agent.fromUtf8 ⟨some [97]⟩ rfl)
  have hl := hl.step (.pushMemory rfl _ ⟨0, 0, 64, 1, 64, 1⟩ held rfl)
  obtain ⟨j, h, hdone, hatStop, hsent⟩ := memory_upload hl rfl (.stored _) (.stored _) rfl ⟨rfl, rfl⟩
    ⟨rfl, rfl⟩ ⟨rfl, rfl⟩ ⟨by decide, by decide⟩
  refine ⟨j, h, hdone, ?_, ?_⟩
  · rw [hatStop]
    rfl
  · rw [hsent]
    exact List.forall_mem_singleton.mpr (dump_pushable _ _)

theorem samples_posted_run : ∃ j : Joint Unit Unit, (j.atStop .memory).length = 1 ∧
    SamplesPosted splitCrates acceptingEnv j := by
  obtain ⟨j, h, hdone, hlength, hpushable⟩ := sample_upload_run
  exact ⟨j, hlength, samples_posted acceptingEnv (h.mono fun _ _ hs => ⟨hs.1, hs.2.fine⟩) hdone rfl hpushable⟩

theorem stop_flushes_samples_run : ∃ j : Joint Unit Unit, (j.atStop .memory).length = 1 ∧
    j.upload.agent.pushed = j.upload.agent.sent ∧
    List.Forall₂ (fun p dumps => PostsDumps splitCrates (acceptingEnv p.2).chance p.1 dumps)
      j.upload.agent.pushed.zipIdx j.handed ∧
    ∀ k, dumps ⟨true, 512⟩ ⟨false, false⟩ k = true →
      j.atStop k <+: (j.handed.flatten.filter fun d => d.kind = k).flatMap Dump.pushes := by
  obtain ⟨j, h, hdone, hlength, hpushable⟩ := sample_upload_run
  exact ⟨j, hlength, stop_flushes_samples acceptingEnv h hdone rfl hpushable⟩

end Pyroscope.Upload.Flush
