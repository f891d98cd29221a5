import Pyroscope.Upload.Conservation
import Pyroscope.Upload.Labels

/-!
# From the profiler to the request

What `Session::push` posts for a session is the profile of the buffer behind it: one
series for every batch, each with labels that are a function and one profile, and the
`process_cpu` profile decodes to the stacks and counts of the buffer.
-/

namespace Pyroscope.Encode
open Pyroscope.Lib Pyroscope.Backend

/-! ### The window of an encoded profile -/

/-- The profile covers the time range, in nanoseconds as far as `i64` shows them. -/
def Profile.Covers (timeRange : TimeRange) (p : Profile) : Prop :=
  p.timeNanos = asI64 ((timeRange.fromUnixNanos % 2 ^ 64 : ℕ) : ℤ) ∧
    p.durationNanos = asI64 ((timeRange.durationNanos % 2 ^ 64 : ℕ) : ℤ)

section Covers
variable {K : Type} [ProfileKind K] {timeRange : TimeRange} {b : PProfBuilder K}

theorem setTimeRange_covers : (b.setTimeRange timeRange).profile.Covers timeRange := by
  constructor
  · simp only [PProfBuilder.setTimeRange]
  · simp only [PProfBuilder.setTimeRange]

theorem addFunctionMirror_covers (h : b.profile.Covers timeRange) (fm : FunctionMirror) :
    Lands (fun _ => True) (fun r => r.2.profile.Covers timeRange) (b.addFunctionMirror fm) := by
  rw [PProfBuilder.addFunctionMirror]
  split
  · exact h
  · split
    · trivial
    · exact h

theorem addLocationMirror_covers (h : b.profile.Covers timeRange) (lm : LocationMirror) :
    Lands (fun _ => True) (fun r => r.2.profile.Covers timeRange) (b.addLocationMirror lm) := by
  rw [PProfBuilder.addLocationMirror]
  split
  · exact h
  · split
    · trivial
    · exact h

theorem addFrame_covers (h : b.profile.Covers timeRange) (name filename : StringID) (line : ℤ) :
    Lands (fun _ => True) (fun r => r.2.profile.Covers timeRange) (b.addFrame name filename line) :=
  (addFunctionMirror_covers h _).bind fun _ h₁ => addLocationMirror_covers h₁ _

/- What only the string table does lands anywhere. -/
theorem lands_true {α : Type} (r : Except Panic α) : Lands (fun _ => True) (fun _ => True) r := by
  cases r <;> trivial

theorem addTraceFrames_covers {b : PProfBuilder PySpyProfile} (h : b.profile.Covers timeRange)
    (strings : StringTable) (frames : List StackFrame) :
    Lands (fun _ => True) (fun r => r.2.1.profile.Covers timeRange)
      (b.addTraceFrames strings frames) := by
  induction frames generalizing b strings with
  | nil => exact h
  | cons sf frames ih =>
    refine (lands_true _).bind fun r₁ _ => (lands_true _).bind fun r₂ _ =>
      (addFrame_covers h _ _ _).bind fun r₃ h₃ => (ih h₃ _).bind fun r₄ h₄ => ?_
    exact h₄

theorem addStacktraces_covers {b : PProfBuilder PySpyProfile} (h : b.profile.Covers timeRange)
    (strings : StringTable) (entries : List (StackTrace × ℕ)) :
    Lands (fun _ => True) (fun r => r.1.profile.Covers timeRange)
      (b.addStacktraces strings entries) := by
  induction entries generalizing b strings with
  | nil => exact h
  | cons e entries ih =>
    refine Lands.bind (P := fun r => r.1.profile.Covers timeRange) ?_ fun r h₁ => ih h₁ _
    refine (addTraceFrames_covers h strings e.1.frames).bind fun r₁ h₁ => ?_
    exact (lands_true _).bind fun _ _ => h₁

theorem setProfileType_covers {b : PProfBuilder PySpyProfile} (h : b.profile.Covers timeRange)
    (strings : StringTable) (sampleRate : UInt32) :
    Lands (fun _ => True) (fun r => r.1.profile.Covers timeRange)
      (b.setProfileType strings sampleRate) := by
  refine Lands.bind (P := fun r => r.1.Covers timeRange) ?_ fun r h₁ => h₁
  refine (lands_true _).bind fun _ _ => (lands_true _).bind fun _ _ => (lands_true _).bind fun _ _ => ?_
  exact h

end Covers

theorem encode_covers {ordData : IterOrder (StackTrace × ℕ)}
    {ordStrings : IterOrder (String × StringID)} {reports : List Report} {sampleRate : UInt32}
    {timeRange : TimeRange} {p : Profile}
    (h : encode ordData ordStrings reports sampleRate timeRange = .ok p) : p.Covers timeRange := by
  refine Lands.result (E := fun _ => True) (P := fun p => p.Covers timeRange) ?_ h
  refine (setProfileType_covers setTimeRange_covers _ _).bind fun r₁ h₁ => ?_
  refine (addStacktraces_covers h₁ _ _).bind fun r₂ h₂ => ?_
  exact (lands_true _).bind fun _ _ => h₂

end Pyroscope.Encode

namespace Pyroscope.Upload
open Pyroscope.Lib Pyroscope.Backend Pyroscope.Encode

theorem head_labelsForProfile (ordTags : IterOrder (String × String)) (config : PyroscopeConfig)
    (profileType : String) :
    (labelsForProfile ordTags config profileType).head? = some ⟨"__name__", profileType⟩ := by
  rw [labelsForProfile_eq]
  exact Keyed.head_pushAll _ _ _ _

namespace Session
variable (crates : Crates) (chance : Chance)

/-! ### One series for every batch -/

/-- The series made of batch number `b.2`. -/
def RowOf (config : PyroscopeConfig) (timeRange : TimeRange) (b : ReportBatch × ℕ)
    (row : RawProfileSeries) : Prop :=
  ∃ bytes, rawProfile crates chance config timeRange b.2 b.1.data = .ok bytes ∧
    row = ⟨labelsForProfile (chance.ordTags b.2) config b.1.profileType, [⟨bytes, chance.uuid b.2⟩]⟩

theorem series_rows {config : PyroscopeConfig} {timeRange : TimeRange} {batch : List ReportBatch}
    {k : ℕ} {rows : List RawProfileSeries}
    (h : series crates chance config timeRange k batch = .ok rows) :
    List.Forall₂ (RowOf crates chance config timeRange) (batch.zipIdx k) rows := by
  induction batch generalizing k rows with
  | nil =>
    cases h
    exact .nil
  | cons b batch ih =>
    obtain ⟨profileType, data⟩ := b
    rw [series] at h
    cases hraw : rawProfile crates chance config timeRange k data with
    | error p =>
      rw [hraw] at h
      cases h
    | ok bytes =>
      rw [hraw] at h
      cases hrest : series crates chance config timeRange (k + 1) batch with
      | error p =>
        simp only [hrest, bind, Except.bind] at h
        cases h
      | ok rest =>
        simp only [hrest, bind, Except.bind] at h
        cases h
        rw [List.zipIdx_cons]
        exact .cons ⟨bytes, hraw, rfl⟩ (ih hrest)

/-- `push` makes this request of the server and has no other outcome than its answer. -/
def Posts (session : Session) (request : Request) : Prop :=
  ∀ server : Request → Except String Response, session.push crates chance server =
    match server request with
    | .error e => .ok (.error (.reqwest e))
    | .ok _ => .ok (.ok ())

theorem push_posts {session : Session} (h : session.Pushable crates chance) {url : crates.Url}
    (hurl : crates.parse session.config.url = .ok url) :
    ∃ rows request url', Posts crates chance session request ∧
      series crates chance session.config session.timeRange 0 session.batch = .ok rows ∧
      crates.pushSegments url ["push.v1.PusherService", "Push"] = some url' ∧
      request.url = crates.asStr url' ∧
      crates.gzip (crates.encodePushRequest ⟨rows⟩) = .ok request.body := by
  obtain ⟨rows, hrows⟩ := (series_returns crates chance session.config session.timeRange session.batch 0).mpr
    h.encodable
  obtain ⟨body, hbody⟩ := crates.gzip_vec (crates.encodePushRequest ⟨rows⟩)
  have hbase := h.baseUrl url hurl
  cases hsegments : crates.pushSegments url ["push.v1.PusherService", "Push"] with
  | none =>
    rw [(crates.pushSegments_none _ _).mp hsegments] at hbase
    cases hbase
  | some url' =>
    refine ⟨rows, request crates chance session.config url' body, url', fun server => ?_, hrows, rfl, ?_, ?_⟩
    · cases hserver : server (request crates chance session.config url' body) <;>
        simp only [push, hrows, bind, Except.bind, hbody, hurl, hsegments, hserver]
    · rfl
    · exact hbody

end Session

/-! ### What the request shows of a buffer -/

/-- The values of the buffer are `i64`. -/
def CountsFit (sampleRate : UInt32) (b : StackBuffer) : Prop :=
  ∀ e ∈ b.data.toList, (e.2 : ℤ) * (1000000000 / (sampleRate.toNat : ℤ)) ≤ i64Max

/-- The series is the `process_cpu` profile of the buffer over the session's window. -/
def ShowsBuffer (crates : Crates) (session : Session) (b : StackBuffer) (row : RawProfileSeries) : Prop :=
  row.labels.head? = some ⟨"__name__", "process_cpu"⟩ ∧
    ∃ profile id decoded, row.samples = [⟨crates.encodeProfile profile, id⟩] ∧
      profile.Covers session.timeRange ∧ profile.decoded = some decoded ∧
      decoded.Perm (b.data.toList.map
        (exactEntry (1000000000 / (session.config.sampleRate.toNat : ℤ))))

/-- The request posted for the session has one series for every batch, no label twice in a
series, and one series for the buffer unless that is empty. -/
def Delivered (crates : Crates) (chance : Chance) (session : Session) (b : StackBuffer) : Prop :=
  ∃ request rows, Session.Posts crates chance session request ∧
    crates.gzip (crates.encodePushRequest ⟨rows⟩) = .ok request.body ∧
    rows.length = session.batch.length ∧ (∀ row ∈ rows, (row.labels.map LabelPair.name).Nodup) ∧
    (b.data.toList ≠ [] → ∃ row ∈ rows, ShowsBuffer crates session b row)

namespace Flush
variable {σ κ : Type} {S : Source σ κ} {crates : Crates}

/-- The session is what a snapshot made of the buffer, which could be encoded. -/
def Stamped (S : Source σ κ) (crates : Crates) (config : PyroscopeConfig)
    (Fits : StackBuffer → Prop) (session : Session) (b : StackBuffer) : Prop :=
  Fits b ∧ ∃ others payload timeRange,
    session = ⟨config, batch crates others payload, timeRange⟩ ∧ S.payload timeRange b (.ok payload)

/-- What the profiler's payloads show, and over which window. -/
structure Faithful (S : Source σ κ) (sampleRate : UInt32) (Fits : StackBuffer → Prop) : Prop where
  shows : ∀ {timeRange b payload}, Fits b → S.payload timeRange b (.ok payload) →
    payload.Shows sampleRate b
  covers : ∀ {timeRange b profile}, S.payload timeRange b (.ok (.pprof (some profile))) →
    profile.Covers timeRange

/- The series of a payload with stacks in it. -/
theorem shows_of_payload {Fits : StackBuffer → Prop} {session : Session} {b : StackBuffer}
    {payload : Payload} {k : ℕ} {chance : Chance} {bytes : List UInt8}
    (hS : Faithful S session.config.sampleRate Fits) (hfits : Fits b)
    (hcounts : CountsFit session.config.sampleRate b) (hrate : session.config.sampleRate ≠ 0)
    (hp : S.payload session.timeRange b (.ok payload)) (hne : payload.isEmpty = false)
    (hraw : Session.rawProfile crates chance session.config session.timeRange k
      (payload.data crates) = .ok bytes) :
    ∃ profile decoded, bytes = crates.encodeProfile profile ∧ profile.Covers session.timeRange ∧
      profile.decoded = some decoded ∧ decoded.Perm (b.data.toList.map
        (exactEntry (1000000000 / (session.config.sampleRate.toNat : ℤ)))) := by
  have hshows := hS.shows hfits hp
  cases payload with
  | reports rs =>
    simp only [Payload.data, Session.rawProfile, bind, Except.bind] at hraw
    cases hencode : encode (chance.ordData k) (chance.ordStrings k) rs session.config.sampleRate
      session.timeRange with
    | error p =>
      rw [hencode] at hraw
      cases hraw
    | ok profile =>
      rw [hencode] at hraw
      cases hraw
      have hnz : session.config.sampleRate.toNat ≠ 0 := fun h => hrate (UInt32.toNat_inj.mp h)
      obtain ⟨-, hencoded⟩ := (encode_outcome (chance.ordData k) (chance.ordStrings k) rs
        session.config.sampleRate session.timeRange hnz).inv hencode
      refine ⟨profile, _, rfl, encode_covers hencode, hencoded.samples, ?_⟩
      rw [← entriesDecoded_exact hcounts]
      exact (hshows (chance.ordData k)).map _
  | pprof profile =>
    cases profile with
    | none => cases hne
    | some profile =>
      cases hraw
      obtain ⟨decoded, hdecoded, hperm⟩ := hshows
      exact ⟨profile, decoded, rfl, hS.covers hp, hdecoded, hperm⟩

theorem delivered_of_stamped {Fits : StackBuffer → Prop} {config : PyroscopeConfig}
    {session : Session} {b : StackBuffer} {chance : Chance}
    (hS : Faithful S config.sampleRate Fits) (hcounts : CountsFit config.sampleRate b)
    (hrate : config.sampleRate ≠ 0) (hstamped : Stamped S crates config Fits session b)
    (hpushable : session.Pushable crates chance)
    {url : crates.Url} (hurl : crates.parse config.url = .ok url) :
    Delivered crates chance session b := by
  obtain ⟨hfits, others, payload, timeRange, rfl, hp⟩ := hstamped
  obtain ⟨rows, request, url', hposts, hrows, -, -, hbody⟩ :=
    Session.push_posts crates chance hpushable hurl
  have hall := Session.series_rows crates chance hrows
  have hlength := hall.length_eq
  rw [List.length_zipIdx] at hlength
  refine ⟨request, rows, hposts, hbody, hlength.symm,
    Session.series_labels_nodup crates chance _ _ hrows, fun hne => ?_⟩
  have hfull : payload.isEmpty = false := by
    rw [Bool.eq_false_iff]
    exact fun he => hne ((hS.shows hfits hp).nil_of_isEmpty he)
  have hmem : ((⟨"process_cpu", payload.data crates⟩ : ReportBatch), others.length) ∈
      (batch crates others payload).zipIdx 0 := by
    rw [batch, hfull, List.zipIdx_append]
    exact List.mem_append_right _ (by simp)
  obtain ⟨row, hrow, bytes, hraw, rfl⟩ := Profile.exists_of_forall₂_mem hall.flip hmem
  obtain ⟨profile, decoded, rfl, hcovers, hdecoded, hperm⟩ :=
    shows_of_payload hS hfits hcounts hrate hp hfull hraw
  refine ⟨_, hrow, ?_, profile, _, decoded, rfl, hcovers, hdecoded, hperm⟩
  exact head_labelsForProfile _ _ _

/-! ### Along a run -/

/-- The sessions sent, and the one on its way, are stamped with the buffers behind them. -/
structure Stamps (S : Source σ κ) (crates : Crates) (config : PyroscopeConfig)
    (Fits : StackBuffer → Prop) (s : State σ κ) : Prop where
  sending : ∀ final session b, s.agent.snapshot = .sending final session → s.stage = .sending b →
    Stamped S crates config Fits session b
  sent : List.Forall₂ (Stamped S crates config Fits) s.agent.sent s.handed

namespace Stamps
variable {config : PyroscopeConfig} {Fits : StackBuffer → Prop} {s s' : State σ κ}

/- A snapshot that has no session on its way. -/
theorem of_stage (hsent : List.Forall₂ (Stamped S crates config Fits) s'.agent.sent s'.handed)
    (hstage : ∀ b, s'.stage ≠ .sending b) : Stamps S crates config Fits s' :=
  ⟨fun _ _ b _ hb => (hstage b hb).elim, hsent⟩

/- What the other threads of the agent change. -/
theorem agent (h : Stamps S crates config Fits s) {agent : Shutdown.State}
    (hsnapshot : agent.snapshot = s.agent.snapshot) (hsent : agent.sent = s.agent.sent) :
    Stamps S crates config Fits { s with agent := agent } := by
  refine ⟨fun final session b hsnap hb => ?_, ?_⟩
  · exact h.sending final session b (hsnapshot.symm.trans hsnap) hb
  · show List.Forall₂ _ agent.sent s.handed
    rw [hsent]
    exact h.sent

end Stamps

theorem step_stamps {config : PyroscopeConfig} {Fits : StackBuffer → Prop} {s s' : State σ κ}
    (h : Stamps S crates config Fits s)
    (hfit : ∀ timeRange others b, s.stage = .reported timeRange others b → Fits b)
    (hs : Step S crates config s s') : Stamps S crates config Fits s' := by
  cases hs with
  | runs hr => exact ⟨h.sending, h.sent⟩
  | wakes hw hf => exact .of_stage h.sent nofun
  | lap now hst epoch => exact .of_stage h.sent nofun
  | lapFails hst epoch hf => exact .of_stage h.sent nofun
  | dump others hst => exact .of_stage h.sent nofun
  | lock hst hl => exact ⟨h.sending, h.sent⟩
  | take hst ht => exact .of_stage h.sent nofun
  | swap hst hw => exact ⟨h.sending, h.sent⟩
  | finish hst hf => exact .of_stage h.sent nofun
  | panics hst hp hf => exact .of_stage h.sent nofun
  | empty hst hp hf hb => exact .of_stage h.sent nofun
  | session hst hp hf hb =>
    refine ⟨fun final session b hsnap hb => ?_, h.sent⟩
    cases hsnap
    cases hb
    exact ⟨hfit _ _ _ hst, _, _, _, rfl, hp⟩
  | send hst hf alive hc =>
    have hstamped := h.sending _ _ _ hf hst
    exact .of_stage (List.rel_append h.sent (.cons hstamped .nil)) nofun
  | sendFails hf gone => exact .of_stage h.sent nofun
  | manager hman =>
    obtain ⟨hsnapshot, -, hsent⟩ := manager_quiet hman
    exact h.agent hsnapshot hsent
  | stop hst => exact ⟨h.sending, h.sent⟩
  | joinSnapshot hst exited => exact h.agent rfl rfl
  | clearRunning hst => exact ⟨h.sending, h.sent⟩
  | joinSampler hst stopped ended => exact h.agent rfl rfl
  | kill hst hk =>
    obtain ⟨hsnapshot, -, hsent⟩ := stopper_quiet hk (by rw [hst]; exact nofun)
    exact h.agent hsnapshot hsent
  | joinManager hst hk =>
    obtain ⟨hsnapshot, -, hsent⟩ := stopper_quiet hk (by rw [hst]; exact nofun)
    exact h.agent hsnapshot hsent

theorem reachable_stamps {config : PyroscopeConfig} {Fits : StackBuffer → Prop} {s : State σ κ}
    (h : Reachable (Initial S) (fun s s' => Step S crates config s s' ∧
      ∀ timeRange others b, s.stage = .reported timeRange others b → Fits b) s) :
    Stamps S crates config Fits s := by
  have hinit : ∀ s, Initial S s → Stamps S crates config Fits s := by
    rintro s ⟨watch, source, -, rfl⟩
    exact .of_stage .nil nofun
  exact h.invariant hinit fun s s' hi hs => step_stamps hi hs.2 hs.1

/-! ### The whole way -/

/-- When `stop` has returned every session has been posted and shows its buffer; together
they show at least `need` and at most `most` of each stack. -/
structure AllDelivered (crates : Crates) (env : ℕ → Env) (s : State σ κ)
    (need most : StackTrace → ℕ) : Prop where
  pushed : s.agent.pushed = s.agent.sent
  delivered : List.Forall₂ (fun p b => Delivered crates (env p.2).chance p.1 b)
    s.agent.pushed.zipIdx s.handed
  least : ∀ t, need t ≤ (s.handed.map (·.count t)).sum
  most : ∀ t, (s.handed.map (·.count t)).sum ≤ most t

/-- The address parses, the sessions can be pushed and the counts of their buffers are `i64`. -/
structure Uploadable (crates : Crates) (config : PyroscopeConfig) (env : ℕ → Env) (s : State σ κ) :
    Prop where
  rate : config.sampleRate ≠ 0
  address : ∃ url, crates.parse config.url = .ok url
  pushable : ∀ p ∈ s.agent.sent.zipIdx, p.1.Pushable crates (env p.2).chance
  counts : ∀ b ∈ s.handed, CountsFit config.sampleRate b

/- Numbering the left of two related lists. -/
theorem forall₂_zipIdx {α β : Type} {R : α → β → Prop} {T : α × ℕ → β → Prop} {xs : List α}
    {ys : List β} {k : ℕ} (h : List.Forall₂ R xs ys)
    (hT : ∀ p ∈ xs.zipIdx k, ∀ y ∈ ys, R p.1 y → T p y) : List.Forall₂ T (xs.zipIdx k) ys := by
  induction h generalizing k with
  | nil => exact .nil
  | @cons x y xs ys hxy _ ih =>
    rw [List.zipIdx_cons] at hT ⊢
    refine .cons (hT _ (List.mem_cons_self ..) _ (List.mem_cons_self ..) hxy) (ih fun p hp y hy => ?_)
    exact hT p (List.mem_cons_of_mem _ hp) y (List.mem_cons_of_mem _ hy)

theorem delivered_of_done {Fits : StackBuffer → Prop} {config : PyroscopeConfig} {env : ℕ → Env}
    {s : State σ κ} (hS : Faithful S config.sampleRate Fits)
    (h : Reachable (Initial S) (fun s s' => Step S crates config s s' ∧
      ∀ timeRange others b, s.stage = .reported timeRange others b → Fits b) s)
    (hdone : s.agent.stopper = .done) (hup : Uploadable crates config env s) :
    s.agent.pushed = s.agent.sent ∧ List.Forall₂
      (fun p b => Delivered crates (env p.2).chance p.1 b) s.agent.pushed.zipIdx s.handed := by
  have hplain : Reachable (Initial S) (Step S crates config) s := h.mono fun _ _ hs => hs.1
  have hagent := Shutdown.reachable_inv (agent_reachable S crates config hplain)
  obtain ⟨hpushed, -⟩ := hagent.queue_of_exited (hagent.done hdone)
  obtain ⟨url, hurl⟩ := hup.address
  refine ⟨hpushed, ?_⟩
  rw [hpushed]
  exact forall₂_zipIdx (reachable_stamps h).sent fun p hp b hb hstamped =>
    delivered_of_stamped hS (hup.counts b hb) hup.rate hstamped (hup.pushable p hp) hurl

section Profilers
open Pyroscope.Signal
variable {Id : Type} [DecidableEq Id] (getId : Metadata → Id) (agentConfig : PyroscopeConfig)

theorem pyspy_faithful (config : Pyspy.Config) :
    Faithful (Pyspy.source config getId) agentConfig.sampleRate fun _ => True where
  shows _ hp := by
    obtain ⟨payload', hok, hshows⟩ :=
      (Pyspy.ledger config getId agentConfig.sampleRate).shows trivial hp
    cases hok
    exact hshows
  covers hp := by
    obtain ⟨ordBuffer, ordReports, hok⟩ := hp
    cases hok

/-- The names of the report have numbers in a string table, its values are `i64`. -/
def Fitting (sampleRate : UInt32) (b : StackBuffer) : Prop :=
  0 < sampleRate.toNat ∧
    ("" :: "cpu" :: "nanoseconds" :: entryRequests b.data.toList).toFinset.card < u32Max ∧
    CountsFit sampleRate b

theorem signal_faithful {ι : Type} [DecidableEq ι] (config : BackendConfig) (pid : ℕ)
    (counter : Ring.Usize) :
    Faithful (Backlog.source config pid getId counter agentConfig.sampleRate :
      Source (Backlog.State ι) Backlog.Captured) agentConfig.sampleRate
      (Fitting agentConfig.sampleRate) where
  shows hfits hp := by
    obtain ⟨payload', hok, hshows⟩ := (Backlog.ledger getId counter agentConfig.sampleRate :
      Ledger (Backlog.source config pid getId counter agentConfig.sampleRate :
        Source (Backlog.State ι) Backlog.Captured) agentConfig.sampleRate).shows hfits hp
    cases hok
    exact hshows
  covers {timeRange b profile} hp := by
    have hp' : Backlog.payload getId agentConfig.sampleRate timeRange b
      (.ok (.pprof (some profile))) := hp
    rw [Backlog.payload] at hp'
    split at hp'
    · cases hp'
    · obtain ⟨ordBuffer, ordData, ordReports, ordStrings, hok⟩ := hp'
      cases hencode : encode ordData ordStrings (reportsOfBuffer getId ordBuffer ordReports b)
        agentConfig.sampleRate timeRange with
      | error p =>
        rw [hencode] at hok
        cases hok
      | ok profile' =>
        rw [hencode] at hok
        cases hok
        exact encode_covers hencode

variable (crates : Crates)

theorem pyspy_delivered (config : Pyspy.Config) (env : ℕ → Env)
    {s : State Pyspy.State (StackTrace → ℕ)}
    (h : Reachable (Initial (Pyspy.source config getId)) (fun s s' =>
      Step (Pyspy.source config getId) crates agentConfig s s' ∧ AfterEpoch s) s)
    (hdone : s.agent.stopper = .done) (hup : Uploadable crates agentConfig env s) :
    ∃ c, s.captured = some c ∧ AllDelivered crates env s c fun t => s.source.recorded.count t := by
  have hsound : Reachable (Initial (Pyspy.source config getId)) (SoundStep crates
      (Pyspy.ledger config getId agentConfig.sampleRate)) s :=
    h.mono fun s s' hs => ⟨hs.1, hs.2, fun _ _ _ _ => trivial, fun _ _ _ _ => trivial⟩
  obtain ⟨c, hc, -, -, hneed⟩ := handed_of_done _ hsound hdone
  obtain ⟨hpushed, hdelivered⟩ := delivered_of_done (pyspy_faithful getId agentConfig config)
    (h.mono fun _ _ hs => ⟨hs.1, fun _ _ _ _ => trivial⟩) hdone hup
  have hconserved := reachable_conserved True (pyspy_exact getId agentConfig config)
    (h.mono fun _ _ hs => ⟨hs.1, fun _ _ _ _ _ => trivial⟩)
  refine ⟨c, hc, hpushed, hdelivered, hneed, fun t => ?_⟩
  have hupper := hconserved.upper t
  simp only [State.places, State.out] at hupper
  exact le_trans (by omega) hupper

theorem signal_delivered {ι : Type} [DecidableEq ι] (config : BackendConfig) (pid : ℕ)
    (counter : Ring.Usize) (env : ℕ → Env) {s : State (Backlog.State ι) Backlog.Captured}
    (h : Reachable (Initial (Backlog.source config pid getId counter agentConfig.sampleRate))
      (fun s s' => Step (Backlog.source config pid getId counter agentConfig.sampleRate) crates
        agentConfig s s' ∧ AfterEpoch s ∧ ReportFits agentConfig.sampleRate s ∧ Drained s s') s)
    (hdone : s.agent.stopper = .done) (hup : Uploadable crates agentConfig env s) :
    ∃ c, s.captured = some c ∧ AllDelivered crates env s
      (fun t => s.source.fates.shownOf c.records t + c.lost.shown config pid Reason.all t)
      fun t => Backlog.entered config pid s.source t := by
  have hsound : Reachable (Initial (Backlog.source config pid getId counter agentConfig.sampleRate))
      (SoundStep crates (Backlog.ledger getId counter agentConfig.sampleRate)) s :=
    h.mono fun s s' hs => ⟨hs.1, hs.2.1, hs.2.2.1, hs.2.2.2⟩
  obtain ⟨c, hc, -, -, hneed⟩ := handed_of_done _ hsound hdone
  obtain ⟨hpushed, hdelivered⟩ := delivered_of_done
    (signal_faithful getId agentConfig config pid counter)
    (h.mono fun _ _ hs => ⟨hs.1, hs.2.2.1⟩) hdone hup
  have hconserved := reachable_conserved True (signal_exact getId agentConfig config pid counter)
    (h.mono fun _ _ hs => ⟨hs.1, fun _ => hs.2.2.1⟩)
  refine ⟨c, hc, hpushed, hdelivered, hneed, fun t => ?_⟩
  have hupper : State.places _ s t ≤ Backlog.entered config pid s.source t := hconserved.upper t
  simp only [State.places, State.out] at hupper
  omega

end Profilers

/-- From the profiler to the server: once `stop` has returned, every session has been posted
as a request that shows its buffer, and the requests show every stack captured by then and
none that was not recorded. -/
theorem captured_reaches_server {Id : Type} [DecidableEq Id] (getId : Metadata → Id)
    (crates : Crates) (agentConfig : PyroscopeConfig) (env : ℕ → Env) :
    (∀ (config : Pyspy.Config) (s : State Pyspy.State (StackTrace → ℕ)),
      Reachable (Initial (Pyspy.source config getId)) (fun s s' =>
        Step (Pyspy.source config getId) crates agentConfig s s' ∧ AfterEpoch s) s →
      s.agent.stopper = .done → Uploadable crates agentConfig env s →
      ∃ c, s.captured = some c ∧
        AllDelivered crates env s c fun t => s.source.recorded.count t) ∧
    ∀ (ι : Type) [DecidableEq ι] (config : BackendConfig) (pid : ℕ) (counter : Ring.Usize)
      (s : State (Signal.Backlog.State ι) Signal.Backlog.Captured),
      Reachable (Initial (Signal.Backlog.source config pid getId counter agentConfig.sampleRate))
        (fun s s' => Step (Signal.Backlog.source config pid getId counter agentConfig.sampleRate) crates
          agentConfig s s' ∧ AfterEpoch s ∧ ReportFits agentConfig.sampleRate s ∧ Drained s s') s →
      s.agent.stopper = .done → Uploadable crates agentConfig env s →
      ∃ c, s.captured = some c ∧ AllDelivered crates env s
        (fun t => s.source.fates.shownOf c.records t + c.lost.shown config pid Signal.Reason.all t)
        fun t => Signal.Backlog.entered config pid s.source t :=
  ⟨fun config _ h hdone hup => pyspy_delivered getId agentConfig crates config env h hdone hup,
    fun _ _ config pid counter _ h hdone hup =>
      signal_delivered getId agentConfig crates config pid counter env h hdone hup⟩

/-! ### A run that reaches the server -/

theorem oneStackSession_pushable : oneStackSession.Pushable splitCrates storedChance := by
  have hperm : (reportEntries (IterOrder.stored _) oneStackReports).Perm oneStack.data.toList :=
    reportEntries_perm _ _ _ _ oneStack
  refine ⟨List.forall_mem_singleton.mpr ⟨by decide, ?_⟩, fun url hurl => ?_⟩
  · exact room_of_perm hperm (by decide)
  · cases hurl
    rfl

theorem oneStack_uploadable {s : State σ κ} (hsent : s.agent.sent = [oneStackSession])
    (hhanded : s.handed = [oneStack]) : Uploadable splitCrates agentConfig acceptingEnv s := by
  refine ⟨by decide, ⟨_, rfl⟩, ?_, ?_⟩
  · rw [hsent]
    exact List.forall_mem_singleton.mpr oneStackSession_pushable
  · rw [hhanded]
    exact List.forall_mem_singleton.mpr (by unfold CountsFit; decide)

theorem oneTick_fits : Fitting agentConfig.sampleRate oneTick := by
  refine ⟨by decide, oneTick_room, ?_⟩
  unfold CountsFit
  exact oneTick_values

theorem oneTickSession_pushable (p : Profile) : (oneTickSession p).Pushable splitCrates storedChance := by
  refine ⟨List.forall_mem_singleton.mpr trivial, fun url hurl => ?_⟩
  change splitCrates.parse agentConfig.url = .ok url at hurl
  cases hurl
  rfl

theorem oneTick_uploadable {s : State σ κ} {p : Profile} (hsent : s.agent.sent = [oneTickSession p])
    (hhanded : s.handed = [oneTick]) : Uploadable splitCrates agentConfig acceptingEnv s := by
  refine ⟨by decide, ⟨_, rfl⟩, ?_, ?_⟩
  · rw [hsent]
    exact List.forall_mem_singleton.mpr (oneTickSession_pushable p)
  · rw [hhanded]
    exact List.forall_mem_singleton.mpr oneTick_fits.2.2

theorem captured_reaches_server_runs :
    (∃ (s : State Pyspy.State (StackTrace → ℕ)) (c : StackTrace → ℕ), s.handed = [oneStack] ∧
      AllDelivered splitCrates acceptingEnv s c fun t => s.source.recorded.count t) ∧
    ∃ (s : State (Signal.Backlog.State Unit) Signal.Backlog.Captured) (c : Signal.Backlog.Captured),
      s.captured = some c ∧ c.records = {0} ∧ s.handed = [oneTick] ∧
      AllDelivered splitCrates acceptingEnv s
        (fun t => s.source.fates.shownOf c.records t +
          c.lost.shown backendConfig 1 Signal.Reason.all t)
        fun t => Signal.Backlog.entered backendConfig 1 s.source t := by
  obtain ⟨s, hs, hdone, hsent, hhanded⟩ := pyspy_run
  obtain ⟨s', p, hs', hdone', hrecords', hsent', hhanded'⟩ := signal_run
  obtain ⟨c, -, hall⟩ := (captured_reaches_server _ _ _ acceptingEnv).1 _ s hs hdone
    (oneStack_uploadable hsent hhanded)
  obtain ⟨c', hc', hall'⟩ := (captured_reaches_server _ _ _ acceptingEnv).2 _ _ _ _ s' hs' hdone'
    (oneTick_uploadable hsent' hhanded')
  rw [hc'] at hrecords'
  exact ⟨⟨s, c, hhanded, hall⟩, s', c', hc', Option.some.inj hrecords', hhanded', hall'⟩

end Flush
end Pyroscope.Upload
