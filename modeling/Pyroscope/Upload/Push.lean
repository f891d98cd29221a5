import Pyroscope.Upload.Config
import Pyroscope.Encode.Encode

/-!
# One upload (session.rs)

`Session::push` encodes the batches of a session, compresses the request and posts it.
The url, gzip, protobuf and HTTP crates are parameters, and so are the server and what
chance decides: hash map orders and random identifiers. Errors are values here, a
panic ends the computation.
-/

namespace Pyroscope.Upload
open Pyroscope.Lib Pyroscope.Backend Pyroscope.Encode

inductive ReportData where
  | reports (reports : List Report)
  | rawPprof (pprof : List UInt8)

structure ReportBatch where
  profileType : String
  data : ReportData

def ReportBatch.isEmpty (b : ReportBatch) : Bool :=
  match b.data with
  | .reports reports => reports.all fun report => report.data.toList.isEmpty
  | .rawPprof pprof => pprof.isEmpty

structure Session where
  config : PyroscopeConfig
  batch : List ReportBatch
  timeRange : TimeRange

/-! ### The push request -/

structure LabelPair where
  name : String
  value : String
  deriving DecidableEq, Repr

structure RawSample where
  rawProfile : List UInt8
  id : String
  deriving DecidableEq, Repr

structure RawProfileSeries where
  labels : List LabelPair
  samples : List RawSample
  deriving DecidableEq, Repr

structure PushRequest where
  series : List RawProfileSeries
  deriving DecidableEq, Repr

def pushLabelIfAbsent (labels : List LabelPair) (name value : String) : List LabelPair :=
  if labels.any fun label => label.name == name then labels else labels ++ [⟨name, value⟩]

def labelsForProfile (ordTags : IterOrder (String × String)) (config : PyroscopeConfig)
    (profileType : String) : List LabelPair :=
  let labels := [⟨"__name__", profileType⟩]
  let labels := (ordTags.visit config.tags.toList).foldl
    (fun labels (k, v) => if k == "__name__" then labels else labels ++ [⟨k, v⟩]) labels
  let labels := pushLabelIfAbsent labels "service_name" config.applicationName
  let labels := pushLabelIfAbsent labels "otel.scope.name" "com.grafana.pyroscope/python"
  let labels := pushLabelIfAbsent labels "otel.scope.version" config.spyVersion
  let labels := pushLabelIfAbsent labels "process.runtime.name" config.runtimeName
  pushLabelIfAbsent labels "process.runtime.version" config.runtimeVersion

/-! ### What is outside -/

structure Request where
  url : String
  headers : List (String × String)
  basicAuth : Option BasicAuth
  body : List UInt8
  timeoutSecs : ℕ
  deriving DecidableEq, Repr

structure Response where
  status : ℕ
  text : Except String String

inductive PyroscopeError where
  | io (e : String)
  | parse (e : String)
  | reqwest (e : String)
  deriving DecidableEq, Repr

/-- The crates. A `Vec` takes every write, so compressing into one does not fail; the
path of a URL can be edited unless the URL cannot be a base. -/
structure Crates where
  Url : Type
  parse : String → Except String Url
  cannotBeABase : Url → Bool
  /-- `path_segments_mut`, with the segments pushed; `none` is its `Err(())` -/
  pushSegments : Url → List String → Option Url
  asStr : Url → String
  encodeProfile : Profile → List UInt8
  encodePushRequest : PushRequest → List UInt8
  gzip : List UInt8 → Except String (List UInt8)
  gzip_vec : ∀ report, ∃ data, gzip report = .ok data
  pushSegments_none : ∀ url segments, pushSegments url segments = none ↔ cannotBeABase url = true

/-- What chance decides in one upload; the batch's number goes first. -/
structure Chance where
  ordData : ℕ → IterOrder (StackTrace × ℕ)
  ordStrings : ℕ → IterOrder (String × StringID)
  ordTags : ℕ → IterOrder (String × String)
  ordHeaders : IterOrder (String × String)
  uuid : ℕ → String

namespace Session
variable (crates : Crates) (chance : Chance)

def rawProfile (config : PyroscopeConfig) (timeRange : TimeRange) (k : ℕ) :
    ReportData → Except Panic (List UInt8)
  | .rawPprof pprofBytes => .ok pprofBytes
  | .reports reports => do
    let profile ← encode (chance.ordData k) (chance.ordStrings k) reports config.sampleRate timeRange
    .ok (crates.encodeProfile profile)

/-- The loop over the batches, from batch number `k` on. -/
def series (config : PyroscopeConfig) (timeRange : TimeRange) :
    ℕ → List ReportBatch → Except Panic (List RawProfileSeries)
  | _, [] => .ok []
  | k, ⟨profileType, data⟩ :: batch => do
    let rawProfile ← rawProfile crates chance config timeRange k data
    let labels := labelsForProfile (chance.ordTags k) config profileType
    let rest ← series config timeRange (k + 1) batch
    .ok (⟨labels, [⟨rawProfile, chance.uuid k⟩]⟩ :: rest)

def request (config : PyroscopeConfig) (url : crates.Url) (body : List UInt8) : Request :=
  let headers := [("User-Agent", "pyroscope-rs/" ++ config.spyName ++ "/" ++ config.spyVersion ++ " reqwest"),
    ("Content-Type", "application/proto"), ("Content-Encoding", "gzip")]
  let headers := match config.tenantId with
    | some tenantId => headers ++ [("X-Scope-OrgID", tenantId)]
    | none => headers
  let headers := headers ++ chance.ordHeaders.visit config.httpHeaders.toList
  ⟨crates.asStr url, headers, config.basicAuth, body, 10⟩

/-- `Session::push`. A response of any status is a success: it is read or logged. -/
def push (server : Request → Except String Response) (session : Session) :
    Except Panic (Except PyroscopeError Unit) := do
  let series ← series crates chance session.config session.timeRange 0 session.batch
  match crates.gzip (crates.encodePushRequest ⟨series⟩) with
  | .error e => .ok (.error (.io e))
  | .ok req =>
    match crates.parse session.config.url with
    | .error e => .ok (.error (.parse e))
    | .ok url =>
      match crates.pushSegments url ["push.v1.PusherService", "Push"] with
      | none => .error .unwrapUrl
      | some url =>
        match server (request crates chance session.config url req) with
        | .error e => .ok (.error (.reqwest e))
        | .ok _ => .ok (.ok ())

/-! ### When it panics -/

/-- What one batch needs: nothing if it is encoded already, else a rate to divide by
and room in the string table for the names it asks for. -/
def Encodable (config : PyroscopeConfig) (k : ℕ) : ReportData → Prop
  | .rawPprof _ => True
  | .reports reports => config.sampleRate ≠ 0 ∧
    StringTable.Room [""] (encodeRequests (reportEntries (chance.ordData k) reports))

/-- The address does not name a URL that cannot be a base. -/
def BaseUrl (config : PyroscopeConfig) : Prop :=
  ∀ url, crates.parse config.url = .ok url → crates.cannotBeABase url = false

structure Pushable (session : Session) : Prop where
  encodable : ∀ b ∈ session.batch.zipIdx, Encodable chance session.config b.2 b.1.data
  baseUrl : BaseUrl crates session.config

theorem encode_returns (ordData : IterOrder (StackTrace × ℕ))
    (ordStrings : IterOrder (String × StringID)) (reports : List Report) (sampleRate : UInt32)
    (timeRange : TimeRange) :
    Returns (encode ordData ordStrings reports sampleRate timeRange) ↔
      sampleRate ≠ 0 ∧ StringTable.Room [""] (encodeRequests (reportEntries ordData reports)) := by
  by_cases hzero : sampleRate = 0
  · subst hzero
    rw [encode_zero_rate]
    exact ⟨fun h => (not_returns_error _ h).elim, fun h => (h.1 rfl).elim⟩
  · have hrate : sampleRate.toNat ≠ 0 := fun h => hzero (UInt32.toNat_inj.mp h)
    rw [(encode_outcome ordData ordStrings reports sampleRate timeRange hrate).returns]
    exact (and_iff_right hzero).symm

theorem rawProfile_returns (config : PyroscopeConfig) (timeRange : TimeRange) (k : ℕ)
    (data : ReportData) : Returns (rawProfile crates chance config timeRange k data) ↔
      Encodable chance config k data := by
  cases data with
  | rawPprof pprofBytes => exact ⟨fun _ => trivial, fun _ => returns_ok pprofBytes⟩
  | reports reports =>
    rw [rawProfile, returns_bind_of_forall fun profile => returns_ok _, encode_returns]
    rfl

/- Only the encoding of a batch can stop the loop. -/
theorem series_returns (config : PyroscopeConfig) (timeRange : TimeRange) (batch : List ReportBatch)
    (k : ℕ) : Returns (series crates chance config timeRange k batch) ↔
      ∀ b ∈ batch.zipIdx k, Encodable chance config b.2 b.1.data := by
  induction batch generalizing k with
  | nil => exact ⟨fun _ _ h => absurd h List.not_mem_nil, fun _ => returns_ok []⟩
  | cons b batch ih =>
    obtain ⟨profileType, data⟩ := b
    have hrest : ∀ bytes, Returns (series crates chance config timeRange (k + 1) batch >>= fun rest =>
        .ok (⟨labelsForProfile (chance.ordTags k) config profileType, [⟨bytes, chance.uuid k⟩]⟩ :: rest)) ↔
        ∀ b ∈ batch.zipIdx (k + 1), Encodable chance config b.2 b.1.data := by
      intro bytes
      rw [returns_bind_of_forall fun rest => returns_ok _]
      exact ih (k + 1)
    rw [series, returns_bind, List.zipIdx_cons, List.forall_mem_cons,
      ← rawProfile_returns crates chance config timeRange k data]
    constructor
    · intro ⟨bytes, hbytes, hr⟩
      exact ⟨⟨bytes, hbytes⟩, (hrest bytes).mp hr⟩
    · intro ⟨⟨bytes, hbytes⟩, hall⟩
      exact ⟨bytes, hbytes, (hrest bytes).mpr hall⟩

/-- What `push` does once the request is encoded. -/
theorem push_of_series {session : Session} {series : List RawProfileSeries}
    (hs : Session.series crates chance session.config session.timeRange 0 session.batch = .ok series)
    (server : Request → Except String Response) :
    Returns (push crates chance server session) ↔ BaseUrl crates session.config := by
  obtain ⟨req, hreq⟩ := crates.gzip_vec (crates.encodePushRequest ⟨series⟩)
  simp only [push, hs, bind, Except.bind, hreq]
  cases hparse : crates.parse session.config.url with
  | error e =>
    refine ⟨fun _ url hurl => ?_, fun _ => returns_ok _⟩
    rw [hparse] at hurl
    cases hurl
  | ok url =>
    have hbase : BaseUrl crates session.config ↔ crates.cannotBeABase url = false := by
      refine ⟨fun h => h url hparse, fun h url' hurl' => ?_⟩
      rw [hparse] at hurl'
      cases hurl'
      exact h
    have hnone := crates.pushSegments_none url ["push.v1.PusherService", "Push"]
    simp only [hbase]
    cases hpush : crates.pushSegments url ["push.v1.PusherService", "Push"] with
    | none =>
      rw [hnone.mp hpush]
      exact ⟨fun h => (not_returns_error _ h).elim, fun h => by cases h⟩
    | some url' =>
      have hcan : crates.cannotBeABase url = false := by
        rw [← Bool.not_eq_true, ← hnone, hpush]
        exact nofun
      refine ⟨fun _ => hcan, fun _ => ?_⟩
      cases hsend : server (request crates chance session.config url' req) with
      | error e => simp only [hsend, returns_ok]
      | ok response => simp only [hsend, returns_ok]

theorem push_returns (server : Request → Except String Response) (session : Session) :
    Returns (push crates chance server session) ↔ Pushable crates chance session := by
  have hseries := series_returns crates chance session.config session.timeRange session.batch 0
  by_cases hr : Returns (series crates chance session.config session.timeRange 0 session.batch)
  · obtain ⟨series, hs⟩ := hr
    rw [push_of_series crates chance hs server]
    exact ⟨fun h => ⟨hseries.mp ⟨series, hs⟩, h⟩, fun h => h.baseUrl⟩
  · refine ⟨fun h => (hr ?_).elim, fun h => (hr (hseries.mpr h.encodable)).elim⟩
    obtain ⟨series, hs, -⟩ := returns_bind.mp h
    exact ⟨series, hs⟩

end Session

end Pyroscope.Upload
