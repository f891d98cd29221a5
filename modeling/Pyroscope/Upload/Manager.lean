import Pyroscope.Upload.Push

/-!
# The SessionManager thread (session.rs)

The thread receives signals until `Kill`, or until every sender is gone. A failed upload
is logged and the loop goes on; a panic in `push` takes the thread with it.
-/

namespace Pyroscope.Upload
open Pyroscope.Lib Pyroscope.Backend Pyroscope.Encode

inductive SessionSignal where
  | session (session : Session)
  | kill

inductive Exit where
  | killed
  | disconnected
  | panicked (p : Panic)
  deriving DecidableEq

/-- Chance and the server, for every upload anew. -/
structure Env where
  chance : Chance
  server : Request → Except String Response

/-- The loop of the thread over the signals sent before the channel was disconnected,
with the sessions it attempted; uploads are numbered from `k` on. -/
def recvLoop (crates : Crates) (env : ℕ → Env) : ℕ → List SessionSignal → List Session × Exit
  | _, [] => ([], .disconnected)
  | _, .kill :: _ => ([], .killed)
  | k, .session session :: signals =>
    match session.push crates (env k).chance (env k).server with
    | .error p => ([session], .panicked p)
    | .ok _ =>
      let (attempted, exit) := recvLoop crates env (k + 1) signals
      (session :: attempted, exit)

/-- The sessions received before a `Kill`. -/
def beforeKill : List SessionSignal → List Session
  | [] => []
  | .kill :: _ => []
  | .session session :: signals => session :: beforeKill signals

structure Survives (crates : Crates) (env : ℕ → Env) (k : ℕ) (signals : List SessionSignal) :
    Prop where
  returns : ∀ s ∈ (beforeKill signals).zipIdx k,
    Returns (s.1.push crates (env s.2).chance (env s.2).server)
  exit : (recvLoop crates env k signals).2 = .killed ∨ (recvLoop crates env k signals).2 = .disconnected
  attempted : (recvLoop crates env k signals).1 = beforeKill signals

theorem recvLoop_session (crates : Crates) (env : ℕ → Env) (k : ℕ) (session : Session)
    (signals : List SessionSignal)
    (h : Returns (session.push crates (env k).chance (env k).server)) :
    recvLoop crates env k (.session session :: signals) =
      (session :: (recvLoop crates env (k + 1) signals).1, (recvLoop crates env (k + 1) signals).2) := by
  obtain ⟨result, hresult⟩ := h
  simp only [recvLoop, hresult]

/- The loop survives as long as every upload returns. -/
theorem survives_of_returns (crates : Crates) (env : ℕ → Env) (signals : List SessionSignal) (k : ℕ)
    (h : ∀ s ∈ (beforeKill signals).zipIdx k,
      Returns (s.1.push crates (env s.2).chance (env s.2).server)) : Survives crates env k signals := by
  induction signals generalizing k with
  | nil => exact ⟨h, Or.inr rfl, rfl⟩
  | cons signal signals ih =>
    cases signal with
    | kill => exact ⟨h, Or.inl rfl, rfl⟩
    | session session =>
      obtain ⟨hfirst, hlater⟩ := List.forall_mem_cons.mp h
      have hrest := ih (k + 1) hlater
      have hloop := recvLoop_session crates env k session signals hfirst
      refine ⟨h, ?_, ?_⟩
      · rw [hloop]
        exact hrest.exit
      · rw [hloop]
        exact congrArg (session :: ·) hrest.attempted

/-- The thread survives a sequence of signals exactly when each session before `Kill` has
an address that can be a base and batches that can be encoded. -/
theorem survives_iff (crates : Crates) (env : ℕ → Env) (signals : List SessionSignal) (k : ℕ) :
    Survives crates env k signals ↔
      ∀ s ∈ (beforeKill signals).zipIdx k, s.1.Pushable crates (env s.2).chance := by
  refine ⟨fun h s hs => ?_, fun h => survives_of_returns crates env signals k fun s hs => ?_⟩
  · exact (Session.push_returns crates (env s.2).chance (env s.2).server s.1).mp (h.returns s hs)
  · exact (Session.push_returns crates (env s.2).chance (env s.2).server s.1).mpr (h s hs)

/-! ### An address without slashes -/

/-- A URL taken apart at its first colon. -/
structure SplitUrl where
  scheme : String
  rest : String

namespace SplitUrl

def isSchemeChar (c : Char) : Bool := c.isAlphanum || c == '+' || c == '-' || c == '.'

/-- `Url::parse` of an absolute URL, as far as it tells the two kinds of URLs apart: the scheme
begins with a letter. -/
def parse (s : String) : Except String SplitUrl :=
  match s.toList.takeWhile (· ≠ ':'), s.toList.dropWhile (· ≠ ':') with
  | letter :: more, _ :: rest =>
    if letter.isAlpha && more.all isSchemeChar then
      .ok ⟨String.ofList ((letter :: more).map Char.toLower), String.ofList rest⟩
    else .error "relative URL without a base"
  | _, _ => .error "relative URL without a base"

def isSpecial (scheme : String) : Bool := scheme ∈ ["http", "https", "ws", "wss", "ftp", "file"]

def cannotBeABase (u : SplitUrl) : Bool := !isSpecial u.scheme && u.rest.toList.head? ≠ some '/'

def pushSegments (u : SplitUrl) (segments : List String) : Option SplitUrl :=
  if u.cannotBeABase then none
  else some ⟨u.scheme, segments.foldl (fun rest segment => rest ++ "/" ++ segment) u.rest⟩

end SplitUrl

def splitCrates : Crates where
  Url := SplitUrl
  parse := SplitUrl.parse
  cannotBeABase := SplitUrl.cannotBeABase
  pushSegments := SplitUrl.pushSegments
  asStr u := u.scheme ++ ":" ++ u.rest
  encodeProfile _ := []
  encodePushRequest _ := []
  gzip report := .ok report
  gzip_vec report := ⟨report, rfl⟩
  pushSegments_none u segments := by
    unfold SplitUrl.pushSegments
    split
    · exact ⟨fun _ => ‹_›, fun _ => rfl⟩
    · exact ⟨nofun, fun h => (‹¬_› h).elim⟩

def storedChance : Chance where
  ordData _ := .stored _
  ordStrings _ := .stored _
  ordTags _ := .stored _
  ordHeaders := .stored _
  uuid _ := "00000000-0000-4000-8000-000000000000"

/-- `configure` with only the memory profiler and an address without a scheme. -/
def localhostArgs : AgentArgs :=
  ⟨"app", "localhost:4040", "", "", 100, true, "cpython", "3.12.4", HashMap.empty, "", HashMap.empty,
    true, false, .pySpy⟩

def localhostSession : Session :=
  ⟨localhostArgs.config, [⟨"memory", .rawPprof [10, 4]⟩], ⟨0, 10⟩⟩

/-- The server would have accepted the first upload. -/
def acceptingEnv (_ : ℕ) : Env := ⟨storedChance, fun _ => .ok ⟨200, .ok ""⟩⟩

theorem localhost_kills_uploading :
    ¬∀ (crates : Crates) (env : ℕ → Env) (args : AgentArgs) (signals : List SessionSignal),
      args.refused = false → (∀ session ∈ beforeKill signals, session.config = args.config) →
        Survives crates env 0 signals := by
  intro h
  have hs := h splitCrates acceptingEnv localhostArgs [.session localhostSession] rfl
    (List.forall_mem_singleton.mpr rfl)
  rcases hs.exit with he | he <;> exact absurd he (by decide)

end Pyroscope.Upload
