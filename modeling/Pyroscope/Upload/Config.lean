import Pyroscope.Lib.HashMap

/-!
# The configuration of a session (pyroscope.rs, lib.rs)

`initialize_agent` refuses a few combinations of its arguments and copies the rest
into a `PyroscopeConfig`, unchecked. The upload interval and the settings of the
profilers themselves are left out.
-/

namespace Pyroscope.Upload
open Pyroscope.Lib

structure BasicAuth where
  username : String
  password : String
  deriving DecidableEq, Repr

structure PyroscopeConfig where
  url : String
  applicationName : String
  tags : HashMap String String
  sampleRate : UInt32
  spyName : String
  spyVersion : String
  runtimeName : String
  runtimeVersion : String
  basicAuth : Option BasicAuth
  tenantId : Option String
  httpHeaders : HashMap String String

namespace PyroscopeConfig

def new (url applicationName : String) (sampleRate : UInt32) (spyName spyVersion : String) :
    PyroscopeConfig :=
  ⟨url, applicationName, HashMap.empty, sampleRate, spyName, spyVersion, "", "", none, none,
    HashMap.empty⟩

/-! The setters, in the order of the source. -/

def withBasicAuth (c : PyroscopeConfig) (username password : String) : PyroscopeConfig :=
  { c with basicAuth := some ⟨username, password⟩ }

def withTags (c : PyroscopeConfig) (tags : HashMap String String) : PyroscopeConfig := { c with tags }

def withRuntime (c : PyroscopeConfig) (runtimeName runtimeVersion : String) : PyroscopeConfig :=
  { c with runtimeName, runtimeVersion }

def withTenantId (c : PyroscopeConfig) (tenantId : String) : PyroscopeConfig :=
  { c with tenantId := some tenantId }

def withHttpHeaders (c : PyroscopeConfig) (httpHeaders : HashMap String String) : PyroscopeConfig :=
  { c with httpHeaders }

end PyroscopeConfig

inductive ProfilerImplementation where
  | pySpy
  | stack
  | signal
  deriving DecidableEq, Repr

def pyspyName : String := "pyspy"

/-- `CARGO_PKG_VERSION` -/
def pyspyVersion : String := "1.4.0"

/-- The arguments of `initialize_agent` that reach the configuration or the refusals. -/
structure AgentArgs where
  applicationName : String
  serverAddress : String
  basicAuthUsername : String
  basicAuthPassword : String
  sampleRate : UInt32
  oncpu : Bool
  runtimeName : String
  runtimeVersion : String
  tags : HashMap String String
  tenantId : String
  httpHeaders : HashMap String String
  memEnabled : Bool
  cpuEnabled : Bool
  cpuImplementation : ProfilerImplementation

namespace AgentArgs

/-- Whether `initialize_agent` returns false before it looks at anything else. -/
def refused (a : AgentArgs) : Bool :=
  (!a.cpuEnabled && !a.memEnabled) ||
  (a.cpuEnabled && a.cpuImplementation == .stack && !a.oncpu) ||
  (a.cpuEnabled && a.cpuImplementation == .signal && !a.oncpu)

def config (a : AgentArgs) : PyroscopeConfig :=
  let c := PyroscopeConfig.new a.serverAddress a.applicationName a.sampleRate pyspyName pyspyVersion
  let c := (c.withTags a.tags).withRuntime a.runtimeName a.runtimeVersion
  let c := if a.basicAuthUsername ≠ "" ∧ a.basicAuthPassword ≠ "" then
      c.withBasicAuth a.basicAuthUsername a.basicAuthPassword else c
  let c := if a.tenantId ≠ "" then c.withTenantId a.tenantId else c
  c.withHttpHeaders a.httpHeaders

/-- The two values that decide whether an upload can go wrong are taken as they come. -/
theorem config_url (a : AgentArgs) : a.config.url = a.serverAddress := by
  unfold config
  split <;> split <;> rfl

theorem config_sampleRate (a : AgentArgs) : a.config.sampleRate = a.sampleRate := by
  unfold config
  split <;> split <;> rfl

end AgentArgs

end Pyroscope.Upload
