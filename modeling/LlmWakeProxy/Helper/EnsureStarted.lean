import LlmWakeProxy.Library.Panic
import LlmWakeProxy.Forward.Rewrite
import LlmWakeProxy.Lifecycle.Types

/-!
The helper that runs on the model host, and its `ensure_started`: it starts the
systemd unit of a target unless that is active, polls the server until it
answers or the start timeout is over, and compares the model the server reports
with the one that is expected. Each way out has a response of its own.

`SystemdControl` and `ServerCheck` are a parameter. They act on the states `σ` of
the host, so that every call may answer anything, and differently each time. The
session keeps the calls with their answers, latest first, and what was printed to
stderr. A run that panics has no result, but has made its calls.
-/

namespace LlmWakeProxy.Helper
open LlmWakeProxy.Library
open LlmWakeProxy.Forward (Text Value)
open LlmWakeProxy.Lifecycle (Instant Duration)

universe u
variable {ν : Type u} {σ : Type}

inductive HelperStatus where
  | ok
  | mismatch
  | error
  deriving DecidableEq, Repr

inductive Target where
  | chat
  | embeddings
  deriving DecidableEq, Repr

def Target.asStr : Target → Text
  | .chat => "chat".toList
  | .embeddings => "embeddings".toList

def Target.fromStr (s : Text) : Except String Target :=
  if s = "chat".toList then .ok .chat
  else if s = "embeddings".toList then .ok .embeddings
  else .error ("unknown target '" ++ String.ofList s ++ "', expected 'chat' or 'embeddings'")

@[simp] theorem Target.fromStr_asStr (target : Target) : fromStr target.asStr = .ok target := by
  cases target <;> rfl

structure UnitInfo where
  unitName : String
  activeState : String
  subState : String
  description : String
  deriving DecidableEq, Repr

structure EnsureStartedResponse where
  status : HelperStatus
  message : String
  modelAlias : Text
  modelPath : Text
  startupTriggered : Bool
  serverReady : Bool
  modelVerified : Bool
  llamaServer : Option UnitInfo
  deriving DecidableEq, Repr

/-- The part of `HelperConfig` that `ensure_started` reads. -/
structure HelperConfig where
  llamaServerUnit : String
  llamaServerPort : UInt16
  llamaServerEmbeddingsUnit : String
  llamaServerEmbeddingsPort : UInt16
  serverStartTimeoutSecs : UInt64

def HelperConfig.default : HelperConfig where
  llamaServerUnit := "llama-server"
  llamaServerPort := 8080
  llamaServerEmbeddingsUnit := "llama-server-embeddings"
  llamaServerEmbeddingsPort := 8081
  serverStartTimeoutSecs := 60

def HelperConfig.unitFor (config : HelperConfig) : Target → String
  | .chat => config.llamaServerUnit
  | .embeddings => config.llamaServerEmbeddingsUnit

def HelperConfig.portFor (config : HelperConfig) : Target → UInt16
  | .chat => config.llamaServerPort
  | .embeddings => config.llamaServerEmbeddingsPort

/-- The properties `systemctl show` prints. -/
abbrev UnitProperties := String → Option String

/-- What the helper runs on: systemd, the local HTTP server, `serde_json` with
the texts of its errors, and the clock, which no call turns back and which runs
on while a thread sleeps. -/
structure Services (ν : Type u) (σ : Type) where
  isActive : String → σ → Except String Bool × σ
  startUnit : String → σ → Except String Unit × σ
  showUnit : String → σ → Except String UnitProperties × σ
  getText : String → σ → Except String Text × σ
  fromStr : Text → Except String (Value ν)
  now : σ → Instant
  sleep : Duration → σ → σ
  now_getText : ∀ url host, now host ≤ now (getText url host).2
  now_sleep : ∀ span host, now host + span ≤ now (sleep span host)

inductive HostCall where
  | isActive (unit : String) (answer : Except String Bool)
  | startUnit (unit : String) (answer : Except String Unit)
  | showUnit (unit : String) (answer : Except String UnitProperties)
  | getText (url : String) (answer : Except String Text)

structure Session (σ : Type) where
  host : σ
  calls : List HostCall
  stderr : String

abbrev HelperM (σ : Type) := PanicM (Session σ)

/-- A call of a service. -/
def call {ρ : Type} (service : σ → ρ × σ) (record : ρ → HostCall) : HelperM σ ρ := fun session =>
  let (answer, host) := service session.host
  (some answer, { session with host := host, calls := record answer :: session.calls })

def eprintln (line : String) : HelperM σ Unit := fun session =>
  (some (), { session with stderr := session.stderr ++ line ++ "\n" })

def now (services : Services ν σ) : HelperM σ Instant := fun session =>
  (some (services.now session.host), session)

def sleep (services : Services ν σ) (span : Duration) : HelperM σ Unit := fun session =>
  (some (), { session with host := services.sleep span session.host })

def buildServerUrl (port : UInt16) (path : String) : String :=
  "http://127.0.0.1:" ++ toString port ++ path

def getText (services : Services ν σ) (url : String) : HelperM σ (Except String Text) :=
  call (services.getText url) (.getText url)

def isServerAlive (services : Services ν σ) (port : UInt16) : HelperM σ Bool := do
  let answer ← getText services (buildServerUrl port "/v1/models")
  return answer.isOk

def pollMillis : UInt64 := 500

/-- The loop of `wait_for_server`, for at most so many rounds. -/
def pollServer (services : Services ν σ) (port : UInt16) (deadline : Instant) :
    Nat → HelperM σ Bool
  | 0 => return false
  | rounds + 1 => do
      if deadline ≤ (← now services) then
        return false
      else if ← isServerAlive services port then
        return true
      else
        sleep services (Duration.fromMillis pollMillis)
        pollServer services port deadline rounds

/-- Two rounds a second: the deadline is over before the rounds are. -/
def waitForServer (services : Services ν σ) (port : UInt16) (timeoutSecs : UInt64) :
    HelperM σ Bool := do
  let start ← now services
  match Instant.add? start (Duration.fromSecs timeoutSecs) with
  | none => .panicked
  | some deadline => pollServer services port deadline (2 * timeoutSecs.toNat)

def collectUnitInfo (services : Services ν σ) (unitName : String) : HelperM σ (Option UnitInfo) := do
  match ← call (services.showUnit unitName) (.showUnit unitName) with
  | .ok props =>
      return some { unitName := unitName
                    activeState := (props "ActiveState").getD "unknown"
                    subState := (props "SubState").getD "unknown"
                    description := (props "Description").getD "" }
  | .error e =>
      return some { unitName := unitName, activeState := "error", subState := e, description := "" }

/-- Indexing a JSON value by a key; `Null` where there is nothing. -/
def index (json : Value ν) (key : Text) : Value ν :=
  match json with
  | .object fields => (fields.lookup key).getD .null
  | _ => .null

/-- The identifier of the first model of a models response. -/
def firstModelId (json : Value ν) : Option Text :=
  match index json "data".toList with
  | .array (first :: _) =>
      match index first "id".toList with
      | .string id => some id
      | _ => none
  | _ => none

/-- What `check_model_identity` makes of the body. -/
def modelIdentity (services : Services ν σ) (body : Except String Text) :
    Except String (Option Text) := do
  match services.fromStr (← body) with
  | .ok json => return firstModelId json
  | .error e => .error ("failed to parse models response: " ++ e)

def checkModelIdentity (services : Services ν σ) (port : UInt16) :
    HelperM σ (Except String (Option Text)) := do
  let body ← getText services (buildServerUrl port "/v1/models")
  return modelIdentity services body

/-- Is the unit active? A failed query counts as no. -/
def checkActive (services : Services ν σ) (unit : String) : HelperM σ Bool := do
  match ← call (services.isActive unit) (.isActive unit) with
  | .ok active => return active
  | .error e =>
      eprintln ("Failed to check unit state: " ++ e)
      return false

/-- Start the unit unless it is active; the result is `startup_triggered`. -/
def startInactive (services : Services ν σ) (unit : String) : HelperM σ (Except String Bool) := do
  if ← checkActive services unit then
    return .ok false
  else
    eprintln ("Starting systemd unit: " ++ unit)
    match ← call (services.startUnit unit) (.startUnit unit) with
    | .ok () => return .ok true
    | .error e => return .error e

/-- The two-way substring test. -/
def modelMatches (modelPath reportedId : Text) : Bool :=
  decide (modelPath <:+: reportedId) || decide (reportedId <:+: modelPath)

def ensureStarted (config : HelperConfig) (services : Services ν σ) (target : Target)
    (modelAlias modelPath : Text) : HelperM σ EnsureStartedResponse := do
  let unit := config.unitFor target
  let port := config.portFor target
  match ← startInactive services unit with
  | .error e =>
      return { status := .error
               message := "failed to start llama-server: " ++ e
               modelAlias := modelAlias
               modelPath := modelPath
               startupTriggered := false
               serverReady := false
               modelVerified := false
               llamaServer := some { unitName := unit
                                     activeState := "failed"
                                     subState := "startup_error"
                                     description := e } }
  | .ok startupTriggered =>
    let serverReady ← waitForServer services port config.serverStartTimeoutSecs
    if !serverReady then
      let unitInfo := (← collectUnitInfo services unit).getD
        { unitName := unit
          activeState := "unknown"
          subState := "server_not_responding"
          description := "" }
      return { status := .error
               message := "llama-server did not become ready within " ++
                 toString config.serverStartTimeoutSecs ++ " seconds"
               modelAlias := modelAlias
               modelPath := modelPath
               startupTriggered := startupTriggered
               serverReady := false
               modelVerified := false
               llamaServer := some unitInfo }
    else
      let running : UnitInfo :=
        { unitName := unit, activeState := "active", subState := "running", description := "" }
      match ← checkModelIdentity services port with
      | .ok (some reportedId) =>
          if modelMatches modelPath reportedId then
            let unitInfo := (← collectUnitInfo services unit).getD running
            return { status := .ok
                     message := if startupTriggered then "model started and verified successfully"
                                else "model is already running and ready"
                     modelAlias := modelAlias
                     modelPath := modelPath
                     startupTriggered := startupTriggered
                     serverReady := serverReady
                     modelVerified := true
                     llamaServer := some unitInfo }
          else
            let unitInfo := (← collectUnitInfo services unit).getD running
            return { status := .mismatch
                     message := "expected model path '" ++ String.ofList modelPath ++
                       "', but server reports '" ++ String.ofList reportedId ++ "'"
                     modelAlias := modelAlias
                     modelPath := modelPath
                     startupTriggered := startupTriggered
                     serverReady := serverReady
                     modelVerified := false
                     llamaServer := some unitInfo }
      | .ok none =>
          let unitInfo := (← collectUnitInfo services unit).getD running
          return { status := .error
                   message := "server responded but returned no model identifiers"
                   modelAlias := modelAlias
                   modelPath := modelPath
                   startupTriggered := startupTriggered
                   serverReady := serverReady
                   modelVerified := false
                   llamaServer := some unitInfo }
      | .error e =>
          let unitInfo := (← collectUnitInfo services unit).getD
            { unitName := unit
              activeState := "unknown"
              subState := "model_identity_check_error"
              description := e }
          return { status := .error
                   message := "model identity check failed: " ++ e
                   modelAlias := modelAlias
                   modelPath := modelPath
                   startupTriggered := startupTriggered
                   serverReady := serverReady
                   modelVerified := false
                   llamaServer := some unitInfo }

end LlmWakeProxy.Helper
