import LlmWakeProxy.Helper.Command

/-!
The proxy's end of the helper: the command line `SshHelperRpc` gives to ssh, and
what it makes of the output that comes back. ssh is taken to pass the helper's
output and exit code through.
-/

namespace LlmWakeProxy.Host
open LlmWakeProxy.Library LlmWakeProxy.Helper
open LlmWakeProxy.Forward (Text)
open LlmWakeProxy.Lifecycle (LifecycleError LifecycleState ObservedBackendState UnitState)

structure SshHelperRpc where
  sshUser : Text
  sshHost : Text
  helperPath : Text
  modelPath : Text
  modelAlias : Text
  sshKeyPath : Text
  target : Target

/-- The arguments of `ensure_started` for the remote command. -/
def SshHelperRpc.ensureStartedArgs (rpc : SshHelperRpc) : List Text :=
  ["env".toList, "EXPECTED_MODEL_PATH=".toList ++ rpc.modelPath, rpc.helperPath,
   "ensure-started".toList, rpc.target.asStr, rpc.modelAlias]

def SshHelperRpc.sshArgs (rpc : SshHelperRpc) (args : List Text) : List Text :=
  ["-o".toList, "ConnectTimeout=10".toList, "-o".toList, "BatchMode=yes".toList, "-o".toList,
   "StrictHostKeyChecking=accept-new".toList, "-i".toList, rpc.sshKeyPath,
   rpc.sshUser ++ ['@'] ++ rpc.sshHost] ++ args

/-- What `run_helper_cmd` makes of the outcome of running ssh. The description of
invalid UTF-8 is the standard library's. -/
def runHelperCmd (utf8Error : List UInt8 → String) (outcome : Except String Output) :
    Except LifecycleError Text :=
  match outcome with
  | .error e => .error { message := "ssh failed: " ++ e }
  | .ok output =>
      if output.success then
        match Utf8.decode output.stdout with
        | some text => .ok text
        | none => .error { message := "invalid UTF-8 from helper: " ++ utf8Error output.stdout }
      else
        .error { message := "helper command failed: " ++
                   String.ofList (Utf8.decodeLossy output.stderr) }

def mapUnitState : Option String → UnitState
  | some "active" => .active
  | some "activating" | some "reloading" => .activating
  | some "inactive" => .inactive
  | some "failed" | some "error" => .failed
  | _ => .unknown

/-- What `ensure_started` makes of a response. -/
def observedOf (ensure : EnsureStartedResponse) : ObservedBackendState where
  lifecycle :=
    match ensure.status with
    | .ok => if ensure.modelVerified then .ready else .warming
    | _ => .error
  chat := .ready
  embeddings := .ready
  embeddingsReason := none
  error :=
    match ensure.status with
    | .ok => none
    | _ => some ensure.message
  llamaServerUnit := mapUnitState (ensure.llamaServer.map UnitInfo.activeState)
  inhibitUnit := .unknown

/-- `SshHelperRpc::ensure_started`, from the outcome of running ssh. -/
def ensureStarted (codec : JsonCodec EnsureStartedResponse) (utf8Error : List UInt8 → String)
    (outcome : Except String Output) : Except LifecycleError ObservedBackendState := do
  let output ← runHelperCmd utf8Error outcome
  match codec.fromStr output with
  | .ok ensure => return observedOf ensure
  | .error e => .error { message := "failed to parse ensure-started response: " ++ e }

structure Conveys (response : EnsureStartedResponse) (observed : ObservedBackendState) : Prop where
  ready : response.status = .ok → response.modelVerified = true → observed.lifecycle = .ready
  warming : response.status = .ok → response.modelVerified = false → observed.lifecycle = .warming
  error : response.status ≠ .ok → observed.lifecycle = .error
  message : response.status ≠ .ok → observed.error = some response.message
  unit : observed.llamaServerUnit = mapUnitState (response.llamaServer.map UnitInfo.activeState)

end LlmWakeProxy.Host
