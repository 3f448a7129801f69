import LlmWakeProxy.Forward.Rewrite
import LlmWakeProxy.Scheduler.Execute

/-!
`AppConfig::from_env`. An environment gives a variable's value; a value that is not
Unicode is for the code the same as none. A variable that is blank counts as unset.
A configuration that is missing something it must have is a panic, and `none` here.
-/

namespace LlmWakeProxy.Config
open LlmWakeProxy.Forward (Text)
open LlmWakeProxy.Lifecycle (Duration)
open LlmWakeProxy.Scheduler (WarmExecutionConfig)

abbrev Environment := String → Option Text

/-! ### Numbers -/

/-- `char::to_digit`. -/
def toDigit (radix : Nat) (c : Char) : Option Nat :=
  let value :=
    if '0' ≤ c ∧ c ≤ '9' then some (c.toNat - '0'.toNat)
    else if 'a' ≤ c ∧ c ≤ 'z' then some (c.toNat - 'a'.toNat + 10)
    else if 'A' ≤ c ∧ c ≤ 'Z' then some (c.toNat - 'A'.toNat + 10)
    else none
  value.filter fun digit => digit < radix

/-- The digits are added to what is read; the number stays below the bound. -/
def readDigits (radix bound : Nat) : Nat → Text → Option Nat
  | acc, [] => some acc
  | acc, c :: rest => do
      let digit ← toDigit radix c
      if acc * radix + digit < bound then readDigits radix bound (acc * radix + digit) rest
      else none

/-- `from_str_radix` of an unsigned type. A plus sign may lead. -/
def fromStrRadix (radix bound : Nat) : Text → Option Nat
  | [] => none
  | ['+'] => none
  | '+' :: digits => readDigits radix bound 0 digits
  | digits => readDigits radix bound 0 digits

def parseU8Hex (text : Text) : Option UInt8 := (fromStrRadix 16 UInt8.size text).map UInt8.ofNat

def parseU16 (text : Text) : Option UInt16 := (fromStrRadix 10 UInt16.size text).map UInt16.ofNat

def parseU64 (text : Text) : Option UInt64 := (fromStrRadix 10 UInt64.size text).map UInt64.ofNat

/-- `usize` on a 64-bit platform. -/
def parseUsize (text : Text) : Option Nat := fromStrRadix 10 UInt64.size text

def parseMac (input : Text) : Option (Vector UInt8 6) :=
  match input.splitOn ':' with
  | [a, b, c, d, e, f] => do
      return #v[← parseU8Hex a, ← parseU8Hex b, ← parseU8Hex c, ← parseU8Hex d, ← parseU8Hex e,
        ← parseU8Hex f]
  | _ => none

/-! ### Variables -/

/-- `char::is_whitespace`. -/
def isWhitespace (c : Char) : Bool :=
  (0x9 ≤ c.toNat ∧ c.toNat ≤ 0xD) ∨ c.toNat = 0x20 ∨ c.toNat = 0x85 ∨ c.toNat = 0xA0 ∨
    c.toNat = 0x1680 ∨ (0x2000 ≤ c.toNat ∧ c.toNat ≤ 0x200A) ∨ c.toNat = 0x2028 ∨
    c.toNat = 0x2029 ∨ c.toNat = 0x202F ∨ c.toNat = 0x205F ∨ c.toNat = 0x3000

def readVar (env : Environment) (name : String) : Option Text :=
  (env name).filter fun value => !value.all isWhitespace

def readPositiveUsize (env : Environment) (name : String) (default : Nat) : Nat :=
  (((readVar env name).bind parseUsize).filter fun value => 0 < value).getD default

def readNonnegativeUsize (env : Environment) (name : String) (default : Nat) : Nat :=
  ((readVar env name).bind parseUsize).getD default

/-! ### The configuration -/

structure ModelConfig where
  modelAlias : Text
  providerId : Text
  ownedBy : Text

structure EmbeddingsBackendConfig where
  modelAlias : Text
  providerId : Text
  ownedBy : Text
  modelPath : Text
  tunnelLocalPort : UInt16
  remotePort : UInt16

structure EmbeddingsConfig where
  enabled : Bool
  backend : Option EmbeddingsBackendConfig

structure HostConfig where
  host : Text
  sshUser : Text
  sshPort : UInt16
  wolMac : Vector UInt8 6
  wolBroadcast : Text
  wolPort : UInt16
  helperPath : Text
  modelPath : Text
  sshKeyPath : Text
  tunnelLocalPort : UInt16
  remotePort : UInt16

structure AppConfig where
  listenPort : UInt16
  model : ModelConfig
  embeddings : EmbeddingsConfig
  warmExecution : WarmExecutionConfig
  host : HostConfig
  coldStartMaxWaiting : Nat

def ModelConfig.fromEnv (env : Environment) : ModelConfig where
  modelAlias := (readVar env "MODEL_ALIAS").getD "llm-wake-proxy".toList
  providerId := (readVar env "MODEL_PROVIDER_ID").getD "llama.cpp".toList
  ownedBy := (readVar env "MODEL_OWNED_BY").getD "llm-wake-proxy".toList

def EmbeddingsBackendConfig.fromEnv (env : Environment) (model : ModelConfig) :
    Option EmbeddingsBackendConfig :=
  (readVar env "EMBEDDINGS_MODEL_PATH").map fun modelPath =>
    { modelAlias := (readVar env "EMBEDDINGS_MODEL_ALIAS").getD
        (model.modelAlias ++ "-embeddings".toList)
      providerId := (readVar env "EMBEDDINGS_MODEL_PROVIDER_ID").getD model.providerId
      ownedBy := (readVar env "EMBEDDINGS_MODEL_OWNED_BY").getD model.ownedBy
      modelPath := modelPath
      tunnelLocalPort :=
        ((readVar env "EMBEDDINGS_TUNNEL_LOCAL_PORT").bind parseU16).getD 18081
      remotePort := ((readVar env "EMBEDDINGS_LLAMA_SERVER_PORT").bind parseU16).getD 8081 }

/-- A dedicated backend implies that embeddings are enabled. -/
def EmbeddingsConfig.fromEnv (env : Environment) (model : ModelConfig) : EmbeddingsConfig :=
  let backend := EmbeddingsBackendConfig.fromEnv env model
  { enabled := backend.isSome ||
      ((readVar env "EMBEDDINGS_ENABLED").map fun value =>
        ["1".toList, "true".toList, "TRUE".toList, "yes".toList].contains value).getD true
    backend := backend }

def warmExecutionFromEnv (env : Environment) : WarmExecutionConfig where
  maxActiveRequests := readPositiveUsize env "WARM_MAX_ACTIVE_REQUESTS" 2
  maxQueuedRequests := readNonnegativeUsize env "WARM_MAX_QUEUED_REQUESTS" 16
  queueTimeout :=
    Duration.fromSecs (((readVar env "WARM_QUEUE_TIMEOUT_SECS").bind parseU64).getD 30)

def HostConfig.fromEnv (env : Environment) : Option HostConfig := do
  let host ← readVar env "SSH_HOST"
  let sshUser ← readVar env "SSH_USER"
  let wolMac ← (readVar env "WOL_MAC_ADDRESS").bind parseMac
  let modelPath ← readVar env "MODEL_PATH"
  return { host := host
           sshUser := sshUser
           sshPort := ((readVar env "SSH_PORT").bind parseU16).getD 22
           wolMac := wolMac
           wolBroadcast := (readVar env "WOL_BROADCAST_ADDR").getD "255.255.255.255".toList
           wolPort := ((readVar env "WOL_PORT").bind parseU16).getD 9
           helperPath :=
             (readVar env "HELPER_PATH").getD "/usr/local/bin/llm-wake-proxy-helper".toList
           modelPath := modelPath
           sshKeyPath := (readVar env "SSH_KEY_PATH").getD "~/.ssh/ssh-privatekey".toList
           tunnelLocalPort := ((readVar env "TUNNEL_LOCAL_PORT").bind parseU16).getD 18080
           remotePort := ((readVar env "LLAMA_SERVER_PORT").bind parseU16).getD 8080 }

def AppConfig.fromEnv (env : Environment) : Option AppConfig := do
  let host ← HostConfig.fromEnv env
  let model := ModelConfig.fromEnv env
  return { listenPort := ((readVar env "PORT").bind parseU16).getD 3000
           model := model
           embeddings := EmbeddingsConfig.fromEnv env model
           warmExecution := warmExecutionFromEnv env
           host := host
           coldStartMaxWaiting := readPositiveUsize env "COLD_START_MAX_WAITING" 32 }

/-! ### What is read -/

theorem readVar_eq_some {env : Environment} {name : String} {value : Text} :
    readVar env name = some value ↔ env name = some value ∧ value.all isWhitespace = false := by
  rw [readVar, Option.filter_eq_some_iff]
  simp

theorem readVar_ne_nil {env : Environment} {name : String} {value : Text}
    (h : readVar env name = some value) : value ≠ [] := by
  rintro rfl
  simpa using (readVar_eq_some.mp h).2

/-- A text with a default that is not empty is not empty. -/
theorem getD_readVar_ne_nil {env : Environment} {name : String} {default : Text}
    (h : default ≠ []) : (readVar env name).getD default ≠ [] := by
  cases hread : readVar env name with
  | some value => exact readVar_ne_nil hread
  | none => exact h

theorem ModelConfig.fromEnv_alias_ne_nil (env : Environment) :
    (ModelConfig.fromEnv env).modelAlias ≠ [] :=
  getD_readVar_ne_nil (by decide)

end LlmWakeProxy.Config
