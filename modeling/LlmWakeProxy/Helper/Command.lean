import LlmWakeProxy.Library.Utf8
import LlmWakeProxy.Helper.EnsureStarted

/-!
The `ensure-started` command of the helper: its arguments, and what it leaves on
its standard streams and as its exit code. The response is printed whatever its
status is; the exit code tells whether the status is `Ok`.

The derived serialisation of the response is a parameter.
-/

namespace LlmWakeProxy.Helper
open LlmWakeProxy.Library
open LlmWakeProxy.Forward (Text)

universe u
variable {ν : Type u} {σ : Type}

/-- `std::process::Output`, of the exit code whether it is success. -/
structure Output where
  success : Bool
  stdout : List UInt8
  stderr : List UInt8
  deriving DecidableEq, Repr

/-- The derived `Serialize` and `Deserialize` of a type, through JSON text. -/
structure JsonCodec (ρ : Type) where
  toString : ρ → Text
  fromStr : Text → Except String ρ

/-- What a text that was printed on a line is read back as. -/
def JsonCodec.Faithful {ρ : Type} (codec : JsonCodec ρ) (value : ρ) : Prop :=
  codec.fromStr (codec.toString value ++ ['\n']) = .ok value

def usage : List String :=
  ["Usage: helper ensure-started <chat|embeddings> <model-alias>", "", "Environment:",
   "  EXPECTED_MODEL_PATH    Path to verify against running server",
   "  LLAMA_SERVER_UNIT      systemd unit name (default: llama-server)",
   "  LLAMA_SERVER_PORT      Port for server health check (default: 8080)",
   "  LLAMA_SERVER_EMBEDDINGS_UNIT  systemd unit name (default: llama-server-embeddings)",
   "  LLAMA_SERVER_EMBEDDINGS_PORT  Port for embeddings server health check (default: 8081)",
   "  SERVER_START_TIMEOUT_SECS  How long to wait for server (default: 60)"]

/-- What the command is to do: the target, the model's alias and the expected path. -/
structure Request where
  target : Target
  modelAlias : Text
  modelPath : Text
  deriving DecidableEq, Repr

/-- The arguments of `ensure-started`, or what is printed when they are not right. -/
def parseRequest (args : List Text) (expectedModelPath : Option Text) :
    Except (List String) Request := do
  let target ← match args[2]?.map Target.fromStr with
    | some (.ok target) => pure target
    | some (.error e) => .error (e :: usage)
    | none => .error usage
  let modelAlias ← match args[3]? with
    | some modelAlias => pure modelAlias
    | none => .error usage
  match expectedModelPath with
  | some (c :: path) => return { target := target, modelAlias := modelAlias, modelPath := c :: path }
  | _ => .error ["EXPECTED_MODEL_PATH must be set for ensure-started"]

/-- What is printed on stderr besides the response. -/
def complaint (response : EnsureStartedResponse) : List String :=
  match response.status with
  | .ok => []
  | .mismatch => ["Model mismatch: " ++ response.message]
  | .error => ["Error: " ++ response.message]

/-- The command ends. -/
def exit (success : Bool) (stdout : Text) (complaints : List String) : HelperM σ Output := do
  complaints.forM eprintln
  let session ← .get
  return { success := success
           stdout := Utf8.encode stdout
           stderr := Utf8.encode session.stderr.toList }

/-- `main` on the subcommand `ensure-started`. -/
def main (codec : JsonCodec EnsureStartedResponse) (config : HelperConfig) (services : Services ν σ)
    (args : List Text) (expectedModelPath : Option Text) : HelperM σ Output := do
  match parseRequest args expectedModelPath with
  | .error complaints => exit false [] complaints
  | .ok request =>
      let response ← ensureStarted config services request.target request.modelAlias request.modelPath
      exit (response.status = .ok) (codec.toString response ++ ['\n']) (complaint response)

end LlmWakeProxy.Helper
