import LlmWakeProxy.Library.Shell
import LlmWakeProxy.Config.Env
import LlmWakeProxy.Host.Rpc

/-!
The command `ensure_started` sends to the model host. ssh joins its arguments with
spaces and hands the text to the shell of the account, which cuts it into words
again; `env` then sets the expected path and runs the helper. The arguments are not
quoted, so that the helper gets what was configured exactly when the shell has
nothing to do in it.
-/

namespace LlmWakeProxy.Host
open LlmWakeProxy.Library LlmWakeProxy.Helper LlmWakeProxy.Config
open LlmWakeProxy.Forward (Text)

/-- The helper of the chat backend, as `AppState::production` makes it. -/
def chatHelper (config : AppConfig) : SshHelperRpc where
  sshUser := config.host.sshUser
  sshHost := config.host.host
  helperPath := config.host.helperPath
  modelPath := config.host.modelPath
  modelAlias := config.model.modelAlias
  sshKeyPath := config.host.sshKeyPath
  target := .chat

def embeddingsHelper (config : AppConfig) (backend : EmbeddingsBackendConfig) : SshHelperRpc where
  sshUser := config.host.sshUser
  sshHost := config.host.host
  helperPath := config.host.helperPath
  modelPath := backend.modelPath
  modelAlias := backend.modelAlias
  sshKeyPath := config.host.sshKeyPath
  target := .embeddings

/-- The helpers of a configuration: one, and one more for a dedicated backend. -/
def helperRpcs (config : AppConfig) : List SshHelperRpc :=
  chatHelper config :: (config.embeddings.backend.map (embeddingsHelper config)).toList

/-! ### The account -/

/-- A program that runs: the assignments made for it, first to last, and its arguments. -/
structure Run where
  assignments : List Text
  args : List Text
  deriving DecidableEq, Repr

/-- `env` on its operands: those with an equals sign in front are assignments, and
the others are the program with its arguments. -/
def env (operands : List Text) : Run where
  assignments := operands.takeWhile fun operand => '=' ∈ operand
  args := operands.dropWhile fun operand => '=' ∈ operand

/-- The account that ssh logs in to. Its shell reads words as every POSIX shell does;
what it makes of other texts, and the variables of the session, are its own. -/
structure Account where
  words : Text → Option (List Text)
  var : Text → Option Text
  posix : ∀ {text read}, Shell.words text = some read → words text = some read

/-- An account whose shell does nothing but read words, in an empty session. -/
def Account.bare : Account where
  words := Shell.words
  var _ := none
  posix h := h

/-- What `env` runs when the account is given a text. -/
def Account.run (account : Account) (command : Text) : Option Run :=
  match account.words command with
  | some (program :: operands) => if program = "env".toList then some (env operands) else none
  | _ => none

def Account.lookup (account : Account) (run : Run) (name : Text) : Option Text :=
  (run.assignments.reverse.findSome? fun word => word.dropPrefix? (name ++ ['='])).or
    (account.var name)

/-- The text that ssh makes of the remote command. -/
def SshHelperRpc.command (rpc : SshHelperRpc) : Text := Shell.join rpc.ensureStartedArgs

structure RunsHelper (account : Account) (rpc : SshHelperRpc) (run : Run) : Prop where
  started : account.run rpc.command = some run
  program : run.args[0]? = some rpc.helperPath
  subcommand : run.args[1]? = some "ensure-started".toList
  target : run.args[2]? = some rpc.target.asStr
  modelAlias : run.args[3]? = some rpc.modelAlias
  modelPath : account.lookup run "EXPECTED_MODEL_PATH".toList = some rpc.modelPath

/-- A string that means nothing to the shell as a word. -/
structure Clear (word : Text) : Prop where
  ordinary : ∀ c ∈ word, Shell.Ordinary c
  leader : ∀ c ∈ word.head?, c ∉ Shell.leaders

instance (word : Text) : Decidable (Clear word) :=
  decidable_of_iff
    (word.all (Shell.Ordinary ·) = true ∧ word.head?.all (· ∉ Shell.leaders) = true)
    ⟨fun h => ⟨List.all_iff_forall_prop.mp h.1, by simpa [Option.all_eq_true] using h.2⟩,
      fun h => ⟨List.all_iff_forall_prop.mpr h.ordinary,
        by simpa [Option.all_eq_true] using h.leader⟩⟩

/-- The configured strings mean nothing to the shell, nor to `env`. The path of the
model follows the variable's name, so that its first character is in no way special. -/
structure Literal (rpc : SshHelperRpc) : Prop where
  helperPath : Clear rpc.helperPath
  program : '=' ∉ rpc.helperPath
  modelPath : ∀ c ∈ rpc.modelPath, Shell.Ordinary c
  modelAlias : Clear rpc.modelAlias

theorem hostConfig_ne_nil {environment : Environment} {host : HostConfig}
    (h : HostConfig.fromEnv environment = some host) :
    host.helperPath ≠ [] ∧ host.modelPath ≠ [] := by
  obtain ⟨_, _, h⟩ := Option.bind_eq_some_iff.mp h
  obtain ⟨_, _, h⟩ := Option.bind_eq_some_iff.mp h
  obtain ⟨_, _, h⟩ := Option.bind_eq_some_iff.mp h
  obtain ⟨modelPath, hpath, h⟩ := Option.bind_eq_some_iff.mp h
  cases h
  exact ⟨getD_readVar_ne_nil (by decide), readVar_ne_nil hpath⟩

theorem embeddingsBackend_ne_nil {environment : Environment} {model : ModelConfig}
    {backend : EmbeddingsBackendConfig}
    (h : EmbeddingsBackendConfig.fromEnv environment model = some backend) :
    backend.modelAlias ≠ [] ∧ backend.modelPath ≠ [] := by
  obtain ⟨modelPath, hpath, rfl⟩ := Option.map_eq_some_iff.mp h
  refine ⟨getD_readVar_ne_nil fun hnil => ?_, readVar_ne_nil hpath⟩
  exact absurd (List.append_eq_nil_iff.mp hnil).2 (by decide)

theorem helperRpc_ne_nil {environment : Environment} {config : AppConfig} {rpc : SshHelperRpc}
    (loaded : AppConfig.fromEnv environment = some config) (configured : rpc ∈ helperRpcs config) :
    rpc.helperPath ≠ [] ∧ rpc.modelAlias ≠ [] ∧ rpc.modelPath ≠ [] := by
  obtain ⟨host, hhost, hconfig⟩ := Option.bind_eq_some_iff.mp loaded
  cases hconfig
  obtain ⟨helperPath, modelPath⟩ := hostConfig_ne_nil hhost
  obtain rfl | hbackend := List.mem_cons.mp configured
  · exact ⟨helperPath, ModelConfig.fromEnv_alias_ne_nil environment, modelPath⟩
  · obtain ⟨backend, hloaded, rfl⟩ := Option.map_eq_some_iff.mp (Option.mem_toList.mp hbackend)
    obtain ⟨modelAlias, modelPath⟩ := embeddingsBackend_ne_nil hloaded
    exact ⟨helperPath, modelAlias, modelPath⟩

def expectedModelPath : Text := "EXPECTED_MODEL_PATH=".toList

theorem plain_asStr (target : Target) : Shell.Plain target.asStr := by
  cases target with
  | chat | embeddings => decide

theorem expectedModelPath_eq : expectedModelPath = 'E' :: expectedModelPath.tail := by
  decide

theorem plain_assignment {path : Text} :
    Shell.Plain (expectedModelPath ++ path) ↔ ∀ c ∈ path, Shell.Ordinary c := by
  constructor
  · exact fun h c hc => h.ordinary c (List.mem_append_right _ hc)
  · intro h
    have hname : Shell.Plain expectedModelPath := by decide
    refine ⟨?_, fun c hc => (List.mem_append.mp hc).elim (hname.ordinary c) (h c), ?_⟩
    · exact List.append_ne_nil_of_left_ne_nil hname.ne_nil path
    · rw [expectedModelPath_eq, List.cons_append, List.head?_cons]
      rintro _ ⟨rfl⟩
      decide

theorem plain_args {rpc : SshHelperRpc} (h : Literal rpc) (helperPath : rpc.helperPath ≠ [])
    (modelAlias : rpc.modelAlias ≠ []) : ∀ arg ∈ rpc.ensureStartedArgs, Shell.Plain arg := by
  have henv : Shell.Plain "env".toList := by decide
  have hsubcommand : Shell.Plain "ensure-started".toList := by decide
  simp only [SshHelperRpc.ensureStartedArgs, List.forall_mem_cons]
  exact ⟨henv, plain_assignment.mpr h.modelPath,
    ⟨helperPath, h.helperPath.ordinary, h.helperPath.leader⟩, hsubcommand, plain_asStr _,
    ⟨modelAlias, h.modelAlias.ordinary, h.modelAlias.leader⟩, by simp⟩

theorem env_of_literal {rpc : SshHelperRpc} (h : Literal rpc) :
    env [expectedModelPath ++ rpc.modelPath, rpc.helperPath, "ensure-started".toList,
        rpc.target.asStr, rpc.modelAlias] =
      { assignments := [expectedModelPath ++ rpc.modelPath]
        args := [rpc.helperPath, "ensure-started".toList, rpc.target.asStr, rpc.modelAlias] } := by
  have hassign : '=' ∈ expectedModelPath ++ rpc.modelPath :=
    List.mem_append_left _ (by decide)
  simp [env, hassign, h.program]

theorem dropPrefix_append (name value : Text) : (name ++ value).dropPrefix? name = some value :=
  List.dropPrefix?_eq_some_iff.mpr ⟨name, rfl, by simp⟩

theorem runsHelper_of_literal {rpc : SshHelperRpc} (h : Literal rpc)
    (helperPath : rpc.helperPath ≠ []) (modelAlias : rpc.modelAlias ≠ []) (account : Account) :
    ∃ run, RunsHelper account rpc run := by
  have hread : account.words rpc.command = some rpc.ensureStartedArgs :=
    account.posix (Shell.words_join_iff.mpr (plain_args h helperPath modelAlias))
  refine ⟨{ assignments := [expectedModelPath ++ rpc.modelPath]
            args := [rpc.helperPath, "ensure-started".toList, rpc.target.asStr, rpc.modelAlias] },
    ?_, rfl, rfl, rfl, rfl, ?_⟩
  · rw [Account.run, hread, ← env_of_literal h]
    rfl
  · have hfound : (expectedModelPath ++ rpc.modelPath).dropPrefix? expectedModelPath =
        some rpc.modelPath := dropPrefix_append _ _
    simp only [Account.lookup, List.reverse_singleton, List.findSome?_cons]
    rw [show "EXPECTED_MODEL_PATH".toList ++ ['='] = expectedModelPath from rfl, hfound]
    rfl

theorem program_of_env {operands : List Text} {program : Text}
    (h : (env operands).args[0]? = some program) : '=' ∉ program := by
  have hhead := List.head?_dropWhile_not (fun operand : Text => decide ('=' ∈ operand)) operands
  rw [List.head?_eq_getElem?, show (operands.dropWhile _)[0]? = some program from h] at hhead
  simpa using hhead

theorem weight_env (operands : List Text) :
    Shell.weight operands = Shell.weight (env operands).assignments +
      Shell.weight (env operands).args := by
  rw [← Shell.weight_append]
  exact congrArg _ (List.takeWhile_append_dropWhile).symm

theorem mem_assignments_of_lookup {run : Run} {value : Text}
    (h : Account.bare.lookup run "EXPECTED_MODEL_PATH".toList = some value) :
    expectedModelPath ++ value ∈ run.assignments := by
  simp only [Account.lookup, Account.bare, Option.or_none] at h
  obtain ⟨word, hword, hvalue⟩ := List.exists_of_findSome?_eq_some h
  obtain ⟨name, rfl, hname⟩ := List.dropPrefix?_eq_some_iff.mp hvalue
  rw [eq_of_beq hname] at hword
  exact List.mem_reverse.mp hword

theorem exists_args {args : List Text} {a b c d : Text} (h₀ : args[0]? = some a)
    (h₁ : args[1]? = some b) (h₂ : args[2]? = some c) (h₃ : args[3]? = some d) :
    ∃ rest, args = a :: b :: c :: d :: rest := by
  match args with
  | a :: b :: c :: d :: rest =>
      cases h₀
      cases h₁
      cases h₂
      cases h₃
      exact ⟨rest, rfl⟩
  | [] | [_] | [_, _] | [_, _, _] => simp at h₃

/-- What the shell of a bare account gets right is literal: the words the helper needs
are as long as the whole command, so that reading it lost nothing. -/
theorem literal_of_runsHelper {rpc : SshHelperRpc} {run : Run} (h : RunsHelper .bare rpc run) :
    Literal rpc := by
  obtain ⟨started, program, subcommand, target, modelAlias, modelPath⟩ := h
  simp only [Account.run, Account.bare] at started
  split at started
  case h_2 => cases started
  rename_i name operands hread
  split at started
  case isFalse => cases started
  rename_i hname
  cases started
  obtain ⟨rest, hargs⟩ := exists_args program subcommand target modelAlias
  have hassigned := mem_assignments_of_lookup modelPath
  have hlong : rpc.command.length + 1 ≤ Shell.weight (name :: operands) := by
    have hcommand : rpc.command.length + 1 = Shell.weight rpc.ensureStartedArgs :=
      Shell.weight_join _ (by simp [SshHelperRpc.ensureStartedArgs])
    have hassignments := Shell.length_lt_weight hassigned
    rw [hcommand, Shell.weight_cons, weight_env operands, hargs, hname]
    simp only [SshHelperRpc.ensureStartedArgs, Shell.weight_cons, Shell.weight_nil]
    rw [show "EXPECTED_MODEL_PATH=".toList = expectedModelPath from rfl]
    omega
  have hplain := Shell.plain_of_tight hread hlong
  have hmem : ∀ word, word ∈ (env operands).assignments ∨ word ∈ (env operands).args →
      Shell.Plain word := by
    intro word hword
    refine hplain word (List.mem_cons_of_mem _ ?_)
    rw [← List.takeWhile_append_dropWhile (p := fun operand : Text => decide ('=' ∈ operand))
      (l := operands)]
    exact List.mem_append.mpr hword
  have hpath := hmem _ (.inr (List.mem_of_getElem? program))
  have halias := hmem _ (.inr (List.mem_of_getElem? modelAlias))
  exact ⟨⟨hpath.ordinary, hpath.leader⟩, program_of_env program,
    plain_assignment.mp (hmem _ (.inl hassigned)), ⟨halias.ordinary, halias.leader⟩⟩

theorem RunsHelper.request {account : Account} {rpc : SshHelperRpc} {run : Run}
    (h : RunsHelper account rpc run) (modelPath : rpc.modelPath ≠ []) :
    parseRequest run.args (account.lookup run "EXPECTED_MODEL_PATH".toList) =
      .ok { target := rpc.target, modelAlias := rpc.modelAlias, modelPath := rpc.modelPath } := by
  obtain ⟨c, path, hpath⟩ := List.exists_cons_of_ne_nil modelPath
  simp only [parseRequest, h.target, h.modelAlias, h.modelPath, hpath, Option.map_some,
    Target.fromStr_asStr]
  rfl

/-- The helper runs as it is configured, whatever the account, exactly when the
configured strings are literal. -/
theorem runsHelper_iff (environment : Environment) (config : AppConfig)
    (loaded : AppConfig.fromEnv environment = some config) (rpc : SshHelperRpc)
    (configured : rpc ∈ helperRpcs config) :
    (∀ account, ∃ run, RunsHelper account rpc run) ↔ Literal rpc := by
  obtain ⟨helperPath, modelAlias, _⟩ := helperRpc_ne_nil loaded configured
  refine ⟨fun h => ?_, fun h => runsHelper_of_literal h helperPath modelAlias⟩
  obtain ⟨run, hrun⟩ := h .bare
  exact literal_of_runsHelper hrun

section Instances

/-- An environment with what must be set. -/
def hostVariables (modelPath : String) : Environment
  | "SSH_HOST" => some "model-host".toList
  | "SSH_USER" => some "llm".toList
  | "WOL_MAC_ADDRESS" => some "AA:BB:CC:DD:EE:FF".toList
  | "MODEL_PATH" => some modelPath.toList
  | _ => none

theorem literal_path_loaded :
    (AppConfig.fromEnv (hostVariables "/models/a.gguf")).isSome = true := by
  decide

theorem blank_path_loaded :
    (AppConfig.fromEnv (hostVariables "/models/my model.gguf")).isSome = true := by
  decide

/-- A path without blanks reaches the helper on every account. -/
theorem runsHelper_iff_literal :
    ∃ config, AppConfig.fromEnv (hostVariables "/models/a.gguf") = some config ∧
      ∀ account, ∃ run, RunsHelper account (chatHelper config) run := by
  have loaded := (Option.some_get literal_path_loaded).symm
  refine ⟨_, loaded, (runsHelper_iff _ _ loaded _ List.mem_cons_self).mpr ?_⟩
  exact ⟨by decide, by decide,
    List.all_iff_forall_prop.mp (by decide), by decide⟩

/-- A path with a blank does not reach the helper. -/
theorem blank_path_is_divided :
    ¬ ∀ (environment : Environment) (config : AppConfig),
        AppConfig.fromEnv environment = some config →
        ∀ rpc ∈ helperRpcs config, ∀ account, ∃ run, RunsHelper account rpc run := by
  intro claim
  have loaded := (Option.some_get blank_path_loaded).symm
  obtain ⟨run, hrun⟩ := claim _ _ loaded _ List.mem_cons_self .bare
  have hblank := (literal_of_runsHelper hrun).modelPath ' ' (by decide)
  exact absurd hblank (by decide)

end Instances
end LlmWakeProxy.Host
