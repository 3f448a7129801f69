import LlmWakeProxy.Host.ExitCode
import LlmWakeProxy.Host.RemoteCommand

/-!
`observe_backend` over the whole way: the proxy gives ssh a command, the account's
shell reads it, the helper runs on the model host, and its output comes back. What the
helper finds there is left in its log, and what it prints tells of it.

ssh is a parameter. It may lose a command, or the helper's output; an output of a
command that succeeded is taken to be the output of the helper.
-/

namespace LlmWakeProxy.Host
open LlmWakeProxy.Library LlmWakeProxy.Helper
open PanicM (bind_eq_some pure_eq_some)
open LlmWakeProxy.Forward (Text)
open LlmWakeProxy.Config (Environment AppConfig)
open LlmWakeProxy.Lifecycle (LifecycleError LifecycleState ObservedBackendState UnitState)

universe u
variable {ν : Type u} {σ ρ : Type}

/-- The arguments of `fetch_status` for the remote command. -/
def SshHelperRpc.statusArgs (rpc : SshHelperRpc) : List Text := [rpc.helperPath, "status".toList]

def selectUnit (target : Target) (status : StatusResponse) : Option UnitInfo :=
  match target with
  | .chat => status.llamaServer
  | .embeddings => status.llamaServerEmbeddings

/-- `SshHelperRpc::fetch_status`, from the outcome of running ssh. -/
def fetchStatus (codec : JsonCodec StatusResponse) (utf8Error : List UInt8 → String)
    (target : Target) (outcome : Except String Output) :
    Except LifecycleError ObservedBackendState := do
  let output ← runHelperCmd utf8Error outcome
  match codec.fromStr output with
  | .ok parsed =>
      let llamaServerUnit := mapUnitState ((selectUnit target parsed).map UnitInfo.activeState)
      let inhibitUnit := mapUnitState (parsed.inhibitHolder.map UnitInfo.activeState)
      return { lifecycle := if parsed.status = .error then .error
                            else if llamaServerUnit = .active then .ready
                            else .warming
               chat := .ready
               embeddings := .ready
               embeddingsReason := none
               error := none
               llamaServerUnit := llamaServerUnit
               inhibitUnit := inhibitUnit }
  | .error e => .error { message := "failed to parse status response: " ++ e }

/-- `observe_backend`, with ssh on the states of the far side. -/
def observeBackend (texts : ResponseTexts) (utf8Error : List UInt8 → String) (rpc : SshHelperRpc)
    (ssh : List Text → ρ → Except String Output × ρ) :
    StateM ρ (Except LifecycleError ObservedBackendState) := do
  match ensureStarted texts.ensureStarted utf8Error (← ssh (rpc.sshArgs rpc.ensureStartedArgs)) with
  | .error e => return .error e
  | .ok state =>
      if state.lifecycle = .ready then
        match fetchStatus texts.status utf8Error rpc.target
            (← ssh (rpc.sshArgs rpc.statusArgs)) with
        | .ok statusState =>
            return .ok { state with llamaServerUnit := statusState.llamaServerUnit
                                    inhibitUnit := statusState.inhibitUnit }
        | .error _ => return .ok state
      else
        return .ok state

/-! ### The far side -/

/-- The program an account runs when it is given a text, through `env` or not. -/
def Account.exec (account : Account) (command : Text) : Option Run :=
  match account.words command with
  | some (program :: operands) =>
      some (if program = "env".toList then env operands
            else { assignments := [], args := program :: operands })
  | _ => none

def Account.environment (account : Account) (run : Run) : Environment :=
  fun name => account.lookup run name.toList

/-- The outcome of ssh is that of the helper, which ran to its end. -/
structure Ran (account : Account) (texts : ResponseTexts) (services : CommandServices ν σ)
    (args : List Text) (remote : CommandSession σ) (outcome : Except String Output)
    (remote' : CommandSession σ) (run : Run) (output : Output) : Prop where
  exec : account.exec (Shell.join args) = some run
  main : mainOf texts services (account.environment run) run.args { remote with stderr := "" } =
    (some output, remote')
  outcome : outcome = .ok output

/-- An outcome of ssh that is not a success of the command. -/
def Failed (outcome : Except String Output) : Prop :=
  ∀ output, outcome = .ok output → output.success = false

/-- ssh passes the commands of the helper on, and their outputs back, or fails; the
helper may have run in either case. -/
def PassesThrough (account : Account) (texts : ResponseTexts) (services : CommandServices ν σ)
    (rpc : SshHelperRpc)
    (ssh : List Text → CommandSession σ → Except String Output × CommandSession σ) : Prop :=
  ∀ args ∈ [rpc.ensureStartedArgs, rpc.statusArgs], ∀ remote,
    (Failed (ssh (rpc.sshArgs args) remote).1 ∧
      ∃ calls, (ssh (rpc.sshArgs args) remote).2.calls = calls ++ remote.calls) ∨
    ∃ run output, Ran account texts services args remote (ssh (rpc.sshArgs args) remote).1
      (ssh (rpc.sshArgs args) remote).2 run output

def Account.settings (account : Account) : HelperSettings :=
  HelperSettings.fromEnv fun name => account.var name.toList

def startedOn (remote : CommandSession σ) : Session σ :=
  { host := remote.host, calls := [], stderr := "" }

section Commands
variable {account : Account} {texts : ResponseTexts} {services : CommandServices ν σ}
variable {rpc : SshHelperRpc} {remote remote' : CommandSession σ} {output : Output}

theorem lookup_assigned {path name : Text} {args : List Text} (other : name.head? ≠ some 'E')
    (named : name ≠ []) :
    account.lookup { assignments := [expectedModelPath ++ path], args := args } name =
      account.var name := by
  obtain ⟨c, rest, rfl⟩ := List.exists_cons_of_ne_nil named
  have hfirst : 'E' ≠ c := fun heq => other (by rw [List.head?_cons, heq])
  have hmiss : (expectedModelPath ++ path).dropPrefix? (c :: (rest ++ ['='])) = none := by
    rw [expectedModelPath_eq]
    simp [List.dropPrefix?, hfirst]
  simp only [Account.lookup, List.reverse_singleton, List.findSome?_singleton, List.cons_append,
    hmiss, Option.none_or]

theorem settings_assigned (account : Account) (path : Text) (args : List Text) :
    HelperSettings.fromEnv (account.environment
      { assignments := [expectedModelPath ++ path], args := args }) = account.settings := by
  simp only [HelperSettings.fromEnv, Account.settings, Account.environment]
  simp only [lookup_assigned (show "LLAMA_SERVER_UNIT".toList.head? ≠ _ by decide) (by decide),
    lookup_assigned (show "INHIBIT_HOLDER_UNIT".toList.head? ≠ _ by decide) (by decide),
    lookup_assigned (show "LLAMA_SERVER_PORT".toList.head? ≠ _ by decide) (by decide),
    lookup_assigned (show "LLAMA_SERVER_EMBEDDINGS_UNIT".toList.head? ≠ _ by decide) (by decide),
    lookup_assigned (show "LLAMA_SERVER_EMBEDDINGS_PORT".toList.head? ≠ _ by decide) (by decide),
    lookup_assigned (show "SERVER_START_TIMEOUT_SECS".toList.head? ≠ _ by decide) (by decide)]

theorem settings_unassigned (account : Account) (args : List Text) :
    HelperSettings.fromEnv (account.environment { assignments := [], args := args }) =
      account.settings :=
  congrArg HelperSettings.fromEnv (funext fun _ => rfl)

theorem exec_ensureStarted (literal : Literal rpc) (helperPath : rpc.helperPath ≠ [])
    (modelAlias : rpc.modelAlias ≠ []) :
    account.exec (Shell.join rpc.ensureStartedArgs) =
      some { assignments := [expectedModelPath ++ rpc.modelPath]
             args := [rpc.helperPath, "ensure-started".toList, rpc.target.asStr,
               rpc.modelAlias] } := by
  have hread : account.words (Shell.join rpc.ensureStartedArgs) = some rpc.ensureStartedArgs :=
    account.posix (Shell.words_join_iff.mpr (plain_args literal helperPath modelAlias))
  rw [Account.exec, hread, ← env_of_literal literal]
  rfl

/-- A helper that goes by the name of `env` is taken for `env`. -/
theorem exec_status (literal : Literal rpc) (helperPath : rpc.helperPath ≠ []) :
    account.exec (Shell.join rpc.statusArgs) =
      some (if rpc.helperPath = "env".toList then env ["status".toList]
            else { assignments := [], args := rpc.statusArgs }) := by
  have plain : ∀ arg ∈ rpc.statusArgs, Shell.Plain arg := by
    have hsubcommand : Shell.Plain "status".toList := by decide
    simp only [SshHelperRpc.statusArgs, List.forall_mem_cons]
    exact ⟨⟨helperPath, literal.helperPath.ordinary, literal.helperPath.leader⟩, hsubcommand,
      by simp⟩
  rw [Account.exec, account.posix (Shell.words_join_iff.mpr plain)]
  rfl

theorem mainOf_ensureStarted {env : Environment} {args : List Text}
    (h : args[1]? = some "ensure-started".toList) :
    mainOf texts services env args = lift (Helper.main texts.ensureStarted
      (HelperSettings.fromEnv env).toHelperConfig services.toServices args
      (env "EXPECTED_MODEL_PATH")) := by
  simp only [mainOf, h]
  rw [if_neg (by decide), if_pos trivial]

theorem mainOf_status {env : Environment} {args : List Text}
    (h : args[1]? = some "status".toList) :
    mainOf texts services env args =
      lift (status (HelperSettings.fromEnv env) services.toServices) >>= fun response =>
        exitForStatus (texts.status.toString response) response.status none := by
  simp only [mainOf, h, if_true]

theorem mainOf_usage {env : Environment} {args : List Text} (h : args[1]? = none) :
    mainOf texts services env args = lift (Helper.exit false [] mainUsage) := by
  simp only [mainOf, h]

/-- The response is `Ok` after the unit was looked up, and reports what was found. -/
theorem ensureStarted_shown {config : HelperConfig} {services : Services ν σ} {target : Target}
    {modelAlias modelPath : Text} {session session' : Session σ} {response : EnsureStartedResponse}
    (h : Helper.ensureStarted config services target modelAlias modelPath session =
      (some response, session')) (ok : response.status = .ok) :
    ∃ shown earlier, session'.calls = .showUnit (config.unitFor target) shown :: earlier ∧
      response.llamaServer = some (infoOf (config.unitFor target) shown) := by
  obtain ⟨started, s₁, _, h⟩ := bind_eq_some.mp h
  cases started with
  | error e =>
      cases pure_eq_some.mp h
      cases ok
  | ok triggered =>
      obtain ⟨ready, s₂, _, h⟩ := bind_eq_some.mp h
      cases ready with
      | false =>
          obtain ⟨info, _, _, rfl⟩ := respond_cases h
          cases ok
      | true =>
          obtain ⟨identity, s₃, _, h⟩ := bind_eq_some.mp h
          have shows : ∀ {respond : Option UnitInfo → EnsureStartedResponse},
              (∀ info, (respond (some info)).llamaServer = some info) →
              (do return respond (← collectUnitInfo services (config.unitFor target)) :
                HelperM σ EnsureStartedResponse) s₃ = (some response, session') →
              ∃ shown earlier,
                session'.calls = .showUnit (config.unitFor target) shown :: earlier ∧
                response.llamaServer = some (infoOf (config.unitFor target) shown) := by
            intro respond reports h
            obtain ⟨info, hcollected, _, rfl⟩ := respond_cases h
            obtain ⟨shown, _, adds, heq⟩ := collectUnitInfo_answer hcollected
            cases heq
            exact ⟨shown, s₃.calls, adds, reports _⟩
          match identity with
          | .error e => exact shows (fun _ => rfl) h
          | .ok none => exact shows (fun _ => rfl) h
          | .ok (some id) =>
              cases hmatches : modelMatches modelPath id with
              | true =>
                  simp only [hmatches, if_true] at h
                  exact shows (fun _ => rfl) h
              | false =>
                  simp only [hmatches, Bool.false_eq_true, if_false] at h
                  exact shows (fun _ => rfl) h

theorem exec_of_run {command : Text} {run : Run} (h : account.run command = some run) :
    account.exec command = some run := by
  unfold Account.run at h
  split at h
  case h_2 => cases h
  rename_i program operands hread
  split at h
  case isFalse => cases h
  rename_i hname
  rw [Account.exec, hread]
  simp only [hname, if_true]
  exact h

def Shows (unit : String) (info : Option UnitInfo) (calls : List HostCall) : Prop :=
  ∃ shown, .showUnit unit shown ∈ calls ∧ info = some (infoOf unit shown)

structure EnsureRun (account : Account) (texts : ResponseTexts) (services : CommandServices ν σ)
    (rpc : SshHelperRpc) (remote remote' : CommandSession σ) (output : Output)
    (response : EnsureStartedResponse) (served : List HostCall) : Prop where
  adds : remote'.calls = served.map .host ++ remote.calls
  success : output.success = decide (response.status = .ok)
  stdout : output.stdout = Utf8.encode (texts.ensureStarted.toString response ++ ['\n'])
  served_iff : response.status = .ok ↔ Served services.toServices
    (account.settings.unitFor rpc.target)
    (buildServerUrl (account.settings.portFor rpc.target) "/v1/models") rpc.modelPath served
  verified : response.status = .ok → response.modelVerified = true
  shown : response.status = .ok →
    Shows (account.settings.unitFor rpc.target) response.llamaServer served
  emitted : ∃ next, Helper.ensureStarted account.settings.toHelperConfig services.toServices
    rpc.target rpc.modelAlias rpc.modelPath (startedOn remote) = (some response, next)

theorem ensureRun_of_ran {outcome : Except String Output} {run : Run} (literal : Literal rpc)
    (helperPath : rpc.helperPath ≠ []) (modelAlias : rpc.modelAlias ≠ [])
    (modelPath : rpc.modelPath ≠ [])
    (ran : Ran account texts services rpc.ensureStartedArgs remote outcome remote' run output) :
    ∃ response served,
      EnsureRun account texts services rpc remote remote' output response served := by
  obtain ⟨run', hruns⟩ := runsHelper_of_literal literal helperPath modelAlias account
  cases ran.exec.symm.trans (exec_of_run hruns.started)
  have parsed := hruns.request modelPath
  have hmain := ran.main
  cases (exec_of_run hruns.started).symm.trans (exec_ensureStarted literal helperPath modelAlias)
  rw [mainOf_ensureStarted rfl, settings_assigned] at hmain
  obtain ⟨inner, hinner, _, adds⟩ := lift_cases hmain
  have hrest := hinner
  simp only [Helper.main, Account.environment, parsed] at hrest
  obtain ⟨response, next, emitted, hexit⟩ := bind_eq_some.mp hrest
  obtain ⟨success, stdout⟩ := main_cases parsed emitted hinner
  obtain ⟨served, makes, ok⟩ := ensureStarted_served emitted
  obtain ⟨calls, _, faithful⟩ := ensureStarted_calls emitted
  rw [exit_calls hexit, show next.calls = served ++ [] from makes, List.append_nil] at adds
  refine ⟨response, served, adds, success, stdout, ok, fun status => (faithful.ok.mp status).2,
    fun status => ?_, next, emitted⟩
  obtain ⟨shown, earlier, hcalls, reported⟩ := ensureStarted_shown emitted status
  rw [show next.calls = served ++ [] from makes, List.append_nil] at hcalls
  exact ⟨shown, hcalls ▸ List.mem_cons_self, reported⟩

theorem Shows.mono {unit : String} {info : Option UnitInfo} {calls calls' : List HostCall}
    (h : Shows unit info calls) (sub : ∀ call ∈ calls, call ∈ calls') : Shows unit info calls' := by
  obtain ⟨shown, hshown, hinfo⟩ := h
  exact ⟨shown, sub _ hshown, hinfo⟩

theorem shows_of_collected {services : Services ν σ} {unit : String} {info : Option UnitInfo}
    {session session' : Session σ}
    (h : collectUnitInfo services unit session = (some info, session')) :
    ∃ calls, session.Adds calls session' ∧ Shows unit info calls := by
  obtain ⟨shown, _, adds, hinfo⟩ := collectUnitInfo_answer h
  exact ⟨_, adds, shown, List.mem_singleton_self _, hinfo⟩

theorem status_shown {settings : HelperSettings} {services : Services ν σ}
    {session session' : Session σ} {response : StatusResponse}
    (h : status settings services session = (some response, session')) :
    ∃ calls, session.Adds calls session' ∧
      (∀ target, Shows (settings.unitFor target) (selectUnit target response) calls) ∧
      Shows settings.inhibitHolderUnit response.inhibitHolder calls := by
  obtain ⟨chat, s₁, hchat, h⟩ := bind_eq_some.mp h
  obtain ⟨inhibit, s₂, hinhibit, h⟩ := bind_eq_some.mp h
  obtain ⟨model, s₃, hmodel, h⟩ := bind_eq_some.mp h
  obtain ⟨embeddings, s₄, hembeddings, h⟩ := bind_eq_some.mp h
  obtain ⟨served, s₅, hserved, h⟩ := bind_eq_some.mp h
  cases pure_eq_some.mp h
  obtain ⟨calls₁, adds₁, shows₁⟩ := shows_of_collected hchat
  obtain ⟨calls₂, adds₂, shows₂⟩ := shows_of_collected hinhibit
  obtain ⟨calls₃, adds₃, _⟩ := (makes_activeModelFor services _).adds hmodel
  obtain ⟨calls₄, adds₄, shows₄⟩ := shows_of_collected hembeddings
  obtain ⟨calls₅, adds₅, _⟩ := (makes_activeModelFor services _).adds hserved
  refine ⟨_, (((adds₁.trans adds₂).trans adds₃).trans adds₄).trans adds₅, fun target => ?_, ?_⟩
  · cases target with
    | chat => exact shows₁.mono fun call hcall => by simp [hcall]
    | embeddings => exact shows₄.mono fun call hcall => by simp [hcall]
  · exact shows₂.mono fun call hcall => by simp [hcall]

structure StatusRun (account : Account) (texts : ResponseTexts) (services : CommandServices ν σ)
    (rpc : SshHelperRpc) (remote remote' : CommandSession σ) (output : Output)
    (response : StatusResponse) (looked : List HostCall) : Prop where
  adds : remote'.calls = looked.map .host ++ remote.calls
  stdout : output.stdout = Utf8.encode (texts.status.toString response ++ ['\n'])
  shown : Shows (account.settings.unitFor rpc.target) (selectUnit rpc.target response) looked
  inhibit : Shows account.settings.inhibitHolderUnit response.inhibitHolder looked
  emitted : ∃ next, status account.settings services.toServices (startedOn remote) =
    (some response, next)

theorem statusRun_of_ran {outcome : Except String Output} {run : Run} (literal : Literal rpc)
    (helperPath : rpc.helperPath ≠ [])
    (ran : Ran account texts services rpc.statusArgs remote outcome remote' run output) :
    (output.success = false ∧ remote'.calls = remote.calls) ∨ ∃ response looked,
      StatusRun account texts services rpc remote remote' output response looked := by
  have hmain := ran.main
  cases ran.exec.symm.trans (exec_status literal helperPath)
  split at hmain
  next =>
    rw [mainOf_usage rfl] at hmain
    obtain ⟨kept, failed, _⟩ := command_exit_cases hmain
    exact .inl ⟨failed, kept⟩
  next =>
    rw [mainOf_status rfl, settings_unassigned] at hmain
    obtain ⟨response, next, hstatus, hexit⟩ := bind_eq_some.mp hmain
    obtain ⟨inner, hinner, _, adds⟩ := lift_cases hstatus
    obtain ⟨looked, makes, shown, inhibit⟩ := status_shown hinner
    rw [show inner.calls = looked ++ [] from makes, List.append_nil] at adds
    obtain ⟨kept, _, stdout⟩ := command_exit_cases hexit
    exact .inr ⟨response, looked, kept.trans adds, stdout, shown _, inhibit, inner, hinner⟩

end Commands

end LlmWakeProxy.Host
