import LlmWakeProxy.Host.Observe

/-!
What the proxy observes of a backend. It observes one exactly when the helper found
the expected model served and ssh brought that back, and what it then observes is
ready. The units it reports are as systemd showed them: a second command asks for
them, and is sent only for a backend that is ready.
-/

namespace LlmWakeProxy.Host
open LlmWakeProxy.Library LlmWakeProxy.Helper
open LlmWakeProxy.Forward (Text)
open LlmWakeProxy.Config (AppConfig)
open LlmWakeProxy.Lifecycle (ObservedBackendState UnitState)

universe u
variable {ν : Type u} {σ : Type}

/-- What `ensure-started` prints there is read back. -/
def EnsureReadBack (account : Account) (texts : ResponseTexts) (services : Services ν σ)
    (rpc : SshHelperRpc) (remote : CommandSession σ) : Prop :=
  ∀ response next, Helper.ensureStarted account.settings.toHelperConfig services rpc.target
    rpc.modelAlias rpc.modelPath (startedOn remote) = (some response, next) →
    texts.ensureStarted.Faithful response

def StatusReadBack (account : Account) (texts : ResponseTexts) (services : Services ν σ)
    (remote : CommandSession σ) : Prop :=
  ∀ response next, status account.settings services (startedOn remote) =
    (some response, next) → texts.status.Faithful response

def StateShown (unit : String) (state : UnitState) (calls : List CommandCall) : Prop :=
  ∃ shown, .host (.showUnit unit shown) ∈ calls ∧
    state = mapUnitState (some (infoOf unit shown).activeState)

/-- What is observed rests on these calls of the helper. -/
structure Observed (settings : HelperSettings) (target : Target) (calls : List CommandCall)
    (observed : ObservedBackendState) : Prop where
  ready : observed.lifecycle = .ready
  error : observed.error = none
  llamaServerUnit : StateShown (settings.unitFor target) observed.llamaServerUnit calls
  inhibitUnit : observed.inhibitUnit = .unknown ∨
    StateShown settings.inhibitHolderUnit observed.inhibitUnit calls

section Commands
variable {account : Account} {texts : ResponseTexts} {services : CommandServices ν σ}
variable {rpc : SshHelperRpc} {remote remote' : CommandSession σ} {output : Output}
variable {utf8Error : List UInt8 → String}

theorem Shows.state {unit : String} {info : Option UnitInfo} {looked : List HostCall}
    (h : Shows unit info looked) :
    StateShown unit (mapUnitState (info.map UnitInfo.activeState)) (looked.map .host) := by
  obtain ⟨shown, hshown, rfl⟩ := h
  exact ⟨shown, List.mem_map_of_mem hshown, rfl⟩

theorem StateShown.mono {unit : String} {state : UnitState} {calls calls' : List CommandCall}
    (h : StateShown unit state calls) (sub : ∀ call ∈ calls, call ∈ calls') :
    StateShown unit state calls' := by
  obtain ⟨shown, hshown, hstate⟩ := h
  exact ⟨shown, sub _ hshown, hstate⟩

theorem runHelperCmd_failed (utf8Error : List UInt8 → String) {outcome : Except String Output}
    (failed : Failed outcome) :
    ∃ e, runHelperCmd utf8Error outcome = .error e := by
  cases outcome with
  | error e => exact ⟨_, rfl⟩
  | ok output =>
      simp only [runHelperCmd, failed output rfl, Bool.false_eq_true, if_false]
      exact ⟨_, rfl⟩

theorem runHelperCmd_printed {text : Text} (success : output.success = true)
    (stdout : output.stdout = Utf8.encode text) :
    runHelperCmd utf8Error (.ok output) = .ok text := by
  simp only [runHelperCmd, success, stdout, if_true, Utf8.decode_encode]

theorem ensureStarted_printed {codec : JsonCodec EnsureStartedResponse}
    {response : EnsureStartedResponse} (success : output.success = true)
    (stdout : output.stdout = Utf8.encode (codec.toString response ++ ['\n']))
    (faithful : codec.Faithful response) :
    ensureStarted codec utf8Error (.ok output) = .ok (observedOf response) := by
  simp only [ensureStarted, runHelperCmd_printed success stdout, bind, Except.bind,
    show codec.fromStr (codec.toString response ++ ['\n']) = .ok response from faithful]
  rfl

theorem observeBackend_failed
    {ssh : List Text → CommandSession σ → Except String Output × CommandSession σ}
    (failed : Failed (ssh (rpc.sshArgs rpc.ensureStartedArgs) remote).1) :
    ∃ e, (observeBackend texts utf8Error rpc ssh remote).1 = .error e := by
  obtain ⟨e, he⟩ := runHelperCmd_failed utf8Error failed
  refine ⟨e, ?_⟩
  have hensure : ensureStarted texts.ensureStarted utf8Error
      (ssh (rpc.sshArgs rpc.ensureStartedArgs) remote).1 = .error e := by
    simp only [ensureStarted, he, bind, Except.bind]
  simp only [observeBackend, bind, StateT.bind, hensure]
  rfl

/-- The second command refines the units of what is observed as ready. -/
theorem observeBackend_ready
    {ssh : List Text → CommandSession σ → Except String Output × CommandSession σ}
    {state : ObservedBackendState}
    (observed : ensureStarted texts.ensureStarted utf8Error
      (ssh (rpc.sshArgs rpc.ensureStartedArgs) remote).1 = .ok state)
    (ready : state.lifecycle = .ready) :
    ∃ units, observeBackend texts utf8Error rpc ssh remote =
        (.ok { state with llamaServerUnit := units.1, inhibitUnit := units.2 },
          (ssh (rpc.sshArgs rpc.statusArgs) (ssh (rpc.sshArgs rpc.ensureStartedArgs) remote).2).2) ∧
      (units = (state.llamaServerUnit, state.inhibitUnit) ∨
        ∃ status, fetchStatus texts.status utf8Error rpc.target
            (ssh (rpc.sshArgs rpc.statusArgs)
              (ssh (rpc.sshArgs rpc.ensureStartedArgs) remote).2).1 = .ok status ∧
          units = (status.llamaServerUnit, status.inhibitUnit)) := by
  obtain ⟨lifecycle, chat, embeddings, reason, error, unit, inhibit⟩ := state
  cases (show lifecycle = .ready from ready)
  simp only [observeBackend, bind, StateT.bind, observed, if_true]
  cases fetched : fetchStatus texts.status utf8Error rpc.target
      (ssh (rpc.sshArgs rpc.statusArgs) (ssh (rpc.sshArgs rpc.ensureStartedArgs) remote).2).1 with
  | error e => exact ⟨(unit, inhibit), rfl, .inl rfl⟩
  | ok status => exact ⟨(status.llamaServerUnit, status.inhibitUnit), rfl, .inr ⟨status, rfl, rfl⟩⟩

theorem observeBackend_agrees
    {ssh : List Text → CommandSession σ → Except String Output × CommandSession σ}
    {state : ObservedBackendState}
    (observed : ensureStarted texts.ensureStarted utf8Error
      (ssh (rpc.sshArgs rpc.ensureStartedArgs) remote).1 = .ok state)
    (ready : state.lifecycle = .ready)
    (agrees : ∀ {status}, fetchStatus texts.status utf8Error rpc.target
        (ssh (rpc.sshArgs rpc.statusArgs)
          (ssh (rpc.sshArgs rpc.ensureStartedArgs) remote).2).1 = .ok status →
      status.llamaServerUnit = state.llamaServerUnit ∧ status.inhibitUnit = state.inhibitUnit) :
    (observeBackend texts utf8Error rpc ssh remote).1 = .ok state := by
  obtain ⟨units, hobserved, rfl | ⟨status, fetched, rfl⟩⟩ := observeBackend_ready observed ready
  · rw [hobserved]
  · obtain ⟨unit, inhibit⟩ := agrees fetched
    rw [hobserved]
    simp only [unit, inhibit]

theorem fetchStatus_shown {response : StatusResponse} {looked : List HostCall}
    {status : ObservedBackendState}
    (h : StatusRun account texts services rpc remote remote' output response looked)
    (success : output.success = true) (faithful : texts.status.Faithful response)
    (fetched : fetchStatus texts.status utf8Error rpc.target (.ok output) = .ok status) :
    StateShown (account.settings.unitFor rpc.target) status.llamaServerUnit (looked.map .host) ∧
      StateShown account.settings.inhibitHolderUnit status.inhibitUnit (looked.map .host) := by
  simp only [fetchStatus, runHelperCmd_printed success h.stdout, bind, Except.bind,
    show texts.status.fromStr (texts.status.toString response ++ ['\n']) = .ok response
      from faithful] at fetched
  cases fetched
  exact ⟨h.shown.state, h.inhibit.state⟩

theorem succeeded_of_fetched {status : ObservedBackendState}
    (fetched : fetchStatus texts.status utf8Error rpc.target (.ok output) = .ok status) :
    output.success = true := by
  by_contra failed
  have hfailed : Failed (.ok output) := by
    intro output' houtcome
    cases houtcome
    exact Bool.not_eq_true _ ▸ failed
  obtain ⟨e, he⟩ := runHelperCmd_failed utf8Error hfailed
  simp only [fetchStatus, he, bind, Except.bind] at fetched
  cases fetched

theorem kept_of_status {outcome : Except String Output} (literal : Literal rpc)
    (helperPath : rpc.helperPath ≠ [])
    (h : (Failed outcome ∧ ∃ calls, remote'.calls = calls ++ remote.calls) ∨ ∃ run output,
      Ran account texts services rpc.statusArgs remote outcome remote' run output) :
    ∃ calls, remote'.calls = calls ++ remote.calls := by
  obtain ⟨_, kept⟩ | ⟨run, output, ran⟩ := h
  · exact kept
  · obtain ⟨_, same⟩ | ⟨response, looked, hlooked⟩ := statusRun_of_ran literal helperPath ran
    · exact ⟨[], same⟩
    · exact ⟨_, hlooked.adds⟩

theorem observed_of_served (utf8Error : List UInt8 → String)
    {ssh : List Text → CommandSession σ → Except String Output × CommandSession σ}
    {run : Run} {response : EnsureStartedResponse} {served : List HostCall}
    (literal : Literal rpc) (helperPath : rpc.helperPath ≠ [])
    (readBack : StatusReadBack account texts services.toServices
      (ssh (rpc.sshArgs rpc.ensureStartedArgs) remote).2)
    (passesThrough : PassesThrough account texts services rpc ssh)
    (ran : Ran account texts services rpc.ensureStartedArgs remote
      (ssh (rpc.sshArgs rpc.ensureStartedArgs) remote).1
      (ssh (rpc.sshArgs rpc.ensureStartedArgs) remote).2 run output)
    (h : EnsureRun account texts services rpc remote
      (ssh (rpc.sshArgs rpc.ensureStartedArgs) remote).2 output response served)
    (faithful : texts.ensureStarted.Faithful response) (status : response.status = .ok) :
    ∃ observed, (observeBackend texts utf8Error rpc ssh remote).1 = .ok observed ∧
      ∃ calls, (observeBackend texts utf8Error rpc ssh remote).2.calls = calls ++ remote.calls ∧
        Observed account.settings rpc.target calls observed := by
  have success : output.success = true := h.success.trans (decide_eq_true status)
  have hensure : ensureStarted texts.ensureStarted utf8Error
      (ssh (rpc.sshArgs rpc.ensureStartedArgs) remote).1 = .ok (observedOf response) := by
    rw [ran.outcome]
    exact ensureStarted_printed success h.stdout faithful
  have ready : (observedOf response).lifecycle = .ready :=
    (observedOf_conveys response).ready status (h.verified status)
  have fine : (observedOf response).error = none := by simp [observedOf, status]
  obtain ⟨units, hobserved, hunits⟩ := observeBackend_ready hensure ready
  rw [hobserved]
  refine ⟨_, rfl, ?_⟩
  have first := (h.shown status).state
  have second := passesThrough rpc.statusArgs (by simp)
    (ssh (rpc.sshArgs rpc.ensureStartedArgs) remote).2
  obtain rfl | ⟨statusState, fetched, rfl⟩ := hunits
  · obtain ⟨calls, adds⟩ := kept_of_status literal helperPath second
    refine ⟨calls ++ served.map .host, by rw [adds, h.adds, List.append_assoc], ready, fine, ?_,
      .inl rfl⟩
    exact first.mono fun call hcall => List.mem_append_right _ hcall
  · obtain ⟨failed, _⟩ | ⟨run', output', ran'⟩ := second
    · obtain ⟨e, he⟩ := runHelperCmd_failed utf8Error failed
      simp only [fetchStatus, he, bind, Except.bind] at fetched
      cases fetched
    · rw [ran'.outcome] at fetched
      have success' := succeeded_of_fetched fetched
      obtain ⟨failed, _⟩ | ⟨parsed, looked, hlooked⟩ := statusRun_of_ran literal helperPath ran'
      · cases success'.symm.trans failed
      · obtain ⟨next, emitted⟩ := hlooked.emitted
        obtain ⟨unit, inhibit⟩ := fetchStatus_shown hlooked success' (readBack parsed next emitted)
          fetched
        refine ⟨looked.map .host ++ served.map .host,
          by rw [hlooked.adds, h.adds, List.append_assoc], ready, fine, ?_, .inr ?_⟩
        · exact unit.mono fun call hcall => List.mem_append_left _ hcall
        · exact inhibit.mono fun call hcall => List.mem_append_left _ hcall

theorem failed_or_served {outcome : Except String Output} (literal : Literal rpc)
    (helperPath : rpc.helperPath ≠ []) (modelAlias : rpc.modelAlias ≠ [])
    (modelPath : rpc.modelPath ≠ [])
    (h : (Failed outcome ∧ ∃ calls, remote'.calls = calls ++ remote.calls) ∨ ∃ run output,
      Ran account texts services rpc.ensureStartedArgs remote outcome remote' run output) :
    Failed outcome ∨ ∃ run output response served,
      Ran account texts services rpc.ensureStartedArgs remote outcome remote' run output ∧
      EnsureRun account texts services rpc remote remote' output response served ∧
      response.status = .ok := by
  obtain ⟨failed, _⟩ | ⟨run, output, ran⟩ := h
  · exact .inl failed
  · obtain ⟨response, served, hrun⟩ := ensureRun_of_ran literal helperPath modelAlias modelPath ran
    by_cases status : response.status = .ok
    · exact .inr ⟨run, output, response, served, ran, hrun, status⟩
    · refine .inl fun output' houtcome => ?_
      cases ran.outcome.symm.trans houtcome
      exact hrun.success.trans (decide_eq_false status)

theorem served_of_observed
    {ssh : List Text → CommandSession σ → Except String Output × CommandSession σ}
    {observed : ObservedBackendState} (literal : Literal rpc) (helperPath : rpc.helperPath ≠ [])
    (modelAlias : rpc.modelAlias ≠ []) (modelPath : rpc.modelPath ≠ [])
    (passesThrough : PassesThrough account texts services rpc ssh)
    (h : (observeBackend texts utf8Error rpc ssh remote).1 = .ok observed) :
    ∃ run output served,
      Ran account texts services rpc.ensureStartedArgs remote
        (ssh (rpc.sshArgs rpc.ensureStartedArgs) remote).1
        (ssh (rpc.sshArgs rpc.ensureStartedArgs) remote).2 run output ∧
      (ssh (rpc.sshArgs rpc.ensureStartedArgs) remote).2.calls =
        served.map .host ++ remote.calls ∧
      Served services.toServices (account.settings.unitFor rpc.target)
        (buildServerUrl (account.settings.portFor rpc.target) "/v1/models") rpc.modelPath
        served := by
  obtain failed | ⟨run, output, response, served, ran, hrun, status⟩ := failed_or_served literal
    helperPath modelAlias modelPath
    (passesThrough rpc.ensureStartedArgs List.mem_cons_self remote)
  · obtain ⟨e, he⟩ := observeBackend_failed failed
    cases he.symm.trans h
  · exact ⟨run, output, served, ran, hrun.adds, hrun.served_iff.mp status⟩

end Commands

section Observation
variable {environment : Config.Environment} {config : AppConfig} {rpc : SshHelperRpc}

/-- A backend is observed exactly when ssh brought back the output of a helper that
found the model served, and then it is ready and its units were shown so. -/
theorem observation_rests_on_the_host
    (loaded : AppConfig.fromEnv environment = some config) (configured : rpc ∈ helperRpcs config)
    (literal : Literal rpc) (account : Account) (texts : ResponseTexts)
    (services : CommandServices ν σ) (utf8Error : List UInt8 → String)
    (ssh : List Text → CommandSession σ → Except String Output × CommandSession σ)
    (passesThrough : PassesThrough account texts services rpc ssh) (remote : CommandSession σ)
    (ensureReadBack : EnsureReadBack account texts services.toServices rpc remote)
    (statusReadBack : StatusReadBack account texts services.toServices
      (ssh (rpc.sshArgs rpc.ensureStartedArgs) remote).2) :
    ((∃ observed, (observeBackend texts utf8Error rpc ssh remote).1 = .ok observed) ↔
      ∃ run output served,
        Ran account texts services rpc.ensureStartedArgs remote
          (ssh (rpc.sshArgs rpc.ensureStartedArgs) remote).1
          (ssh (rpc.sshArgs rpc.ensureStartedArgs) remote).2 run output ∧
        (ssh (rpc.sshArgs rpc.ensureStartedArgs) remote).2.calls =
          served.map .host ++ remote.calls ∧
        Served services.toServices (account.settings.unitFor rpc.target)
          (buildServerUrl (account.settings.portFor rpc.target) "/v1/models") rpc.modelPath
          served) ∧
    ∀ observed, (observeBackend texts utf8Error rpc ssh remote).1 = .ok observed →
      ∃ calls, (observeBackend texts utf8Error rpc ssh remote).2.calls = calls ++ remote.calls ∧
        Observed account.settings rpc.target calls observed := by
  obtain ⟨helperPath, modelAlias, modelPath⟩ := helperRpc_ne_nil loaded configured
  obtain failed | ⟨run, output, response, served, ran, h, status⟩ := failed_or_served literal
    helperPath modelAlias modelPath
    (passesThrough rpc.ensureStartedArgs List.mem_cons_self remote)
  · obtain ⟨e, he⟩ := observeBackend_failed failed
    refine ⟨⟨fun ⟨observed, hobserved⟩ => served_of_observed literal helperPath modelAlias modelPath
      passesThrough hobserved, ?_⟩, ?_⟩
    · rintro ⟨run, output, served, ran, adds, hserved⟩
      obtain ⟨response, served', h⟩ :=
        ensureRun_of_ran literal helperPath modelAlias modelPath ran
      have same : served' = served := by
        have host : Function.Injective CommandCall.host := fun _ _ => CommandCall.host.inj
        exact List.map_injective_iff.mpr host (List.append_cancel_right (h.adds.symm.trans adds))
      have status := h.served_iff.mpr (same ▸ hserved)
      have hsuccess := failed output ran.outcome
      rw [h.success, decide_eq_true status] at hsuccess
      cases hsuccess
    · intro observed hobserved
      cases he.symm.trans hobserved
  · obtain ⟨next, emitted⟩ := h.emitted
    obtain ⟨observed, hobserved, rests⟩ := observed_of_served utf8Error literal
      helperPath statusReadBack passesThrough ran h (ensureReadBack response next emitted) status
    refine ⟨⟨fun ⟨observed, hobserved⟩ => served_of_observed literal helperPath modelAlias modelPath
      passesThrough hobserved, fun _ => ⟨observed, hobserved⟩⟩, fun observed' hobserved' => ?_⟩
    cases hobserved.symm.trans hobserved'
    exact rests

/-- ssh to an account whose only program is the helper; it loses nothing. -/
def directSsh (account : Account) (texts : ResponseTexts) (services : CommandServices ν σ)
    (rpc : SshHelperRpc) (args : List Text) (remote : CommandSession σ) :
    Except String Output × CommandSession σ :=
  match account.exec (Shell.join (args.drop (rpc.sshArgs []).length)) with
  | none => (.error "no such command", remote)
  | some run =>
      match mainOf texts services (account.environment run) run.args
          { remote with stderr := "" } with
      | (none, _) => (.error "the helper panicked", remote)
      | (some output, remote') => (.ok output, remote')

theorem directSsh_ran {account : Account} {texts : ResponseTexts} {services : CommandServices ν σ}
    {args : List Text} {run : Run} {output : Output} {remote remote' : CommandSession σ}
    (exec : account.exec (Shell.join args) = some run)
    (main : mainOf texts services (account.environment run) run.args
      { remote with stderr := "" } = (some output, remote')) :
    directSsh account texts services rpc (rpc.sshArgs args) remote = (.ok output, remote') := by
  have hargs : (rpc.sshArgs args).drop (rpc.sshArgs []).length = args := by
    simp [SshHelperRpc.sshArgs]
  simp only [directSsh, hargs, exec, main]

theorem directSsh_passesThrough (account : Account) (texts : ResponseTexts)
    (services : CommandServices ν σ) (rpc : SshHelperRpc) :
    PassesThrough account texts services rpc (directSsh account texts services rpc) := by
  intro args _ remote
  have hargs : (rpc.sshArgs args).drop (rpc.sshArgs []).length = args := by
    simp [SshHelperRpc.sshArgs]
  have lost : ∀ e, Failed (.error e) := fun e output houtput => by cases houtput
  simp only [directSsh, hargs]
  cases exec : account.exec (Shell.join args) with
  | none => exact .inl ⟨lost _, [], rfl⟩
  | some run =>
      obtain ⟨result, remote', main⟩ : ∃ result remote', mainOf texts services
          (account.environment run) run.args { remote with stderr := "" } = (result, remote') :=
        ⟨_, _, rfl⟩
      cases result with
      | none =>
          simp only [main]
          exact .inl ⟨lost _, [], rfl⟩
      | some output =>
          simp only [main]
          exact .inr ⟨run, output, exec, main, rfl⟩

/-- The host that reports the model file, with a lease that can be had. -/
def reportingHost : CommandServices Empty Nat :=
  { Helper.reporting modelFile with
    stopUnit := fun _ clock => (.ok (), clock)
    replaceTransientUnit := fun _ _ _ clock => (.ok (), clock) }

def reportedStatus : StatusResponse :=
  let unknown (unit : String) : UnitInfo :=
    { unitName := unit, activeState := "unknown", subState := "unknown", description := "" }
  let model : ModelInfo :=
    { modelAlias := modelFile, modelPath := modelFile, serving := true, ready := true
      reportedId := none }
  { status := .ok
    message := "current host unit state"
    llamaServer := some (unknown "llama-server")
    inhibitHolder := some (unknown "llm-wake-proxy-inhibit")
    activeModel := some model
    llamaServerEmbeddings := some (unknown "llama-server-embeddings")
    activeModelEmbeddings := some model }

def reportedUnitText (unit : String) : String :=
  "\x7b\x22unit_name\x22:\x22" ++ unit ++ "\x22,\x22active_state\x22:\x22unknown\x22," ++
  "\x22sub_state\x22:\x22unknown\x22,\x22description\x22:\x22\x22\x7d"

def reportedModelText : String :=
  "\x7b\x22model_alias\x22:\x22/models/a.gguf\x22," ++
  "\x22model_path\x22:\x22/models/a.gguf\x22,\x22serving\x22:true,\x22ready\x22:true," ++
  "\x22reported_id\x22:null\x7d"

def reportedStatusText : String :=
  "\x7b\x22status\x22:\x22ok\x22,\x22message\x22:\x22current host unit state\x22," ++
  "\x22llama_server\x22:" ++ reportedUnitText "llama-server" ++
  ",\x22inhibit_holder\x22:" ++ reportedUnitText "llm-wake-proxy-inhibit" ++
  ",\x22active_model\x22:" ++ reportedModelText ++
  ",\x22llama_server_embeddings\x22:" ++ reportedUnitText "llama-server-embeddings" ++
  ",\x22active_model_embeddings\x22:" ++ reportedModelText ++ "\x7d"

def reportedEnsureText : String :=
  "\x7b\x22status\x22:\x22ok\x22,\x22message\x22:\x22model is already running and ready\x22," ++
  "\x22model_alias\x22:\x22llm-wake-proxy\x22,\x22model_path\x22:\x22/models/a.gguf\x22," ++
  "\x22startup_triggered\x22:false,\x22server_ready\x22:true,\x22model_verified\x22:true," ++
  "\x22llama_server\x22:" ++ reportedUnitText "llama-server" ++ "\x7d"

/-- The codecs as they are on the responses of that host. -/
def reportedTexts : ResponseTexts where
  ensureStarted := codecOn
    (verifiedResponse .chat "llm-wake-proxy".toList modelFile) reportedEnsureText
  status := { toString := fun _ => reportedStatusText.toList
              fromStr := fun _ => .ok reportedStatus }
  leaseAcquire _ := []
  leaseRelease _ := []
  leaseInspect _ := []

def reportedRpc : SshHelperRpc where
  sshUser := "llm".toList
  sshHost := "model-host".toList
  helperPath := "/usr/local/bin/llm-wake-proxy-helper".toList
  modelPath := modelFile
  modelAlias := "llm-wake-proxy".toList
  sshKeyPath := "~/.ssh/ssh-privatekey".toList
  target := .chat

theorem literal_reportedRpc : Literal reportedRpc :=
  ⟨by decide, by decide, List.all_iff_forall_prop.mp (by decide), by decide⟩

def reportedSsh : List Text → CommandSession Nat → Except String Output × CommandSession Nat :=
  directSsh .bare reportedTexts reportingHost reportedRpc

def idleHost : CommandSession Nat where
  host := 0
  calls := []
  stderr := ""

theorem reported_emitted : ∃ next, Helper.ensureStarted .default (reporting modelFile) .chat
    "llm-wake-proxy".toList modelFile fresh =
      (some (verifiedResponse .chat "llm-wake-proxy".toList modelFile), next) := by
  obtain ⟨next, emitted, _⟩ := reporting_verified .chat "llm-wake-proxy".toList
    (show modelMatches modelFile modelFile = true by decide)
  exact ⟨next, emitted⟩

theorem reported_printed : ∃ output,
    (reportedSsh (reportedRpc.sshArgs reportedRpc.ensureStartedArgs) idleHost).1 = .ok output ∧
      output.success = true ∧ output.stdout = Utf8.encode
        (reportedTexts.ensureStarted.toString
          (verifiedResponse .chat "llm-wake-proxy".toList modelFile) ++ ['\n']) := by
  obtain ⟨next, emitted⟩ := reported_emitted
  have parsed : parseRequest [reportedRpc.helperPath, "ensure-started".toList,
      reportedRpc.target.asStr, reportedRpc.modelAlias] (some modelFile) =
        .ok ⟨.chat, "llm-wake-proxy".toList, modelFile⟩ := rfl
  obtain ⟨output, inner, hmain⟩ := main_total reportedTexts.ensureStarted parsed emitted
  have expected : Account.bare.environment
      { assignments := [expectedModelPath ++ reportedRpc.modelPath]
        args := [reportedRpc.helperPath, "ensure-started".toList, reportedRpc.target.asStr,
          reportedRpc.modelAlias] } "EXPECTED_MODEL_PATH" = some modelFile := rfl
  have ran : reportedSsh (reportedRpc.sshArgs reportedRpc.ensureStartedArgs) idleHost =
      (.ok output, _) := directSsh_ran
    (exec_ensureStarted literal_reportedRpc (by decide) (by decide))
    (show mainOf reportedTexts reportingHost (Account.bare.environment _) _ _ = _ by
      rw [mainOf_ensureStarted rfl, settings_assigned, expected]
      exact lift_run hmain)
  obtain ⟨success, stdout⟩ := main_cases parsed emitted hmain
  exact ⟨output, congrArg Prod.fst ran, success, stdout⟩

def observedServed : ObservedBackendState :=
  observedOf (verifiedResponse .chat "llm-wake-proxy".toList modelFile)

theorem reported_units {outcome : Except String Output} {target : Target}
    {status : ObservedBackendState}
    (h : fetchStatus reportedTexts.status (fun _ => "") target outcome = .ok status) :
    status.llamaServerUnit = .unknown ∧ status.inhibitUnit = .unknown := by
  cases hread : runHelperCmd (fun _ => "") outcome with
  | error e => simp [fetchStatus, hread, bind, Except.bind] at h
  | ok text =>
      simp only [fetchStatus, hread, bind, Except.bind, reportedTexts] at h
      cases h
      cases target with
      | chat | embeddings => exact ⟨rfl, rfl⟩

theorem reported_observed :
    (observeBackend reportedTexts (fun _ => "") reportedRpc reportedSsh idleHost).1 =
      .ok observedServed := by
  obtain ⟨output, outcome, success, stdout⟩ := reported_printed
  have hensure : ensureStarted reportedTexts.ensureStarted (fun _ => "")
      (reportedSsh (reportedRpc.sshArgs reportedRpc.ensureStartedArgs) idleHost).1 =
        .ok observedServed := by
    rw [outcome]
    exact ensureStarted_printed success stdout rfl
  exact observeBackend_agrees hensure rfl reported_units

/-- Through ssh that loses nothing the host that serves the model is observed. -/
theorem observation_rests_on_the_host_served :
    ∃ config, AppConfig.fromEnv (hostVariables "/models/a.gguf") = some config ∧
      reportedRpc ∈ helperRpcs config ∧
      ∃ calls, (observeBackend reportedTexts (fun _ => "") reportedRpc reportedSsh
          idleHost).2.calls = calls ++ idleHost.calls ∧
        Observed Account.bare.settings .chat calls observedServed := by
  have loaded := (Option.some_get literal_path_loaded).symm
  have configured : reportedRpc ∈ helperRpcs (Option.get _ literal_path_loaded) :=
    List.mem_cons_self
  refine ⟨_, loaded, configured, ?_⟩
  obtain ⟨next, emitted⟩ := reported_emitted
  have ensureReadBack : EnsureReadBack .bare reportedTexts reportingHost.toServices reportedRpc
      idleHost := by
    intro response next' h
    cases emitted.symm.trans h
    rfl
  have statusReadBack : ∀ remote, StatusReadBack .bare reportedTexts reportingHost.toServices
      remote := by
    intro remote response next h
    cases h
    rfl
  exact (observation_rests_on_the_host loaded configured literal_reportedRpc .bare reportedTexts
    reportingHost (fun _ => "") reportedSsh (directSsh_passesThrough _ _ _ _) idleHost
    ensureReadBack (statusReadBack _)).2 _ reported_observed

end Observation

end LlmWakeProxy.Host
