import LlmWakeProxy.Helper.Subcommands
import LlmWakeProxy.Host.Contract

/-!
What the exit code of the helper says. It is success exactly when the host answered
what the command was for: the model is served by the unit that is up, the lease was
replaced and is held, the lease was stopped, its unit was shown. Each can be read off
the calls that the run adds. A command line that is understood has its response printed
in either case, unless the run panics, and any other has none.
-/

namespace LlmWakeProxy.Host
open LlmWakeProxy.Library LlmWakeProxy.Helper
open PanicM (bind_eq_some pure_eq_some)
open LlmWakeProxy.Forward (Text)
open LlmWakeProxy.Config (Environment)
open LlmWakeProxy.Lifecycle (Instant)

universe u
variable {ν : Type u} {σ : Type} {settings : HelperSettings} {config : HelperConfig}
variable {args : List Text} {expectedModelPath : Option Text} {texts : ResponseTexts}

/-- The expected model is served: the server came up, then reported a model that
matches, and the unit was looked up. -/
inductive Served (services : Services ν σ) (unit url : String) (modelPath : Text) :
    List HostCall → Prop
  | mk (shown : Except String UnitProperties) (body : Except String Text) (alive id : Text)
      (earlier : List HostCall) (identified : modelIdentity services body = .ok (some id))
      (matching : modelMatches modelPath id = true) :
      Served services unit url modelPath
        (.showUnit unit shown :: .getText url body :: .getText url (.ok alive) :: earlier)

/-- The calls of a command that did what it is for, latest first. -/
inductive Achieved (settings : HelperSettings) (services : CommandServices ν σ)
    (args : List Text) (expectedModelPath : Option Text) : List CommandCall → Prop
  | reported (calls : List CommandCall) (subcommand : args[1]? = some "status".toList) :
      Achieved settings services args expectedModelPath calls
  | served (request : Request) (calls : List HostCall)
      (subcommand : args[1]? = some "ensure-started".toList)
      (parsed : parseRequest args expectedModelPath = .ok request)
      (served : Served services.toServices (settings.unitFor request.target)
        (buildServerUrl (settings.portFor request.target) "/v1/models") request.modelPath calls) :
      Achieved settings services args expectedModelPath (calls.map .host)
  | acquired (active : Except String Bool) (props : UnitProperties)
      (subcommand : args[1]? = some "lease".toList) (action : args[2]? = some "acquire".toList)
      (held : props "ActiveState" = some "active") :
      Achieved settings services args expectedModelPath
        [.host (.showUnit settings.inhibitHolderUnit (.ok props)),
         .replaceTransientUnit settings.inhibitHolderUnit inhibitDescription
           (inhibitArgs (clampTtl (parseTtlArg args 3).2)) (.ok ()),
         .host (.isActive settings.inhibitHolderUnit active)]
  | released (shown : Except String UnitProperties) (subcommand : args[1]? = some "lease".toList)
      (action : args[2]? = some "release".toList) :
      Achieved settings services args expectedModelPath
        [.host (.showUnit settings.inhibitHolderUnit shown),
         .stopUnit settings.inhibitHolderUnit (.ok ())]
  | inspected (props : UnitProperties) (subcommand : args[1]? = some "lease".toList)
      (action : args[2]? = some "inspect".toList) :
      Achieved settings services args expectedModelPath
        [.host (.showUnit settings.inhibitHolderUnit (.ok props))]

/-- The response that the command makes of a run from `session`, as text. -/
inductive Responds (texts : ResponseTexts) (settings : HelperSettings)
    (services : CommandServices ν σ) (args : List Text) (expectedModelPath : Option Text)
    (session : CommandSession σ) : Text → Prop
  | reported (response : StatusResponse) (next : CommandSession σ)
      (subcommand : args[1]? = some "status".toList)
      (run : lift (status settings services.toServices) session = (some response, next)) :
      Responds texts settings services args expectedModelPath session
        (texts.status.toString response)
  | served (request : Request) (response : EnsureStartedResponse) (next : CommandSession σ)
      (subcommand : args[1]? = some "ensure-started".toList)
      (parsed : parseRequest args expectedModelPath = .ok request)
      (run : lift (Helper.ensureStarted settings.toHelperConfig services.toServices
        request.target request.modelAlias request.modelPath) session = (some response, next)) :
      Responds texts settings services args expectedModelPath session
        (texts.ensureStarted.toString response)
  | acquired (response : LeaseAcquireResponse) (warned next : CommandSession σ)
      (subcommand : args[1]? = some "lease".toList) (action : args[2]? = some "acquire".toList)
      (warns : lift ((parseTtlArg args 3).1.forM eprintln) session = (some (), warned))
      (run : leaseAcquire settings services (parseTtlArg args 3).2 warned =
        (some response, next)) :
      Responds texts settings services args expectedModelPath session
        (texts.leaseAcquire response)
  | released (response : LeaseReleaseResponse) (next : CommandSession σ)
      (subcommand : args[1]? = some "lease".toList) (action : args[2]? = some "release".toList)
      (run : leaseRelease settings services session = (some response, next)) :
      Responds texts settings services args expectedModelPath session
        (texts.leaseRelease response)
  | inspected (response : LeaseInspectResponse) (next : CommandSession σ)
      (subcommand : args[1]? = some "lease".toList) (action : args[2]? = some "inspect".toList)
      (run : leaseInspect settings services session = (some response, next)) :
      Responds texts settings services args expectedModelPath session
        (texts.leaseInspect response)

/-! ### The log of `ensure_started` -/

section Served
variable {services : Services ν σ} {session session' : Session σ} {port : UInt16}

theorem isServerAlive_answer {alive : Bool}
    (h : isServerAlive services port session = (some alive, session')) :
    ∃ answer, session.Adds [.getText (buildServerUrl port "/v1/models") answer] session' ∧
      alive = answer.isOk := by
  obtain ⟨answer, next, hcall, hpure⟩ := bind_eq_some.mp h
  cases pure_eq_some.mp hpure
  exact ⟨answer, (call_cases hcall).2, rfl⟩

theorem pollServer_answers {deadline : Instant} {rounds : Nat} {alive : Bool}
    (h : pollServer services port deadline rounds session = (some alive, session')) :
    ∃ calls, session.Adds calls session' ∧
      (alive = true → ∃ text earlier,
        calls = .getText (buildServerUrl port "/v1/models") (.ok text) :: earlier) ∧
      (alive = false → ∀ call ∈ calls, ∃ url e, call = .getText url (.error e)) := by
  induction rounds generalizing session with
  | zero =>
      cases pure_eq_some.mp h
      exact ⟨[], rfl, by simp, by simp⟩
  | succ rounds ih =>
      obtain ⟨time, next, hnow, hrest⟩ := bind_eq_some.mp h
      cases hnow
      split at hrest
      next =>
        cases pure_eq_some.mp hrest
        exact ⟨[], rfl, by simp, by simp⟩
      next =>
        obtain ⟨answered, polled, hprobe, hrest⟩ := bind_eq_some.mp hrest
        obtain ⟨answer, adds, rfl⟩ := isServerAlive_answer hprobe
        cases answer with
        | ok text =>
            cases pure_eq_some.mp hrest
            exact ⟨_, adds, fun _ => ⟨text, [], rfl⟩, by simp⟩
        | error e =>
            obtain ⟨_, slept, hsleep, hrest⟩ := bind_eq_some.mp hrest
            cases hsleep
            obtain ⟨calls, more, came, failed⟩ := ih hrest
            refine ⟨_, adds.trans more, fun up => ?_, fun down => ?_⟩
            · obtain ⟨text, earlier, rfl⟩ := came up
              exact ⟨text, earlier ++ [_], rfl⟩
            · exact List.forall_mem_append.mpr
                ⟨failed down, List.forall_mem_singleton.mpr ⟨_, e, rfl⟩⟩

theorem waitForServer_answers {timeoutSecs : UInt64} {alive : Bool}
    (h : waitForServer services port timeoutSecs session = (some alive, session')) :
    ∃ calls, session.Adds calls session' ∧
      (alive = true → ∃ text earlier,
        calls = .getText (buildServerUrl port "/v1/models") (.ok text) :: earlier) ∧
      (alive = false → ∀ call ∈ calls, ∃ url e, call = .getText url (.error e)) := by
  obtain ⟨start, next, hnow, hrest⟩ := bind_eq_some.mp h
  cases hnow
  cases due : Instant.add? (services.now session.host) (Lifecycle.Duration.fromSecs timeoutSecs) with
  | none =>
      rw [due] at hrest
      cases hrest
  | some deadline =>
      rw [due] at hrest
      exact pollServer_answers hrest

theorem ensureStarted_served {target : Target} {modelAlias modelPath : Text}
    {response : EnsureStartedResponse}
    (h : Helper.ensureStarted config services target modelAlias modelPath session =
      (some response, session')) :
    ∃ calls, session.Adds calls session' ∧ (response.status = .ok ↔
      Served services (config.unitFor target)
        (buildServerUrl (config.portFor target) "/v1/models") modelPath calls) := by
  cases (ensureStarted_cases h).1 with
  | startFailed e started flags =>
      obtain ⟨starts, adds, hstarts, _⟩ := startInactive_calls config started
      refine ⟨starts, adds, ?_⟩
      rw [show response.status = .error from congrArg Prod.fst flags]
      cases hstarts with
      | failed answer inactive e =>
          constructor
          · intro status
            cases status
          · intro served
            cases served
  | notReady triggered info s₁ s₂ started waited collected flags =>
      obtain ⟨starts, adds, hstarts, _⟩ := startInactive_calls config started
      obtain ⟨polls, waits, _, failed⟩ := waitForServer_answers waited
      obtain ⟨shown, _, looksUp, _⟩ := collectUnitInfo_answer collected
      refine ⟨_, (adds.trans waits).trans looksUp, ?_⟩
      rw [show response.status = .error from congrArg Prod.fst flags]
      refine ⟨fun status => HelperStatus.noConfusion status, fun served => ?_⟩
      obtain ⟨body, alive, earlier, split⟩ : ∃ body alive earlier,
          polls ++ starts = .getText (buildServerUrl (config.portFor target) "/v1/models") body ::
            .getText (buildServerUrl (config.portFor target) "/v1/models") (.ok alive) ::
            earlier := by
        generalize polls ++ starts = rest at served
        cases served with
        | mk shown body alive id earlier => exact ⟨body, alive, earlier, rfl⟩
      have answered : HostCall.getText (buildServerUrl (config.portFor target) "/v1/models")
          (.ok alive) ∈ polls ++ starts := split ▸ List.mem_cons_of_mem _ (List.mem_cons_self ..)
      obtain hpolled | hstarted := List.mem_append.mp answered
      · obtain ⟨url, e, heq⟩ := failed rfl _ hpolled
        cases heq
      · cases hstarts <;> simp at hstarted
  | checked triggered identity info s₁ s₂ s₃ started waited reported collected flags =>
      obtain ⟨starts, adds, hstarts, _⟩ := startInactive_calls config started
      obtain ⟨polls, waits, came, _⟩ := waitForServer_answers waited
      obtain ⟨text, earlier, rfl⟩ := came rfl
      obtain ⟨body, asked, hcall, hpure⟩ := bind_eq_some.mp reported
      cases pure_eq_some.mp hpure
      obtain ⟨shown, _, looksUp, _⟩ := collectUnitInfo_answer collected
      refine ⟨_, ((adds.trans waits).trans (call_cases hcall).2).trans looksUp, ?_⟩
      constructor
      · intro status
        obtain ⟨id, identified, matching, _⟩ | ⟨_, _, _, flags⟩ | ⟨_, flags⟩ := flags
        · exact .mk shown body text id _ identified matching
        · cases status.symm.trans (congrArg Prod.fst flags)
        · cases status.symm.trans (congrArg Prod.fst flags)
      · intro served
        cases served with
        | mk _ _ _ id _ identified matching =>
            obtain ⟨_, _, _, flags⟩ | ⟨other, heq, differs, _⟩ | ⟨none, _⟩ := flags
            · exact congrArg Prod.fst flags
            · cases identified.symm.trans heq
              cases matching.symm.trans differs
            · exact absurd identified (none id)

end Served

/-! ### The commands -/

section Commands
variable {services : CommandServices ν σ} {ρ : Type} {achieved : List CommandCall → Prop}

/-- The text of the response and a line feed, if the command was understood, and nothing else. -/
def Prints (responds : Text → Prop) (understood : Prop) (stdout : List UInt8) : Prop :=
  (understood ∧ ∃ text, responds text ∧ stdout = Utf8.encode (text ++ ['\n'])) ∨
    ¬ understood ∧ stdout = []

/-- The exit code of every run tells whether this was achieved, and what it prints is its
response if the command was understood. A run that panics has achieved nothing. -/
def Tells (achieved : List CommandCall → Prop) (responds : CommandSession σ → Text → Prop)
    (understood : Prop) (x : CommandM σ Output) : Prop :=
  ∀ session result session', x session = (result, session') →
    ∃ calls, session'.calls = calls ++ session.calls ∧
      match result with
      | some output => (output.success = true ↔ achieved calls) ∧
          Prints (responds session) understood output.stdout
      | none => ¬ achieved calls

/-- A command tells what it has achieved, and prints the response it made. -/
abbrev Truthful (texts : ResponseTexts) (settings : HelperSettings)
    (services : CommandServices ν σ) (args : List Text) (expectedModelPath : Option Text)
    (x : CommandM σ Output) : Prop :=
  Tells (Achieved settings services args expectedModelPath)
    (Responds texts settings services args expectedModelPath) (Understood args expectedModelPath) x

/-- The status of the response of every run is `Ok` when this was achieved. -/
def Answers (achieved : List CommandCall → Prop) (status : ρ → HelperStatus)
    (x : CommandM σ ρ) : Prop :=
  ∀ session response session', x session = (some response, session') →
    ∃ calls, session'.calls = calls ++ session.calls ∧ (status response = .ok ↔ achieved calls)

theorem command_exit_cases {success : Bool} {stdout : Text} {complaints : List String}
    {session session' : CommandSession σ} {output : Output}
    (h : lift (Helper.exit success stdout complaints) session = (some output, session')) :
    session'.calls = session.calls ∧ output.success = success ∧
      output.stdout = Utf8.encode stdout := by
  obtain ⟨inner, hinner, _, adds⟩ := lift_cases h
  rw [exit_calls hinner] at adds
  exact ⟨adds, exit_cases hinner⟩

theorem output_of_exit {success : Bool} {stdout : Text} {complaints : List String}
    {session session' : CommandSession σ} {result : Option Output}
    (h : lift (Helper.exit success stdout complaints) session = (result, session')) :
    ∃ output, result = some output := by
  obtain ⟨output, next, run⟩ := lift_returns (makes_exit success stdout complaints).runs session
  cases h.symm.trans run
  exact ⟨output, rfl⟩

theorem tells_usage (complaints : List String) {responds : CommandSession σ → Text → Prop}
    {understood : Prop} (unknown : ¬ understood) (nothing : ¬ achieved []) :
    Tells achieved responds understood
      (lift (Helper.exit false [] complaints : HelperM σ Output)) := by
  intro session result session' h
  obtain ⟨output, rfl⟩ := output_of_exit h
  obtain ⟨adds, success, stdout⟩ := command_exit_cases h
  refine ⟨[], adds, ?_, .inr ⟨unknown, stdout⟩⟩
  rw [success]
  simp [nothing]

theorem Answers.tells {x : CommandM σ ρ} {status : ρ → HelperStatus} {understood : Prop}
    (h : Answers achieved status x) (returns : x.Returns) (known : understood) (text : ρ → Text)
    (message : ρ → Option String) :
    Tells achieved
      (fun session printed => ∃ response next,
        x session = (some response, next) ∧ printed = text response) understood
      (x >>= fun response =>
        exitForStatus (text response) (status response) (message response)) := by
  intro session result session' hrun
  obtain ⟨response, next, hx⟩ := returns session
  rw [PanicM.bind_run hx] at hrun
  obtain ⟨output, rfl⟩ := output_of_exit hrun
  obtain ⟨calls, adds, ok⟩ := h session response next hx
  obtain ⟨kept, success, stdout⟩ := command_exit_cases hrun
  refine ⟨calls, kept.trans adds, ?_, .inl ⟨known, _, ⟨response, next, hx, rfl⟩, stdout⟩⟩
  rw [success, decide_eq_true_iff, ok]

theorem shown_cases {unit : String} {session session' : CommandSession σ} {info : Option UnitInfo}
    (h : lift (collectUnitInfo services.toServices unit) session = (some info, session')) :
    ∃ shown, session'.calls = .host (.showUnit unit shown) :: session.calls ∧
      info = some (infoOf unit shown) := by
  obtain ⟨inner, hinner, _, adds⟩ := lift_cases h
  obtain ⟨shown, _, shows, hinfo⟩ := collectUnitInfo_answer hinner
  rw [show inner.calls = [_] ++ [] from shows] at adds
  exact ⟨shown, adds, hinfo⟩

theorem answers_leaseAcquire (settings : HelperSettings) (services : CommandServices ν σ)
    (ttlSecs : UInt64) :
    Answers (fun calls => ∃ active props, props "ActiveState" = some "active" ∧ calls =
        [.host (.showUnit settings.inhibitHolderUnit (.ok props)),
         .replaceTransientUnit settings.inhibitHolderUnit inhibitDescription
           (inhibitArgs (clampTtl ttlSecs)) (.ok ()),
         .host (.isActive settings.inhibitHolderUnit active)])
      LeaseAcquireResponse.status (leaseAcquire settings services ttlSecs) := by
  intro session response session' h
  obtain ⟨active, asked, hasked, h⟩ := bind_eq_some.mp h
  obtain ⟨inner, hinner, _, asks⟩ := lift_cases hasked
  rw [show inner.calls = [_] ++ [] from (call_cases hinner).2] at asks
  obtain ⟨answer, replaced, hreplaced, h⟩ := bind_eq_some.mp h
  obtain ⟨_, replaces⟩ := command_cases hreplaced
  cases answer with
  | error e =>
      cases pure_eq_some.mp h
      refine ⟨[_, _], by rw [replaces, asks]; rfl, ?_⟩
      simp
  | ok _ =>
      obtain ⟨info, shown, hshown, h⟩ := bind_eq_some.mp h
      obtain ⟨props, shows, rfl⟩ := shown_cases hshown
      cases hactive : (infoOf settings.inhibitHolderUnit props).activeState == "active" with
      | false =>
          simp only [Option.map_some, Option.getD_some, hactive, Bool.not_false, if_true] at h
          cases pure_eq_some.mp h
          refine ⟨[_, _, _], by rw [shows, replaces, asks]; rfl, ?_⟩
          rw [beq_eq_false_iff_ne, ne_eq, infoOf_active] at hactive
          simp only [List.cons.injEq, reduceCtorEq, false_iff]
          rintro ⟨_, found, held, heq, _⟩
          cases heq
          exact hactive ⟨found, rfl, held⟩
      | true =>
          simp only [Option.map_some, Option.getD_some, hactive, Bool.not_true,
            Bool.false_eq_true, if_false] at h
          cases pure_eq_some.mp h
          obtain ⟨found, rfl, held⟩ := (infoOf_active _ _).mp (beq_iff_eq.mp hactive)
          exact ⟨_, by rw [shows, replaces, asks]; rfl, fun _ => ⟨active, found, held, rfl⟩,
            fun _ => rfl⟩

theorem answers_leaseRelease (settings : HelperSettings) (services : CommandServices ν σ) :
    Answers (fun calls => ∃ shown, calls =
        [.host (.showUnit settings.inhibitHolderUnit shown),
         .stopUnit settings.inhibitHolderUnit (.ok ())])
      LeaseReleaseResponse.status (leaseRelease settings services) := by
  intro session response session' h
  obtain ⟨answer, stopped, hstopped, h⟩ := bind_eq_some.mp h
  obtain ⟨_, stops⟩ := command_cases hstopped
  cases answer with
  | error e =>
      cases pure_eq_some.mp h
      refine ⟨[_], stops, ?_⟩
      simp
  | ok _ =>
      obtain ⟨info, next, hshown, h⟩ := bind_eq_some.mp h
      obtain ⟨shown, shows, rfl⟩ := shown_cases hshown
      cases pure_eq_some.mp h
      exact ⟨_, by rw [shows, stops]; rfl, fun _ => ⟨shown, rfl⟩, fun _ => rfl⟩

theorem answers_leaseInspect (settings : HelperSettings) (services : CommandServices ν σ) :
    Answers (fun calls => ∃ props, calls =
        [.host (.showUnit settings.inhibitHolderUnit (.ok props))])
      LeaseInspectResponse.status (leaseInspect settings services) := by
  intro session response session' h
  obtain ⟨shown, next, hshown, h⟩ := bind_eq_some.mp h
  obtain ⟨inner, hinner, _, shows⟩ := lift_cases hshown
  rw [show inner.calls = [_] ++ [] from (call_cases hinner).2] at shows
  cases shown with
  | error e =>
      cases pure_eq_some.mp h
      refine ⟨[_], shows, ?_⟩
      simp
  | ok props =>
      cases pure_eq_some.mp h
      exact ⟨_, shows, fun _ => ⟨props, rfl⟩, fun _ => rfl⟩

theorem answers_status (settings : HelperSettings) (services : CommandServices ν σ) :
    Answers (fun _ => True) StatusResponse.status (lift (status settings services.toServices)) := by
  intro session response session' h
  obtain ⟨inner, hinner, _, adds⟩ := lift_cases h
  refine ⟨_, adds, fun _ => trivial, fun _ => ?_⟩
  obtain ⟨_, _, _, h⟩ := bind_eq_some.mp hinner
  obtain ⟨_, _, _, h⟩ := bind_eq_some.mp h
  obtain ⟨_, _, _, h⟩ := bind_eq_some.mp h
  obtain ⟨_, _, _, h⟩ := bind_eq_some.mp h
  obtain ⟨_, _, _, h⟩ := bind_eq_some.mp h
  cases pure_eq_some.mp h
  rfl

theorem Tells.congr {x : CommandM σ Output} {achieved' : List CommandCall → Prop}
    {responds responds' : CommandSession σ → Text → Prop} {understood : Prop}
    (h : Tells achieved responds understood x)
    (same : ∀ calls, achieved calls ↔ achieved' calls)
    (told : ∀ session text, responds session text → responds' session text) :
    Tells achieved' responds' understood x := by
  intro session result session' hrun
  obtain ⟨calls, adds, tells⟩ := h session result session' hrun
  refine ⟨calls, adds, ?_⟩
  cases result with
  | none => exact fun achieved => tells ((same calls).mpr achieved)
  | some output =>
      refine ⟨tells.1.trans (same calls), ?_⟩
      obtain ⟨known, text, responded, stdout⟩ | silent := tells.2
      · exact .inl ⟨known, text, told session text responded, stdout⟩
      · exact .inr silent

theorem misplaced {P : Prop} {place : Nat} {text text' : Text} (h : args[place]? = some text)
    (h' : args[place]? = some text') (ne : text ≠ text') : P :=
  absurd (Option.some.inj (h.symm.trans h')) ne

theorem Achieved.understood {calls : List CommandCall}
    (h : Achieved settings services args expectedModelPath calls) :
    Understood args expectedModelPath := by
  cases h with
  | reported _ subcommand => exact .status subcommand
  | served request _ subcommand parsed => exact .ensureStarted request subcommand parsed
  | acquired _ _ subcommand action => exact .lease _ subcommand action (by simp)
  | released _ subcommand action => exact .lease _ subcommand action (by simp)
  | inspected _ subcommand action => exact .lease _ subcommand action (by simp)

theorem tells_unknown (complaints : List String) (unknown : ¬ Understood args expectedModelPath) :
    Truthful texts settings services args expectedModelPath
      (lift (Helper.exit false [] complaints : HelperM σ Output)) :=
  tells_usage complaints unknown fun achieved => unknown achieved.understood

/-- Starting the unit is not serving the model. -/
theorem not_served_of_started {services : Services ν σ} {unit url : String} {modelPath : Text}
    {result : Except String Bool} {calls : List HostCall} (h : StartCalls unit result calls) :
    ¬ Served services unit url modelPath calls := by
  intro served
  cases h <;> cases served

theorem served_iff {request : Request} {calls : List HostCall}
    (subcommand : args[1]? = some "ensure-started".toList)
    (parsed : parseRequest args expectedModelPath = .ok request) :
    Served services.toServices (settings.unitFor request.target)
        (buildServerUrl (settings.portFor request.target) "/v1/models") request.modelPath calls ↔
      Achieved settings services args expectedModelPath (calls.map .host) := by
  constructor
  · exact .served request calls subcommand parsed
  · intro achieved
    generalize same : calls.map CommandCall.host = log at achieved
    cases achieved with
    | reported _ other | acquired _ _ other | released _ other | inspected _ other =>
        exact misplaced subcommand other (by decide)
    | served request' calls' _ parsed' served =>
        cases parsed.symm.trans parsed'
        have host : Function.Injective CommandCall.host := fun _ _ => CommandCall.host.inj
        rwa [List.map_injective_iff.mpr host same]

theorem tells_ensureStarted (subcommand : args[1]? = some "ensure-started".toList) :
    Truthful texts settings services args expectedModelPath
      (lift (Helper.main texts.ensureStarted settings.toHelperConfig services.toServices args
        expectedModelPath)) := by
  cases parsed : parseRequest args expectedModelPath with
  | error complaints =>
      simp only [Helper.main, parsed]
      refine tells_unknown _ ?_
      rintro (other | ⟨_, _, known⟩ | ⟨_, other⟩)
      · exact misplaced subcommand other (by decide)
      · cases parsed.symm.trans known
      · exact misplaced subcommand other (by decide)
  | ok request =>
      intro session result session' hrun
      obtain ⟨inner, hmain, _, adds⟩ := lift_cases hrun
      have run := hmain
      simp only [Helper.main, parsed] at run
      obtain ⟨response, next, emitted, hexit⟩ | ⟨panicked, rfl⟩ := PanicM.bind_cases run
      · obtain ⟨output, _, hends⟩ := (makes_exit _ _ _).runs next
        cases hexit.symm.trans hends
        obtain ⟨success, stdout⟩ := main_cases parsed emitted hmain
        obtain ⟨calls, makes, ok⟩ := ensureStarted_served emitted
        rw [exit_calls hexit, show next.calls = calls ++ [] from makes, List.append_nil] at adds
        refine ⟨_, adds, ?_, .inl ⟨.ensureStarted request subcommand parsed, _,
          .served request response _ subcommand parsed (lift_run emitted), stdout⟩⟩
        rw [success, decide_eq_true_iff, ok]
        exact served_iff subcommand parsed
      · obtain ⟨triggered, started⟩ := ensureStarted_panicked panicked
        obtain ⟨calls, makes, starts, _⟩ := startInactive_calls settings.toHelperConfig started
        rw [show inner.calls = calls ++ [] from makes, List.append_nil] at adds
        refine ⟨_, adds, fun achieved => ?_⟩
        exact not_served_of_started starts ((served_iff subcommand parsed).mpr achieved)

theorem tells_leaseAcquire (subcommand : args[1]? = some "lease".toList)
    (named : args[2]? = some "acquire".toList) :
    Truthful texts settings services args expectedModelPath (do
      lift ((parseTtlArg args 3).1.forM eprintln)
      let response ← leaseAcquire settings services (parseTtlArg args 3).2
      exitForStatus (texts.leaseAcquire response) response.status (some response.message)) := by
  intro session result session' hrun
  obtain ⟨_, warned, hwarn⟩ := lift_returns
    (makes_complaints (σ := σ) (parseTtlArg args 3).1).runs session
  rw [PanicM.bind_run hwarn] at hrun
  obtain ⟨inner, hinner, _, adds⟩ := lift_cases hwarn
  obtain ⟨calls, silent, none⟩ := (makes_complaints _).adds hinner
  rw [List.eq_nil_iff_forall_not_mem.mpr none] at silent
  rw [show inner.calls = [] from silent] at adds
  have tells : Tells (Achieved settings services args expectedModelPath)
      (fun before text => before = warned →
        Responds texts settings services args expectedModelPath session text)
      (Understood args expectedModelPath)
      (leaseAcquire settings services (parseTtlArg args 3).2 >>= fun response =>
        exitForStatus (texts.leaseAcquire response) response.status (some response.message)) := by
    refine Tells.congr ((answers_leaseAcquire settings services (parseTtlArg args 3).2).tells
      (leaseAcquire_returns _ _ _) (.lease _ subcommand named (by simp)) _ _)
      (fun calls => ⟨?_, fun achieved => ?_⟩) ?_
    · rintro ⟨active, props, held, rfl⟩
      exact .acquired active props subcommand named held
    · cases achieved with
      | reported _ other | served _ _ other => exact misplaced subcommand other (by decide)
      | released _ _ other | inspected _ _ other => exact misplaced named other (by decide)
      | acquired active props _ _ held => exact ⟨active, props, held, rfl⟩
    · rintro before text ⟨response, next, run, rfl⟩ rfl
      exact .acquired response _ next subcommand named hwarn run
  obtain ⟨calls, makes, ends⟩ := tells warned result session' hrun
  refine ⟨calls, by rw [makes, adds]; rfl, ?_⟩
  cases result with
  | none => exact ends
  | some output =>
      refine ⟨ends.1, ?_⟩
      obtain ⟨known, text, responded, stdout⟩ | silent := ends.2
      · exact .inl ⟨known, text, responded rfl, stdout⟩
      · exact .inr silent

theorem tells_leaseRelease (subcommand : args[1]? = some "lease".toList)
    (named : args[2]? = some "release".toList) :
    Truthful texts settings services args expectedModelPath (do
      let response ← leaseRelease settings services
      exitForStatus (texts.leaseRelease response) response.status (some response.message)) := by
  have understood : Understood args expectedModelPath :=
    .lease "release".toList subcommand named (by simp)
  refine Tells.congr ((answers_leaseRelease settings services).tells
    (leaseRelease_returns _ _) understood _ _) (fun calls => ⟨?_, fun achieved => ?_⟩) ?_
  · rintro ⟨shown, rfl⟩
    exact .released shown subcommand named
  · cases achieved with
    | reported _ other | served _ _ other => exact misplaced subcommand other (by decide)
    | acquired _ _ _ other | inspected _ _ other => exact misplaced named other (by decide)
    | released shown => exact ⟨shown, rfl⟩
  · rintro session text ⟨response, next, run, rfl⟩
    exact .released response next subcommand named run

theorem tells_leaseInspect (subcommand : args[1]? = some "lease".toList)
    (named : args[2]? = some "inspect".toList) :
    Truthful texts settings services args expectedModelPath (do
      let response ← leaseInspect settings services
      exitForStatus (texts.leaseInspect response) response.status none) := by
  have understood : Understood args expectedModelPath :=
    .lease "inspect".toList subcommand named (by simp)
  refine Tells.congr ((answers_leaseInspect settings services).tells
    (leaseInspect_returns _ _) understood _ _) (fun calls => ⟨?_, fun achieved => ?_⟩) ?_
  · rintro ⟨props, rfl⟩
    exact .inspected props subcommand named
  · cases achieved with
    | reported _ other | served _ _ other => exact misplaced subcommand other (by decide)
    | acquired _ _ _ other | released _ _ other => exact misplaced named other (by decide)
    | inspected props => exact ⟨props, rfl⟩
  · rintro session text ⟨response, next, run, rfl⟩
    exact .inspected response next subcommand named run

theorem tells_leaseMain (subcommand : args[1]? = some "lease".toList) :
    Truthful texts settings services args expectedModelPath
      (leaseMain texts settings services args) := by
  have unknown : (∀ action ∈ ["acquire".toList, "release".toList, "inspect".toList],
      args[2]? ≠ some action) → ¬ Understood args expectedModelPath := by
    rintro other (subcommand' | ⟨_, subcommand', _⟩ | ⟨action, _, named, known⟩)
    · exact misplaced subcommand subcommand' (by decide)
    · exact misplaced subcommand subcommand' (by decide)
    · exact other action known named
  unfold leaseMain
  cases named : args[2]? with
  | none => exact tells_unknown _ (unknown (by simp [named]))
  | some action =>
      dsimp only
      split
      next acquire =>
        subst acquire
        exact tells_leaseAcquire subcommand named
      next =>
        split
        next release =>
          subst release
          exact tells_leaseRelease subcommand named
        next =>
          split
          next inspect =>
            subst inspect
            exact tells_leaseInspect subcommand named
          next => exact tells_unknown _ (unknown (by simp_all))

/-- A host that keeps no unit active: what is replaced does not stay up. -/
def withoutInhibit : CommandServices Empty Nat :=
  { withoutUnit with
    stopUnit := fun _ clock => (.ok (), clock)
    replaceTransientUnit := fun _ _ _ clock => (.ok (), clock) }

example : ∃ output session', mainOf texts withoutInhibit (fun _ => none)
    ["helper".toList, "lease".toList, "acquire".toList]
      { host := 0, calls := [], stderr := "" } = (some output, session') ∧
      output.success = false ∧ session'.stderr =
        "lease was created but the inhibit unit is not active\n" :=
  ⟨_, _, rfl, rfl, rfl⟩

end Commands

end LlmWakeProxy.Host
