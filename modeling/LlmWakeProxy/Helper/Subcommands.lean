import LlmWakeProxy.Helper.Command
import LlmWakeProxy.Helper.Lease

/-!
The `main` of the helper: its subcommands, and what each may do on the host. Whatever
the arguments are, a command starts no unit but that of the target it was given, stops
and replaces none but the one that holds the lease, and changes one thing at most; a
command line it does not understand touches nothing.
-/

namespace LlmWakeProxy.Helper
open LlmWakeProxy.Library
open PanicM (bind_eq_some pure_eq_some)
open LlmWakeProxy.Forward (Text)
open LlmWakeProxy.Config (Environment parseU64)

universe u
variable {ν : Type u} {σ : Type} {settings : HelperSettings} {services : CommandServices ν σ}

/-- The derived `Serialize` of the responses, and `Deserialize` of those that are read. -/
structure ResponseTexts where
  status : JsonCodec StatusResponse
  ensureStarted : JsonCodec EnsureStartedResponse
  leaseAcquire : LeaseAcquireResponse → Text
  leaseRelease : LeaseReleaseResponse → Text
  leaseInspect : LeaseInspectResponse → Text

def defaultTtl : UInt64 := 900

/-- `parse_ttl_arg`: the warnings, and the time. -/
def parseTtlArg (args : List Text) (pos : Nat) : List String × UInt64 :=
  match args[pos]? with
  | none => ([], defaultTtl)
  | some flag =>
      if flag = "--ttl".toList then
        match args[pos + 1]? with
        | none => (["Warning: --ttl requires a value, using default 900"], defaultTtl)
        | some value =>
            match parseU64 value with
            | some ttl => ([], ttl)
            | none => (["Warning: --ttl value '" ++ String.ofList value ++
                "' is not a valid number, using default 900"], defaultTtl)
      else
        (["Warning: unexpected argument '" ++ String.ofList flag ++ "', use --ttl <secs>"],
          defaultTtl)

def leaseUsage : List String :=
  ["Usage: helper lease <acquire|release|inspect>", "",
   "  acquire [--ttl <secs>]    Create or renew inhibit lease",
   "  release                  Stop inhibit lease",
   "  inspect                  Show current lease state", "", "Environment:",
   "  INHIBIT_HOLDER_UNIT    systemd unit name (default: llm-wake-proxy-inhibit)"]

def mainUsage : List String :=
  ["Usage:", "  helper status                              Show host unit and model status",
   "  helper ensure-started <chat|embeddings> <alias>  Start and verify model server",
   "  helper lease <acquire|release|inspect>     Manage inhibit lease", "", "Environment:",
   "  EXPECTED_MODEL_PATH    Path to the model file for verification",
   "  LLAMA_SERVER_UNIT      systemd unit name (default: llama-server)",
   "  INHIBIT_HOLDER_UNIT    systemd unit name (default: llm-wake-proxy-inhibit)",
   "  LLAMA_SERVER_PORT      Port for server health check (default: 8080)",
   "  LLAMA_SERVER_EMBEDDINGS_UNIT  systemd unit name (default: llama-server-embeddings)",
   "  LLAMA_SERVER_EMBEDDINGS_PORT  Port for embeddings server health check (default: 8081)",
   "  SERVER_START_TIMEOUT_SECS  How long to wait for server (default: 60)"]

/-- `print_json` and `exit_for_status`. -/
def exitForStatus (json : Text) (status : HelperStatus) (stderrMsg : Option String) :
    CommandM σ Output :=
  lift (exit (status = .ok) (json ++ ['\n']) (if status = .ok then [] else stderrMsg.toList))

def leaseMain (texts : ResponseTexts) (settings : HelperSettings) (services : CommandServices ν σ)
    (args : List Text) : CommandM σ Output :=
  match args[2]? with
  | some subcommand =>
      if subcommand = "acquire".toList then do
        let (warnings, ttl) := parseTtlArg args 3
        lift (warnings.forM eprintln)
        let response ← leaseAcquire settings services ttl
        exitForStatus (texts.leaseAcquire response) response.status (some response.message)
      else if subcommand = "release".toList then do
        let response ← leaseRelease settings services
        exitForStatus (texts.leaseRelease response) response.status (some response.message)
      else if subcommand = "inspect".toList then do
        let response ← leaseInspect settings services
        exitForStatus (texts.leaseInspect response) response.status none
      else lift (exit false [] leaseUsage)
  | none => lift (exit false [] leaseUsage)

/-- `main`, from the environment and the arguments. -/
def mainOf (texts : ResponseTexts) (services : CommandServices ν σ) (env : Environment)
    (args : List Text) : CommandM σ Output :=
  let settings := HelperSettings.fromEnv env
  match args[1]? with
  | some subcommand =>
      if subcommand = "status".toList then do
        let response ← lift (status settings services.toServices)
        exitForStatus (texts.status.toString response) response.status none
      else if subcommand = "ensure-started".toList then
        lift (main texts.ensureStarted settings.toHelperConfig services.toServices args
          (env "EXPECTED_MODEL_PATH"))
      else if subcommand = "lease".toList then leaseMain texts settings services args
      else lift (exit false [] mainUsage)
  | none => lift (exit false [] mainUsage)

/-! ### What a command may do -/

/-- The call changes something on the host. -/
def CommandCall.changes : CommandCall → Bool
  | .host (.startUnit _ _) | .stopUnit _ _ | .replaceTransientUnit _ _ _ _ => true
  | _ => false

/-- Every run adds calls of this kind only, and so many changes at most, whether it ends with
a result or panics. -/
def Issues {α : Type} (kind : CommandCall → Prop) (changes : Nat) (x : CommandM σ α) : Prop :=
  ∀ session result session', x session = (result, session') →
    ∃ calls, session'.calls = calls ++ session.calls ∧ (∀ call ∈ calls, kind call) ∧
      calls.countP CommandCall.changes ≤ changes

section Issues
variable {α β : Type} {kind kind' : CommandCall → Prop} {m n : Nat} {x : CommandM σ α}

theorem Issues.pure (a : α) : Issues kind 0 (pure a : CommandM σ α) := by
  intro session b session' h
  cases h
  exact ⟨[], rfl, by simp, Nat.le_refl 0⟩

theorem Issues.bind {f : α → CommandM σ β} (hx : Issues kind m x) (hf : ∀ a, Issues kind n (f a)) :
    Issues kind (n + m) (x >>= f) := by
  intro session result session' h
  obtain ⟨a, next, hrun, hrest⟩ | ⟨panicked, _⟩ := PanicM.bind_cases h
  · obtain ⟨first, adds, hfirst, few⟩ := hx session (some a) next hrun
    obtain ⟨second, adds', hsecond, few'⟩ := hf a next result session' hrest
    refine ⟨second ++ first, by rw [adds', adds, List.append_assoc], ?_, ?_⟩
    · exact List.forall_mem_append.mpr ⟨hsecond, hfirst⟩
    · rw [List.countP_append]
      exact Nat.add_le_add few' few
  · obtain ⟨first, adds, hfirst, few⟩ := hx session none session' panicked
    exact ⟨first, adds, hfirst, Nat.le_trans few (Nat.le_add_left m n)⟩

theorem Issues.mono (h : Issues kind m x) (weaker : ∀ call, kind call → kind' call)
    (more : m ≤ n) : Issues kind' n x := by
  intro session result session' hrun
  obtain ⟨calls, adds, hcalls, few⟩ := h session result session' hrun
  exact ⟨calls, adds, fun call hcall => weaker call (hcalls call hcall), Nat.le_trans few more⟩

theorem Issues.command {ρ : Type} {service : σ → ρ × σ} {record : ρ → CommandCall}
    (h : ∀ answer, kind (record answer)) : Issues kind 1 (command service record) := by
  intro session answer session' hrun
  cases hrun
  exact ⟨[record _], rfl, List.forall_mem_singleton.mpr (h _), List.countP_le_length⟩

/-- What the parts without calls of the lease add, as the commands see it. -/
theorem Issues.lifted {y : HelperM σ α}
    (h : ∀ session result session', y session = (result, session') →
      ∃ calls, session.Adds calls session' ∧ (∀ call ∈ calls, kind (.host call)) ∧
        (calls.filterMap HostCall.started).length ≤ n) : Issues kind n (lift y) := by
  intro session result session' hrun
  obtain ⟨inner, hinner, _, hadds⟩ := lift_cases hrun
  obtain ⟨calls, adds, hcalls, few⟩ := h _ _ _ hinner
  refine ⟨calls.map .host, ?_, ?_, ?_⟩
  · rw [hadds, show inner.calls = calls ++ [] from adds, List.append_nil]
  · intro call hcall
    obtain ⟨made, hmade, rfl⟩ := List.mem_map.mp hcall
    exact hcalls made hmade
  · refine Nat.le_trans (Nat.le_of_eq ?_) few
    rw [List.countP_map, List.length_filterMap_eq_countP]
    refine List.countP_congr fun call _ => ?_
    cases call <;> simp [CommandCall.changes, HostCall.started]

theorem Issues.looks {y : HelperM σ α} {seen : HostCall → Prop} (h : Makes seen y)
    (reads : ∀ call, seen call → call.reads ∧ kind (.host call)) : Issues kind 0 (lift y) := by
  refine Issues.lifted fun session result session' hrun => ?_
  obtain ⟨calls, adds, hcalls⟩ := h.adds hrun
  refine ⟨calls, adds, fun call hcall => (reads call (hcalls call hcall)).2, Nat.le_of_eq ?_⟩
  rw [List.length_eq_zero_iff, List.filterMap_eq_nil_iff]
  intro call hcall
  have := (reads call (hcalls call hcall)).1
  cases call with
  | startUnit _ _ => exact absurd this id
  | _ => rfl

end Issues

/-- A command line that the helper understands. -/
inductive Understood (args : List Text) (expectedModelPath : Option Text) : Prop
  | status (subcommand : args[1]? = some "status".toList)
  | ensureStarted (request : Request) (subcommand : args[1]? = some "ensure-started".toList)
      (parsed : parseRequest args expectedModelPath = .ok request)
  | lease (action : Text) (subcommand : args[1]? = some "lease".toList)
      (named : args[2]? = some action)
      (known : action ∈ ["acquire".toList, "release".toList, "inspect".toList])

/-- What a command may do on the host. -/
inductive Allowed (settings : HelperSettings) (args : List Text) (expectedModelPath : Option Text) :
    CommandCall → Prop
  | reads (call : HostCall) (reads : call.reads) (understood : Understood args expectedModelPath) :
      Allowed settings args expectedModelPath (.host call)
  | starts (request : Request) (answer : Except String Unit)
      (subcommand : args[1]? = some "ensure-started".toList)
      (parsed : parseRequest args expectedModelPath = .ok request) :
      Allowed settings args expectedModelPath
        (.host (.startUnit (settings.unitFor request.target) answer))
  | stops (answer : Except String Unit) (subcommand : args[1]? = some "lease".toList)
      (action : args[2]? = some "release".toList) :
      Allowed settings args expectedModelPath (.stopUnit settings.inhibitHolderUnit answer)
  | replaces (ttlSecs : UInt64) (answer : Except String Unit)
      (subcommand : args[1]? = some "lease".toList) (action : args[2]? = some "acquire".toList)
      (ttl : ttlSecs = clampTtl (parseTtlArg args 3).2) (bounds : 60 ≤ ttlSecs ∧ ttlSecs ≤ 86400) :
      Allowed settings args expectedModelPath
        (.replaceTransientUnit settings.inhibitHolderUnit inhibitDescription
          (inhibitArgs ttlSecs) answer)

theorem clampTtl_bounds (ttlSecs : UInt64) : 60 ≤ clampTtl ttlSecs ∧ clampTtl ttlSecs ≤ 86400 := by
  unfold clampTtl
  split
  next => exact ⟨UInt64.le_refl _, by decide⟩
  next large =>
    split
    next => exact ⟨by decide, UInt64.le_refl _⟩
    next small => exact ⟨UInt64.not_lt.mp large, UInt64.not_lt.mp small⟩

section Allowed
variable {kind : CommandCall → Prop} {args : List Text} {expectedModelPath : Option Text}

theorem makes_complaints (lines : List String) :
    Makes (fun _ => False) (lines.forM eprintln : HelperM σ PUnit) := by
  induction lines with
  | nil => exact .pure _
  | cons line rest ih => exact .bind .eprintln fun _ => ih

theorem makes_exit (success : Bool) (stdout : Text) (complaints : List String) :
    Makes (fun _ => False) (exit success stdout complaints : HelperM σ Output) :=
  .bind (makes_complaints complaints) fun _ => .bind .get fun _ => .pure _

/-- To end calls nothing. -/
theorem exit_calls {success : Bool} {stdout : Text} {complaints : List String}
    {session session' : Session σ} {result : Option Output}
    (h : exit success stdout complaints session = (result, session')) :
    session'.calls = session.calls := by
  obtain ⟨calls, adds, none⟩ := (makes_exit success stdout complaints).adds h
  rw [List.eq_nil_iff_forall_not_mem.mpr none] at adds
  exact adds

theorem issues_exit (success : Bool) (stdout : Text) (complaints : List String) :
    Issues kind 0 (lift (exit success stdout complaints : HelperM σ Output)) :=
  .looks (makes_exit success stdout complaints) fun _ none => none.elim

theorem issues_leaseAcquire (settings : HelperSettings) (services : CommandServices ν σ)
    (ttlSecs : UInt64) (reads : ∀ call : HostCall, call.reads → kind (.host call))
    (replaces : ∀ answer, kind (.replaceTransientUnit settings.inhibitHolderUnit inhibitDescription
      (inhibitArgs (clampTtl ttlSecs)) answer)) :
    Issues kind 1 (leaseAcquire settings services ttlSecs) := by
  have looks : ∀ unit, Issues kind 0 (lift (call (services.isActive unit) (.isActive unit))) :=
    fun unit => .looks (.call fun _ => trivial) fun call hcall => ⟨hcall, reads call hcall⟩
  have shows : ∀ unit, Issues kind 0 (lift (collectUnitInfo services.toServices unit)) :=
    fun unit => .looks (makes_unitInfo _ unit) fun call hcall => ⟨hcall, reads call hcall⟩
  refine Issues.bind (n := 1) (looks _) fun active => ?_
  refine Issues.bind (n := 0) (.command replaces) fun answer => ?_
  cases answer with
  | ok _ =>
      refine Issues.bind (n := 0) (shows _) fun info => ?_
      dsimp only
      split
      next => exact .pure _
      next => exact .pure _
  | error e => exact .pure _

theorem issues_leaseRelease (settings : HelperSettings) (services : CommandServices ν σ)
    (reads : ∀ call : HostCall, call.reads → kind (.host call))
    (stops : ∀ answer, kind (.stopUnit settings.inhibitHolderUnit answer)) :
    Issues kind 1 (leaseRelease settings services) := by
  refine Issues.bind (n := 0) (.command stops) fun answer => ?_
  cases answer with
  | ok _ =>
      refine Issues.bind (m := 0) (n := 0) ?_ fun info => .pure _
      exact .looks (makes_unitInfo _ _) fun call hcall => ⟨hcall, reads call hcall⟩
  | error e => exact .pure _

theorem issues_leaseInspect (settings : HelperSettings) (services : CommandServices ν σ)
    (reads : ∀ call : HostCall, call.reads → kind (.host call)) :
    Issues kind 0 (leaseInspect settings services) := by
  refine Issues.bind (m := 0) (n := 0) ?_ fun answer => ?_
  · exact .looks (.call fun _ => trivial) fun call hcall => ⟨hcall, reads call hcall⟩
  · cases answer with
    | ok _ | error _ => exact .pure _

/-- The target's unit is all that `ensure-started` starts, and once. -/
theorem issues_ensureStarted (codec : JsonCodec EnsureStartedResponse) (settings : HelperSettings)
    (services : Services ν σ) (args : List Text) (expectedModelPath : Option Text)
    (subcommand : args[1]? = some "ensure-started".toList) :
    Issues (Allowed settings args expectedModelPath) 1
      (lift (main codec settings.toHelperConfig services args expectedModelPath)) := by
  unfold main
  cases parsed : parseRequest args expectedModelPath with
  | error complaints => exact (issues_exit _ _ _).mono (fun _ h => h) (Nat.zero_le 1)
  | ok request =>
      refine Issues.lifted fun session result session' hrun => ?_
      obtain ⟨calls, adds, once, mine⟩ : ∃ calls, session.Adds calls session' ∧
          (calls.filterMap HostCall.started).length ≤ 1 ∧
          ∀ unit ∈ calls.filterMap HostCall.started, unit = settings.unitFor request.target := by
        obtain ⟨response, next, hstarted, hexit⟩ | ⟨panicked, _⟩ := PanicM.bind_cases hrun
        · obtain ⟨calls, adds, starts⟩ := ensureStarted_starts hstarted
          exact ⟨calls, (exit_calls hexit).trans adds, starts⟩
        · exact ensureStarted_starts panicked
      refine ⟨calls, adds, fun call hcall => ?_, once⟩
      cases call with
      | startUnit unit answer =>
          rw [mine unit (List.mem_filterMap.mpr ⟨_, hcall, rfl⟩)]
          exact .starts request answer subcommand parsed
      | isActive _ _ | showUnit _ _ | getText _ _ =>
          exact .reads _ trivial (.ensureStarted request subcommand parsed)

theorem issues_leaseMain (texts : ResponseTexts) (settings : HelperSettings)
    (services : CommandServices ν σ) (args : List Text) (expectedModelPath : Option Text)
    (subcommand : args[1]? = some "lease".toList) :
    Issues (Allowed settings args expectedModelPath) 1 (leaseMain texts settings services args) := by
  unfold leaseMain
  cases named : args[2]? with
  | none => exact (issues_exit _ _ _).mono (fun _ h => h) (Nat.zero_le 1)
  | some action =>
      have reads : action ∈ ["acquire".toList, "release".toList, "inspect".toList] →
          ∀ call : HostCall, call.reads →
            Allowed settings args expectedModelPath (.host call) :=
        fun known call hcall => .reads call hcall (.lease action subcommand named known)
      dsimp only
      split
      next acquire =>
        subst acquire
        refine Issues.bind (n := 1) (.looks (makes_complaints _) (by simp)) fun _ => ?_
        refine Issues.bind (n := 0) (issues_leaseAcquire _ _ _ (reads (by simp)) fun answer => ?_)
          fun response => issues_exit _ _ _
        exact .replaces _ answer subcommand named rfl (clampTtl_bounds _)
      next =>
        split
        next release =>
          subst release
          exact Issues.bind (n := 0) (issues_leaseRelease _ _ (reads (by simp)) fun answer =>
            .stops answer subcommand named) fun response => issues_exit _ _ _
        next =>
          split
          next inspect =>
            subst inspect
            exact (Issues.bind (m := 0) (n := 0) (issues_leaseInspect _ _ (reads (by simp)))
              fun response => issues_exit _ _ _).mono (fun _ h => h) (Nat.zero_le 1)
          next => exact (issues_exit _ _ _).mono (fun _ h => h) (Nat.zero_le 1)

end Allowed

/-- Whatever its arguments, its environment and the answers of the host are, every run of the
helper, also one that panics, does only what the command may do, and changes one thing at
most. -/
theorem commands_change_only_their_unit (texts : ResponseTexts) (services : CommandServices ν σ)
    (env : Environment) (args : List Text) :
    Issues (Allowed (HelperSettings.fromEnv env) args (env "EXPECTED_MODEL_PATH")) 1
      (mainOf texts services env args) := by
  unfold mainOf
  cases hsubcommand : args[1]? with
  | none => exact (issues_exit _ _ _).mono (fun _ h => h) (Nat.zero_le 1)
  | some subcommand =>
      dsimp only
      split
      next status =>
        subst status
        refine (Issues.bind (m := 0) (n := 0) ?_ fun response => issues_exit _ _ _).mono (fun _ h => h)
          (Nat.zero_le 1)
        exact .looks (makes_status _ _) fun call hcall =>
          ⟨hcall, .reads call hcall (.status hsubcommand)⟩
      next =>
        split
        next ensureStarted =>
          subst ensureStarted
          exact issues_ensureStarted _ _ _ _ _ hsubcommand
        next =>
          split
          next lease =>
            subst lease
            exact issues_leaseMain _ _ _ _ _ hsubcommand
          next => exact (issues_exit _ _ _).mono (fun _ h => h) (Nat.zero_le 1)

end LlmWakeProxy.Helper
