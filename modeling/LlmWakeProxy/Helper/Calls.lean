import LlmWakeProxy.Helper.Identity

/-!
What `ensure_started` asks of the host, and how its response reports that. Every
part of it adds to the log of the calls, so a run is followed by what it adds: the
query of the unit, at most one start, the polls of the server and the lookup of
the unit. A start timeout whose end is no `Instant` makes the run panic.
-/

namespace LlmWakeProxy.Helper
open LlmWakeProxy.Library
open PanicM (bind_eq_some bind_run pure_eq_some)
open LlmWakeProxy.Forward (Text Value)
open LlmWakeProxy.Lifecycle (Instant Duration instantLimit)

universe u
variable {ν : Type u} {σ : Type} {config : HelperConfig} {services : Services ν σ}
variable {target : Target} {modelAlias modelPath : Text} {session session' : Session σ}
variable {response : EnsureStartedResponse}

/-- The unit that a call queries. -/
def HostCall.queried : HostCall → Option String
  | .isActive unit _ => some unit
  | _ => none

/-- The unit that a call starts. -/
def HostCall.started : HostCall → Option String
  | .startUnit unit _ => some unit
  | _ => none

/-- The address that a call probes. -/
def HostCall.probed : HostCall → Option String
  | .getText url _ => some url
  | _ => none

/-- The unit was found active. -/
def FoundActive (calls : List HostCall) : Prop :=
  ∃ unit, .isActive unit (.ok true) ∈ calls

/-- The unit was started. -/
def Started (calls : List HostCall) : Prop :=
  ∃ unit, .startUnit unit (.ok ()) ∈ calls

/-- The calls of a run and its response fit together. -/
structure Faithful (config : HelperConfig) (target : Target) (calls : List HostCall)
    (response : EnsureStartedResponse) : Prop where
  queriedOnce : calls.filterMap HostCall.queried = [config.unitFor target]
  startsInactive : calls.filterMap HostCall.started ≠ [] ↔ ¬ FoundActive calls
  startsOnce : (calls.filterMap HostCall.started).length ≤ 1
  startsUnit : ∀ unit ∈ calls.filterMap HostCall.started, unit = config.unitFor target
  probesPort : ∀ url ∈ calls.filterMap HostCall.probed,
    url = buildServerUrl (config.portFor target) "/v1/models"
  ok : response.status = .ok ↔ response.serverReady = true ∧ response.modelVerified = true
  mismatch : response.status = .mismatch →
    response.serverReady = true ∧ response.modelVerified = false
  triggered : response.startupTriggered = true ↔ Started calls
  named : response.Names (config.unitFor target)

/-! ### What the parts add to the log -/

/-- The session went on by these calls, latest first. -/
def Session.Adds (session : Session σ) (calls : List HostCall) (session' : Session σ) : Prop :=
  session'.calls = calls ++ session.calls

theorem Session.Adds.trans {session'' : Session σ} {calls calls' : List HostCall}
    (h : session.Adds calls session') (h' : session'.Adds calls' session'') :
    session.Adds (calls' ++ calls) session'' := by
  unfold Session.Adds at *
  rw [h', h, List.append_assoc]

/-- The calls of `startInactive`, with its result. -/
inductive StartCalls (unit : String) : Except String Bool → List HostCall → Prop
  | active : StartCalls unit (.ok false) [.isActive unit (.ok true)]
  | started (answer : Except String Bool) (inactive : answer ≠ .ok true) :
      StartCalls unit (.ok true) [.startUnit unit (.ok ()), .isActive unit answer]
  | failed (answer : Except String Bool) (inactive : answer ≠ .ok true) (e : String) :
      StartCalls unit (.error e) [.startUnit unit (.error e), .isActive unit answer]

theorem call_cases {ρ : Type} {service : σ → ρ × σ} {record : ρ → HostCall} {answer : ρ}
    (h : call service record session = (some answer, session')) :
    service session.host = (answer, session'.host) ∧ session.Adds [record answer] session' := by
  cases h
  exact ⟨rfl, rfl⟩

theorem eprintln_cases {line : String} {out : Unit}
    (h : eprintln line session = (some out, session')) :
    session'.host = session.host ∧ session.Adds [] session' := by
  cases h
  exact ⟨rfl, rfl⟩

theorem checkActive_calls {unit : String} {active : Bool}
    (h : checkActive services unit session = (some active, session')) :
    ∃ answer, services.isActive unit session.host = (answer, session'.host) ∧
      session.Adds [.isActive unit answer] session' ∧ (active = true ↔ answer = .ok true) := by
  obtain ⟨answer, next, hcall, hrest⟩ := bind_eq_some.mp h
  obtain ⟨hanswer, adds⟩ := call_cases hcall
  refine ⟨answer, ?_⟩
  cases answer with
  | ok found =>
      cases pure_eq_some.mp hrest
      exact ⟨hanswer, adds, by simp⟩
  | error e =>
      obtain ⟨out, printed, hprint, hpure⟩ := bind_eq_some.mp hrest
      cases pure_eq_some.mp hpure
      obtain ⟨hhost, prints⟩ := eprintln_cases hprint
      exact ⟨hhost ▸ hanswer, adds.trans prints, by simp⟩

/-- The start timeout, counted from here, ends at an `Instant`. -/
def TimeoutFits (config : HelperConfig) (services : Services ν σ) (host : σ) : Prop :=
  services.now host + Duration.fromSecs config.serverStartTimeoutSecs < instantLimit

instance (config : HelperConfig) (services : Services ν σ) (host : σ) :
    Decidable (TimeoutFits config services host) :=
  inferInstanceAs (Decidable (_ < _))

/-- The unit cannot be started, or the start timeout ends at an `Instant`. -/
def StartFits (config : HelperConfig) (services : Services ν σ) (unit : String) (host : σ) :
    Prop :=
  match services.isActive unit host with
  | (.ok true, host) => TimeoutFits config services host
  | (_, host) =>
      match services.startUnit unit host with
      | (.ok (), host) => TimeoutFits config services host
      | (.error _, _) => True

theorem startInactive_calls (config : HelperConfig) {unit : String} {started : Except String Bool}
    (h : startInactive services unit session = (some started, session')) :
    ∃ calls, session.Adds calls session' ∧ StartCalls unit started calls ∧
      (StartFits config services unit session.host ↔
        (started.isOk = true → TimeoutFits config services session'.host)) := by
  obtain ⟨active, next, hchecked, hrest⟩ := bind_eq_some.mp h
  obtain ⟨answer, hanswer, adds, hactive⟩ := checkActive_calls hchecked
  cases active with
  | true =>
      cases pure_eq_some.mp hrest
      cases hactive.mp rfl
      exact ⟨_, adds, .active, by simp [StartFits, hanswer, Except.isOk, Except.toBool]⟩
  | false =>
      have inactive : answer ≠ .ok true := fun hok => Bool.false_ne_true (hactive.mpr hok)
      obtain ⟨out, printed, hprint, hrest⟩ := bind_eq_some.mp hrest
      obtain ⟨hhost, prints⟩ := eprintln_cases hprint
      obtain ⟨result, last, hcall, hrest⟩ := bind_eq_some.mp hrest
      obtain ⟨hresult, starts⟩ := call_cases hcall
      rw [hhost] at hresult
      have fits : StartFits config services unit session.host ↔
          match services.startUnit unit next.host with
          | (.ok (), host) => TimeoutFits config services host
          | (.error _, _) => True := by
        unfold StartFits
        rw [hanswer]
        split
        next heq =>
          cases heq
          exact absurd rfl inactive
        next heq =>
          cases heq
          exact Iff.rfl
      cases result with
      | ok _ =>
          cases pure_eq_some.mp hrest
          exact ⟨_, (adds.trans prints).trans starts, .started answer inactive, by
            simp [fits, hresult, Except.isOk, Except.toBool]⟩
      | error e =>
          cases pure_eq_some.mp hrest
          exact ⟨_, (adds.trans prints).trans starts, .failed answer inactive e, by
            simp [fits, hresult, Except.isOk, Except.toBool]⟩

/-! ### The parts that only look -/

/-- The computation has a result, and makes only calls of this kind. -/
def Makes {α : Type} (kind : HostCall → Prop) (x : HelperM σ α) : Prop :=
  ∀ session, ∃ a session' calls, x session = (some a, session') ∧ session.Adds calls session' ∧
    ∀ call ∈ calls, kind call

section Makes
variable {α β : Type} {kind : HostCall → Prop} {x : HelperM σ α}

theorem Makes.pure (a : α) : Makes kind (pure a : HelperM σ α) :=
  fun session => ⟨a, session, [], rfl, rfl, by simp⟩

theorem Makes.bind {f : α → HelperM σ β} (hx : Makes kind x) (hf : ∀ a, Makes kind (f a)) :
    Makes kind (x >>= f) := by
  intro session
  obtain ⟨a, next, first, hrun, adds, hfirst⟩ := hx session
  obtain ⟨b, last, second, hrun', adds', hsecond⟩ := hf a next
  refine ⟨b, last, second ++ first, bind_eq_some.mpr ⟨a, next, hrun, hrun'⟩, adds.trans adds', ?_⟩
  intro call hcall
  cases List.mem_append.mp hcall with
  | inl hmem => exact hsecond call hmem
  | inr hmem => exact hfirst call hmem

theorem Makes.call {ρ : Type} {service : σ → ρ × σ} {record : ρ → HostCall}
    (h : ∀ answer, kind (record answer)) : Makes kind (call service record) :=
  fun _ => ⟨_, _, [record _], rfl, rfl, by simpa using h _⟩

theorem Makes.now : Makes kind (now services) :=
  fun session => ⟨_, session, [], rfl, rfl, by simp⟩

theorem Makes.sleep {span : Duration} : Makes kind (sleep services span) :=
  fun _ => ⟨(), _, [], rfl, rfl, by simp⟩

theorem Makes.eprintln {line : String} : Makes kind (eprintln line : HelperM σ Unit) :=
  fun _ => ⟨(), _, [], rfl, rfl, by simp⟩

theorem Makes.runs (h : Makes kind x) : x.Returns := by
  intro session
  obtain ⟨a, session', _, hrun, _⟩ := h session
  exact ⟨a, session', hrun⟩

theorem Makes.isSome (h : Makes kind x) (session : Session σ) : (x session).1.isSome = true :=
  PanicM.isSome_iff.mpr (h.runs session)

theorem Makes.get : Makes kind (.get : HelperM σ (Session σ)) :=
  fun session => ⟨session, session, [], rfl, rfl, by simp⟩

theorem Makes.adds {result : Option α} (h : Makes kind x) (hrun : x session = (result, session')) :
    ∃ calls, session.Adds calls session' ∧ ∀ call ∈ calls, kind call := by
  obtain ⟨a', last, calls, hrun', adds⟩ := h session
  cases hrun.symm.trans hrun'
  exact ⟨calls, adds⟩

end Makes

/-- A probe of the server, or a lookup of the unit. -/
def Looks (port : UInt16) (unit : String) (call : HostCall) : Prop :=
  call.probed = some (buildServerUrl port "/v1/models") ∨ ∃ answer, call = .showUnit unit answer

section Looks
variable {port : UInt16} {unit : String}

theorem makes_isServerAlive : Makes (Looks port unit) (isServerAlive services port) :=
  .bind (.call fun _ => .inl rfl) fun _ => .pure _

theorem makes_pollServer (services : Services ν σ) (port : UInt16) (unit : String)
    (deadline : Instant) (rounds : Nat) :
    Makes (Looks port unit) (pollServer services port deadline rounds) := by
  induction rounds with
  | zero => exact .pure false
  | succ rounds ih =>
      refine .bind .now fun time => ?_
      split
      next => exact .pure false
      next =>
        refine .bind makes_isServerAlive fun alive => ?_
        split
        next => exact .pure true
        next => exact .bind .sleep fun _ => ih

theorem makes_checkModelIdentity (services : Services ν σ) (port : UInt16) (unit : String) :
    Makes (Looks port unit) (checkModelIdentity services port) :=
  .bind (.call fun _ => .inl rfl) fun _ => .pure _

theorem makes_collectUnitInfo (services : Services ν σ) (port : UInt16) (unit : String) :
    Makes (Looks port unit) (collectUnitInfo services unit) := by
  refine .bind (.call fun answer => .inr ⟨answer, rfl⟩) fun answer => ?_
  cases answer with
  | ok props => exact .pure _
  | error e => exact .pure _

theorem isServerAlive_run (services : Services ν σ) (port : UInt16) (session : Session σ) :
    ∃ alive next, isServerAlive services port session = (some alive, next) ∧
      services.now session.host ≤ services.now next.host :=
  ⟨_, _, rfl, services.now_getText _ _⟩

theorem now_run (services : Services ν σ) (session : Session σ) :
    now services session = (some (services.now session.host), session) := rfl

theorem pollServer_late {deadline : Instant} (late : deadline ≤ services.now session.host)
    (rounds : Nat) : pollServer services port deadline rounds session = (some false, session) := by
  cases rounds with
  | zero => rfl
  | succ rounds => exact bind_eq_some.mpr ⟨_, _, rfl, by rw [if_pos late]; rfl⟩

theorem pollServer_round {deadline : Instant} {next : Session σ} {alive : Bool}
    (early : ¬ deadline ≤ services.now session.host)
    (answered : isServerAlive services port session = (some alive, next)) (rounds : Nat) :
    pollServer services port deadline (rounds + 1) session =
      if alive = true then (some true, next)
      else pollServer services port deadline rounds
        { next with host := services.sleep (Duration.fromMillis pollMillis) next.host } := by
  conv_lhs => unfold pollServer
  rw [bind_run (now_run services session), if_neg early, bind_run answered]
  cases alive with
  | true => rfl
  | false => rfl

theorem within_rounds {deadline now now' now'' span left : Nat}
    (enough : deadline ≤ now + (left + span)) (later : now ≤ now') (slept : now' + span ≤ now'') :
    deadline ≤ now'' + left := by
  omega

/-- A round lasts at least the poll interval, so rounds beyond the deadline change
nothing. -/
theorem pollServer_more {deadline : Instant} {rounds : Nat} (extra : Nat)
    (enough : deadline ≤ services.now session.host + rounds * Duration.fromMillis pollMillis) :
    pollServer services port deadline (rounds + extra) session =
      pollServer services port deadline rounds session := by
  induction rounds generalizing session with
  | zero =>
      have late : deadline ≤ services.now session.host := by simpa using enough
      rw [pollServer_late late, pollServer_late late]
  | succ rounds ih =>
      rw [Nat.add_right_comm]
      by_cases late : deadline ≤ services.now session.host
      · rw [pollServer_late late, pollServer_late late]
      · obtain ⟨alive, next, answered, later⟩ := isServerAlive_run services port session
        rw [pollServer_round late answered, pollServer_round late answered]
        cases alive with
        | true => rfl
        | false =>
            have slept := services.now_sleep (Duration.fromMillis pollMillis) next.host
            rw [Nat.add_mul, Nat.one_mul] at enough
            exact ih (within_rounds enough later slept)

/-- The wait panics exactly when the start timeout ends at no `Instant`. Otherwise
it polls to the deadline, in however many rounds. -/
theorem waitForServer_eq {rounds : Nat} (enough : 2 * config.serverStartTimeoutSecs.toNat ≤ rounds)
    (session : Session σ) :
    waitForServer services port config.serverStartTimeoutSecs session =
      if TimeoutFits config services session.host then
        pollServer services port
          (services.now session.host + Duration.fromSecs config.serverStartTimeoutSecs) rounds
          session
      else (none, session) := by
  obtain ⟨extra, rfl⟩ := Nat.exists_eq_add_of_le enough
  rw [pollServer_more]
  · unfold waitForServer
    rw [bind_run (now_run services session)]
    by_cases fits : TimeoutFits config services session.host
    · rw [if_pos fits, Instant.add?, if_pos (show _ < instantLimit from fits)]
    · rw [if_neg fits, Instant.add?, if_neg (show ¬ _ < instantLimit from fits)]
      rfl
  · have halves : Duration.fromSecs config.serverStartTimeoutSecs =
        2 * config.serverStartTimeoutSecs.toNat * Duration.fromMillis pollMillis :=
      (Nat.mul_right_comm 2 _ 500000000).symm
    rw [halves]

theorem waitForServer_isSome (port : UInt16) (session : Session σ) :
    (waitForServer services port config.serverStartTimeoutSecs session).1.isSome = true ↔
      TimeoutFits config services session.host := by
  rw [waitForServer_eq (Nat.le_refl _)]
  split
  next fits =>
    have polls := makes_pollServer services port ""
      (services.now session.host + Duration.fromSecs config.serverStartTimeoutSecs)
      (2 * config.serverStartTimeoutSecs.toNat)
    obtain ⟨ready, session', hrun⟩ := polls.runs session
    simp [fits, hrun]
  next late => simp [late]

theorem makes_waitForServer {ready : Bool}
    (h : waitForServer services port config.serverStartTimeoutSecs session =
      (some ready, session')) :
    ∃ calls, session.Adds calls session' ∧ ∀ call ∈ calls, Looks port unit call := by
  rw [waitForServer_eq (Nat.le_refl _)] at h
  split at h
  next => exact (makes_pollServer _ _ _ _ _).adds h
  next => cases h

end Looks

/-! ### The whole run -/

theorem startInactive_runs (services : Services ν σ) (unit : String) (session : Session σ) :
    ∃ started session', startInactive services unit session = (some started, session') := by
  have checks : Makes (fun _ => True) (checkActive services unit) := by
    refine .bind (.call fun _ => trivial) fun answer => ?_
    cases answer with
    | ok active => exact .pure _
    | error e => exact .bind .eprintln fun _ => .pure _
  have starts : Makes (fun _ => True) (startInactive services unit) := by
    refine .bind checks fun active => ?_
    cases active with
    | true => exact .pure _
    | false =>
        refine .bind .eprintln fun _ => .bind (.call fun _ => trivial) fun answer => ?_
        cases answer with
        | ok _ => exact .pure _
        | error e => exact .pure _
  exact starts.runs session

theorem isSome_bind {α β : Type} {x : HelperM σ α} {f : α → HelperM σ β} {a : α}
    (hx : x session = (some a, session')) :
    ((x >>= f) session).1.isSome = (f a session').1.isSome := by
  rw [bind_run hx]

theorem ensureStarted_isSome :
    (ensureStarted config services target modelAlias modelPath session).1.isSome = true ↔
      StartFits config services (config.unitFor target) session.host := by
  obtain ⟨started, next, hstarted⟩ := startInactive_runs services (config.unitFor target) session
  obtain ⟨calls, _, _, fits⟩ := startInactive_calls config hstarted
  rw [fits]
  constructor
  · intro hsome hok
    obtain ⟨response, session', hrun⟩ := PanicM.isSome_iff.mp hsome
    rw [← waitForServer_isSome (config.portFor target)]
    cases (ensureStarted_cases hrun).1 with
    | startFailed e failed =>
        cases hstarted.symm.trans failed
        cases hok
    | notReady _ _ _ _ triggered waited | checked _ _ _ _ _ _ triggered waited =>
        cases hstarted.symm.trans triggered
        exact PanicM.isSome_iff.mpr ⟨_, _, waited⟩
  · intro htimeout
    cases started with
    | error e => exact isSome_bind hstarted
    | ok triggered =>
        obtain ⟨ready, waited, hwaited⟩ := PanicM.isSome_iff.mp
          ((waitForServer_isSome (config.portFor target) next).mpr (htimeout rfl))
        refine (isSome_bind hstarted).trans ((isSome_bind hwaited).trans ?_)
        have collects := makes_collectUnitInfo services (config.portFor target)
          (config.unitFor target)
        cases ready with
        | false => exact (collects.bind fun _ => .pure _).isSome waited
        | true =>
            refine Makes.isSome (.bind (makes_checkModelIdentity services _ (config.unitFor target))
              fun identity => ?_) waited
            match identity with
            | .error e | .ok none => exact collects.bind fun _ => .pure _
            | .ok (some id) =>
                simp only
                split <;> exact collects.bind fun _ => .pure _

/-- Calls that only look query and start nothing. -/
theorem looks_silent {port : UInt16} {unit : String} {calls : List HostCall}
    (h : ∀ call ∈ calls, Looks port unit call) :
    calls.filterMap HostCall.queried = [] ∧ calls.filterMap HostCall.started = [] ∧
      (∀ url ∈ calls.filterMap HostCall.probed, url = buildServerUrl port "/v1/models") ∧
      ¬ FoundActive calls ∧ ¬ Started calls := by
  refine ⟨List.filterMap_eq_nil_iff.mpr ?_, List.filterMap_eq_nil_iff.mpr ?_, ?_, ?_, ?_⟩
  · intro call hcall
    obtain hprobed | ⟨answer, rfl⟩ := h call hcall
    · cases call <;> simp_all [HostCall.probed, HostCall.queried]
    · rfl
  · intro call hcall
    obtain hprobed | ⟨answer, rfl⟩ := h call hcall
    · cases call <;> simp_all [HostCall.probed, HostCall.started]
    · rfl
  · intro url hurl
    obtain ⟨call, hcall, hprobes⟩ := List.mem_filterMap.mp hurl
    obtain hprobed | ⟨answer, rfl⟩ := h call hcall
    · exact Option.some.inj (hprobes.symm.trans hprobed)
    · cases hprobes
  · rintro ⟨unit', hcall⟩
    simpa [Looks, HostCall.probed] using h _ hcall
  · rintro ⟨unit', hcall⟩
    simpa [Looks, HostCall.probed] using h _ hcall

theorem StartCalls.starts_iff {unit : String} {result : Except String Bool}
    {starts : List HostCall} (h : StartCalls unit result starts) :
    starts.filterMap HostCall.started ≠ [] ↔ ¬ FoundActive starts := by
  cases h with
  | active => simp [FoundActive, HostCall.started]
  | started answer inactive | failed answer inactive e =>
      simp [FoundActive, HostCall.started, inactive.symm]

/-- The parts of a run make up a faithful one. -/
theorem faithful_of {result : Except String Bool} {looks starts : List HostCall}
    {status : HelperStatus} {triggered ready verified : Bool}
    (hstarts : StartCalls (config.unitFor target) result starts)
    (hlooks : ∀ call ∈ looks, Looks (config.portFor target) (config.unitFor target) call)
    (flags : response.flags = (status, triggered, ready, verified))
    (htriggered : triggered = true ↔ result = .ok true)
    (ok : status = .ok ↔ ready = true ∧ verified = true)
    (mismatch : status = .mismatch → ready = true ∧ verified = false)
    (named : response.Names (config.unitFor target)) :
    Faithful config target (looks ++ starts) response := by
  obtain ⟨queried, started, probed, active, start⟩ := looks_silent hlooks
  cases flags
  have found : FoundActive (looks ++ starts) ↔ FoundActive starts := by
    simp only [FoundActive, List.mem_append, exists_or] at active ⊢
    simp [active]
  have startedIn : Started (looks ++ starts) ↔ Started starts := by
    simp only [Started, List.mem_append, exists_or] at start ⊢
    simp [start]
  have unprobed : starts.filterMap HostCall.probed = [] := by
    cases hstarts <;> rfl
  refine ⟨?_, ?_, ?_, ?_, ?_, ok, mismatch, ?_, named⟩
  · rw [List.filterMap_append, queried]
    cases hstarts <;> rfl
  · rw [List.filterMap_append, started, found]
    exact hstarts.starts_iff
  · rw [List.filterMap_append, started]
    cases hstarts with
    | active => exact Nat.zero_le 1
    | started | failed => exact Nat.le_refl 1
  · rw [List.filterMap_append, started]
    cases hstarts <;> simp [HostCall.started]
  · rwa [List.filterMap_append, unprobed, List.append_nil]
  · rw [htriggered, startedIn]
    cases hstarts <;> simp [Started]

theorem ensureStarted_calls
    (h : ensureStarted config services target modelAlias modelPath session =
      (some response, session')) :
    ∃ calls, session.Adds calls session' ∧ Faithful config target calls response := by
  obtain ⟨rule, named⟩ := ensureStarted_cases h
  cases rule with
  | startFailed e started flags =>
      obtain ⟨starts, adds, hstarts, _⟩ := startInactive_calls config started
      have looks : ∀ call ∈ ([] : List HostCall),
          Looks (config.portFor target) (config.unitFor target) call := by simp
      have faithful := faithful_of hstarts looks flags (by simp) (by simp) (by simp) named
      exact ⟨starts, adds, faithful⟩
  | notReady triggered info s₁ s₂ started waited collected flags =>
      obtain ⟨starts, adds, hstarts, _⟩ := startInactive_calls config started
      obtain ⟨polls, waits, hpolls⟩ := makes_waitForServer waited
      obtain ⟨shows, looksUp, hshows⟩ := (makes_collectUnitInfo services _ _).adds collected
      refine ⟨_, (adds.trans waits).trans looksUp, ?_⟩
      rw [← List.append_assoc]
      exact faithful_of hstarts (List.forall_mem_append.mpr ⟨hshows, hpolls⟩) flags (by simp)
        (by simp) (by simp) named
  | checked triggered identity info s₁ s₂ s₃ started waited reported collected flags =>
      obtain ⟨starts, adds, hstarts, _⟩ := startInactive_calls config started
      obtain ⟨polls, waits, hpolls⟩ := makes_waitForServer waited
      obtain ⟨checks, asks, hchecks⟩ := (makes_checkModelIdentity services _ _).adds reported
      obtain ⟨shows, looksUp, hshows⟩ := (makes_collectUnitInfo services _ _).adds collected
      refine ⟨_, ((adds.trans waits).trans asks).trans looksUp, ?_⟩
      rw [← List.append_assoc, ← List.append_assoc]
      have looks := List.forall_mem_append.mpr
        ⟨List.forall_mem_append.mpr ⟨hshows, hchecks⟩, hpolls⟩
      obtain ⟨_, _, _, flags⟩ | ⟨_, _, _, flags⟩ | ⟨_, flags⟩ := flags
      · exact faithful_of hstarts looks flags (by simp) (by simp) (by simp) named
      · exact faithful_of hstarts looks flags (by simp) (by simp) (by simp) named
      · exact faithful_of hstarts looks flags (by simp) (by simp) (by simp) named

/-- A run that panics has come no further than to the wait for the server. -/
theorem ensureStarted_panicked
    (h : ensureStarted config services target modelAlias modelPath session = (none, session')) :
    ∃ triggered,
      startInactive services (config.unitFor target) session = (some (.ok triggered), session') := by
  obtain ⟨started, next, hstarted⟩ := startInactive_runs services (config.unitFor target) session
  obtain ⟨calls, _, _, fits⟩ := startInactive_calls config hstarted
  have late : ¬ StartFits config services (config.unitFor target) session.host := by
    rw [← ensureStarted_isSome, h]
    exact Bool.false_ne_true
  rw [fits] at late
  obtain ⟨isOk, expired⟩ := Classical.not_imp.mp late
  cases started with
  | error e => cases isOk
  | ok triggered =>
      have waits : waitForServer services (config.portFor target) config.serverStartTimeoutSecs
          next = (none, next) := by
        rw [waitForServer_eq (Nat.le_refl _), if_neg expired]
      rw [ensureStarted, bind_run hstarted] at h
      cases (PanicM.bind_panicked waits).symm.trans h
      exact ⟨triggered, hstarted⟩

/-- Every run starts the target's unit at most once, and no other. -/
theorem ensureStarted_starts {result : Option EnsureStartedResponse}
    (h : ensureStarted config services target modelAlias modelPath session = (result, session')) :
    ∃ calls, session.Adds calls session' ∧ (calls.filterMap HostCall.started).length ≤ 1 ∧
      ∀ unit ∈ calls.filterMap HostCall.started, unit = config.unitFor target := by
  cases result with
  | some response =>
      obtain ⟨calls, adds, faithful⟩ := ensureStarted_calls h
      exact ⟨calls, adds, faithful.startsOnce, faithful.startsUnit⟩
  | none =>
      obtain ⟨triggered, started⟩ := ensureStarted_panicked h
      obtain ⟨calls, adds, hstarts, _⟩ := startInactive_calls config started
      refine ⟨calls, adds, ?_, ?_⟩
      · cases hstarts with
        | active => exact Nat.zero_le 1
        | started => exact Nat.le_refl 1
      · cases hstarts <;> simp [HostCall.started]

/-- Whatever the host answers, `ensure_started` returns a response, and the
response and the calls fit together, exactly when the start timeout fits. -/
theorem ensureStarted_faithful_iff (config : HelperConfig) (services : Services ν σ)
    (target : Target) (modelAlias modelPath : Text) (session : Session σ) :
    (∃ response session' calls,
      ensureStarted config services target modelAlias modelPath session =
        (some response, session') ∧
      session.Adds calls session' ∧ Faithful config target calls response) ↔
    StartFits config services (config.unitFor target) session.host := by
  rw [← ensureStarted_isSome]
  constructor
  · rintro ⟨response, session', _, hrun, _⟩
    exact PanicM.isSome_iff.mpr ⟨_, _, hrun⟩
  · intro hsome
    obtain ⟨response, session', hrun⟩ := PanicM.isSome_iff.mp hsome
    obtain ⟨calls, adds, faithful⟩ := ensureStarted_calls hrun
    exact ⟨response, session', calls, hrun, adds, faithful⟩

/-- The longest start timeout that can be configured. -/
def longestTimeout : HelperConfig :=
  { HelperConfig.default with serverStartTimeoutSecs := 18446744073709551615 }

/-- With that timeout the run panics, and there is no response. -/
theorem longest_timeout_panics :
    ¬ ∃ response session' calls,
      ensureStarted longestTimeout (reporting []) .chat [] [] fresh =
        (some response, session') ∧
      fresh.Adds calls session' ∧ Faithful longestTimeout .chat calls response := by
  rintro ⟨response, session', _, hrun, _⟩
  have fits := ensureStarted_isSome.mp (PanicM.isSome_iff.mpr ⟨_, _, hrun⟩)
  exact absurd (show TimeoutFits longestTimeout (reporting []) 0 from fits) (by decide)

end LlmWakeProxy.Helper
