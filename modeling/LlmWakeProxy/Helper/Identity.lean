import LlmWakeProxy.Library.FileName
import LlmWakeProxy.Helper.Rules

/-!
The verification of the served model. The identifier the server reports is
accepted when it contains the expected path or is contained in it. That accepts
identifiers which name another file, or none: two paths of which one is a part of
the other, and the empty identifier.
-/

namespace LlmWakeProxy.Helper
open LlmWakeProxy.Library
open PanicM (bind_eq_some bind_run pure_eq_some)
open LlmWakeProxy.Forward (Text Value)
open LlmWakeProxy.Lifecycle (Instant Duration)

universe u
variable {ν : Type u} {σ : Type} {config : HelperConfig} {services : Services ν σ}
variable {target : Target} {modelAlias modelPath : Text} {session session' : Session σ}
variable {response : EnsureStartedResponse}

/-- The body of the latest HTTP answer of the session. -/
def Session.latestBody (session : Session σ) : Option (Except String Text) :=
  session.calls.findSome? fun
    | .getText _ answer => some answer
    | _ => none

/-- The identifier that the server reported last. -/
def Session.reportedId (services : Services ν σ) (session : Session σ) : Option Text :=
  session.latestBody.bind fun body =>
    match modelIdentity services body with
    | .ok reported => reported
    | .error _ => none

/-- The two texts name the same model file. -/
def SameModelFile (expected reported : Text) : Prop :=
  reported ≠ [] ∧ (reported = expected ∨ FileName.Names reported expected ∨
    FileName.Names expected reported)

instance (expected reported : Text) : Decidable (SameModelFile expected reported) :=
  inferInstanceAs (Decidable (_ ∧ _))

theorem latestBody_collectUnitInfo {unit : String} {info : Option UnitInfo}
    (h : collectUnitInfo services unit session = (some info, session')) :
    session'.latestBody = session.latestBody := by
  obtain ⟨answer, next, hcall, hrest⟩ := bind_eq_some.mp h
  cases hcall
  generalize (services.showUnit unit session.host).1 = shown at hrest
  cases shown with
  | ok _ | error _ =>
      cases pure_eq_some.mp hrest
      rfl

theorem checkModelIdentity_cases {port : UInt16} {identity : Except String (Option Text)}
    (h : checkModelIdentity services port session = (some identity, session')) :
    ∃ body, session'.latestBody = some body ∧ modelIdentity services body = identity := by
  obtain ⟨answer, next, hcall, hrest⟩ := bind_eq_some.mp h
  cases hcall
  cases pure_eq_some.mp hrest
  exact ⟨_, rfl, rfl⟩

/-- A verified model is one whose reported identifier passed the substring test. -/
theorem modelMatches_of_verified {reported : Text}
    (h : ensureStarted config services target modelAlias modelPath session =
      (some response, session'))
    (hreported : session'.reportedId services = some reported)
    (status : response.status = .ok) : modelMatches modelPath reported = true := by
  cases (ensureStarted_cases h).1 with
  | startFailed e _ flags =>
      rw [show response.status = .error from congrArg Prod.fst flags] at status
      cases status
  | notReady _ _ _ _ _ _ _ flags =>
      rw [show response.status = .error from congrArg Prod.fst flags] at status
      cases status
  | checked _ identity info _ _ s₃ _ _ checked collected flags =>
      obtain ⟨body, hbody, hidentity⟩ := checkModelIdentity_cases checked
      rw [Session.reportedId, latestBody_collectUnitInfo collected, hbody, Option.bind_some,
        hidentity] at hreported
      obtain ⟨id, rfl, hmatches, _⟩ | ⟨id, _, _, flags⟩ | ⟨_, flags⟩ := flags
      · cases hreported
        exact hmatches
      · rw [show response.status = .mismatch from congrArg Prod.fst flags] at status
        cases status
      · rw [show response.status = .error from congrArg Prod.fst flags] at status
        cases status

/-! ### A host that reports a given identifier -/

/-- The unit is active, the server answers at once, and its only model has the
identifier. The state of the host is its clock. -/
def reporting (reported : Text) : Services Empty Nat where
  isActive _ clock := (.ok true, clock)
  startUnit _ clock := (.ok (), clock)
  showUnit _ clock := (.ok fun _ => none, clock)
  getText _ clock := (.ok [], clock)
  fromStr _ := .ok (.object [("data".toList, .array [.object [("id".toList, .string reported)]])])
  now clock := clock
  sleep span clock := clock + span
  now_getText _ _ := Nat.le_refl _
  now_sleep _ _ := Nat.le_refl _

def fresh : Session Nat where
  host := 0
  calls := []
  stderr := ""

/-- A server that answers the first poll is up. -/
theorem waitForServer_of_alive {port : UInt16} {timeoutSecs : UInt64} {deadline rounds : Nat}
    {next : Session σ}
    (due : Instant.add? (services.now session.host) (Duration.fromSecs timeoutSecs) = some deadline)
    (early : services.now session.host < deadline) (some_round : 2 * timeoutSecs.toNat = rounds + 1)
    (alive : isServerAlive services port session = (some true, next)) :
    waitForServer services port timeoutSecs session = (some true, next) := by
  refine bind_eq_some.mpr ⟨_, _, rfl, ?_⟩
  simp only [due, some_round, pollServer]
  refine bind_eq_some.mpr ⟨_, _, rfl, ?_⟩
  rw [if_neg (Nat.not_le.mpr early)]
  exact bind_eq_some.mpr ⟨_, _, alive, rfl⟩

/-- The response of that host when the identifier passes. -/
def verifiedResponse (target : Target) (modelAlias modelPath : Text) : EnsureStartedResponse where
  status := .ok
  message := "model is already running and ready"
  modelAlias := modelAlias
  modelPath := modelPath
  startupTriggered := false
  serverReady := true
  modelVerified := true
  llamaServer := some { unitName := HelperConfig.default.unitFor target
                        activeState := "unknown"
                        subState := "unknown"
                        description := "" }

theorem reporting_verified {reported : Text} (target : Target) (modelAlias : Text)
    (h : modelMatches modelPath reported = true) :
    ∃ session', ensureStarted .default (reporting reported) target modelAlias modelPath fresh =
        (some (verifiedResponse target modelAlias modelPath), session') ∧
      session'.reportedId (reporting reported) = some reported := by
  let unit := HelperConfig.default.unitFor target
  let url := buildServerUrl (HelperConfig.default.portFor target) "/v1/models"
  let asked : Session Nat := { fresh with calls := [.isActive unit (.ok true)] }
  let answered : Session Nat := { asked with calls := .getText url (.ok []) :: asked.calls }
  let checked : Session Nat := { answered with calls := .getText url (.ok []) :: answered.calls }
  have started : startInactive (reporting reported) unit fresh = (some (.ok false), asked) := rfl
  have due : Instant.add? 0 (Duration.fromSecs HelperConfig.default.serverStartTimeoutSecs) =
      some (60 * Lifecycle.nanosPerSec) := by decide
  have early : 0 < 60 * Lifecycle.nanosPerSec := by decide
  have rounds : 2 * HelperConfig.default.serverStartTimeoutSecs.toNat = 119 + 1 := rfl
  have waited : waitForServer (reporting reported) (HelperConfig.default.portFor target)
      HelperConfig.default.serverStartTimeoutSecs asked = (some true, answered) :=
    waitForServer_of_alive due early rounds rfl
  have identified : checkModelIdentity (reporting reported) (HelperConfig.default.portFor target)
      answered = (some (.ok (some reported)), checked) := rfl
  let final : Session Nat :=
    { checked with calls := .showUnit unit (.ok fun _ => none) :: checked.calls }
  refine ⟨final, ?_, rfl⟩
  rw [ensureStarted, bind_run started]
  refine (bind_run waited).trans ((bind_run identified).trans ?_)
  simp only [h, if_true]
  exact bind_eq_some.mpr ⟨_, _, rfl, rfl⟩

/-- Whatever host reports the identifier for the expected path, it is verified only
if both name the same file. -/
def VerifiedOnlyIfSame (expected reported : Text) : Prop :=
  ∀ (ν σ : Type) (config : HelperConfig) (services : Services ν σ) (target : Target)
    (modelAlias : Text) (session session' : Session σ) (response : EnsureStartedResponse),
    ensureStarted config services target modelAlias expected session = (some response, session') →
    session'.reportedId services = some reported →
    response.status = .ok → response.modelVerified = true → SameModelFile expected reported

theorem not_verifiedOnlyIfSame {expected reported : Text}
    (hmatches : modelMatches expected reported = true) (other : ¬ SameModelFile expected reported) :
    ¬ VerifiedOnlyIfSame expected reported := by
  intro claim
  obtain ⟨session', hrun, hreported⟩ := reporting_verified .chat [] hmatches
  exact other (claim Empty Nat _ _ _ _ _ _ _ hrun hreported rfl rfl)

/-- No host is taken for one that serves the expected model exactly when neither
text is a part of the other, or one stands in the other as its file name. -/
theorem verifiedOnlyIfSame_iff (expected reported : Text) :
    VerifiedOnlyIfSame expected reported ↔
      (¬ reported <:+: expected ∧ ¬ expected <:+: reported) ∨
        (reported ≠ [] ∧ (reported = expected ∨ FileName.StandsIn reported expected ∨
          FileName.StandsIn expected reported)) := by
  simp only [← FileName.names_iff]
  constructor
  · intro h
    cases hmatches : modelMatches expected reported with
    | true =>
        refine .inr ?_
        by_contra other
        exact not_verifiedOnlyIfSame hmatches other h
    | false =>
        obtain ⟨hexpected, hreported⟩ : ¬ expected <:+: reported ∧ ¬ reported <:+: expected := by
          simpa [modelMatches] using hmatches
        exact .inl ⟨hreported, hexpected⟩
  · rintro (⟨hreported, hexpected⟩ | same) ν σ config services target modelAlias session session'
      response hrun hid hstatus _
    · have hmatches := modelMatches_of_verified hrun hid hstatus
      simp [modelMatches, hreported, hexpected] at hmatches
    · exact same

/-- The path of another file that begins with the expected path is accepted, and
so is an empty identifier. -/
theorem other_models_are_verified :
    ¬ VerifiedOnlyIfSame "/models/a.gguf".toList "/models/a.gguf.old".toList ∧
      ¬ VerifiedOnlyIfSame "/models/a.gguf".toList [] :=
  ⟨not_verifiedOnlyIfSame (by decide) (by decide),
    not_verifiedOnlyIfSame (by decide) (by decide)⟩

end LlmWakeProxy.Helper
