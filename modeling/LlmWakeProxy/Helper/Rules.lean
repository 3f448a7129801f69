import LlmWakeProxy.Helper.EnsureStarted

/-!
What a run of `ensure_started` can be, said once: whether the unit was started,
whether the server came up, what it reported, and what the response says of it.
-/

namespace LlmWakeProxy.Helper
open LlmWakeProxy.Library
open PanicM (bind_eq_some pure_eq_some)
open LlmWakeProxy.Forward (Text Value)
open LlmWakeProxy.Lifecycle (Instant Duration)

universe u
variable {ν : Type u} {σ : Type} {config : HelperConfig} {services : Services ν σ}
variable {target : Target} {modelAlias modelPath : Text} {session session' : Session σ}
variable {response : EnsureStartedResponse}

/-- What a response says of the run. -/
def EnsureStartedResponse.flags (response : EnsureStartedResponse) :
    HelperStatus × Bool × Bool × Bool :=
  (response.status, response.startupTriggered, response.serverReady, response.modelVerified)

/-- The response reports on the unit. -/
def EnsureStartedResponse.Names (response : EnsureStartedResponse) (unit : String) : Prop :=
  ∃ info, response.llamaServer = some info ∧ info.unitName = unit

theorem collectUnitInfo_cases {unit : String} {info : Option UnitInfo}
    (h : collectUnitInfo services unit session = (some info, session')) :
    ∃ found, info = some found ∧ found.unitName = unit := by
  obtain ⟨answer, next, _, hrest⟩ := bind_eq_some.mp h
  cases answer with
  | ok props =>
      cases pure_eq_some.mp hrest
      exact ⟨_, rfl, rfl⟩
  | error e =>
      cases pure_eq_some.mp hrest
      exact ⟨_, rfl, rfl⟩

/-- The unit is looked up last, and the response is made from what was found. -/
theorem respond_cases {unit : String} {respond : Option UnitInfo → EnsureStartedResponse}
    (h : (do return respond (← collectUnitInfo services unit) : HelperM σ EnsureStartedResponse)
      session = (some response, session')) :
    ∃ info, collectUnitInfo services unit session = (some (some info), session') ∧
      info.unitName = unit ∧ respond (some info) = response := by
  obtain ⟨info, next, hcollected, hpure⟩ := bind_eq_some.mp h
  cases pure_eq_some.mp hpure
  obtain ⟨found, rfl, hname⟩ := collectUnitInfo_cases hcollected
  exact ⟨found, hcollected, hname, rfl⟩

/-- The ways out of `ensure_started`. -/
inductive EnsureRule (config : HelperConfig) (services : Services ν σ) (target : Target)
    (modelPath : Text) (session session' : Session σ) (response : EnsureStartedResponse) : Prop
  | startFailed (e : String)
      (started : startInactive services (config.unitFor target) session = (some (.error e), session'))
      (flags : response.flags = (.error, false, false, false))
  | notReady (triggered : Bool) (info : Option UnitInfo) (s₁ s₂ : Session σ)
      (started : startInactive services (config.unitFor target) session = (some (.ok triggered), s₁))
      (waited : waitForServer services (config.portFor target) config.serverStartTimeoutSecs s₁ =
        (some false, s₂))
      (collected : collectUnitInfo services (config.unitFor target) s₂ = (some info, session'))
      (flags : response.flags = (.error, triggered, false, false))
  | checked (triggered : Bool) (identity : Except String (Option Text)) (info : Option UnitInfo)
      (s₁ s₂ s₃ : Session σ)
      (started : startInactive services (config.unitFor target) session = (some (.ok triggered), s₁))
      (waited : waitForServer services (config.portFor target) config.serverStartTimeoutSecs s₁ =
        (some true, s₂))
      (reported : checkModelIdentity services (config.portFor target) s₂ = (some identity, s₃))
      (collected : collectUnitInfo services (config.unitFor target) s₃ = (some info, session'))
      (flags : (∃ id, identity = .ok (some id) ∧ modelMatches modelPath id = true ∧
          response.flags = (.ok, triggered, true, true)) ∨
        (∃ id, identity = .ok (some id) ∧ modelMatches modelPath id = false ∧
          response.flags = (.mismatch, triggered, true, false)) ∨
        ((∀ id, identity ≠ .ok (some id)) ∧ response.flags = (.error, triggered, true, false)))

theorem ensureStarted_cases
    (h : ensureStarted config services target modelAlias modelPath session =
      (some response, session')) :
    EnsureRule config services target modelPath session session' response ∧
      response.Names (config.unitFor target) := by
  obtain ⟨started, s₁, hstarted, hrest⟩ := bind_eq_some.mp h
  cases started with
  | error e =>
      cases pure_eq_some.mp hrest
      exact ⟨.startFailed e hstarted rfl, _, rfl, rfl⟩
  | ok triggered =>
      obtain ⟨ready, s₂, hwaited, hrest⟩ := bind_eq_some.mp hrest
      cases ready with
      | false =>
          obtain ⟨info, hcollected, hname, rfl⟩ := respond_cases hrest
          exact ⟨.notReady triggered _ s₁ s₂ hstarted hwaited hcollected rfl, info, rfl, hname⟩
      | true =>
          obtain ⟨identity, s₃, hreported, hrest⟩ := bind_eq_some.mp hrest
          match identity with
          | .error e =>
              obtain ⟨info, hcollected, hname, rfl⟩ := respond_cases hrest
              exact ⟨.checked triggered _ _ s₁ s₂ s₃ hstarted hwaited hreported hcollected
                (.inr (.inr ⟨by simp, rfl⟩)), info, rfl, hname⟩
          | .ok none =>
              obtain ⟨info, hcollected, hname, rfl⟩ := respond_cases hrest
              exact ⟨.checked triggered _ _ s₁ s₂ s₃ hstarted hwaited hreported hcollected
                (.inr (.inr ⟨by simp, rfl⟩)), info, rfl, hname⟩
          | .ok (some id) =>
              cases hmatches : modelMatches modelPath id with
              | true =>
                  simp only [hmatches, if_true] at hrest
                  obtain ⟨info, hcollected, hname, rfl⟩ := respond_cases hrest
                  exact ⟨.checked triggered _ _ s₁ s₂ s₃ hstarted hwaited hreported hcollected
                    (.inl ⟨id, rfl, hmatches, rfl⟩), info, rfl, hname⟩
              | false =>
                  simp only [hmatches, Bool.false_eq_true, if_false] at hrest
                  obtain ⟨info, hcollected, hname, rfl⟩ := respond_cases hrest
                  exact ⟨.checked triggered _ _ s₁ s₂ s₃ hstarted hwaited hreported hcollected
                    (.inr (.inl ⟨id, rfl, hmatches, rfl⟩)), info, rfl, hname⟩

end LlmWakeProxy.Helper
