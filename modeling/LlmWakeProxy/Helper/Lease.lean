import LlmWakeProxy.Helper.Status

/-!
The lease that keeps the host awake: a transient unit in which `systemd-inhibit` sleeps
for as long as the lease is good. To acquire it replaces the unit, to release it stops
the unit. For these two systemd has calls that the other commands do not make; a
command of the helper keeps them all in its log.
-/

namespace LlmWakeProxy.Helper
open LlmWakeProxy.Library
open LlmWakeProxy.Forward (Text)

universe u
variable {ν : Type u} {σ : Type}

/-- The services, with all of `SystemdControl`. -/
structure CommandServices (ν : Type u) (σ : Type) extends Services ν σ where
  stopUnit : String → σ → Except String Unit × σ
  replaceTransientUnit : String → String → List String → σ → Except String Unit × σ

inductive CommandCall where
  | host (call : HostCall)
  | stopUnit (unit : String) (answer : Except String Unit)
  | replaceTransientUnit (unit description : String) (args : List String)
      (answer : Except String Unit)

structure CommandSession (σ : Type) where
  host : σ
  calls : List CommandCall
  stderr : String

abbrev CommandM (σ : Type) := PanicM (CommandSession σ)

/-- A part that makes none of the calls of the lease. -/
def lift {α : Type} (x : HelperM σ α) : CommandM σ α := fun session =>
  let (result, inner) := x { host := session.host, calls := [], stderr := session.stderr }
  (result, { host := inner.host
             calls := inner.calls.map .host ++ session.calls
             stderr := inner.stderr })

def command {ρ : Type} (service : σ → ρ × σ) (record : ρ → CommandCall) : CommandM σ ρ :=
  fun session =>
    let (answer, host) := service session.host
    (some answer, { session with host := host, calls := record answer :: session.calls })

section CommandM
variable {α β : Type} {session session' : CommandSession σ}

theorem lift_cases {x : HelperM σ α} {result : Option α} (h : lift x session = (result, session')) :
    ∃ inner, x { host := session.host, calls := [], stderr := session.stderr } = (result, inner) ∧
      session'.host = inner.host ∧ session'.calls = inner.calls.map .host ++ session.calls := by
  cases h
  exact ⟨_, rfl, rfl, rfl⟩

theorem lift_run {x : HelperM σ α} {result : Option α} {inner : Session σ}
    (h : x { host := session.host, calls := [], stderr := session.stderr } = (result, inner)) :
    lift x session = (result, { host := inner.host
                                calls := inner.calls.map .host ++ session.calls
                                stderr := inner.stderr }) := by
  simp only [lift, h]

theorem lift_returns {x : HelperM σ α} (h : x.Returns) : (lift x).Returns := by
  intro session
  obtain ⟨a, inner, hinner⟩ := h { host := session.host, calls := [], stderr := session.stderr }
  exact ⟨a, _, lift_run hinner⟩

theorem command_returns {ρ : Type} (service : σ → ρ × σ) (record : ρ → CommandCall) :
    (command service record).Returns :=
  fun _ => ⟨_, _, rfl⟩

theorem command_cases {ρ : Type} {service : σ → ρ × σ} {record : ρ → CommandCall} {answer : ρ}
    (h : command service record session = (some answer, session')) :
    service session.host = (answer, session'.host) ∧
      session'.calls = record answer :: session.calls := by
  cases h
  exact ⟨rfl, rfl⟩

end CommandM

structure LeaseAcquireResponse where
  status : HelperStatus
  message : String
  inhibitHolder : Option UnitInfo
  ttlSecs : UInt64
  renewed : Bool
  deriving DecidableEq, Repr

structure LeaseReleaseResponse where
  status : HelperStatus
  message : String
  inhibitHolder : Option UnitInfo
  deriving DecidableEq, Repr

structure LeaseInspectResponse where
  status : HelperStatus
  message : String
  inhibitHolder : Option UnitInfo
  deriving DecidableEq, Repr

/-- `clamp(60, 86_400)`. -/
def clampTtl (ttlSecs : UInt64) : UInt64 :=
  if ttlSecs < 60 then 60 else if 86400 < ttlSecs then 86400 else ttlSecs

def inhibitDescription : String := "llm-wake-proxy inhibit holder"

def inhibitArgs (ttlSecs : UInt64) : List String :=
  ["systemd-inhibit", "--what=sleep", "--who=llm-wake-proxy",
   "--why=Keep awake for active proxy session", "sleep", toString ttlSecs]

def leaseAcquire (settings : HelperSettings) (services : CommandServices ν σ) (ttlSecs : UInt64) :
    CommandM σ LeaseAcquireResponse := do
  let ttlSecs := clampTtl ttlSecs
  let unit := settings.inhibitHolderUnit
  let active ← lift (call (services.isActive unit) (.isActive unit))
  let wasActive := match active with
    | .ok active => active
    | .error _ => false
  match ← command (services.replaceTransientUnit unit inhibitDescription (inhibitArgs ttlSecs))
      (.replaceTransientUnit unit inhibitDescription (inhibitArgs ttlSecs)) with
  | .ok () =>
      let info ← lift (collectUnitInfo services.toServices unit)
      let isVerifiedActive := (info.map fun info => info.activeState == "active").getD false
      if !isVerifiedActive then
        return { status := .error
                 message := "lease was created but the inhibit unit is not active"
                 inhibitHolder := info
                 ttlSecs := ttlSecs
                 renewed := false }
      else
        return { status := .ok
                 message := if wasActive then "lease renewed" else "lease acquired"
                 inhibitHolder := info
                 ttlSecs := ttlSecs
                 renewed := wasActive }
  | .error e =>
      return { status := .error
               message := "failed to acquire lease: " ++ e
               inhibitHolder := none
               ttlSecs := ttlSecs
               renewed := false }

def leaseRelease (settings : HelperSettings) (services : CommandServices ν σ) :
    CommandM σ LeaseReleaseResponse := do
  let unit := settings.inhibitHolderUnit
  match ← command (services.stopUnit unit) (.stopUnit unit) with
  | .ok () =>
      let info ← lift (collectUnitInfo services.toServices unit)
      return { status := .ok, message := "lease released", inhibitHolder := info }
  | .error e =>
      return { status := .error
               message := "failed to release lease: " ++ e
               inhibitHolder := none }

def leaseInspect (settings : HelperSettings) (services : CommandServices ν σ) :
    CommandM σ LeaseInspectResponse := do
  let unit := settings.inhibitHolderUnit
  match ← lift (call (services.showUnit unit) (.showUnit unit)) with
  | .ok props =>
      return { status := .ok
               message := "current lease state"
               inhibitHolder := some (infoOf unit (.ok props)) }
  | .error e =>
      return { status := .error
               message := "failed to inspect lease: " ++ e
               inhibitHolder := none }

/-! ### The lease never panics -/

theorem unitInfo_returns (services : Services ν σ) (unit : String) :
    (lift (collectUnitInfo services unit)).Returns :=
  lift_returns (makes_collectUnitInfo services 0 unit).runs

theorem leaseAcquire_returns (settings : HelperSettings) (services : CommandServices ν σ)
    (ttlSecs : UInt64) : (leaseAcquire settings services ttlSecs).Returns := by
  refine .bind (lift_returns fun _ => ⟨_, _, rfl⟩) fun active => ?_
  refine .bind (command_returns _ _) fun answer => ?_
  cases answer with
  | error e => exact .pure _
  | ok _ =>
      refine .bind (unitInfo_returns _ _) fun info => ?_
      dsimp only
      split
      next => exact .pure _
      next => exact .pure _

theorem leaseRelease_returns (settings : HelperSettings) (services : CommandServices ν σ) :
    (leaseRelease settings services).Returns := by
  refine .bind (command_returns _ _) fun answer => ?_
  cases answer with
  | error e => exact .pure _
  | ok _ => exact .bind (unitInfo_returns _ _) fun info => .pure _

theorem leaseInspect_returns (settings : HelperSettings) (services : CommandServices ν σ) :
    (leaseInspect settings services).Returns := by
  refine .bind (lift_returns fun _ => ⟨_, _, rfl⟩) fun answer => ?_
  cases answer with
  | ok _ | error _ => exact .pure _

end LlmWakeProxy.Helper
