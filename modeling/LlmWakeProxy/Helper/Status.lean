import LlmWakeProxy.Config.Env
import LlmWakeProxy.Helper.Calls

/-!
The `status` of the helper, with the configuration of the whole helper. It asks
systemd for three units and each server for its models, and reports whatever comes of
that: a unit that cannot be shown is reported with the error, a server that does not
answer serves no model, and one that answers something else is not ready.
-/

namespace LlmWakeProxy.Helper
open LlmWakeProxy.Library
open PanicM (bind_eq_some pure_eq_some)
open LlmWakeProxy.Forward (Text Value)
open LlmWakeProxy.Config (Environment parseU16 parseU64)

universe u
variable {ν : Type u} {σ : Type} {services : Services ν σ} {session session' : Session σ}

/-- `HelperConfig`, with the unit that holds the lease. -/
structure HelperSettings extends HelperConfig where
  inhibitHolderUnit : String

/-- A variable that is set counts, blank or not. -/
def HelperSettings.fromEnv (env : Environment) : HelperSettings where
  llamaServerUnit := ((env "LLAMA_SERVER_UNIT").map String.ofList).getD "llama-server"
  inhibitHolderUnit :=
    ((env "INHIBIT_HOLDER_UNIT").map String.ofList).getD "llm-wake-proxy-inhibit"
  llamaServerPort := ((env "LLAMA_SERVER_PORT").bind parseU16).getD 8080
  llamaServerEmbeddingsUnit :=
    ((env "LLAMA_SERVER_EMBEDDINGS_UNIT").map String.ofList).getD "llama-server-embeddings"
  llamaServerEmbeddingsPort := ((env "LLAMA_SERVER_EMBEDDINGS_PORT").bind parseU16).getD 8081
  serverStartTimeoutSecs := ((env "SERVER_START_TIMEOUT_SECS").bind parseU64).getD 60

structure ModelInfo where
  modelAlias : Text
  modelPath : Text
  serving : Bool
  ready : Bool
  reportedId : Option Text
  deriving DecidableEq, Repr

structure StatusResponse where
  status : HelperStatus
  message : String
  llamaServer : Option UnitInfo
  inhibitHolder : Option UnitInfo
  activeModel : Option ModelInfo
  llamaServerEmbeddings : Option UnitInfo
  activeModelEmbeddings : Option ModelInfo
  deriving DecidableEq, Repr

def activeModelFor (services : Services ν σ) (port : UInt16) : HelperM σ (Option ModelInfo) := do
  if ← isServerAlive services port then
    match ← checkModelIdentity services port with
    | .ok reportedId =>
        return some { modelAlias := reportedId.getD []
                      modelPath := reportedId.getD []
                      serving := true
                      ready := true
                      reportedId := none }
    | .error _ =>
        return some { modelAlias := []
                      modelPath := []
                      serving := true
                      ready := false
                      reportedId := none }
  else
    return none

def status (settings : HelperSettings) (services : Services ν σ) : HelperM σ StatusResponse := do
  let llamaServer ← collectUnitInfo services settings.llamaServerUnit
  let inhibitHolder ← collectUnitInfo services settings.inhibitHolderUnit
  let activeModel ← activeModelFor services settings.llamaServerPort
  let llamaServerEmbeddings ← collectUnitInfo services settings.llamaServerEmbeddingsUnit
  let activeModelEmbeddings ← activeModelFor services settings.llamaServerEmbeddingsPort
  return { status := .ok
           message := "current host unit state"
           llamaServer := llamaServer
           inhibitHolder := inhibitHolder
           activeModel := activeModel
           llamaServerEmbeddings := llamaServerEmbeddings
           activeModelEmbeddings := activeModelEmbeddings }

/-! ### What is asked and reported -/

/-- What is reported of a unit when systemd answers so. -/
def infoOf (unitName : String) : Except String UnitProperties → UnitInfo
  | .ok props => { unitName := unitName
                   activeState := (props "ActiveState").getD "unknown"
                   subState := (props "SubState").getD "unknown"
                   description := (props "Description").getD "" }
  | .error e => { unitName := unitName, activeState := "error", subState := e, description := "" }

/-- The unit is reported active when it was shown, and shown active. -/
theorem infoOf_active (unit : String) (shown : Except String UnitProperties) :
    (infoOf unit shown).activeState = "active" ↔
      ∃ props, shown = .ok props ∧ props "ActiveState" = some "active" := by
  cases shown with
  | error e => simp [infoOf]
  | ok props => cases hstate : props "ActiveState" <;> simp [infoOf, hstate]

theorem collectUnitInfo_answer {unit : String} {info : Option UnitInfo}
    (h : collectUnitInfo services unit session = (some info, session')) :
    ∃ answer, services.showUnit unit session.host = (answer, session'.host) ∧
      session.Adds [.showUnit unit answer] session' ∧ info = some (infoOf unit answer) := by
  obtain ⟨answer, next, hcall, hrest⟩ := bind_eq_some.mp h
  obtain ⟨hanswer, adds⟩ := call_cases hcall
  refine ⟨answer, ?_⟩
  cases answer with
  | ok props =>
      cases pure_eq_some.mp hrest
      exact ⟨hanswer, adds, rfl⟩
  | error e =>
      cases pure_eq_some.mp hrest
      exact ⟨hanswer, adds, rfl⟩

theorem collectUnitInfo_run {unit : String} {shown : Except String UnitProperties} {host : σ}
    (h : services.showUnit unit session.host = (shown, host)) :
    collectUnitInfo services unit session = (some (some (infoOf unit shown)),
      { session with host := host, calls := .showUnit unit shown :: session.calls }) := by
  refine bind_eq_some.mpr ⟨shown, _, by rw [call, h], ?_⟩
  cases shown with
  | ok _ | error _ => rfl

/-- The call changes nothing on the host. -/
def HostCall.reads : HostCall → Prop
  | .startUnit _ _ => False
  | _ => True

theorem Makes.mono {α : Type} {kind kind' : HostCall → Prop} {x : HelperM σ α}
    (h : Makes kind x) (weaker : ∀ call, kind call → kind' call) : Makes kind' x := by
  intro session
  obtain ⟨a, session', calls, hrun, adds, hcalls⟩ := h session
  exact ⟨a, session', calls, hrun, adds, fun call hcall => weaker call (hcalls call hcall)⟩

theorem Looks.reads {port : UInt16} {unit : String} (call : HostCall)
    (h : Looks port unit call) : call.reads := by
  cases call with
  | startUnit _ _ => simp [Looks, HostCall.probed] at h
  | _ => trivial

theorem makes_unitInfo (services : Services ν σ) (unit : String) :
    Makes HostCall.reads (collectUnitInfo services unit) :=
  (makes_collectUnitInfo services 0 unit).mono Looks.reads

theorem makes_activeModelFor (services : Services ν σ) (port : UInt16) :
    Makes HostCall.reads (activeModelFor services port) := by
  refine .bind ((@makes_isServerAlive _ _ services port "").mono Looks.reads) fun alive => ?_
  split
  next =>
    refine .bind ((makes_checkModelIdentity services port "").mono Looks.reads) fun identity => ?_
    cases identity with
    | ok _ | error _ => exact .pure _
  next => exact .pure _

/-- Whatever the host answers there is a report, and nothing is changed. -/
theorem makes_status (settings : HelperSettings) (services : Services ν σ) :
    Makes HostCall.reads (status settings services) := by
  refine .bind (makes_unitInfo services _) fun _ => .bind (makes_unitInfo services _) fun _ => ?_
  refine .bind (makes_activeModelFor services _) fun _ => ?_
  refine .bind (makes_unitInfo services _) fun _ => ?_
  exact .bind (makes_activeModelFor services _) fun _ => .pure _

end LlmWakeProxy.Helper
