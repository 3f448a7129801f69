import LlmWakeProxy.Host.Observation
import LlmWakeProxy.Orchestrate.Production
import LlmWakeProxy.Orchestrate.Warrant

/-!
The way of a request from end to end. A lifecycle manager of the production proxy asks
the model host through the helper of its own; when that helper answers, what it answers
is what `observe_backend` made of a run on the host. Then a request is delivered only to
a backend that was ready from the start or for which the helper, run on the host, found
the configured model served; and it is forwarded to the tunnel of that backend.
-/

namespace LlmWakeProxy.Lifecycle

/-- Every answer of the helper that is kept has the property. -/
structure Sightings.HelperAnswered (P : Except LifecycleError ObservedBackendState → Prop)
    (n : Sightings) : Prop where
  trail : ∀ driver result, .helper result ∈ n.trail driver → P result
  seen : ∀ trail ∈ n.seen, ∀ result, .helper result ∈ trail → P result

variable {P : Except LifecycleError ObservedBackendState → Prop} {n : Sightings}
variable {s s' : Manager}

theorem mem_trailAfter {trail : List Answer} {answer made : Answer}
    (h : made ∈ trailAfter trail answer) : made = answer ∨ made ∈ trail := by
  cases answer with
  | ssh _ => exact .inl (List.mem_singleton.mp h)
  | wake _ | helper _ | tunnel _ => exact List.mem_cons.mp h

theorem Sightings.HelperAnswered.none : Sightings.none.HelperAnswered P where
  trail _ _ h := absurd h List.not_mem_nil
  seen _ h := absurd h List.not_mem_nil

theorem Sightings.HelperAnswered.answered (h : n.HelperAnswered P) (driver : Driver)
    {answer : Answer} (given : ∀ result, answer = .helper result → P result) :
    (n.answered s s' driver answer).HelperAnswered P := by
  have after : ∀ result, .helper result ∈ trailAfter (n.trail driver) answer → P result := by
    intro result hresult
    obtain hgiven | hkept := mem_trailAfter hresult
    · exact given result hgiven.symm
    · exact h.trail driver result hkept
  refine ⟨fun other result hresult => ?_, fun trail htrail => ?_⟩
  · simp only [Sightings.answered] at hresult
    by_cases hother : other = driver
    · subst hother
      rw [Function.update_self] at hresult
      exact after result hresult
    · rw [Function.update_of_ne hother] at hresult
      exact h.trail other result hresult
  · simp only [Sightings.answered] at htrail
    split at htrail
    next =>
      obtain rfl | hkept := List.mem_cons.mp htrail
      · exact after
      · exact h.seen trail hkept
    next => exact h.seen trail htrail

end LlmWakeProxy.Lifecycle

namespace LlmWakeProxy.Orchestrate
open LlmWakeProxy.Library LlmWakeProxy.Forward LlmWakeProxy.Host LlmWakeProxy.Helper
open LlmWakeProxy.Lifecycle (LifecycleTiming LifecycleError ObservedBackendState BackendStatus
  Timestamp Sightings backendIsReady noteSighting)

universe u v
variable {ν : Type u} {serde : SerdeJson ν} {config : AppConfig} {timing : LifecycleTiming}
variable {s s' : Proxy} {n : Backend → Sightings}

/-- What the helper of the backend answers in the step, if it does, has the property. -/
def HelperAnswers (P : Backend → Except LifecycleError ObservedBackendState → Prop) :
    Proxy.Action → Prop
  | .lifecycle backend (.client _ (.answer (.helper result)))
  | .lifecycle backend (.task _ (.answer (.helper result))) => P backend result
  | _ => True

theorem helperAnswered_step
    {P : Backend → Except LifecycleError ObservedBackendState → Prop} {a : Proxy.Action}
    (h : ∀ backend, (n backend).HelperAnswered (P backend)) (answers : HelperAnswers P a) :
    ∀ backend, (noteSightings s a s' n backend).HelperAnswered (P backend) := by
  intro backend
  cases a with
  | exec _ _ | elapse _ _ => exact h backend
  | lifecycle other action =>
      simp only [noteSightings]
      by_cases hbackend : backend = other
      · subst hbackend
        rw [Function.update_self]
        cases action with
        | client i input =>
            cases input with
            | answer answer =>
                refine (h backend).answered (.client i) fun result heq => ?_
                subst heq
                exact answers
            | run | timeout => exact h backend
        | task i input =>
            cases input with
            | answer answer =>
                refine (h backend).answered (.task i) fun result heq => ?_
                subst heq
                exact answers
            | run | timeout => exact h backend
        | begin _ _ | drop _ | elapse _ _ => exact h backend
      · rw [Function.update_of_ne hbackend]
        exact h backend

/-! ### From end to end -/

section Grounds
variable {ω : Type v} {τ : Type} (account : Account) (texts : ResponseTexts)
variable (services : CommandServices ω τ) (utf8Error : List UInt8 → String)
variable (ssh : List Text → CommandSession τ → Except String Output × CommandSession τ)

/-- The answer is what `observe_backend` made of the host in some state. -/
def ObservedBy (rpc : SshHelperRpc) (answer : Except LifecycleError ObservedBackendState) : Prop :=
  ∃ remote, (observeBackend texts utf8Error rpc ssh remote).1 = answer

/-- A run of the helper on the host found the model that is configured served, and what was
observed of that run is what the manager found the backend ready by. -/
def ServedOnHost (rpc : SshHelperRpc) (n : Sightings) : Prop :=
  ∃ trail ∈ n.seen, ∃ observed, .helper (.ok observed) ∈ trail ∧
    ∃ remote, (observeBackend texts utf8Error rpc ssh remote).1 = .ok observed ∧
      ∃ run output served,
        Ran account texts services rpc.ensureStartedArgs remote
          (ssh (rpc.sshArgs rpc.ensureStartedArgs) remote).1
          (ssh (rpc.sshArgs rpc.ensureStartedArgs) remote).2 run output ∧
        (ssh (rpc.sshArgs rpc.ensureStartedArgs) remote).2.calls =
          served.map .host ++ remote.calls ∧
        Served services.toServices (account.settings.unitFor rpc.target)
          (buildServerUrl (account.settings.portFor rpc.target) "/v1/models") rpc.modelPath served

/-- The proxy of `AppState::production`, its helpers on a host. -/
noncomputable def productionProxy (serde : SerdeJson ν) (config : Config.AppConfig)
    (timing : LifecycleTiming) : System (Proxy × (Backend → Sightings)) Proxy.Action :=
  open Classical in
  ((proxy serde (AppConfig.of config) timing).monitor noteSightings).restrict fun _ a =>
    HelperAnswers (fun backend =>
      ObservedBy texts utf8Error ssh (production config backend).helper) a

/-- What the client of a call may rest on: its request goes through the tunnel of the
lifecycle that it waited for, under the alias that the helper of that lifecycle was
given, and that helper found the model served when the lifecycle became ready. -/
structure GroundedCall (config : Config.AppConfig) (exec : Exec) (wired : LifecycleServices)
    (n : Sightings) : Prop where
  port : (exec.request (AppConfig.of config)).port = wired.tunnel.localPort
  modelAlias : (exec.request (AppConfig.of config)).modelAlias = wired.helper.modelAlias
  served : ServedOnHost account texts services utf8Error ssh wired.helper n

variable {account texts services utf8Error ssh}

/-- In every run of the production proxy whose helpers run on a host, a delivered request
went to a backend for which the helper had found the configured model served there, and
through the tunnel of that backend. -/
theorem deliveries_rest_on_the_host {environment : Config.Environment} {config : Config.AppConfig}
    (serde : SerdeJson ν) (timing : LifecycleTiming)
    (loaded : Config.AppConfig.fromEnv environment = some config)
    (literal : ∀ rpc ∈ helperRpcs config, Literal rpc)
    (passesThrough : ∀ rpc ∈ helperRpcs config, PassesThrough account texts services rpc ssh)
    (execs instant : Nat) (clock : Timestamp) (s : Proxy) (n : Backend → Sightings)
    (h : (productionProxy texts utf8Error ssh serde config timing).Reachable
      (.new (AppConfig.of config) execs (fun _ => .default) instant clock, fun _ => .none) (s, n))
    (i : Nat) (delivered : .delivered i ∈ s.orchestrator.log) :
    ∃ exec, s.orchestrator.execs[i]? = some exec ∧ exec.pc ≠ .idle ∧
      GroundedCall account texts services utf8Error ssh config exec
        (production config ((AppConfig.of config).lifecycleFor exec.kind))
        (n ((AppConfig.of config).lifecycleFor exec.kind)) := by
  classical
  have answered : ∀ backend, (n backend).HelperAnswered
      (ObservedBy texts utf8Error ssh (production config backend).helper) := by
    refine System.Reachable.invariant_restrict (I := fun t => ∀ backend,
      (t.2 backend).HelperAnswered
        (ObservedBy texts utf8Error ssh (production config backend).helper)) h ?_ ?_
    · exact fun backend => .none
    · intro t a t' ht answers hstep
      rw [(System.monitor_step_iff.mp hstep).2]
      exact helperAnswered_step ht answers
  have warranted := warranted_reachable h.unrestrict
  obtain ⟨exec, here, begun, initially | seen⟩ := warranted.delivered i delivered
  · cases initially
  · obtain ⟨trail, hmem⟩ := List.exists_mem_of_ne_nil _ seen
    obtain ⟨observed, _, rfl⟩ := (warranted.managers _).sightings trail hmem
    obtain ⟨remote, hobserved⟩ := (answered _).seen _ hmem (.ok observed) (by simp)
    have configured := production_helper config ((AppConfig.of config).lifecycleFor exec.kind)
    obtain ⟨helperPath, modelAlias, modelPath⟩ := helperRpc_ne_nil loaded configured
    obtain ⟨port, sameAlias⟩ := production_forwards config exec.kind
    have served := served_of_observed (literal _ configured) helperPath modelAlias modelPath
      (passesThrough _ configured) hobserved
    exact ⟨exec, here, begun, port.symm, sameAlias.symm, _, hmem, observed, by simp, remote,
      hobserved, served⟩

end Grounds

end LlmWakeProxy.Orchestrate
