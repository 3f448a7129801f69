import LlmWakeProxy.App.Server
import LlmWakeProxy.Orchestrate.Grounds

/-!
From the client's request to the model that is served. The server stands before the
proxy of `AppState::production`, whose helpers run on the model host. A request that is
delivered to an upstream server named, in its body, the model of the backend it waited
for; and the helper of that backend, run on the host under that name, had found the
model that is configured served there.
-/

namespace LlmWakeProxy.App
open LlmWakeProxy.Library LlmWakeProxy.Orchestrate LlmWakeProxy.Host LlmWakeProxy.Helper
open LlmWakeProxy.Forward (Text SerdeJson)
open LlmWakeProxy.Lifecycle (LifecycleTiming BackendStatus Timestamp Sightings)

universe u v w
variable {μ : Type u} {ω : Type v} {σ : Type} {account : Account} {texts : ResponseTexts}
variable {services : CommandServices ω σ} {utf8Error : List UInt8 → String}
variable {ssh : List Text → CommandSession σ → Except String Output × CommandSession σ}

/-- The request is in order, and the model that it names is that of the lifecycle it
waits for; through its tunnel it was forwarded, and there the model was found served. -/
structure AnsweredFor (account : Account) (texts : ResponseTexts) (services : CommandServices ω σ)
    (utf8Error : List UInt8 → String)
    (ssh : List Text → CommandSession σ → Except String Output × CommandSession σ)
    {ν : Type u} {τ : Type w} (config : Config.AppConfig) (request : Request ν τ)
    (wired : LifecycleServices) (n : Sightings) : Prop where
  usable : request.Usable
  model : request.model = some wired.helper.modelAlias
  port : (AppConfig.of config).tunnelPortFor request.kind = wired.tunnel.localPort
  served : ServedOnHost account texts services utf8Error ssh wired.helper n

/-- The first call, once it has begun, leads a round, and its request is delivered. -/
def groundedSchedule : List Proxy.Action :=
  [.exec 0 (.status .default), .exec 0 .run, .exec 0 .call] ++
    List.replicate 4 (.lifecycle .chat (.client 0 .run)) ++
    [.lifecycle .chat (.client 0 (.answer (.ssh (.ok true)))),
      .lifecycle .chat (.client 0 (.answer (.helper (.ok observedServed)))),
      .lifecycle .chat (.client 0 (.answer (.tunnel (.ok .ready)))),
      .lifecycle .chat (.client 0 .run), .lifecycle .chat (.client 0 .run),
      .exec 0 (.decide (.ready
        ((BackendStatus.default.withObserved observedServed).withTunnel .ready)))] ++
    List.replicate 4 (.exec 0 .run) ++ [.exec 0 (.forward .deliver)]

/-- What requests are handled with when only what must be set is set. -/
def defaultRequests : AppConfig where
  modelAlias := "llm-wake-proxy".toList
  tunnelLocalPort := 18080
  embeddingsBackend := none
  warmExecution := { maxActiveRequests := 2, maxQueuedRequests := 16
                     queueTimeout := Lifecycle.Duration.fromSecs 30 }
  coldStartMaxWaiting := 32

theorem groundedSchedule_answers {texts : ResponseTexts} {config : Config.AppConfig}
    (observed : ObservedBy texts utf8Error ssh (production config .chat).helper
      (.ok observedServed)) :
    ∀ a ∈ groundedSchedule, ∀ _ : Proxy × (Backend → Sightings),
      HelperAnswers (fun backend =>
        ObservedBy texts utf8Error ssh (production config backend).helper) a := by
  simp [groundedSchedule, HelperAnswers, observed]

theorem defaultRequests_loaded : ∃ config,
    Config.AppConfig.fromEnv (hostVariables "/models/a.gguf") = some config ∧
      AppConfig.of config = defaultRequests ∧ helperRpcs config = [reportedRpc] :=
  ⟨_, (Option.some_get literal_path_loaded).symm, rfl, rfl⟩

theorem askingFor_handled {config : Config.AppConfig}
    (modelAlias : config.model.modelAlias = "llm-wake-proxy".toList) :
    (askingFor "llm-wake-proxy".toList).handle config = .execute .chat false := by
  have handled : chatCompletions "llm-wake-proxy".toList (.ok
      { model := "llm-wake-proxy".toList, stream := false, messages :=
        [{ role := "user".toList, content := some (.string ['h']), toolCalls := none
           toolCallId := none }] } : Except String (ChatCompletionRequest Unit Unit)) =
      .execute .chat false := by decide
  rw [← handled, ← modelAlias]
  rfl

end LlmWakeProxy.App
