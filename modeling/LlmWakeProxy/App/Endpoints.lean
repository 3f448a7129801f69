import LlmWakeProxy.App.Chat
import LlmWakeProxy.Orchestrate.Production

/-!
The endpoints of the server. A request to one of the two that models are used at must
say that it is JSON; only then is it counted, and its body decoded. What `serde_json`
complains about is made a message of a few kinds. The models that are listed are those
that the two endpoints take, each at the one that its backend is for.
-/

namespace LlmWakeProxy.App
open LlmWakeProxy.Orchestrate (Backend production production_forwards)
open LlmWakeProxy.Forward (Text Value Response openaiError)
open LlmWakeProxy.Lifecycle (LifecycleRequest)

universe u v
variable {ν : Type u} {τ : Type v}

structure EmbeddingsRequest (ν : Type u) where
  model : Text
  input : Value ν

/-! ### Messages about a body -/

def after (pattern : Text) : Text → Option Text
  | [] => if pattern = [] then some [] else none
  | c :: rest =>
      if pattern <+: c :: rest then some ((c :: rest).drop pattern.length) else after pattern rest

def extractQuotedValue (message pattern : Text) : Option Text :=
  (after pattern message).bind fun suffix =>
    if '\x60' ∈ suffix then some (suffix.takeWhile (· ≠ '\x60')) else none

/-- `normalize_json_error`, of the text of the error. -/
def normalizeJsonError (message : Text) : String :=
  match extractQuotedValue message "unknown field \x60".toList with
  | some field => "unsupported field '" ++ String.ofList field ++ "'"
  | none =>
      if "unknown variant".toList <:+: message then "request body contains invalid fields"
      else if "missing field \x60tool_call_id\x60".toList <:+: message then
        "tool messages must include tool_call_id"
      else if "missing field \x60content\x60".toList <:+: message then
        "messages must include content unless assistant tool_calls are present"
      else if "invalid type".toList <:+: message then
        "request body contains an invalid field type"
      else if "data did not match any variant of untagged enum".toList <:+: message then
        "request body contains invalid fields"
      else "request body contains invalid fields"

/-! ### The handlers -/

/-- `AppState::model_alias_for`. -/
def modelAliasFor (config : Config.AppConfig) : LifecycleRequest → Text
  | .chat => config.model.modelAlias
  | .embeddings => (config.embeddings.backend.map (·.modelAlias)).getD config.model.modelAlias

/-- `embeddings` on what the body decodes to. -/
def embeddings (config : Config.AppConfig) (decoded : Except String (EmbeddingsRequest ν)) :
    Handling :=
  match decoded with
  | .error message => .respond (openaiError 400 "invalid_request_error" message none)
  | .ok payload =>
      match payload.input with
      | .null => .respond (openaiError 400 "invalid_request_error" "input must not be null" none)
      | _ =>
          if payload.model ≠ modelAliasFor config .embeddings then
            .respond (openaiError 400 "model_not_found"
              ("unsupported model '" ++ String.ofList payload.model ++ "': expected '" ++
                String.ofList (modelAliasFor config .embeddings) ++ "'") none)
          else if !config.embeddings.enabled then
            .respond (openaiError 400 "unsupported_embeddings"
              "embeddings are disabled by configuration" none)
          else .execute .embeddings false

/-- `RequireJsonContentType`, of the header where it is a text. -/
def hasJson (contentType : Option Text) : Bool :=
  contentType.any fun text => decide ("application/json".toList <:+: text)

/-- A request to an endpoint: the header, and what `serde_json` makes of the body. -/
inductive Request (ν : Type u) (τ : Type v) where
  | chat (contentType : Option Text) (decoded : Except Text (ChatCompletionRequest ν τ))
  | embeddings (contentType : Option Text) (decoded : Except Text (EmbeddingsRequest ν))

namespace Request

def contentType : Request ν τ → Option Text
  | .chat contentType _ | .embeddings contentType _ => contentType

def kind : Request ν τ → LifecycleRequest
  | .chat _ _ => .chat
  | .embeddings _ _ => .embeddings

def model : Request ν τ → Option Text
  | .chat _ (.ok payload) => some payload.model
  | .embeddings _ (.ok payload) => some payload.model
  | _ => none

def handle (config : Config.AppConfig) (request : Request ν τ) : Handling :=
  if hasJson request.contentType then
    match request with
    | .chat _ decoded =>
        chatCompletions config.model.modelAlias (decoded.mapError normalizeJsonError)
    | .embeddings _ decoded => App.embeddings config (decoded.mapError normalizeJsonError)
  else .respond (openaiError 400 "invalid_request_error" "content-type must be application/json" none)

end Request

/-- `inc_chat_requests` and `inc_embeddings_requests`. -/
structure RequestCounts where
  chatRequests : Nat
  embeddingsRequests : Nat

def RequestCounts.count (counts : RequestCounts) (request : Request ν τ) : RequestCounts :=
  if hasJson request.contentType then
    match request.kind with
    | .chat => { counts with chatRequests := counts.chatRequests + 1 }
    | .embeddings => { counts with embeddingsRequests := counts.embeddingsRequests + 1 }
  else counts

structure Model where
  id : Text
  object : String
  created : Nat
  ownedBy : Text
  provider : Text

def listModels (config : Config.AppConfig) : List Model :=
  { id := config.model.modelAlias, object := "model", created := 0
    ownedBy := config.model.ownedBy, provider := config.model.providerId } ::
    (config.embeddings.backend.map fun backend =>
      { id := backend.modelAlias, object := "model", created := 0
        ownedBy := backend.ownedBy, provider := backend.providerId }).toList

/-! ### What is executed -/

/-- The request is in order, whatever model it names. -/
def Request.Usable (request : Request ν τ) : Prop :=
  hasJson request.contentType = true ∧
    match request with
    | .chat _ decoded => ∃ payload, decoded = .ok payload ∧ payload.messages ≠ [] ∧
        ∀ message ∈ payload.messages, message.Acceptable
    | .embeddings _ decoded => ∃ payload, decoded = .ok payload ∧ payload.input ≠ .null

/-- The model that is named is the one that the endpoint is for. -/
def Request.NamesBackend (config : Config.AppConfig) (request : Request ν τ) : Prop :=
  request.model = some (modelAliasFor config request.kind) ∧
    (request.kind = .embeddings → config.embeddings.enabled = true)

section Executed
variable {config : Config.AppConfig} {request : Request ν τ} {kind : LifecycleRequest}
variable {stream : Bool}

theorem embeddings_execute {payload : EmbeddingsRequest ν} :
    embeddings config (.ok payload) = .execute kind stream ↔
      payload.input ≠ .null ∧ payload.model = modelAliasFor config .embeddings ∧
        config.embeddings.enabled = true ∧ kind = .embeddings ∧ stream = false := by
  obtain ⟨model, input⟩ := payload
  cases input with
  | null => simp [embeddings]
  | bool _ | number _ | string _ | array _ | object _ =>
      by_cases hmodel : model = modelAliasFor config .embeddings
      · subst hmodel
        cases henabled : config.embeddings.enabled <;> simp [embeddings, henabled, eq_comm]
      · simp [embeddings, hmodel]

/-- The two endpoints execute what is in order and names their model. -/
theorem handle_execute : (∃ stream, request.handle config = .execute kind stream) ↔
    kind = request.kind ∧ request.Usable ∧ request.NamesBackend config := by
  unfold Request.handle Request.Usable Request.NamesBackend
  cases hjson : hasJson request.contentType with
  | false => simp
  | true =>
      simp only [if_true, true_and]
      cases request with
      | chat contentType decoded =>
          cases decoded with
          | error message => simp [Except.mapError, chatCompletions, Request.model]
          | ok payload =>
              simp only [Except.mapError, chatCompletions_execute, Request.kind, Request.model,
                modelAliasFor, Except.ok.injEq, exists_eq_left', Option.some.injEq]
              constructor
              · rintro ⟨stream, ⟨messages, model, acceptable⟩, rfl, rfl⟩
                exact ⟨rfl, ⟨messages, acceptable⟩, model, fun other => by cases other⟩
              · rintro ⟨rfl, ⟨messages, acceptable⟩, model, _⟩
                exact ⟨_, ⟨messages, model, acceptable⟩, rfl, rfl⟩
      | embeddings contentType decoded =>
          cases decoded with
          | error message => simp [Except.mapError, embeddings, Request.model]
          | ok payload =>
              simp only [Except.mapError, embeddings_execute, Request.kind, Request.model,
                Except.ok.injEq, exists_eq_left', Option.some.injEq, true_implies]
              constructor
              · rintro ⟨stream, input, model, enabled, rfl, rfl⟩
                exact ⟨rfl, input, model, enabled⟩
              · rintro ⟨rfl, input, model, enabled⟩
                exact ⟨_, input, model, enabled, rfl, rfl⟩

theorem mem_listModels {id : Text} : (∃ model ∈ listModels config, model.id = id) ↔
    ∃ kind, id = modelAliasFor config kind := by
  have kinds : (∃ kind, id = modelAliasFor config kind) ↔
      id = config.model.modelAlias ∨ id = modelAliasFor config .embeddings := by
    constructor
    · rintro ⟨kind, rfl⟩
      cases kind with
      | chat => exact .inl rfl
      | embeddings => exact .inr rfl
    · rintro (rfl | rfl)
      · exact ⟨.chat, rfl⟩
      · exact ⟨.embeddings, rfl⟩
  rw [kinds, listModels, modelAliasFor]
  cases config.embeddings.backend with
  | none => simp [eq_comm]
  | some backend => simp [eq_comm]

theorem fromEnv_embeddings {environment : Config.Environment}
    (loaded : Config.AppConfig.fromEnv environment = some config) :
    config.embeddings.backend.isSome = true → config.embeddings.enabled = true := by
  intro dedicated
  obtain ⟨host, _, hconfig⟩ := Option.bind_eq_some_iff.mp loaded
  cases hconfig
  exact Bool.or_eq_true_iff.mpr (.inl dedicated)

/-- Every model that is listed is taken by an endpoint. -/
theorem listed_taken (loaded : ∃ environment, Config.AppConfig.fromEnv environment = some config)
    {model : Model} (listed : model ∈ listModels config) :
    ∃ kind, model.id = modelAliasFor config kind ∧
      (kind = .embeddings → config.embeddings.enabled = true) := by
  obtain rfl | dedicated := List.mem_cons.mp listed
  · exact ⟨.chat, rfl, fun other => by cases other⟩
  · obtain ⟨environment, loaded⟩ := loaded
    obtain ⟨backend, hbackend, rfl⟩ := Option.map_eq_some_iff.mp (Option.mem_toList.mp dedicated)
    refine ⟨.embeddings, ?_, fun _ => fromEnv_embeddings loaded (Option.isSome_of_eq_some hbackend)⟩
    rw [modelAliasFor, hbackend]
    rfl

theorem chatCompletions_other {modelAlias : Text} {payload : ChatCompletionRequest ν τ}
    (messages : payload.messages ≠ []) (acceptable : ∀ m ∈ payload.messages, m.Acceptable)
    (other : payload.model ≠ modelAlias) :
    ∃ message, chatCompletions modelAlias (.ok payload) =
      .respond (openaiError 400 "model_not_found" message none) := by
  have hmessages : payload.messages.isEmpty = false := List.isEmpty_eq_false_iff.mpr messages
  have hrole : payload.invalidRole = none :=
    invalidRole_eq_none.mpr fun m hm => ((acceptable_iff m).mp (acceptable m hm)).1
  have hcontent : payload.contentError = none :=
    contentError_eq_none.mpr fun m hm => ((acceptable_iff m).mp (acceptable m hm)).2
  simp only [chatCompletions, hmessages, hrole, hcontent, Bool.false_eq_true, if_false,
    if_pos other]
  exact ⟨_, rfl⟩

theorem embeddings_other {payload : EmbeddingsRequest ν} (input : payload.input ≠ .null)
    (other : payload.model ≠ modelAliasFor config .embeddings) :
    ∃ message, embeddings config (.ok payload) =
      .respond (openaiError 400 "model_not_found" message none) := by
  obtain ⟨model, value⟩ := payload
  cases value with
  | null => exact absurd rfl input
  | bool _ | number _ | string _ | array _ | object _ => exact ⟨_, if_pos other⟩

theorem handle_other (usable : request.Usable)
    (other : request.model ≠ some (modelAliasFor config request.kind)) :
    ∃ message, request.handle config =
      .respond (openaiError 400 "model_not_found" message none) := by
  obtain ⟨json, decodes⟩ := usable
  unfold Request.handle
  rw [if_pos json]
  cases request with
  | chat contentType decoded =>
      obtain ⟨payload, rfl, messages, acceptable⟩ := decodes
      exact chatCompletions_other messages acceptable fun same => other (congrArg some same)
  | embeddings contentType decoded =>
      obtain ⟨payload, rfl, input⟩ := decodes
      exact embeddings_other input fun same => other (congrArg some same)

theorem of_modelAliasFor : (Orchestrate.AppConfig.of config).modelAliasFor kind =
    modelAliasFor config kind := by
  cases kind with
  | chat => rfl
  | embeddings =>
      simp only [Orchestrate.AppConfig.modelAliasFor, Orchestrate.AppConfig.of, modelAliasFor]
      cases config.embeddings.backend <;> rfl

end Executed

end LlmWakeProxy.App
