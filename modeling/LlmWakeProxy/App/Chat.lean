import LlmWakeProxy.Forward.Exchange
import LlmWakeProxy.Lifecycle.Types

/-!
The handler of chat completions, up to the orchestrator. A decoded request is
looked at in a fixed order: are there messages, is every role supported, is the
content of every message in order, is the model the configured one. The first
check that fails answers the client.

Of a tool call only its presence is looked at; `τ` is what one decodes to.
-/

namespace LlmWakeProxy.App
open LlmWakeProxy.Forward (Text Value Response openaiError)
open LlmWakeProxy.Lifecycle (LifecycleRequest)

universe u v
variable {ν : Type u} {τ : Type v}

structure ChatMessage (ν : Type u) (τ : Type v) where
  role : Text
  content : Option (Value ν)
  toolCalls : Option (List τ)
  toolCallId : Option Text

structure ChatCompletionRequest (ν : Type u) (τ : Type v) where
  model : Text
  stream : Bool
  messages : List (ChatMessage ν τ)

def supportedRoles : List Text :=
  ["system".toList, "user".toList, "assistant".toList, "tool".toList, "developer".toList]

/-- `is_none_or(Value::is_null)`. -/
def noneOrNull : Option (Value ν) → Bool
  | none | some .null => true
  | some _ => false

namespace ChatMessage

def supported (message : ChatMessage ν τ) : Bool :=
  supportedRoles.contains message.role

def contentError (message : ChatMessage ν τ) : Option String :=
  if message.role = "assistant".toList then
    if message.toolCallId.isSome then
      some "only tool messages may include tool_call_id"
    else if message.toolCalls.any List.isEmpty then
      some "assistant messages tool_calls must not be empty"
    else if noneOrNull message.content && message.toolCalls.isNone then
      some "message content must not be null"
    else none
  else if message.role = "tool".toList then
    if message.toolCalls.isSome then
      some "only assistant messages may include tool_calls"
    else if message.toolCallId.isNone then
      some "tool messages must include tool_call_id"
    else if noneOrNull message.content then
      some "message content must not be null"
    else none
  else
    if message.toolCalls.isSome then
      some "only assistant messages may include tool_calls"
    else if message.toolCallId.isSome then
      some "only tool messages may include tool_call_id"
    else if noneOrNull message.content then
      some "message content must not be null"
    else none

end ChatMessage

namespace ChatCompletionRequest

def invalidRole (payload : ChatCompletionRequest ν τ) : Option Text :=
  (payload.messages.find? fun message => !message.supported).map ChatMessage.role

def contentError (payload : ChatCompletionRequest ν τ) : Option String :=
  payload.messages.findSome? ChatMessage.contentError

end ChatCompletionRequest

/-- What a handler does with a request: it answers, or calls `Orchestrator::execute`. -/
inductive Handling where
  | respond (response : Response)
  | execute (request : LifecycleRequest) (stream : Bool)
  deriving DecidableEq

/-- `chat_completions` on what the body decodes to; the text of a decoding error
has been normalized. -/
def chatCompletions (modelAlias : Text) (decoded : Except String (ChatCompletionRequest ν τ)) :
    Handling :=
  match decoded with
  | .error message => .respond (openaiError 400 "invalid_request_error" message none)
  | .ok payload =>
      if payload.messages.isEmpty then
        .respond (openaiError 400 "invalid_request_error" "messages must not be empty" none)
      else match payload.invalidRole with
      | some role =>
          .respond (openaiError 400 "unsupported_role"
            ("unsupported message role '" ++ String.ofList role ++ "'") none)
      | none =>
          match payload.contentError with
          | some message => .respond (openaiError 400 "invalid_request_error" message none)
          | none =>
              if payload.model ≠ modelAlias then
                .respond (openaiError 400 "model_not_found"
                  ("unsupported model '" ++ String.ofList payload.model ++ "': expected '" ++
                    String.ofList modelAlias ++ "'") none)
              else .execute .chat payload.stream

/-! ### The rule -/

structure ChatMessage.Acceptable (message : ChatMessage ν τ) : Prop where
  role : message.role ∈ supportedRoles
  toolCalls : ∀ calls, message.toolCalls = some calls →
    message.role = "assistant".toList ∧ calls ≠ []
  toolCallId : message.toolCallId.isSome = true ↔ message.role = "tool".toList
  content : message.content = none ∨ message.content = some .null →
    message.role = "assistant".toList ∧ message.toolCalls.isSome = true

theorem noneOrNull_iff {content : Option (Value ν)} :
    noneOrNull content = true ↔ content = none ∨ content = some .null := by
  cases content with
  | none => simp [noneOrNull]
  | some value => cases value <;> simp [noneOrNull]

section
variable {message : ChatMessage ν τ}

theorem contentError_assistant (h : message.role = "assistant".toList) :
    message.contentError = none ↔ message.toolCallId.isSome = false ∧
      (∀ calls, message.toolCalls = some calls → calls ≠ []) ∧
      (noneOrNull message.content = true → message.toolCalls.isSome = true) := by
  unfold ChatMessage.contentError
  rw [if_pos h]
  cases message.toolCallId with
  | some _ => simp
  | none =>
      cases message.toolCalls with
      | none => simp
      | some calls => cases calls <;> simp

theorem contentError_tool (h : message.role = "tool".toList) :
    message.contentError = none ↔ message.toolCalls = none ∧
      message.toolCallId.isSome = true ∧ noneOrNull message.content = false := by
  have other : message.role ≠ "assistant".toList := by
    rw [h]
    decide
  unfold ChatMessage.contentError
  rw [if_neg other, if_pos h]
  cases message.toolCalls with
  | some _ => simp
  | none => cases message.toolCallId <;> simp

theorem contentError_other (assistant : message.role ≠ "assistant".toList)
    (tool : message.role ≠ "tool".toList) :
    message.contentError = none ↔ message.toolCalls = none ∧
      message.toolCallId.isSome = false ∧ noneOrNull message.content = false := by
  unfold ChatMessage.contentError
  rw [if_neg assistant, if_neg tool]
  cases message.toolCalls with
  | some _ => simp
  | none => cases message.toolCallId <;> simp

theorem acceptable_iff (message : ChatMessage ν τ) :
    message.Acceptable ↔ message.supported = true ∧ message.contentError = none := by
  rw [ChatMessage.supported, List.contains_iff_mem]
  by_cases assistant : message.role = "assistant".toList
  · have notTool : message.role ≠ "tool".toList := by
      rw [assistant]
      decide
    rw [contentError_assistant assistant]
    constructor
    · rintro ⟨role, toolCalls, toolCallId, content⟩
      refine ⟨role, ?_, fun calls hcalls => (toolCalls calls hcalls).2, fun null => ?_⟩
      · exact Bool.eq_false_iff.mpr fun hid => notTool (toolCallId.mp hid)
      · exact (content (noneOrNull_iff.mp null)).2
    · rintro ⟨role, toolCallId, toolCalls, content⟩
      refine ⟨role, fun calls hcalls => ⟨assistant, toolCalls calls hcalls⟩, ?_, fun null => ?_⟩
      · exact iff_of_false (Bool.eq_false_iff.mp toolCallId) notTool
      · exact ⟨assistant, content (noneOrNull_iff.mpr null)⟩
  · have rest : message.Acceptable ↔ message.role ∈ supportedRoles ∧ message.toolCalls = none ∧
        (message.toolCallId.isSome = true ↔ message.role = "tool".toList) ∧
        noneOrNull message.content = false := by
      constructor
      · rintro ⟨role, toolCalls, toolCallId, content⟩
        refine ⟨role, ?_, toolCallId, ?_⟩
        · exact Option.eq_none_iff_forall_ne_some.mpr fun calls hcalls =>
            assistant (toolCalls calls hcalls).1
        · exact Bool.eq_false_iff.mpr fun null => assistant (content (noneOrNull_iff.mp null)).1
      · rintro ⟨role, toolCalls, toolCallId, content⟩
        refine ⟨role, fun calls hcalls => ?_, toolCallId, fun null => ?_⟩
        · rw [toolCalls] at hcalls
          cases hcalls
        · rw [noneOrNull_iff.mpr null] at content
          cases content
    rw [rest]
    by_cases tool : message.role = "tool".toList
    · rw [contentError_tool tool]
      simp only [tool, iff_true]
    · rw [contentError_other assistant tool]
      simp only [tool, iff_false, Bool.not_eq_true]

end

/-! ### The handler -/

section
variable {modelAlias : Text} {payload : ChatCompletionRequest ν τ}

theorem invalidRole_eq_none :
    payload.invalidRole = none ↔ ∀ message ∈ payload.messages, message.supported = true := by
  simp [ChatCompletionRequest.invalidRole]

theorem contentError_eq_none :
    payload.contentError = none ↔ ∀ message ∈ payload.messages, message.contentError = none := by
  simp [ChatCompletionRequest.contentError]

/-- The first message with an unsupported role is the one that is named. -/
theorem invalidRole_first {before after : List (ChatMessage ν τ)} {message : ChatMessage ν τ}
    (messages : payload.messages = before ++ message :: after)
    (earlier : ∀ m ∈ before, m.role ∈ supportedRoles)
    (unsupported : message.role ∉ supportedRoles) :
    payload.invalidRole = some message.role := by
  have skipped : before.find? (fun m => !m.supported) = none := by
    simpa [ChatMessage.supported] using earlier
  have found : (!message.supported) = true := by
    simpa [ChatMessage.supported] using unsupported
  rw [ChatCompletionRequest.invalidRole, messages, List.find?_append, skipped, Option.none_or,
    List.find?_cons, found, Option.map_some]

structure Accepted (modelAlias : Text) (payload : ChatCompletionRequest ν τ) : Prop where
  messages : payload.messages ≠ []
  model : payload.model = modelAlias
  acceptable : ∀ message ∈ payload.messages, message.Acceptable

theorem accepted_iff :
    Accepted modelAlias payload ↔ payload.messages.isEmpty = false ∧ payload.invalidRole = none ∧
      payload.contentError = none ∧ payload.model = modelAlias := by
  rw [invalidRole_eq_none, contentError_eq_none, List.isEmpty_eq_false_iff]
  constructor
  · rintro ⟨messages, model, acceptable⟩
    exact ⟨messages, fun m hm => ((acceptable_iff m).mp (acceptable m hm)).1,
      fun m hm => ((acceptable_iff m).mp (acceptable m hm)).2, model⟩
  · rintro ⟨messages, roles, contents, model⟩
    exact ⟨messages, model, fun m hm => (acceptable_iff m).mpr ⟨roles m hm, contents m hm⟩⟩

theorem chatCompletions_execute {request : LifecycleRequest} {stream : Bool} :
    chatCompletions modelAlias (.ok payload) = .execute request stream ↔
      Accepted modelAlias payload ∧ request = .chat ∧ stream = payload.stream := by
  rw [accepted_iff]
  simp only [chatCompletions]
  cases hempty : payload.messages.isEmpty with
  | true => simp
  | false =>
      cases hrole : payload.invalidRole with
      | some role => simp
      | none =>
          cases hcontent : payload.contentError with
          | some message => simp
          | none => by_cases hmodel : payload.model = modelAlias <;> simp [hmodel, eq_comm]

/-- A decoded request is handed to `Orchestrator::execute` exactly when it meets the
rule, and the first unsupported role is named whatever else is wrong. -/
theorem chat_request_validation (modelAlias : Text) (payload : ChatCompletionRequest ν τ) :
    ((∃ request stream, chatCompletions modelAlias (.ok payload) = .execute request stream) ↔
        Accepted modelAlias payload) ∧
      (∀ request stream, chatCompletions modelAlias (.ok payload) = .execute request stream →
        request = .chat ∧ stream = payload.stream) ∧
      ∀ before message after, payload.messages = before ++ message :: after →
        (∀ m ∈ before, m.role ∈ supportedRoles) → message.role ∉ supportedRoles →
        chatCompletions modelAlias (.ok payload) = .respond (openaiError 400 "unsupported_role"
          ("unsupported message role '" ++ String.ofList message.role ++ "'") none) := by
  refine ⟨?_, fun request stream h => (chatCompletions_execute.mp h).2, ?_⟩
  · constructor
    · rintro ⟨request, stream, h⟩
      exact (chatCompletions_execute.mp h).1
    · intro accepted
      exact ⟨.chat, payload.stream, chatCompletions_execute.mpr ⟨accepted, rfl, rfl⟩⟩
  · intro before message after messages earlier unsupported
    have hempty : payload.messages.isEmpty = false := by simp [messages]
    simp only [chatCompletions, hempty, Bool.false_eq_true, if_false,
      invalidRole_first messages earlier unsupported]

/-- A content error in front of an unsupported role does not hide the role. -/
example : chatCompletions "a".toList (.ok { model := "a".toList, stream := false, messages :=
    [{ role := "user".toList, content := none, toolCalls := none, toolCallId := none },
     { role := "robot".toList, content := none, toolCalls := none, toolCallId := none }] } :
      Except String (ChatCompletionRequest Unit Unit)) =
    .respond (openaiError 400 "unsupported_role" "unsupported message role 'robot'" none) := by
  decide

end

end LlmWakeProxy.App
