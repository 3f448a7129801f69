import LlmWakeProxy.Forward.Rewrite

/-!
One exchange with the upstream server, as the future that `forward_streaming`
and `forward_non_streaming` return: the request is sent, possibly reaches the
server, and is answered or fails; the body is read before the call returns,
unless it is streamed, when the response carries it on to the client. The client of
`build_client` has the default redirect policy, so an answer that redirects has the
request sent on, posted again or as a GET without a body.

Of reqwest it is assumed that `is_connect` holds only of errors from before the
request that fails was sent, be it the first or one that follows a redirect.
-/

namespace LlmWakeProxy.Forward

universe u
variable {ν : Type u}

/-- The body of a response of the proxy. -/
inductive Body where
  | error (code message : String)
  | json (text : Text)
  | eventStream (modelAlias : Text)
  deriving DecidableEq, Repr

structure Response where
  status : Nat
  retryAfter : Option String
  body : Body
  deriving DecidableEq, Repr

/-- The response goes on reading the upstream body. -/
def Response.streams (response : Response) : Bool :=
  match response.body with
  | .eventStream _ => true
  | _ => false

def openaiError (status : Nat) (code message : String) (retryAfter : Option String) : Response where
  status := status
  retryAfter := retryAfter
  body := .error code message

/-- What the code looks at in a `reqwest::Error`. -/
structure ReqwestError where
  isConnect : Bool
  isTimeout : Bool
  status : Option Nat
  message : String
  deriving DecidableEq, Repr

inductive ForwardError where
  | upstreamUnreachable
  | upstreamError (status : Nat) (message : String)
  | cancelled
  | embeddingsUnsupported
  deriving DecidableEq, Repr

def ForwardError.ofReqwest (error : ReqwestError) : ForwardError :=
  if error.isConnect || error.isTimeout then .upstreamUnreachable
  else .upstreamError (error.status.getD 502) error.message

def ForwardError.toOpenai : ForwardError → Response
  | .upstreamUnreachable =>
      openaiError 503 "backend_unavailable" "upstream backend is not reachable" none
  | .upstreamError _ message => openaiError 503 "upstream_error" message none
  | .cancelled => openaiError 503 "request_cancelled" "request was cancelled" none
  | .embeddingsUnsupported =>
      openaiError 400 "unsupported_embeddings" "upstream backend does not support embeddings" none

abbrev ForwardResult := Except ForwardError Response

/-- `unwrap_or_else(|e| e.to_openai())`. -/
def unwrapOrOpenai : ForwardResult → Response
  | .ok response => response
  | .error error => error.toOpenai

/-- The arguments of a forward; the body of the request goes through unread. -/
structure ForwardRequest where
  port : UInt16
  path : String
  stream : Bool
  modelAlias : Text

def isSuccess (status : Nat) : Bool :=
  200 ≤ status && status < 300

/-- Whether an answer that redirects has the request posted again; if not, a GET
without a body is made of it. -/
def redirectPosts (status : Nat) : Option Bool :=
  if status = 301 ∨ status = 302 ∨ status = 303 then some false
  else if status = 307 ∨ status = 308 then some true
  else none

/-- `redirect::Policy::default()`. -/
def maxRedirects : Nat := 10

/-- Where a forward stands: awaiting the headers, or the body. The request for the
headers follows so many redirects, is still posted or not, and has or has not been
delivered. -/
inductive ForwardPc where
  | sending (redirects : Nat) (posts delivered : Bool)
  | reading (status : Nat)
  deriving DecidableEq, Repr

@[match_pattern] abbrev ForwardPc.begun : ForwardPc := .sending 0 true false

/-- A server has the request, or has had it. -/
def ForwardPc.reached : ForwardPc → Bool
  | .sending 0 _ false => false
  | _ => true

def ForwardPc.posts : ForwardPc → Bool
  | .sending _ posts _ => posts
  | .reading _ => false

/-- The request is about to be posted. -/
def ForwardPc.sends : ForwardPc → Bool
  | .sending _ posts false => posts
  | _ => false

/-- A redirect had the request posted once more. -/
def ForwardPc.repeating : ForwardPc → Bool
  | .sending (_ + 1) posts _ => posts
  | _ => false

/-- What a forward is resumed with. An answer that redirects is one with a location
to go to; the error of a redirect too many is one of the failures. -/
inductive ForwardInput where
  | deliver
  | failed (error : ReqwestError)
  | redirected (status : Nat)
  | answered (status : Nat)
  | cancelled
  | body (text : Option Text)

inductive ForwardProgress where
  | pending (pc : ForwardPc)
  | done (result : ForwardResult)

/-- What is made of an answer whose body was read; a body that could not be read
counts as empty. -/
def readAnswer (serde : SerdeJson ν) (request : ForwardRequest) (status : Nat) (body : Text) :
    ForwardResult :=
  if !isSuccess status then
    if !request.stream && status = 404 && "/v1/embeddings".toList.isPrefixOf request.path.toList then
      .error .embeddingsUnsupported
    else
      .error (.upstreamError status (String.ofList body))
  else
    .ok { status := 200
          retryAfter := none
          body := .json (rewriteModelAlias serde body request.modelAlias) }

/-- One step of a forward. -/
def forwardStep (serde : SerdeJson ν) (request : ForwardRequest) (isCancelled : Bool) :
    ForwardPc → ForwardInput → Option ForwardProgress
  | .sending redirects posts false, .deliver => some (.pending (.sending redirects posts true))
  | .sending _ _ delivered, .failed error =>
      if error.isConnect && delivered then none
      else some (.done (.error (.ofReqwest error)))
  | .sending redirects posts true, .redirected status =>
      if redirects < maxRedirects then
        (redirectPosts status).map fun again =>
          .pending (.sending (redirects + 1) (posts && again) false)
      else none
  | .sending _ _ true, .answered status =>
      if request.stream && isSuccess status then
        some (.done (.ok { status := 200
                           retryAfter := none
                           body := .eventStream request.modelAlias }))
      else
        some (.pending (.reading status))
  | .sending .., .cancelled =>
      if isCancelled then some (.done (.error .cancelled)) else none
  | .reading status, .body text =>
      some (.done (readAnswer serde request status (text.getD [])))
  | _, _ => none

variable {serde : SerdeJson ν} {request : ForwardRequest} {isCancelled : Bool}

/-- The branches of one step of a forward. -/
inductive ForwardRule (serde : SerdeJson ν) (request : ForwardRequest) (isCancelled : Bool) :
    ForwardPc → ForwardInput → ForwardProgress → Prop
  | delivered (redirects : Nat) (posts : Bool) :
      ForwardRule serde request isCancelled (.sending redirects posts false) .deliver
        (.pending (.sending redirects posts true))
  | failed (redirects : Nat) (posts delivered : Bool) (error : ReqwestError)
      (early : error.isConnect = true → delivered = false) :
      ForwardRule serde request isCancelled (.sending redirects posts delivered) (.failed error)
        (.done (.error (.ofReqwest error)))
  | redirected (redirects : Nat) (posts again : Bool) (status : Nat)
      (few : redirects < maxRedirects) (redirect : redirectPosts status = some again) :
      ForwardRule serde request isCancelled (.sending redirects posts true) (.redirected status)
        (.pending (.sending (redirects + 1) (posts && again) false))
  | streamed (redirects : Nat) (posts : Bool) (status : Nat) (stream : request.stream = true)
      (success : isSuccess status = true) :
      ForwardRule serde request isCancelled (.sending redirects posts true) (.answered status)
        (.done (.ok { status := 200
                      retryAfter := none
                      body := .eventStream request.modelAlias }))
  | answered (redirects : Nat) (posts : Bool) (status : Nat)
      (unstreamed : ¬ (request.stream = true ∧ isSuccess status = true)) :
      ForwardRule serde request isCancelled (.sending redirects posts true) (.answered status)
        (.pending (.reading status))
  | cancelled (redirects : Nat) (posts delivered : Bool) (flag : isCancelled = true) :
      ForwardRule serde request isCancelled (.sending redirects posts delivered) .cancelled
        (.done (.error .cancelled))
  | read (status : Nat) (text : Option Text) :
      ForwardRule serde request isCancelled (.reading status) (.body text)
        (.done (readAnswer serde request status (text.getD [])))

theorem forwardStep_cases {pc : ForwardPc} {input : ForwardInput} {progress : ForwardProgress}
    (h : forwardStep serde request isCancelled pc input = some progress) :
    ForwardRule serde request isCancelled pc input progress := by
  unfold forwardStep at h
  split at h
  next redirects posts =>
    cases h
    exact .delivered redirects posts
  next redirects posts delivered error =>
    split at h
    next => cases h
    next early =>
      cases h
      refine .failed redirects posts delivered error fun connect => ?_
      simpa [connect] using early
  next redirects posts status =>
    split at h
    next few =>
      obtain ⟨again, redirect, rfl⟩ := Option.map_eq_some_iff.mp h
      exact .redirected redirects posts again status few redirect
    next => cases h
  next redirects posts status =>
    split at h
    next streamed =>
      cases h
      exact .streamed redirects posts status (Bool.and_eq_true_iff.mp streamed).1
        (Bool.and_eq_true_iff.mp streamed).2
    next unstreamed =>
      cases h
      exact .answered redirects posts status (by simpa using unstreamed)
  next redirects posts delivered =>
    split at h
    next flag =>
      cases h
      exact .cancelled redirects posts delivered flag
    next => cases h
  next status text =>
    cases h
    exact .read status text
  next => cases h

/-- The branches of `readAnswer`. -/
inductive AnswerReading (serde : SerdeJson ν) (request : ForwardRequest) (status : Nat)
    (body : Text) : ForwardResult → Prop
  | rewritten (success : isSuccess status = true) :
      AnswerReading serde request status body
        (.ok { status := 200
               retryAfter := none
               body := .json (rewriteModelAlias serde body request.modelAlias) })
  | unsupported (failure : isSuccess status = false) (unstreamed : request.stream = false)
      (notFound : status = 404)
      (path : "/v1/embeddings".toList.isPrefixOf request.path.toList = true) :
      AnswerReading serde request status body (.error .embeddingsUnsupported)
  | upstreamError (failure : isSuccess status = false) :
      AnswerReading serde request status body (.error (.upstreamError status (String.ofList body)))

theorem readAnswer_cases (serde : SerdeJson ν) (request : ForwardRequest) (status : Nat)
    (body : Text) :
    AnswerReading serde request status body (readAnswer serde request status body) := by
  unfold readAnswer
  split
  next failed =>
    have failure : isSuccess status = false := by simpa using failed
    split
    next unsupported =>
      simp only [Bool.and_eq_true, Bool.not_eq_true', decide_eq_true_eq] at unsupported
      obtain ⟨⟨unstreamed, notFound⟩, path⟩ := unsupported
      exact .unsupported failure unstreamed notFound path
    next => exact .upstreamError failure
  next success => exact .rewritten (by simpa using success)

/-- The upstream counts as unreachable when the request that was under way could not be
sent for want of a connection, and when it timed out. -/
theorem unreachable_of_forwardStep {pc : ForwardPc} {input : ForwardInput}
    (h : forwardStep serde request isCancelled pc input =
      some (.done (.error .upstreamUnreachable))) :
    ∃ redirects posts delivered error, pc = .sending redirects posts delivered ∧
      input = .failed error ∧ ((error.isConnect = true ∧ delivered = false) ∨
        error.isTimeout = true) := by
  generalize hprogress : ForwardProgress.done (.error .upstreamUnreachable) = progress at h
  cases forwardStep_cases h with
  | failed redirects posts delivered error early =>
      refine ⟨redirects, posts, delivered, error, rfl, rfl, ?_⟩
      have hclass := Except.error.inj (ForwardProgress.done.inj hprogress)
      unfold ForwardError.ofReqwest at hclass
      split at hclass
      next unreachable =>
        obtain connect | timeout := Bool.or_eq_true_iff.mp unreachable
        · exact .inl ⟨connect, early connect⟩
        · exact .inr timeout
      next => cases hclass
  | read status text =>
      have reading := readAnswer_cases serde request status (text.getD [])
      rw [← ForwardProgress.done.inj hprogress] at reading
      cases reading
  | delivered _ _ | redirected _ _ _ _ _ _ | streamed _ _ _ _ _ | answered _ _ _ _
  | cancelled _ _ _ _ => cases hprogress

/-- A forward finds the embeddings unsupported when it asked for them, not as a
stream, and was answered 404. -/
theorem unsupported_of_forwardStep {pc : ForwardPc} {input : ForwardInput}
    (h : forwardStep serde request isCancelled pc input =
      some (.done (.error .embeddingsUnsupported))) :
    ∃ text, pc = .reading 404 ∧ input = .body text ∧ request.stream = false ∧
      "/v1/embeddings".toList.isPrefixOf request.path.toList = true := by
  generalize hprogress : ForwardProgress.done (.error .embeddingsUnsupported) = progress at h
  cases forwardStep_cases h with
  | read status text =>
      have reading := readAnswer_cases serde request status (text.getD [])
      rw [← ForwardProgress.done.inj hprogress] at reading
      cases reading with
      | unsupported _ unstreamed notFound path =>
          subst notFound
          exact ⟨text, rfl, rfl, unstreamed, path⟩
  | failed _ _ _ error _ =>
      have hclass := Except.error.inj (ForwardProgress.done.inj hprogress)
      unfold ForwardError.ofReqwest at hclass
      split at hclass <;> cases hclass
  | delivered _ _ | redirected _ _ _ _ _ _ | streamed _ _ _ _ _ | answered _ _ _ _
  | cancelled _ _ _ _ => cases hprogress

end LlmWakeProxy.Forward
