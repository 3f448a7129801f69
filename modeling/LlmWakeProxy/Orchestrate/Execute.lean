import LlmWakeProxy.Scheduler.Execute
import LlmWakeProxy.Forward.Exchange

/-!
`Orchestrator::execute` as a transition system: any number of calls over one
`AppState`, interleaved at every access to the state they share. What the
lifecycle answers is an input here, so that it may answer anything; the upstream
server likewise. Call `i` of the orchestrator makes call `i` of the scheduler.

A call's future can be dropped where it awaits, and what it awaits can panic;
either way its locals are dropped from the inside out, the cold-start permit
last. The response of a streamed request holds the upstream response, whose body
is relayed after the call has returned.
-/

namespace LlmWakeProxy.Orchestrate
open LlmWakeProxy.Library LlmWakeProxy.Scheduler LlmWakeProxy.Forward
open LlmWakeProxy.Lifecycle (LifecycleRequest LifecycleDecision BackendStatus TunnelState Instant
  Duration)

universe u
variable {ν : Type u}

structure EmbeddingsBackend where
  modelAlias : Text
  tunnelLocalPort : UInt16

/-- The part of `AppConfig` that requests are handled with. -/
structure AppConfig where
  modelAlias : Text
  tunnelLocalPort : UInt16
  embeddingsBackend : Option EmbeddingsBackend
  warmExecution : WarmExecutionConfig
  coldStartMaxWaiting : Nat

def AppConfig.modelAliasFor (config : AppConfig) : LifecycleRequest → Text
  | .chat => config.modelAlias
  | .embeddings => (config.embeddingsBackend.map (·.modelAlias)).getD config.modelAlias

def AppConfig.tunnelPortFor (config : AppConfig) : LifecycleRequest → UInt16
  | .chat => config.tunnelLocalPort
  | .embeddings => (config.embeddingsBackend.map (·.tunnelLocalPort)).getD config.tunnelLocalPort

/-- The counters `Orchestrator` increments. -/
structure Metrics where
  coldStarts : Nat
  warmRequests : Nat
  queueFullRejections : Nat
  queueTimeouts : Nat
  wakeAttempts : Nat
  wakeFailures : Nat
  tunnelDrops : Nat
  embeddingsDegraded : Nat
  forwardingErrors : Nat
  deriving DecidableEq, Repr

def Metrics.default : Metrics where
  coldStarts := 0
  warmRequests := 0
  queueFullRejections := 0
  queueTimeouts := 0
  wakeAttempts := 0
  wakeFailures := 0
  tunnelDrops := 0
  embeddingsDegraded := 0
  forwardingErrors := 0

namespace Metrics

def incWarmRequests (m : Metrics) : Metrics := { m with warmRequests := m.warmRequests + 1 }
def incQueueFull (m : Metrics) : Metrics := { m with queueFullRejections := m.queueFullRejections + 1 }
def incQueueTimeouts (m : Metrics) : Metrics := { m with queueTimeouts := m.queueTimeouts + 1 }
def incWakeFailures (m : Metrics) : Metrics := { m with wakeFailures := m.wakeFailures + 1 }
def incTunnelDrops (m : Metrics) : Metrics := { m with tunnelDrops := m.tunnelDrops + 1 }
def incEmbeddingsDegraded (m : Metrics) : Metrics :=
  { m with embeddingsDegraded := m.embeddingsDegraded + 1 }
def incForwardingErrors (m : Metrics) : Metrics := { m with forwardingErrors := m.forwardingErrors + 1 }

/-- `inc_cold_starts` and `inc_wake_attempts`, which always go together. -/
def incColdStarts (m : Metrics) : Metrics :=
  { m with coldStarts := m.coldStarts + 1, wakeAttempts := m.wakeAttempts + 1 }

end Metrics

/-- Where a call of `execute` stands. -/
inductive ExecPc where
  | idle
  -- `acquire_cold_permit`
  | isCold
  | coldPermit
  -- the first `ensure_backend`
  | ensureBackend
  | awaitDecision
  -- `handle_ready`
  | handleReady (status : BackendStatus)
  -- `forward_via_scheduler`
  | execute
  | scheduled
  | degrade (reason : String)
  | awaitDegraded (reason : String)
  | markWarming
  | awaitRetryDecision
  | retrying (pc : ForwardPc)
  -- the response is made, and sent
  | returning (response : Response)
  | relaying
  | responded
  -- the future is dropped or unwinds
  | unwinding
  | unwound
  | dropped

/-- A call: its arguments, whether it holds a cold-start permit, and where it stands. -/
structure Exec where
  kind : LifecycleRequest
  stream : Bool
  holdsColdPermit : Bool
  pc : ExecPc

/-- What happened, for the record: a request reaches the upstream, or is posted to where
the upstream redirects it. -/
inductive Event where
  | delivered (exec : Nat)
  | redelivered (exec : Nat)
  | forwarded (exec : Nat) (result : ForwardResult)
  | degraded (exec : Nat) (reason : String)
  | responded (exec : Nat) (response : Response)

inductive Input where
  | enter (kind : LifecycleRequest) (stream : Bool)
  | run
  | status (status : BackendStatus)
  | call
  | decide (decision : LifecycleDecision)
  | degraded
  | forward (input : ForwardInput)
  | relayed
  | unwind (panicked : Bool)

inductive Action where
  | exec (exec : Nat) (input : Input)
  | elapse (span : Duration)

/-- The `AppState` that the calls share, without the lifecycles, and the calls. -/
structure Orchestrator where
  scheduler : WarmExecutionScheduler ForwardPc ForwardResult
  metrics : Metrics
  prevChatTunnelWasReady : Bool
  prevEmbeddingsTunnelWasReady : Bool
  coldStartSemaphore : Semaphore Nat
  execs : List Exec
  log : List Event

def path : LifecycleRequest → String
  | .chat => "/v1/chat/completions"
  | .embeddings => "/v1/embeddings"

def warmExecutionErrorResponse (error : WarmExecutionError) : Response :=
  openaiError 429 "overloaded" error.message none

def queueIsFull : Response :=
  openaiError 503 "warming_up" "cold-start queue is full, retry later" (some "10")

def stillStarting (retryAfterSecs : UInt64) : Response :=
  openaiError 503 "warming_up" "backend is still starting" (some (toString retryAfterSecs))

def backendError (message : String) : Response :=
  openaiError 503 "backend_error" message none

def embeddingsAreDegraded (reason : Option String) : Response :=
  openaiError 400 "unsupported_embeddings" (reason.getD "embeddings are degraded") none

def embeddingDegradationResponse (reason : String) : Response :=
  openaiError 400 "unsupported_embeddings"
    ("upstream backend does not support embeddings: " ++ reason) none

def Exec.request (config : AppConfig) (exec : Exec) : ForwardRequest where
  port := config.tunnelPortFor exec.kind
  path := path exec.kind
  stream := exec.stream
  modelAlias := config.modelAliasFor exec.kind

def deliveryOf (i : Nat) : ForwardPc → ForwardInput → List Event
  | .sending 0 _ _, .deliver => [.delivered i]
  | .sending (_ + 1) true _, .deliver => [.redelivered i]
  | _, _ => []

def Exec.goto (exec : Exec) (pc : ExecPc) : Exec :=
  { exec with pc := pc }

namespace Orchestrator

/-- A fresh `AppState`, with the number of calls there will be. -/
def new (config : AppConfig) (execs : Nat) (instant : Instant) : Orchestrator where
  scheduler := .new config.warmExecution execs instant
  metrics := .default
  prevChatTunnelWasReady := false
  prevEmbeddingsTunnelWasReady := false
  coldStartSemaphore := .new config.coldStartMaxWaiting
  execs := List.replicate execs
    { kind := .chat, stream := false, holdsColdPermit := false, pc := .idle }
  log := []

def put (s : Orchestrator) (i : Nat) (exec : Exec) : Orchestrator :=
  { s with execs := s.execs.set i exec }

def emit (s : Orchestrator) (event : Event) : Orchestrator :=
  { s with log := event :: s.log }

def count (s : Orchestrator) (inc : Metrics → Metrics) : Orchestrator :=
  { s with metrics := inc s.metrics }

/-- `check_tunnel_drop`: swap the flag of the kind and count a drop. -/
def checkTunnelDrop (s : Orchestrator) (kind : LifecycleRequest) (tunnel : TunnelState) :
    Orchestrator :=
  let isReady := decide (tunnel = .ready)
  match kind with
  | .chat =>
      let s' := { s with prevChatTunnelWasReady := isReady }
      if s.prevChatTunnelWasReady && !isReady then s'.count Metrics.incTunnelDrops else s'
  | .embeddings =>
      let s' := { s with prevEmbeddingsTunnelWasReady := isReady }
      if s.prevEmbeddingsTunnelWasReady && !isReady then s'.count Metrics.incTunnelDrops else s'

def drive (config : AppConfig) (s : Orchestrator) (i : Nat)
    (input : Scheduler.Input ForwardPc ForwardResult) : Option Orchestrator :=
  (s.scheduler.step config.warmExecution .begun (.call i input)).map fun scheduler =>
    { s with scheduler := scheduler }

/-- The call ends: its cold-start permit is dropped. -/
def dropColdPermit (s : Orchestrator) (i : Nat) (exec : Exec) (pc : ExecPc) : Orchestrator :=
  { s with coldStartSemaphore :=
             if exec.holdsColdPermit then s.coldStartSemaphore.release.2
             else s.coldStartSemaphore }.put i
    { exec with holdsColdPermit := false, pc := pc }

def afterDecision (s : Orchestrator) (i : Nat) (exec : Exec) : LifecycleDecision → Orchestrator
  | .ready status => s.put i (exec.goto (.handleReady status))
  | .warming _ retryAfterSecs =>
      (s.count Metrics.incColdStarts).put i (exec.goto (.returning (stillStarting retryAfterSecs)))
  | .failed _ error =>
      (s.count Metrics.incWakeFailures).put i (exec.goto (.returning (backendError error.message)))

/-- What follows a decision of the `ensure_backend` that an unreachable upstream led to. -/
def afterRetryDecision (s : Orchestrator) (i : Nat) (exec : Exec) :
    LifecycleDecision → Orchestrator
  | .ready _ => s.put i (exec.goto (.retrying .begun))
  | .warming _ retryAfterSecs => s.put i (exec.goto (.returning (stillStarting retryAfterSecs)))
  | .failed _ error => s.put i (exec.goto (.returning (backendError error.message)))

def afterExecute (s : Orchestrator) (i : Nat) (exec : Exec) :
    Except WarmExecutionError ForwardResult → Orchestrator
  | .ok (.ok response) =>
      (s.count Metrics.incWarmRequests).put i (exec.goto (.returning response))
  | .ok (.error .embeddingsUnsupported) =>
      (s.count Metrics.incEmbeddingsDegraded).put i (exec.goto (.degrade "upstream returned 404"))
  | .ok (.error .upstreamUnreachable) =>
      (s.count Metrics.incColdStarts).put i (exec.goto .markWarming)
  | .ok (.error error) =>
      (s.count Metrics.incForwardingErrors).put i (exec.goto (.returning error.toOpenai))
  | .error .queueFull =>
      (s.count Metrics.incQueueFull).put i
        (exec.goto (.returning (warmExecutionErrorResponse .queueFull)))
  | .error .queueTimeout =>
      (s.count Metrics.incQueueTimeouts).put i
        (exec.goto (.returning (warmExecutionErrorResponse .queueTimeout)))

def noteDelivery (s : Orchestrator) (i : Nat) (pc : ForwardPc) (input : ForwardInput) :
    Orchestrator :=
  { s with log := deliveryOf i pc input ++ s.log }

/-- The first forward of a call runs inside the scheduler's call. -/
def forwardScheduled (serde : SerdeJson ν) (config : AppConfig) (s : Orchestrator) (i : Nat)
    (exec : Exec) (input : ForwardInput) : Option Orchestrator := do
  let call ← s.scheduler.calls[i]?
  match call.pc with
  | .running pc =>
      match ← forwardStep serde (exec.request config) call.cancelled pc input with
      | .pending after => (s.noteDelivery i pc input).drive config i (.operate after)
      | .done result => (s.emit (.forwarded i result)).drive config i (.complete result)
  | _ => none

/-- The second one does not, and has a cancellation of its own that nobody cancels. -/
def forwardRetry (serde : SerdeJson ν) (config : AppConfig) (s : Orchestrator) (i : Nat)
    (exec : Exec) (pc : ForwardPc) (input : ForwardInput) : Option Orchestrator :=
  (forwardStep serde (exec.request config) false pc input).map fun
    | .pending after => (s.noteDelivery i pc input).put i (exec.goto (.retrying after))
    | .done result =>
        (s.emit (.forwarded i result)).put i (exec.goto (.returning (unwrapOrOpenai result)))

/-- Resuming a call between its awaits. -/
def execRun (config : AppConfig) (s : Orchestrator) (i : Nat) (exec : Exec) : Option Orchestrator :=
  match exec.pc with
  | .coldPermit =>
      match s.coldStartSemaphore.tryAcquire with
      | some semaphore =>
          some ({ s with coldStartSemaphore := semaphore }.put i
            { exec with holdsColdPermit := true, pc := .ensureBackend })
      | none => some (s.put i (exec.goto (.returning queueIsFull)))
  | .handleReady status =>
      let s' := s.checkTunnelDrop exec.kind status.tunnel
      if exec.kind = .embeddings ∧ status.embeddings = .degraded then
        some (s'.put i (exec.goto (.returning (embeddingsAreDegraded status.embeddingsReason))))
      else
        some (s'.put i (exec.goto .execute))
  | .execute => (s.drive config i .enter).map fun s => s.put i (exec.goto .scheduled)
  | .scheduled => do
      let s ← s.drive config i .run
      let call ← s.scheduler.calls[i]?
      match call.pc with
      | .returned outcome => some (s.afterExecute i exec outcome)
      | _ => some s
  | .returning response =>
      some ((s.emit (.responded i response)).dropColdPermit i exec
        (if response.streams then .relaying else .responded))
  | .unwinding => do
      let s ← s.drive config i .run
      let call ← s.scheduler.calls[i]?
      match call.pc with
      | .dropped | .panicked => some (s.put i (exec.goto .unwound))
      | _ => some s
  | .unwound => some (s.dropColdPermit i exec .dropped)
  | _ => none

def execStep (serde : SerdeJson ν) (config : AppConfig) (s : Orchestrator) (i : Nat) (exec : Exec) :
    Input → Option Orchestrator
  | .enter kind stream =>
      match exec.pc with
      | .idle => some (s.put i { exec with kind := kind, stream := stream, pc := .isCold })
      | _ => none
  | .run => s.execRun config i exec
  | .status status =>
      match exec.pc with
      | .isCold =>
          some (s.put i (exec.goto
            (if status.lifecycle = .cold then .coldPermit else .ensureBackend)))
      | _ => none
  | .call =>
      match exec.pc with
      | .ensureBackend => some (s.put i (exec.goto .awaitDecision))
      | .degrade reason => some (s.put i (exec.goto (.awaitDegraded reason)))
      | .markWarming => some (s.put i (exec.goto .awaitRetryDecision))
      | _ => none
  | .decide decision =>
      match exec.pc with
      | .awaitDecision => some (s.afterDecision i exec decision)
      | .awaitRetryDecision => some (s.afterRetryDecision i exec decision)
      | _ => none
  | .degraded =>
      match exec.pc with
      | .awaitDegraded reason =>
          some ((s.emit (.degraded i reason)).put i
            (exec.goto (.returning (embeddingDegradationResponse reason))))
      | _ => none
  | .forward input =>
      match exec.pc with
      | .scheduled => s.forwardScheduled serde config i exec input
      | .retrying pc => s.forwardRetry serde config i exec pc input
      | _ => none
  | .relayed =>
      match exec.pc with
      | .relaying => some (s.put i (exec.goto .responded))
      | _ => none
  | .unwind panicked =>
      match exec.pc with
      | .awaitDecision | .awaitDegraded _ | .awaitRetryDecision | .retrying _ =>
          some (s.put i (exec.goto .unwound))
      | .scheduled =>
          (s.drive config i (if panicked then .panic else .drop)).map fun s =>
            s.put i (exec.goto .unwinding)
      | _ => none

def step (serde : SerdeJson ν) (config : AppConfig) (s : Orchestrator) :
    Action → Option Orchestrator
  | .exec i input => do
      let exec ← s.execs[i]?
      s.execStep serde config i exec input
  | .elapse span =>
      (s.scheduler.step config.warmExecution .begun (.elapse span)).map fun scheduler =>
        { s with scheduler := scheduler }

end Orchestrator

def orchestrator (serde : SerdeJson ν) (config : AppConfig) : System Orchestrator Action where
  step := Orchestrator.step serde config

end LlmWakeProxy.Orchestrate
