import LlmWakeProxy.Library.Transition
import LlmWakeProxy.Lifecycle.Observe

/-!
The lifecycle manager as a transition system: any number of clients calling
`ensure_backend`, `mark_warming` and `degrade_embeddings`, and the background
tasks they spawn, interleaved at every status borrow, publication, section of
the bootstrap mutex and port call.

A client makes one call at a time and may make another when it has returned. A
client's future can be dropped where it is suspended. `mark_warming` is followed
by the caller's own `ensure_backend` on the path that retries an unreachable
upstream; such a call is marked `retrying` until it has joined or led a round.
-/

namespace LlmWakeProxy.Lifecycle
open LlmWakeProxy.Library

/-- A call of `ensure_backend`: its argument and whether it follows the caller's
own `mark_warming`. -/
structure Caller where
  request : LifecycleRequest
  retrying : Bool
  deriving DecidableEq, Repr

/-- A subscription, with the version that was the latest when it was made by
`start_or_join_bootstrap`. -/
structure Wait where
  joinedAt : Nat
  rx : Receiver
  deriving DecidableEq, Repr

/-- Where a client stands in its current call. -/
inductive ClientPc where
  | idle
  | markBorrow (next : Option LifecycleRequest)
  | markPublish (next : Option LifecycleRequest) (draft : Draft)
  | degradeBorrow (reason : String)
  | degradePublish (draft : Draft)
  | ensure (caller : Caller)
  | checkActive (caller : Caller) (initial : Draft)
  | startOrJoin (caller : Caller) (initial : Draft)
  | leadRequest (request : LifecycleRequest) (initial : Draft) (wait : Wait)
  | lead (request observeRequest : LifecycleRequest) (wait : Wait) (pc : ObservePc)
  | leadReread (status : BackendStatus)
  | leadFinish (draft : Draft) (error : Option LifecycleError) (decision : LifecycleDecision)
  | waitEnter (wait : Wait)
  | waitBorrow (wait : Wait) (deadline : Instant)
  | waitLock (wait : Wait) (deadline : Instant) (draft : Draft)
  | waitChanged (wait : Wait) (deadline : Instant) (staleBootstrapView : Bool)
  | waitTimedOut (staleBootstrapView : Bool)
  | returned (decision : LifecycleDecision)
  | dropped
  | panicked
  deriving DecidableEq, Repr

inductive Input where
  | run
  | answer (answer : Answer)
  | timeout

/-- The calls of `LifecycleOrchestrator`, `markThenEnsure` being the two calls
of the retry path. -/
inductive Op where
  | ensureBackend (request : LifecycleRequest)
  | markWarming
  | markThenEnsure (request : LifecycleRequest)
  | degradeEmbeddings (reason : String)

def Op.entry : Op → ClientPc
  | .ensureBackend request => .ensure { request := request, retrying := false }
  | .markWarming => .markBorrow none
  | .markThenEnsure request => .markBorrow (some request)
  | .degradeEmbeddings reason => .degradeBorrow reason

def afterMark : Option LifecycleRequest → ClientPc
  | none => .idle
  | some request => .ensure { request := request, retrying := true }

/-- The checks `wait_for_ready_or_timeout` makes on one sample: the borrowed
status, then the mutex. `none` means it goes on waiting. -/
def waitVerdict (timing : LifecycleTiming) (bootstrap : BootstrapState) (instant deadline : Instant)
    (status : BackendStatus) (staleBootstrapView : Bool) : Option LifecycleDecision :=
  if !staleBootstrapView && backendIsReady status then
    some (.ready status)
  else if !staleBootstrapView && status.lifecycle = .error then
    some (.failed status (bootstrap.lastError.getD backendReportedErrorState))
  else if deadline ≤ instant then
    some (.warming (bootstrapWaitStatus status staleBootstrapView) timing.retryAfterSecs)
  else
    none

def staleBootstrapView (bootstrap : BootstrapState) (status : BackendStatus) : Bool :=
  bootstrap.active && status.lifecycle ≠ .warming

def clientStep (timing : LifecycleTiming) (core : Core) : ClientPc → Input → Option (Core × ClientPc)
  -- `mark_warming`
  | .markBorrow next, .run => some (core, .markPublish next (core.borrow.edit .warmed))
  | .markPublish next draft, .run => some (core.publish .markWarming draft, afterMark next)
  -- `degrade_embeddings`
  | .degradeBorrow reason, .run =>
      some (core, .degradePublish (core.borrow.edit (·.degraded reason)))
  | .degradePublish draft, .run => some (core.publish .degradeEmbeddings draft, .idle)
  -- `ensure_backend`
  | .ensure caller, .run => some (core, .checkActive caller core.borrow)
  | .checkActive caller initial, .run =>
      if !core.bootstrap.active && backendIsReady initial.status then
        some (core, .returned (.ready initial.status))
      else
        some (core, .startOrJoin caller initial)
  | .startOrJoin caller initial, .run =>
      let (shouldStart, bootstrap) := startOrJoinBootstrap core.bootstrap caller.request
      let wait : Wait := { joinedAt := core.status.version, rx := core.status.subscribe }
      let joined := { core with bootstrap := bootstrap }
      if shouldStart then
        some (joined.emit (.roundBegun caller.request initial.status),
          .leadRequest caller.request initial wait)
      else
        some (joined, .waitEnter wait)
  | .leadRequest request initial wait, .run =>
      some (core, .lead request core.bootstrap.observeRequest wait (.sshIsReady initial))
  | .lead request observeRequest wait pc, .answer answer =>
      (observeOnce core (some request) observeRequest pc answer).map fun (core, observation) =>
        match observation with
        | .pending pc => (core, .lead request observeRequest wait pc)
        | .ready draft => (core, .leadReread draft.status)
        | .warming _ => (core.spawnBootstrap, .waitEnter wait)
        | .failed draft error =>
            (core, .leadFinish draft (some error) (.failed draft.status error))
  | .leadReread status, .run => some (core, .leadFinish core.borrow none (.ready status))
  | .leadFinish draft error decision, .run =>
      some (core.finishBootstrap draft error, .returned decision)
  -- `wait_for_ready_or_timeout`
  | .waitEnter wait, .run =>
      match Instant.add? core.instant (Duration.fromSecs timing.coldWaitBudgetSecs) with
      | none => some (core, .panicked)
      | some deadline => some (core, .waitBorrow wait deadline)
  | .waitBorrow wait deadline, .run => some (core, .waitLock wait deadline core.borrow)
  | .waitLock wait deadline draft, .run =>
      let stale := staleBootstrapView core.bootstrap draft.status
      match waitVerdict timing core.bootstrap core.instant deadline draft.status stale with
      | some decision =>
          some (core.emit (.waiterReturned wait.joinedAt draft.base decision), .returned decision)
      | none => some (core, .waitChanged wait deadline stale)
  | .waitChanged wait deadline _, .run =>
      if core.status.hasChanged wait.rx then
        some (core, .waitBorrow { wait with rx := core.status.subscribe } deadline)
      else none
  -- `timeout` polls the receiver before the timer
  | .waitChanged wait deadline stale, .timeout =>
      if !core.status.hasChanged wait.rx && decide (deadline ≤ core.instant) then
        some (core, .waitTimedOut stale)
      else none
  | .waitTimedOut stale, .run =>
      some (core, .returned
        (.warming (bootstrapWaitStatus core.status.value stale) timing.retryAfterSecs))
  | _, _ => none

/-- The deadline exits of `start_bootstrap`. -/
def deadlineExit (core : Core) : TaskPc :=
  .finish (core.borrow.edit .failed) (some bootDeadlineError)

def taskStep (timing : LifecycleTiming) (core : Core) : TaskPc → Input → Option (Core × TaskPc)
  | .start, .run =>
      match bootstrapDeadline timing core.status.value.lastWakeAttemptAt core.clock core.instant with
      | none => some (core, .panicked)
      | some deadline => some (core, .top deadline)
  | .top deadline, .run =>
      if deadline ≤ core.instant then
        some (core, deadlineExit core)
      else
        let pollInterval := Duration.fromMillis timing.bootstrapPollIntervalMillis
        let wakeAt :=
          if pollInterval = 0 then core.instant else sleepDeadline core.instant pollInterval
        some (core, .sleeping deadline wakeAt)
  | .sleeping deadline wakeAt, .run =>
      if core.instant < wakeAt then none
      else if deadline ≤ core.instant then some (core, deadlineExit core)
      else some (core, .readRequest deadline core.borrow)
  | .readRequest deadline draft, .run =>
      some (core, .observe deadline core.bootstrap.observeRequest (.sshIsReady draft))
  | .observe deadline observeRequest pc, .answer answer =>
      (observeOnce core none observeRequest pc answer).map fun (core, observation) =>
        match observation with
        | .pending pc => (core, .observe deadline observeRequest pc)
        | .ready draft => (core, .finish draft none)
        | .warming _ => (core, .top deadline)
        | .failed draft error => (core, .finish draft (some error))
  | .finish draft error, .run => some (core.finishBootstrap draft error, .done)
  | _, _ => none

/-- The places where a client's future is suspended and can be dropped. -/
def ClientPc.suspended : ClientPc → Bool
  | .checkActive .. | .startOrJoin .. | .leadRequest .. | .lead .. | .leadFinish ..
  | .waitLock .. | .waitChanged .. => true
  | _ => false

def ClientPc.free : ClientPc → Bool
  | .idle | .returned _ => true
  | _ => false

structure Manager where
  core : Core
  clients : List ClientPc

/-- `LifecycleManager::new_with_timing`, with the number of clients it will have. -/
def Manager.new (clients : Nat) (initialStatus : BackendStatus) (instant : Instant)
    (clock : Timestamp) : Manager where
  core :=
    { status := { value := initialStatus, version := 0 }
      bootstrap := .default
      tasks := []
      instant := instant
      clock := clock
      log := [] }
  clients := List.replicate clients .idle

inductive Action where
  | begin (client : Nat) (op : Op)
  | client (client : Nat) (input : Input)
  | drop (client : Nat)
  | task (task : Nat) (input : Input)
  | elapse (span : Duration) (clock : Timestamp)

def Manager.step (timing : LifecycleTiming) (s : Manager) : Action → Option Manager
  | .begin i op => do
      let pc ← s.clients[i]?
      if pc.free then some { s with clients := s.clients.set i op.entry } else none
  | .client i input => do
      let pc ← s.clients[i]?
      let (core, pc') ← clientStep timing s.core pc input
      some { core := core, clients := s.clients.set i pc' }
  | .drop i => do
      let pc ← s.clients[i]?
      if pc.suspended then some { s with clients := s.clients.set i .dropped } else none
  | .task i input => do
      let pc ← s.core.tasks[i]?
      let (core, pc') ← taskStep timing s.core pc input
      some { s with core := { core with tasks := core.tasks.set i pc' } }
  | .elapse span clock =>
      some { s with core := { s.core with instant := s.core.instant + span, clock := clock } }

def lifecycle (timing : LifecycleTiming) : System Manager Action where
  step := Manager.step timing

/-- The only calls made are calls of `ensure_backend`. -/
def EnsureCalls (_ : Manager) : Action → Prop
  | .begin _ (.ensureBackend _) => True
  | .begin _ _ => False
  | _ => True

instance (s : Manager) (a : Action) : Decidable (EnsureCalls s a) :=
  match a with
  | .begin _ (.ensureBackend _) => .isTrue trivial
  | .begin _ .markWarming | .begin _ (.markThenEnsure _) | .begin _ (.degradeEmbeddings _) =>
      .isFalse id
  | .client _ _ | .drop _ | .task _ _ | .elapse _ _ => .isTrue trivial

end LlmWakeProxy.Lifecycle
