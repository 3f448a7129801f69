import LlmWakeProxy.Library.Watch
import LlmWakeProxy.Lifecycle.Types

/-!
The shared core of a lifecycle manager and one pass of `observe_once` over it.

`observe_once` is suspended at every port call. An `ObservePc` names the call it
waits for and holds the local `status` it edits. A step takes the port's answer,
does the local work up to the next call, publication or return, and says which.
An answer may arrive arbitrarily late, so running the publication that follows
it in the same step loses no interleaving.

Two things are recorded that the program does not keep: a draft remembers which
version it was borrowed from and which version was the latest when its helper
observation began, and the core keeps the list of port calls, publications and
waiter results, latest first. No step reads them.
-/

namespace LlmWakeProxy.Lifecycle
open LlmWakeProxy.Library

/-- A local `status` variable with its provenance. -/
structure Draft where
  status : BackendStatus
  base : Nat
  basis : Option Nat
  deriving DecidableEq, Repr

/-- The port call `observe_once` is suspended at. -/
inductive ObservePc where
  | sshIsReady (draft : Draft)
  | requestWake (draft : Draft)
  | observeBackend (draft : Draft)
  | ensureTunnel (draft : Draft)
  deriving DecidableEq, Repr

/-- What the four ports answer. -/
inductive Answer where
  | ssh (result : Except LifecycleError Bool)
  | wake (result : Except LifecycleError Unit)
  | helper (result : Except LifecycleError ObservedBackendState)
  | tunnel (result : Except LifecycleError TunnelState)

/-- Where a background `start_bootstrap` task stands. -/
inductive TaskPc where
  | start
  | top (deadline : Instant)
  | sleeping (deadline : Instant) (wakeAt : Instant)
  | readRequest (deadline : Instant) (draft : Draft)
  | observe (deadline : Instant) (observeRequest : LifecycleRequest) (pc : ObservePc)
  | finish (draft : Draft) (error : Option LifecycleError)
  | done
  | panicked
  deriving DecidableEq, Repr

/-- The call that publishes a status. -/
inductive Writer where
  | observeOnce
  | finishBootstrap (error : Option LifecycleError)
  | degradeEmbeddings
  | markWarming
  deriving DecidableEq, Repr

inductive Event where
  | roundBegun (request : LifecycleRequest) (initialStatus : BackendStatus)
  | sshAnswered (leader : Bool) (result : Except LifecycleError Bool)
  | wakeRequested (request : LifecycleRequest)
  | helperCalled (request : LifecycleRequest)
  | pollingBegun
  | published (writer : Writer) (draft : Draft) (version : Nat)
  | waiterReturned (joinedAt version : Nat) (decision : LifecycleDecision)

/-- `LifecycleCore`: the watch channel, the state under the bootstrap mutex, the
spawned tasks and the two clocks. -/
structure Core where
  status : Watch BackendStatus
  bootstrap : BootstrapState
  tasks : List TaskPc
  instant : Instant
  clock : Timestamp
  log : List Event

namespace Core

def emit (core : Core) (event : Event) : Core :=
  { core with log := event :: core.log }

/-- `status_tx.borrow().clone()`. -/
def borrow (core : Core) : Draft where
  status := core.status.value
  base := core.status.version
  basis := none

def publish (core : Core) (writer : Writer) (draft : Draft) : Core :=
  { core with
    status := core.status.send draft.status
    log := .published writer draft (core.status.version + 1) :: core.log }

/-- `finish_bootstrap`, whose whole body runs under the bootstrap mutex. -/
def finishBootstrap (core : Core) (draft : Draft) (error : Option LifecycleError) : Core :=
  let core := core.publish (.finishBootstrap error) draft
  { core with bootstrap := { core.bootstrap with lastError := error, active := false } }

def spawnBootstrap (core : Core) : Core :=
  { core.emit .pollingBegun with tasks := core.tasks ++ [.start] }

@[simp] theorem emit_status (core : Core) (e : Event) : (core.emit e).status = core.status := rfl
@[simp] theorem emit_bootstrap (core : Core) (e : Event) :
    (core.emit e).bootstrap = core.bootstrap := rfl
@[simp] theorem emit_tasks (core : Core) (e : Event) : (core.emit e).tasks = core.tasks := rfl
@[simp] theorem emit_clock (core : Core) (e : Event) : (core.emit e).clock = core.clock := rfl
@[simp] theorem emit_log (core : Core) (e : Event) : (core.emit e).log = e :: core.log := rfl

@[simp] theorem publish_status (core : Core) (w : Writer) (d : Draft) :
    (core.publish w d).status = core.status.send d.status := rfl
@[simp] theorem publish_bootstrap (core : Core) (w : Writer) (d : Draft) :
    (core.publish w d).bootstrap = core.bootstrap := rfl
@[simp] theorem publish_tasks (core : Core) (w : Writer) (d : Draft) :
    (core.publish w d).tasks = core.tasks := rfl
@[simp] theorem publish_clock (core : Core) (w : Writer) (d : Draft) :
    (core.publish w d).clock = core.clock := rfl
@[simp] theorem publish_log (core : Core) (w : Writer) (d : Draft) :
    (core.publish w d).log = .published w d (core.status.version + 1) :: core.log := rfl

@[simp] theorem finishBootstrap_status (core : Core) (d : Draft) (e : Option LifecycleError) :
    (core.finishBootstrap d e).status = core.status.send d.status := rfl
@[simp] theorem finishBootstrap_active (core : Core) (d : Draft) (e : Option LifecycleError) :
    (core.finishBootstrap d e).bootstrap.active = false := rfl
@[simp] theorem finishBootstrap_lastError (core : Core) (d : Draft) (e : Option LifecycleError) :
    (core.finishBootstrap d e).bootstrap.lastError = e := rfl
@[simp] theorem finishBootstrap_tasks (core : Core) (d : Draft) (e : Option LifecycleError) :
    (core.finishBootstrap d e).tasks = core.tasks := rfl
@[simp] theorem finishBootstrap_clock (core : Core) (d : Draft) (e : Option LifecycleError) :
    (core.finishBootstrap d e).clock = core.clock := rfl
@[simp] theorem finishBootstrap_log (core : Core) (d : Draft) (e : Option LifecycleError) :
    (core.finishBootstrap d e).log =
      .published (.finishBootstrap e) d (core.status.version + 1) :: core.log := rfl

@[simp] theorem spawnBootstrap_status (core : Core) :
    core.spawnBootstrap.status = core.status := rfl
@[simp] theorem spawnBootstrap_bootstrap (core : Core) :
    core.spawnBootstrap.bootstrap = core.bootstrap := rfl
@[simp] theorem spawnBootstrap_tasks (core : Core) :
    core.spawnBootstrap.tasks = core.tasks ++ [.start] := rfl
@[simp] theorem spawnBootstrap_clock (core : Core) :
    core.spawnBootstrap.clock = core.clock := rfl
@[simp] theorem spawnBootstrap_log (core : Core) :
    core.spawnBootstrap.log = .pollingBegun :: core.log := rfl

@[simp] theorem borrow_status (core : Core) : core.borrow.status = core.status.value := rfl
@[simp] theorem borrow_base (core : Core) : core.borrow.base = core.status.version := rfl
@[simp] theorem borrow_basis (core : Core) : core.borrow.basis = none := rfl

end Core

/-! ### The edits of the local status -/

namespace BackendStatus

def failed (status : BackendStatus) : BackendStatus :=
  { status with lifecycle := .error, tunnel := .down }

def warmed (status : BackendStatus) : BackendStatus :=
  { status with lifecycle := .warming, tunnel := .down }

def wakeStamped (status : BackendStatus) (now : Timestamp) : BackendStatus :=
  { status with lastWakeAttemptAt := some now, tunnel := .down }

def withObserved (status : BackendStatus) (observed : ObservedBackendState) : BackendStatus :=
  { status with
    lifecycle := observed.lifecycle
    chat := observed.chat
    embeddings := observed.embeddings
    embeddingsReason := observed.embeddingsReason
    llamaServerUnit := observed.llamaServerUnit
    inhibitUnit := observed.inhibitUnit }

/-- A tunnel that is not ready keeps the backend warming. -/
def withTunnel (status : BackendStatus) (tunnel : TunnelState) : BackendStatus :=
  { status with
    tunnel := tunnel
    lifecycle := if tunnel = .ready then status.lifecycle else .warming }

def degraded (status : BackendStatus) (reason : String) : BackendStatus :=
  { status with embeddings := .degraded, embeddingsReason := some reason }

end BackendStatus

def Draft.edit (draft : Draft) (f : BackendStatus → BackendStatus) : Draft :=
  { draft with status := f draft.status }

@[simp] theorem Draft.edit_status (d : Draft) (f : BackendStatus → BackendStatus) :
    (d.edit f).status = f d.status := rfl
@[simp] theorem Draft.edit_base (d : Draft) (f : BackendStatus → BackendStatus) :
    (d.edit f).base = d.base := rfl
@[simp] theorem Draft.edit_basis (d : Draft) (f : BackendStatus → BackendStatus) :
    (d.edit f).basis = d.basis := rfl

/-- The draft goes on from the version its owner has just published. -/
def Draft.rebase (draft : Draft) (core : Core) : Draft :=
  { draft with base := core.status.version }

@[simp] theorem Draft.rebase_status (d : Draft) (core : Core) :
    (d.rebase core).status = d.status := rfl
@[simp] theorem Draft.rebase_base (d : Draft) (core : Core) :
    (d.rebase core).base = core.status.version := rfl
@[simp] theorem Draft.rebase_basis (d : Draft) (core : Core) :
    (d.rebase core).basis = d.basis := rfl

/-- Where `observe_once` is after a step: suspended again, or returned. A `ready`
or `warming` result has been published. -/
inductive Observation where
  | pending (pc : ObservePc)
  | ready (draft : Draft)
  | warming (draft : Draft)
  | failed (draft : Draft) (error : LifecycleError)

/-- Publish from `observe_once` and go on from the published version. -/
def Core.publishObserved (core : Core) (draft : Draft) : Core × Draft :=
  let core := core.publish .observeOnce draft
  (core, draft.rebase core)

/-- One step of `observe_once`; `none` when the answer is not from the port that
was called. -/
def observeOnce (core : Core) (wakeRequest : Option LifecycleRequest)
    (observeRequest : LifecycleRequest) : ObservePc → Answer → Option (Core × Observation)
  | .sshIsReady draft, .ssh result =>
      let core := core.emit (.sshAnswered wakeRequest.isSome result)
      match result with
      | .error error => some (core, .failed (draft.edit .failed) error)
      | .ok false =>
          match wakeRequest.filter fun _ => shouldRequestWake draft.status.lifecycle with
          | some request =>
              some (core.emit (.wakeRequested request),
                .pending (.requestWake (draft.edit (·.wakeStamped core.clock))))
          | none =>
              let (core, draft) := core.publishObserved (draft.edit .warmed)
              some (core, .warming draft)
      | .ok true =>
          some (core.emit (.helperCalled observeRequest),
            .pending (.observeBackend { draft with basis := some core.status.version }))
  | .requestWake draft, .wake result =>
      match result with
      | .error error =>
          some (core, .failed (draft.edit fun status => { status with lifecycle := .error }) error)
      | .ok () =>
          let (core, draft) := core.publishObserved (draft.edit .warmed)
          some (core, .warming draft)
  | .observeBackend draft, .helper result =>
      match result with
      | .error error => some (core, .failed (draft.edit .failed) error)
      | .ok observed =>
          let draft := draft.edit (·.withObserved observed)
          match observed.lifecycle with
          | .error =>
              some (core, .failed (draft.edit fun status => { status with tunnel := .down })
                { message := observed.error.getD "backend reported error state" })
          | .ready => some (core, .pending (.ensureTunnel draft))
          | .cold | .warming =>
              let (core, draft) :=
                core.publishObserved (draft.edit fun status => { status with tunnel := .down })
              some (core, .warming draft)
  | .ensureTunnel draft, .tunnel result =>
      match result with
      | .error error => some (core, .failed (draft.edit .failed) error)
      | .ok tunnel =>
          let (core, draft) := core.publishObserved (draft.edit (·.withTunnel tunnel))
          if backendIsReady draft.status then some (core, .ready draft)
          else some (core, .warming draft)
  | _, _ => none

end LlmWakeProxy.Lifecycle
