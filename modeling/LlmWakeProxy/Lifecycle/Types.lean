import Mathlib.Algebra.Group.Nat.Defs
import Mathlib.Data.Nat.Basic

/-!
The data of the backend lifecycle: what a status records, what the ports
answer, what a caller of `ensure_backend` is told, and the clock arithmetic the
deadlines are computed with.

Rust's `Result<T, E>` is `Except E T`. An `Instant` counts nanoseconds from the
origin of the monotonic clock; the standard library keeps its seconds in a
signed 64-bit number and panics when a sum leaves that range.
-/

namespace LlmWakeProxy.Lifecycle

/-- Wall-clock time in whole seconds since the Unix epoch. -/
structure Timestamp where
  unixSeconds : UInt64
  deriving DecidableEq, Repr

inductive LifecycleState where
  | cold
  | warming
  | ready
  | error
  deriving DecidableEq, Repr

inductive CapabilityState where
  | ready
  | degraded
  deriving DecidableEq, Repr

inductive TunnelState where
  | down
  | connecting
  | ready
  deriving DecidableEq, Repr

inductive UnitState where
  | unknown
  | inactive
  | activating
  | active
  | failed
  deriving DecidableEq, Repr

inductive LifecycleRequest where
  | chat
  | embeddings
  deriving DecidableEq, Repr

structure LifecycleError where
  message : String
  deriving DecidableEq, Repr

structure BackendStatus where
  lifecycle : LifecycleState
  chat : CapabilityState
  embeddings : CapabilityState
  embeddingsReason : Option String
  tunnel : TunnelState
  lastWakeAttemptAt : Option Timestamp
  leaseExpiresAt : Option Timestamp
  llamaServerUnit : UnitState
  inhibitUnit : UnitState
  deriving DecidableEq, Repr

/-- `BackendStatus::default()`. -/
def BackendStatus.default : BackendStatus where
  lifecycle := .cold
  chat := .ready
  embeddings := .ready
  embeddingsReason := none
  tunnel := .down
  lastWakeAttemptAt := none
  leaseExpiresAt := none
  llamaServerUnit := .unknown
  inhibitUnit := .unknown

structure ObservedBackendState where
  lifecycle : LifecycleState
  chat : CapabilityState
  embeddings : CapabilityState
  embeddingsReason : Option String
  error : Option String
  llamaServerUnit : UnitState
  inhibitUnit : UnitState
  deriving DecidableEq, Repr

inductive LifecycleDecision where
  | ready (status : BackendStatus)
  | warming (status : BackendStatus) (retryAfterSecs : UInt64)
  | failed (status : BackendStatus) (error : LifecycleError)
  deriving DecidableEq, Repr

structure LifecycleTiming where
  coldWaitBudgetSecs : UInt64
  hardBootDeadlineSecs : UInt64
  bootstrapPollIntervalMillis : UInt64
  retryAfterSecs : UInt64
  deriving DecidableEq, Repr

structure BootstrapState where
  active : Bool
  lastError : Option LifecycleError
  observeRequest : LifecycleRequest
  deriving DecidableEq, Repr

/-- `BootstrapState::default()`. -/
def BootstrapState.default : BootstrapState where
  active := false
  lastError := none
  observeRequest := .chat

def shouldRequestWake : LifecycleState → Bool
  | .cold | .ready | .error => true
  | .warming => false

@[simp] theorem shouldRequestWake_eq_false {state : LifecycleState} :
    shouldRequestWake state = false ↔ state = .warming := by
  cases state <;> simp [shouldRequestWake]

def backendIsReady (status : BackendStatus) : Bool :=
  status.lifecycle = .ready && status.tunnel = .ready

@[simp] theorem backendIsReady_iff {status : BackendStatus} :
    backendIsReady status = true ↔ status.lifecycle = .ready ∧ status.tunnel = .ready := by
  simp [backendIsReady]

def requestPriority : LifecycleRequest → Nat
  | .chat => 0
  | .embeddings => 1

def bootstrapWaitStatus (status : BackendStatus) (staleBootstrapView : Bool) : BackendStatus :=
  if staleBootstrapView then { status with lifecycle := .warming, tunnel := .down } else status

/-- The section of `start_or_join_bootstrap` under the bootstrap mutex: whether
the caller leads, and the state it leaves. -/
def startOrJoinBootstrap (bootstrap : BootstrapState) (request : LifecycleRequest) :
    Bool × BootstrapState :=
  if !bootstrap.active then
    (true, { active := true, lastError := none, observeRequest := request })
  else if requestPriority request > requestPriority bootstrap.observeRequest then
    (false, { bootstrap with observeRequest := request })
  else
    (false, bootstrap)

theorem startOrJoinBootstrap_active (bootstrap : BootstrapState) (request : LifecycleRequest) :
    (startOrJoinBootstrap bootstrap request).2.active = true := by
  unfold startOrJoinBootstrap
  cases hactive : bootstrap.active with
  | false => simp
  | true =>
      simp only [Bool.not_true, Bool.false_eq_true, if_false]
      split <;> simp [hactive]

theorem startOrJoinBootstrap_leads (bootstrap : BootstrapState) (request : LifecycleRequest) :
    (startOrJoinBootstrap bootstrap request).1 = !bootstrap.active := by
  unfold startOrJoinBootstrap
  cases hactive : bootstrap.active with
  | false => simp
  | true =>
      simp only [Bool.not_true, Bool.false_eq_true, if_false]
      split <;> rfl

/-! ### Instants -/

abbrev Instant := Nat
abbrev Duration := Nat

def nanosPerSec : Nat := 1000000000
def nanosPerMilli : Nat := 1000000

def Duration.fromSecs (secs : UInt64) : Duration := nanosPerSec * secs.toNat

def Duration.fromMillis (millis : UInt64) : Duration := nanosPerMilli * millis.toNat

/-- The first instant whose seconds no longer fit a signed 64-bit number. -/
def instantLimit : Nat := 2 ^ 63 * nanosPerSec

/-- `Instant + Duration`; `none` is the panic on overflow. -/
def Instant.add? (start : Instant) (span : Duration) : Option Instant :=
  if start + span < instantLimit then some (start + span) else none

theorem Instant.add?_isSome {start : Instant} {span : Duration} :
    (Instant.add? start span).isSome = true ↔ start + span < instantLimit := by
  unfold Instant.add?
  split <;> simp [*]

/-- The deadline of `tokio::time::sleep`, which saturates thirty years ahead. -/
def sleepDeadline (now : Instant) (span : Duration) : Instant :=
  (Instant.add? now span).getD (86400 * 365 * 30 * nanosPerSec + now)

def saturatingAdd (a b : UInt64) : UInt64 :=
  if a.toNat + b.toNat < 2 ^ 64 then a + b else UInt64.ofNat (2 ^ 64 - 1)

def saturatingSub (a b : UInt64) : UInt64 :=
  if b ≤ a then a - b else 0

/-- `bootstrap_deadline`: the window runs from the recorded wake, or from now
when none is recorded. `none` is the overflow panic of the final sum. -/
def bootstrapDeadline (timing : LifecycleTiming) (lastWakeAttemptAt : Option Timestamp)
    (clock : Timestamp) (instant : Instant) : Option Instant :=
  let now := clock.unixSeconds
  let wakeStartedAt := (lastWakeAttemptAt.map Timestamp.unixSeconds).getD now
  let hardDeadlineAt := saturatingAdd wakeStartedAt timing.hardBootDeadlineSecs
  Instant.add? instant (Duration.fromSecs (saturatingSub hardDeadlineAt now))

def bootDeadlineError : LifecycleError where
  message := "backend did not become ready before the boot deadline"

/-- The error a waiter reports for an error status nobody recorded a cause for. -/
def backendReportedErrorState : LifecycleError where
  message := "backend reported error state"

end LlmWakeProxy.Lifecycle
