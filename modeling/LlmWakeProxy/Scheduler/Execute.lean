import LlmWakeProxy.Library.Transition
import LlmWakeProxy.Library.Semaphore
import LlmWakeProxy.Lifecycle.Types

/-!
`WarmExecutionScheduler::execute` as a transition system: any number of calls,
interleaved at every access to the semaphore, the ticket count and the
cancellation flag. A call's future can be dropped where it awaits, in the queue
and in its operation, and the operation can panic.

The operation is a future of its own, with the states `ω`; it begins in `start`
and is driven by whoever calls the scheduler. `τ` is its output.

`tokio::time::timeout` polls the acquisition before the timer. A permit can be
assigned between the two polls; the timer then wins although the permit is the
waiter's, and dropping the acquisition gives the permit back.
-/

namespace LlmWakeProxy.Scheduler
open LlmWakeProxy.Library
open LlmWakeProxy.Lifecycle (Instant Duration sleepDeadline)

universe u v
variable {ω : Type u} {τ : Type v}

structure WarmExecutionConfig where
  maxActiveRequests : Nat
  maxQueuedRequests : Nat
  queueTimeout : Duration

inductive WarmExecutionError where
  | queueFull
  | queueTimeout
  deriving DecidableEq, Repr

def WarmExecutionError.message : WarmExecutionError → String
  | .queueFull => "warm execution queue is full"
  | .queueTimeout => "request did not start before the warm queue timeout"

/-- Where a call of `execute` stands. `assigned` tells whether the waiter has
been given a permit that it has not picked up. -/
inductive CallPc (ω : Type u) (τ : Type v) where
  | idle
  | tryAcquire
  | reserve
  | acquire
  | queued (deadline : Instant) (assigned : Bool)
  | pollTimer (deadline : Instant) (assigned : Bool)
  | expired (assigned : Bool)
  | abandoned (dropped : Bool)
  | leaveQueue
  | starting
  | running (operation : ω)
  | finished (output : τ)
  | unwinding (panicked : Bool)
  | returned (result : Except WarmExecutionError τ)
  | dropped
  | panicked

structure Call (ω : Type u) (τ : Type v) where
  pc : CallPc ω τ
  cancelled : Bool

def Call.goto (call : Call ω τ) (pc : CallPc ω τ) : Call ω τ :=
  { call with pc := pc }

/-- A waiter is given a permit. -/
def CallPc.assign : CallPc ω τ → CallPc ω τ
  | .queued deadline _ => .queued deadline true
  | .pollTimer deadline _ => .pollTimer deadline true
  | .expired _ => .expired true
  | pc => pc

def Call.assign (call : Call ω τ) : Call ω τ :=
  call.goto call.pc.assign

/-- The state the calls share, the calls, the monotonic clock and, latest first,
the calls whose operation was started. -/
structure WarmExecutionScheduler (ω : Type u) (τ : Type v) where
  semaphore : Semaphore Nat
  queued : Nat
  calls : List (Call ω τ)
  instant : Instant
  started : List Nat

inductive Input (ω : Type u) (τ : Type v) where
  | enter
  | run
  | operate (operation : ω)
  | complete (output : τ)
  | panic
  | drop

inductive Action (ω : Type u) (τ : Type v) where
  | call (call : Nat) (input : Input ω τ)
  | elapse (span : Duration)

namespace WarmExecutionScheduler

/-- `WarmExecutionScheduler::new`, with the number of calls there will be. -/
def new (config : WarmExecutionConfig) (calls : Nat) (instant : Instant) :
    WarmExecutionScheduler ω τ where
  semaphore := .new config.maxActiveRequests
  queued := 0
  calls := List.replicate calls { pc := .idle, cancelled := false }
  instant := instant
  started := []

def put (s : WarmExecutionScheduler ω τ) (i : Nat) (call : Call ω τ) :
    WarmExecutionScheduler ω τ :=
  { s with calls := s.calls.set i call }

def release (s : WarmExecutionScheduler ω τ) : WarmExecutionScheduler ω τ :=
  match s.semaphore.release with
  | (none, semaphore) => { s with semaphore := semaphore }
  | (some i, semaphore) =>
      { s with semaphore := semaphore, calls := s.calls.modify i Call.assign }

/-- Dropping the acquisition of call `i`. -/
def giveUp (s : WarmExecutionScheduler ω τ) (i : Nat) (assigned : Bool) :
    WarmExecutionScheduler ω τ :=
  if assigned then s.release else { s with semaphore := s.semaphore.abandon i }

/-- `QueueTicket::drop`. -/
def dropTicket (s : WarmExecutionScheduler ω τ) : WarmExecutionScheduler ω τ :=
  { s with queued := s.queued - 1 }

def callStep (config : WarmExecutionConfig) (start : ω) (s : WarmExecutionScheduler ω τ) (i : Nat)
    (call : Call ω τ) : Input ω τ → Option (WarmExecutionScheduler ω τ)
  | .enter =>
      match call.pc with
      | .idle => some (s.put i (call.goto .tryAcquire))
      | _ => none
  | .run =>
      match call.pc with
      | .tryAcquire =>
          match s.semaphore.tryAcquire with
          | some semaphore => some ({ s with semaphore := semaphore }.put i (call.goto .starting))
          | none => some (s.put i (call.goto .reserve))
      -- `QueueTicket::reserve`
      | .reserve =>
          if config.maxQueuedRequests ≤ s.queued then
            some (s.put i (call.goto (.returned (.error .queueFull))))
          else
            some ({ s with queued := s.queued + 1 }.put i (call.goto .acquire))
      -- the timer is set and the acquisition polled for the first time
      | .acquire =>
          match s.semaphore.tryAcquire with
          | some semaphore =>
              some ({ s with semaphore := semaphore }.put i (call.goto .leaveQueue))
          | none =>
              let deadline := sleepDeadline s.instant config.queueTimeout
              some ({ s with semaphore := s.semaphore.enqueue i }.put i
                (call.goto (.queued deadline false)))
      | .queued _ true => some (s.put i (call.goto .leaveQueue))
      | .queued deadline false => some (s.put i (call.goto (.pollTimer deadline false)))
      | .pollTimer deadline assigned =>
          if deadline ≤ s.instant then
            some (s.put i (call.goto (.expired assigned)))
          else
            some (s.put i (call.goto (.queued deadline assigned)))
      | .expired assigned =>
          some ((s.put i (call.goto (.abandoned false))).giveUp i assigned)
      | .abandoned false =>
          some (s.dropTicket.put i (call.goto (.returned (.error .queueTimeout))))
      | .abandoned true => some (s.dropTicket.put i (call.goto .dropped))
      | .leaveQueue => some (s.dropTicket.put i (call.goto .starting))
      | .starting =>
          some ({ s with started := i :: s.started }.put i
            { pc := .running start, cancelled := false })
      | .finished output => some ((s.put i (call.goto (.returned (.ok output)))).release)
      | .unwinding false => some ((s.put i (call.goto .dropped)).release)
      | .unwinding true => some ((s.put i (call.goto .panicked)).release)
      | _ => none
  | .operate operation =>
      match call.pc with
      | .running _ => some (s.put i (call.goto (.running operation)))
      | _ => none
  | .complete output =>
      match call.pc with
      | .running _ => some (s.put i (call.goto (.finished output)))
      | _ => none
  -- `CancelOnDrop::drop` runs before the permit is dropped
  | .panic =>
      match call.pc with
      | .running _ => some (s.put i { pc := .unwinding true, cancelled := true })
      | _ => none
  | .drop =>
      match call.pc with
      | .queued _ assigned => some ((s.put i (call.goto (.abandoned true))).giveUp i assigned)
      | .running _ => some (s.put i { pc := .unwinding false, cancelled := true })
      | _ => none

def step (config : WarmExecutionConfig) (start : ω) (s : WarmExecutionScheduler ω τ) :
    Action ω τ → Option (WarmExecutionScheduler ω τ)
  | .call i input => do
      let call ← s.calls[i]?
      s.callStep config start i call input
  | .elapse span => some { s with instant := s.instant + span }

end WarmExecutionScheduler

def warmExecution (config : WarmExecutionConfig) (start : ω) :
    System (WarmExecutionScheduler ω τ) (Action ω τ) where
  step := WarmExecutionScheduler.step config start

end LlmWakeProxy.Scheduler
