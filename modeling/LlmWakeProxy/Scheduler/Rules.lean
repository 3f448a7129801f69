import LlmWakeProxy.Library.Population
import LlmWakeProxy.Scheduler.Execute

/-!
What a step of the scheduler can do, said once, and what a call holds where it
stands. Every invariant of the scheduler goes by cases on the rules.
-/

namespace LlmWakeProxy.Scheduler
open LlmWakeProxy.Library
open LlmWakeProxy.Lifecycle (sleepDeadline)

universe u v
variable {ω : Type u} {τ : Type v} {config : WarmExecutionConfig} {start : ω}

def CallPc.holdsPermit : CallPc ω τ → Bool
  | .queued _ assigned | .pollTimer _ assigned | .expired assigned => assigned
  | .leaveQueue | .starting | .running _ | .finished _ | .unwinding _ => true
  | _ => false

def CallPc.holdsTicket : CallPc ω τ → Bool
  | .acquire | .queued .. | .pollTimer .. | .expired _ | .abandoned _ | .leaveQueue => true
  | _ => false

def CallPc.waits : CallPc ω τ → Bool
  | .queued _ assigned | .pollTimer _ assigned | .expired assigned => !assigned
  | _ => false

def CallPc.holdings (pc : CallPc ω τ) : Bool × Bool × Bool :=
  (pc.holdsPermit, pc.holdsTicket, pc.waits)

theorem CallPc.waits_assign (pc : CallPc ω τ) : pc.assign.waits = false := by
  cases pc <;> rfl

theorem CallPc.holdsTicket_assign (pc : CallPc ω τ) : pc.assign.holdsTicket = pc.holdsTicket := by
  cases pc <;> rfl

/-- A waiter has no permit, and has one once it is given one. -/
theorem CallPc.holdsPermit_assign {pc : CallPc ω τ} (h : pc.waits = true) :
    pc.holdsPermit = false ∧ pc.assign.holdsPermit = true := by
  cases pc with
  | queued _ assigned | pollTimer _ assigned | expired assigned =>
      cases assigned with
      | false => exact ⟨rfl, rfl⟩
      | true => cases h
  | _ => cases h

@[simp] theorem Call.assign_pc (call : Call ω τ) : call.assign.pc = call.pc.assign := rfl

/-- The branches of one step of call `i`. -/
inductive CallRule (config : WarmExecutionConfig) (start : ω) (s : WarmExecutionScheduler ω τ)
    (i : Nat) (call : Call ω τ) : WarmExecutionScheduler ω τ → Prop
  | enter (pc : call.pc = .idle) :
      CallRule config start s i call (s.put i (call.goto .tryAcquire))
  | taken (pc : call.pc = .tryAcquire) (semaphore : Semaphore Nat)
      (free : s.semaphore.tryAcquire = some semaphore) :
      CallRule config start s i call
        ({ s with semaphore := semaphore }.put i (call.goto .starting))
  | noPermits (pc : call.pc = .tryAcquire) (exhausted : s.semaphore.tryAcquire = none) :
      CallRule config start s i call (s.put i (call.goto .reserve))
  | queueFull (pc : call.pc = .reserve) (full : config.maxQueuedRequests ≤ s.queued) :
      CallRule config start s i call (s.put i (call.goto (.returned (.error .queueFull))))
  | reserved (pc : call.pc = .reserve) (room : s.queued < config.maxQueuedRequests) :
      CallRule config start s i call
        ({ s with queued := s.queued + 1 }.put i (call.goto .acquire))
  | acquired (pc : call.pc = .acquire) (semaphore : Semaphore Nat)
      (free : s.semaphore.tryAcquire = some semaphore) :
      CallRule config start s i call
        ({ s with semaphore := semaphore }.put i (call.goto .leaveQueue))
  | enqueued (pc : call.pc = .acquire) (exhausted : s.semaphore.tryAcquire = none) :
      CallRule config start s i call
        ({ s with semaphore := s.semaphore.enqueue i }.put i
          (call.goto (.queued (sleepDeadline s.instant config.queueTimeout) false)))
  | pickedUp (deadline : Nat) (pc : call.pc = .queued deadline true) :
      CallRule config start s i call (s.put i (call.goto .leaveQueue))
  | pending (deadline : Nat) (pc : call.pc = .queued deadline false) :
      CallRule config start s i call (s.put i (call.goto (.pollTimer deadline false)))
  | elapsed (deadline : Nat) (assigned : Bool) (pc : call.pc = .pollTimer deadline assigned)
      (late : deadline ≤ s.instant) :
      CallRule config start s i call (s.put i (call.goto (.expired assigned)))
  | parked (deadline : Nat) (assigned : Bool) (pc : call.pc = .pollTimer deadline assigned)
      (early : s.instant < deadline) :
      CallRule config start s i call (s.put i (call.goto (.queued deadline assigned)))
  | timedOut (assigned : Bool) (pc : call.pc = .expired assigned) :
      CallRule config start s i call
        ((s.put i (call.goto (.abandoned false))).giveUp i assigned)
  | queueTimeout (pc : call.pc = .abandoned false) :
      CallRule config start s i call
        (s.dropTicket.put i (call.goto (.returned (.error .queueTimeout))))
  | droppedQueued (pc : call.pc = .abandoned true) :
      CallRule config start s i call (s.dropTicket.put i (call.goto .dropped))
  | leftQueue (pc : call.pc = .leaveQueue) :
      CallRule config start s i call (s.dropTicket.put i (call.goto .starting))
  | started (pc : call.pc = .starting) :
      CallRule config start s i call
        ({ s with started := i :: s.started }.put i { pc := .running start, cancelled := false })
  | operated (operation next : ω) (pc : call.pc = .running operation) :
      CallRule config start s i call (s.put i (call.goto (.running next)))
  | completed (operation : ω) (output : τ) (pc : call.pc = .running operation) :
      CallRule config start s i call (s.put i (call.goto (.finished output)))
  | returned (output : τ) (pc : call.pc = .finished output) :
      CallRule config start s i call ((s.put i (call.goto (.returned (.ok output)))).release)
  | unwound (operation : ω) (panicked : Bool) (pc : call.pc = .running operation) :
      CallRule config start s i call
        (s.put i { pc := .unwinding panicked, cancelled := true })
  | ended (panicked : Bool) (pc : call.pc = .unwinding panicked) :
      CallRule config start s i call
        ((s.put i (call.goto (if panicked then .panicked else .dropped))).release)
  | dropQueued (deadline : Nat) (assigned : Bool) (pc : call.pc = .queued deadline assigned) :
      CallRule config start s i call
        ((s.put i (call.goto (.abandoned true))).giveUp i assigned)

inductive StepRule (config : WarmExecutionConfig) (start : ω) (s : WarmExecutionScheduler ω τ) :
    WarmExecutionScheduler ω τ → Prop
  | call (i : Nat) (call : Call ω τ) (here : s.calls[i]? = some call)
      (s' : WarmExecutionScheduler ω τ) (rule : CallRule config start s i call s') :
      StepRule config start s s'
  | elapse (span : Nat) : StepRule config start s { s with instant := s.instant + span }

theorem callStep_run_cases {s s' : WarmExecutionScheduler ω τ} {i : Nat} {call : Call ω τ}
    (h : s.callStep config start i call .run = some s') : CallRule config start s i call s' := by
  simp only [WarmExecutionScheduler.callStep] at h
  split at h
  next hpc =>
    split at h
    next semaphore hfree =>
      cases h
      exact .taken hpc semaphore hfree
    next hnone =>
      cases h
      exact .noPermits hpc hnone
  next hpc =>
    split at h
    next hfull =>
      cases h
      exact .queueFull hpc hfull
    next hroom =>
      cases h
      exact .reserved hpc (Nat.lt_of_not_le hroom)
  next hpc =>
    split at h
    next semaphore hfree =>
      cases h
      exact .acquired hpc semaphore hfree
    next hnone =>
      cases h
      exact .enqueued hpc hnone
  next deadline hpc =>
    cases h
    exact .pickedUp deadline hpc
  next deadline hpc =>
    cases h
    exact .pending deadline hpc
  next deadline assigned hpc =>
    split at h
    next hlate =>
      cases h
      exact .elapsed deadline assigned hpc hlate
    next hearly =>
      cases h
      exact .parked deadline assigned hpc (Nat.lt_of_not_le hearly)
  next assigned hpc =>
    cases h
    exact .timedOut assigned hpc
  next hpc =>
    cases h
    exact .queueTimeout hpc
  next hpc =>
    cases h
    exact .droppedQueued hpc
  next hpc =>
    cases h
    exact .leftQueue hpc
  next hpc =>
    cases h
    exact .started hpc
  next output hpc =>
    cases h
    exact .returned output hpc
  next hpc =>
    cases h
    exact .ended false hpc
  next hpc =>
    cases h
    exact .ended true hpc
  next => cases h

theorem callStep_cases {s s' : WarmExecutionScheduler ω τ} {i : Nat} {call : Call ω τ}
    {input : Input ω τ} (h : s.callStep config start i call input = some s') :
    CallRule config start s i call s' := by
  cases input with
  | run => exact callStep_run_cases h
  | enter =>
      simp only [WarmExecutionScheduler.callStep] at h
      split at h
      next hpc =>
        cases h
        exact .enter hpc
      next => cases h
  | operate next =>
      simp only [WarmExecutionScheduler.callStep] at h
      split at h
      next operation hpc =>
        cases h
        exact .operated operation next hpc
      next => cases h
  | complete output =>
      simp only [WarmExecutionScheduler.callStep] at h
      split at h
      next operation hpc =>
        cases h
        exact .completed operation output hpc
      next => cases h
  | panic =>
      simp only [WarmExecutionScheduler.callStep] at h
      split at h
      next operation hpc =>
        cases h
        exact .unwound operation true hpc
      next => cases h
  | drop =>
      simp only [WarmExecutionScheduler.callStep] at h
      split at h
      next deadline assigned hpc =>
        cases h
        exact .dropQueued deadline assigned hpc
      next operation hpc =>
        cases h
        exact .unwound operation false hpc
      next => cases h

theorem step_cases {s s' : WarmExecutionScheduler ω τ} {a : Action ω τ}
    (h : (warmExecution config start).step s a = some s') : StepRule config start s s' := by
  cases a with
  | elapse span =>
      cases h
      exact .elapse span
  | call i input =>
      obtain ⟨call, here, hstep⟩ := Option.bind_eq_some_iff.mp h
      exact .call i call here s' (callStep_cases hstep)

/-! ### What the rules leave of the stepping call -/

/-- Giving a permit back moves a call at most by assigning it the permit. -/
theorem getElem?_release {s : WarmExecutionScheduler ω τ} {i : Nat} {call : Call ω τ}
    (here : s.calls[i]? = some call) :
    s.release.calls[i]? = some call ∨ s.release.calls[i]? = some call.assign := by
  unfold WarmExecutionScheduler.release
  split
  next => exact .inl here
  next j _ _ =>
    by_cases hji : j = i
    · subst hji
      exact .inr (by simp [here])
    · exact .inl (by simp [List.getElem?_modify_ne _ _ hji, here])

theorem getElem?_giveUp {s : WarmExecutionScheduler ω τ} {i j : Nat} {call : Call ω τ}
    {assigned : Bool} (here : s.calls[i]? = some call) :
    (s.giveUp j assigned).calls[i]? = some call ∨
      (s.giveUp j assigned).calls[i]? = some call.assign := by
  cases assigned with
  | true => exact getElem?_release here
  | false => exact .inl here

theorem CallPc.returned_of_assign {pc : CallPc ω τ} {result : Except WarmExecutionError τ}
    (h : pc.assign = .returned result) : pc = .returned result := by
  cases pc with
  | queued _ _ | pollTimer _ _ | expired _ => cases h
  | _ => exact h

/-- Only a call whose operation finished returns an output, and it is that output. -/
theorem CallRule.finished_of_returned {s s' : WarmExecutionScheduler ω τ} {i : Nat}
    {call call' : Call ω τ} {output : τ} (rule : CallRule config start s i call s')
    (here : s.calls[i]? = some call) (here' : s'.calls[i]? = some call')
    (returned : call'.pc = .returned (.ok output)) : call.pc = .finished output := by
  have settled : ∀ {t : WarmExecutionScheduler ω τ} {next : Call ω τ},
      t.calls[i]? = some next ∨ t.calls[i]? = some next.assign → t.calls[i]? = some call' →
        next.pc = .returned (.ok output) := by
    intro t next hnext ht
    rw [ht] at hnext
    cases hnext with
    | inl h =>
        cases h
        exact returned
    | inr h =>
        cases h
        exact CallPc.returned_of_assign returned
  have moved : ∀ {t : WarmExecutionScheduler ω τ} {next : Call ω τ}, t.calls = s.calls →
      (t.put i next).calls[i]? = some call' → next.pc = .returned (.ok output) := by
    intro t next ht hput
    exact settled (.inl (getElem?_set_of_some (by rw [ht]; exact here) _)) hput
  cases rule with
  | returned output' pc =>
      have := settled (getElem?_release (getElem?_set_of_some here _)) here'
      cases this
      exact pc
  | timedOut _ _ => cases settled (getElem?_giveUp (getElem?_set_of_some here _)) here'
  | dropQueued _ _ _ => cases settled (getElem?_giveUp (getElem?_set_of_some here _)) here'
  | ended panicked _ =>
      have := settled (getElem?_release (getElem?_set_of_some here _)) here'
      cases panicked <;> cases this
  | _ => cases moved rfl here'

end LlmWakeProxy.Scheduler
