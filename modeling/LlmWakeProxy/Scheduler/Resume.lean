import LlmWakeProxy.Scheduler.Calls

/-!
What resuming one call does to that call, and that it can be resumed. A call in
progress goes on or returns, a call that was dropped or has panicked is gone, and every
call whose deadline has passed comes nearer to its end.
-/

namespace LlmWakeProxy.Scheduler
open LlmWakeProxy.Library
open LlmWakeProxy.Lifecycle (Instant sleepDeadline)

universe u v
variable {ω : Type u} {τ : Type v} {config : WarmExecutionConfig} {start : ω}
variable {s s' : WarmExecutionScheduler ω τ} {i : Nat} {call : Call ω τ}

def CallPc.isIdle : CallPc ω τ → Bool
  | .idle => true
  | _ => false

def CallPc.isLeaving : CallPc ω τ → Bool
  | .unwinding _ | .abandoned true => true
  | _ => false

/-- The call is in progress, and nobody has dropped it. -/
def CallPc.isActive (pc : CallPc ω τ) : Bool := !pc.outside && !pc.isLeaving

def CallPc.hasReturned : CallPc ω τ → Bool
  | .returned _ => true
  | _ => false

theorem CallPc.outside_of_isIdle {pc : CallPc ω τ} (h : pc.isIdle = true) : pc.outside = true := by
  cases pc with
  | idle => rfl
  | _ => cases h

theorem CallPc.not_waits_of_outside {pc : CallPc ω τ} (h : pc.outside = true) :
    pc.waits = false := by
  cases pc with
  | idle | returned _ | dropped | panicked => rfl
  | _ => cases h

/-- How a call moves when it is resumed. -/
inductive RunMove (start : ω) (instant : Instant) : CallPc ω τ → CallPc ω τ → Prop
  | taken : RunMove start instant .tryAcquire .starting
  | noPermits : RunMove start instant .tryAcquire .reserve
  | queueFull : RunMove start instant .reserve (.returned (.error .queueFull))
  | reserved : RunMove start instant .reserve .acquire
  | acquired : RunMove start instant .acquire .leaveQueue
  | enqueued (deadline : Instant) : RunMove start instant .acquire (.queued deadline false)
  | pickedUp (deadline : Instant) : RunMove start instant (.queued deadline true) .leaveQueue
  | pending (deadline : Instant) :
      RunMove start instant (.queued deadline false) (.pollTimer deadline false)
  | elapsed (deadline : Instant) (assigned : Bool) :
      RunMove start instant (.pollTimer deadline assigned) (.expired assigned)
  | parked (deadline : Instant) (assigned : Bool) (early : instant < deadline) :
      RunMove start instant (.pollTimer deadline assigned) (.queued deadline assigned)
  | timedOut (assigned : Bool) : RunMove start instant (.expired assigned) (.abandoned false)
  | queueTimeout : RunMove start instant (.abandoned false) (.returned (.error .queueTimeout))
  | droppedQueued : RunMove start instant (.abandoned true) .dropped
  | leftQueue : RunMove start instant .leaveQueue .starting
  | started : RunMove start instant .starting (.running start)
  | returned (output : τ) : RunMove start instant (.finished output) (.returned (.ok output))
  | ended (panicked : Bool) :
      RunMove start instant (.unwinding panicked) (if panicked then .panicked else .dropped)

theorem getElem?_settled {next : Call ω τ} (same : next.pc.assign = next.pc)
    (left : s'.calls[i]? = some next ∨ s'.calls[i]? = some next.assign) :
    ∃ call', s'.calls[i]? = some call' ∧ call'.pc = next.pc := by
  obtain h | h := left
  · exact ⟨next, h, rfl⟩
  · exact ⟨next.assign, h, same⟩

theorem callStep_run_moves (h : s.callStep config start i call .run = some s')
    (here : s.calls[i]? = some call) :
    ∃ call', s'.calls[i]? = some call' ∧ RunMove start s.instant call.pc call'.pc := by
  have put : ∀ {t : WarmExecutionScheduler ω τ} {next : Call ω τ}, t.calls = s.calls →
      RunMove start s.instant call.pc next.pc →
      ∃ call', (t.put i next).calls[i]? = some call' ∧ RunMove start s.instant call.pc call'.pc :=
    fun ht move => ⟨_, getElem?_set_of_some (by rw [ht]; exact here) _, move⟩
  have settled : ∀ {t : WarmExecutionScheduler ω τ} {next : Call ω τ},
      next.pc.assign = next.pc → (t.calls[i]? = some next ∨ t.calls[i]? = some next.assign) →
      RunMove start s.instant call.pc next.pc →
      ∃ call', t.calls[i]? = some call' ∧ RunMove start s.instant call.pc call'.pc := by
    intro t next same left move
    obtain ⟨call', here', hpc⟩ := getElem?_settled same left
    exact ⟨call', here', hpc ▸ move⟩
  simp only [WarmExecutionScheduler.callStep] at h
  split at h
  next hpc =>
    split at h
    next => cases h; exact put rfl (by rw [hpc]; exact .taken)
    next => cases h; exact put rfl (by rw [hpc]; exact .noPermits)
  next hpc =>
    split at h
    next => cases h; exact put rfl (by rw [hpc]; exact .queueFull)
    next => cases h; exact put rfl (by rw [hpc]; exact .reserved)
  next hpc =>
    split at h
    next => cases h; exact put rfl (by rw [hpc]; exact .acquired)
    next => cases h; exact put rfl (by rw [hpc]; exact .enqueued _)
  next deadline hpc => cases h; exact put rfl (by rw [hpc]; exact .pickedUp deadline)
  next deadline hpc => cases h; exact put rfl (by rw [hpc]; exact .pending deadline)
  next deadline assigned hpc =>
    split at h
    next => cases h; exact put rfl (by rw [hpc]; exact .elapsed deadline assigned)
    next early =>
      cases h
      exact put rfl (by rw [hpc]; exact .parked deadline assigned (Nat.lt_of_not_le early))
  next assigned hpc =>
    cases h
    exact settled rfl (getElem?_giveUp (getElem?_set_of_some here _))
      (by rw [hpc]; exact .timedOut assigned)
  next hpc => cases h; exact put rfl (by rw [hpc]; exact .queueTimeout)
  next hpc => cases h; exact put rfl (by rw [hpc]; exact .droppedQueued)
  next hpc => cases h; exact put rfl (by rw [hpc]; exact .leftQueue)
  next hpc => cases h; exact put rfl (by rw [hpc]; exact .started)
  next output hpc =>
    cases h
    exact settled rfl (getElem?_release (getElem?_set_of_some here _))
      (by rw [hpc]; exact .returned output)
  next hpc =>
    cases h
    exact settled rfl (getElem?_release (getElem?_set_of_some here _))
      (by rw [hpc]; exact .ended false)
  next hpc =>
    cases h
    exact settled rfl (getElem?_release (getElem?_set_of_some here _))
      (by rw [hpc]; exact .ended true)
  next => cases h

theorem RunMove.of_active {instant : Instant} {before after : CallPc ω τ}
    (move : RunMove start instant before after) (active : before.isActive = true) :
    (after.isActive || after.hasReturned) = true := by
  cases move with
  | droppedQueued => cases active
  | ended panicked => cases active
  | _ => rfl

theorem RunMove.of_leaving {instant : Instant} {before after : CallPc ω τ}
    (move : RunMove start instant before after) (leaving : before.isLeaving = true) :
    after = .dropped ∨ after = .panicked := by
  cases move with
  | droppedQueued => exact .inl rfl
  | ended panicked =>
      cases panicked with
      | true => exact .inr rfl
      | false => exact .inl rfl
  | _ => cases leaving

/-- Everywhere but in its operation a call that is inside can be resumed. -/
theorem callStep_run_enabled (inside : call.pc.outside = false)
    (apart : call.pc.isRunning = false) :
    ∃ t, s.callStep config start i call .run = some t := by
  cases hpc : call.pc with
  | idle | returned _ | dropped | panicked => simp [hpc, CallPc.outside] at inside
  | running _ => simp [hpc, CallPc.isRunning] at apart
  | tryAcquire | acquire =>
      cases free : s.semaphore.tryAcquire with
      | some _ | none => exact ⟨_, by simp only [WarmExecutionScheduler.callStep, hpc, free]; rfl⟩
  | reserve =>
      by_cases full : config.maxQueuedRequests ≤ s.queued
      · exact ⟨_, by simp only [WarmExecutionScheduler.callStep, hpc, if_pos full]; rfl⟩
      · exact ⟨_, by simp only [WarmExecutionScheduler.callStep, hpc, if_neg full]; rfl⟩
  | pollTimer deadline _ =>
      by_cases late : deadline ≤ s.instant
      · exact ⟨_, by simp only [WarmExecutionScheduler.callStep, hpc, if_pos late]; rfl⟩
      · exact ⟨_, by simp only [WarmExecutionScheduler.callStep, hpc, if_neg late]; rfl⟩
  | queued _ flag | abandoned flag | unwinding flag =>
      cases flag with
      | true | false => exact ⟨_, by simp only [WarmExecutionScheduler.callStep, hpc]; rfl⟩
  | expired _ | leaveQueue | starting | finished _ =>
      exact ⟨_, by simp only [WarmExecutionScheduler.callStep, hpc]; rfl⟩

def CallPc.rank : CallPc ω τ → Nat
  | .idle => 13
  | .tryAcquire => 12
  | .reserve => 11
  | .acquire => 10
  | .queued .. => 9
  | .pollTimer .. => 8
  | .expired _ => 7
  | .abandoned _ => 6
  | .leaveQueue => 5
  | .starting => 4
  | .running _ => 3
  | .finished _ => 2
  | .unwinding _ => 1
  | .returned _ | .dropped | .panicked => 0

def CallPc.deadline : CallPc ω τ → Nat
  | .queued deadline _ | .pollTimer deadline _ => deadline
  | _ => 0

/-- Resumed after its deadline, a call comes nearer to its end. -/
theorem RunMove.lowers {instant : Instant} {before after : CallPc ω τ}
    (move : RunMove start instant before after) (late : before.deadline ≤ instant) :
    after.rank < before.rank := by
  cases move with
  | parked deadline assigned early => exact absurd early (Nat.not_lt_of_le late)
  | ended panicked => cases panicked <;> simp [CallPc.rank]
  | _ => simp [CallPc.rank]

/-! ### The other inputs -/

theorem leaving_of_unwind {input : Input ω τ} (unwinds : input = .drop ∨ input = .panic)
    (h : s.callStep config start i call input = some s') (here : s.calls[i]? = some call) :
    ∃ call', s'.calls[i]? = some call' ∧ call'.pc.isLeaving = true := by
  obtain rfl | rfl := unwinds
  · simp only [WarmExecutionScheduler.callStep] at h
    split at h
    next deadline assigned _ =>
      cases h
      have left := @getElem?_giveUp _ _ _ i i _ assigned
        (show (s.put i (call.goto (.abandoned true))).calls[i]? = _ from
          getElem?_set_of_some here _)
      obtain ⟨call', here', hpc⟩ := getElem?_settled rfl left
      exact ⟨call', here', by rw [hpc]; rfl⟩
    next => cases h; exact ⟨_, getElem?_set_of_some here _, rfl⟩
    next => cases h
  · simp only [WarmExecutionScheduler.callStep] at h
    split at h
    next => cases h; exact ⟨_, getElem?_set_of_some here _, rfl⟩
    next => cases h

theorem active_of_operate {input : Input ω τ}
    (operates : (∃ next, input = .operate next) ∨ ∃ output, input = .complete output)
    (h : s.callStep config start i call input = some s') (here : s.calls[i]? = some call) :
    ∃ call', s'.calls[i]? = some call' ∧ call'.pc.isActive = true := by
  obtain ⟨next, rfl⟩ | ⟨output, rfl⟩ := operates
  · simp only [WarmExecutionScheduler.callStep] at h
    split at h
    next => cases h; exact ⟨_, getElem?_set_of_some here _, rfl⟩
    next => cases h
  · simp only [WarmExecutionScheduler.callStep] at h
    split at h
    next => cases h; exact ⟨_, getElem?_set_of_some here _, rfl⟩
    next => cases h

end LlmWakeProxy.Scheduler
