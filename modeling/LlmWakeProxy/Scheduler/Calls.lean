import LlmWakeProxy.Scheduler.Accounting

/-!
The scheduler from the point of view of one call. A step moves the call it is a
step of from one stage to the next, and at most assigns a permit to another one.
From the stages it follows that a call starts its operation at most once, and not
at all when it is turned away; with the accounts, what the scheduler promises.
-/

namespace LlmWakeProxy.Scheduler
open LlmWakeProxy.Library

universe u v
variable {ω : Type u} {τ : Type v} {config : WarmExecutionConfig} {start : ω}
variable {s s' : WarmExecutionScheduler ω τ}

def CallPc.unstarted : CallPc ω τ → Bool
  | .running _ | .finished _ | .unwinding _ | .returned (.ok _) | .dropped | .panicked => false
  | _ => true

/-- The call is not in the system: it has not been made, or is over. -/
def CallPc.outside : CallPc ω τ → Bool
  | .idle | .returned _ | .dropped | .panicked => true
  | _ => false

def CallPc.isRunning : CallPc ω τ → Bool
  | .running _ => true
  | _ => false

inductive CallMove (start : ω) : CallPc ω τ → CallPc ω τ → Prop
  | waits {before after : CallPc ω τ} (early : before.unstarted = true) (held : before ≠ .starting)
      (later : after.unstarted = true) : CallMove start before after
  | leaves {before : CallPc ω τ} (early : before.unstarted = true) (held : before ≠ .starting) :
      CallMove start before .dropped
  | starts : CallMove start .starting (.running start)
  | operates (operation next : ω) : CallMove start (.running operation) (.running next)
  | finishes (operation : ω) (output : τ) : CallMove start (.running operation) (.finished output)
  | returns (output : τ) : CallMove start (.finished output) (.returned (.ok output))
  | unwinds (operation : ω) (panicked : Bool) :
      CallMove start (.running operation) (.unwinding panicked)
  | ends (panicked : Bool) :
      CallMove start (.unwinding panicked) (if panicked then .panicked else .dropped)

@[simp] theorem CallPc.unstarted_assign (pc : CallPc ω τ) : pc.assign.unstarted = pc.unstarted := by
  cases pc <;> rfl

/-- Assigning a permit leaves a call that does not wait as it is. -/
theorem Call.assign_of_not_unstarted {call : Call ω τ} (h : call.pc.unstarted = false) :
    call.assign = call := by
  obtain ⟨pc, cancelled⟩ := call
  cases pc with
  | queued _ _ | pollTimer _ _ | expired _ => cases h
  | _ => rfl

theorem CallMove.assign {before after : CallPc ω τ} (move : CallMove start before after)
    (h : after.unstarted = true) : CallMove start before after.assign := by
  cases move with
  | waits early held _ => exact .waits early held (by rwa [CallPc.unstarted_assign])
  | ends panicked => cases panicked <;> cases h
  | leaves | starts | operates | finishes | returns | unwinds => cases h

/-- What a step of the scheduler leaves of call `j`: the call, or the call with a
permit. -/
def Kept (s s' : WarmExecutionScheduler ω τ) (j : Nat) : Prop :=
  s'.calls[j]? = s.calls[j]? ∨ s'.calls[j]? = s.calls[j]?.map Call.assign

theorem kept_release (s : WarmExecutionScheduler ω τ) (j : Nat) : Kept s s.release j := by
  unfold Kept WarmExecutionScheduler.release
  split
  next => exact .inl rfl
  next i _ _ =>
    by_cases hij : i = j
    · subst hij
      exact .inr (by simp)
    · exact .inl (List.getElem?_modify_ne _ _ hij)

theorem kept_giveUp (s : WarmExecutionScheduler ω τ) (i j : Nat) (assigned : Bool) :
    Kept s (s.giveUp i assigned) j := by
  cases assigned with
  | true => exact kept_release s j
  | false => exact .inl rfl

structure CallStep (start : ω) (s s' : WarmExecutionScheduler ω τ) (i : Nat) (call : Call ω τ) :
    Prop where
  moved : ∃ call', s'.calls[i]? = some call' ∧ CallMove start call.pc call'.pc
  kept : ∀ j, j ≠ i → Kept s s' j
  started : s'.started = s.started ∨ call.pc = .starting ∧ s'.started = i :: s.started

theorem CallStep.put {i : Nat} {call call' : Call ω τ} {t : WarmExecutionScheduler ω τ}
    (here : s.calls[i]? = some call) (calls : t.calls = s.calls) (started : t.started = s.started)
    (move : CallMove start call.pc call'.pc) : CallStep start s (t.put i call') i call := by
  refine ⟨⟨call', getElem?_set_of_some (by rw [calls]; exact here) _, move⟩, ?_, .inl started⟩
  intro j hj
  refine .inl ?_
  rw [← calls]
  exact List.getElem?_set_ne (Ne.symm hj)

/-- Assigning a permit on top of a step is still that step. -/
theorem CallStep.then {i : Nat} {call : Call ω τ} {t u : WarmExecutionScheduler ω τ}
    (here : s.calls[i]? = some call) (call' : Call ω τ) (move : CallMove start call.pc call'.pc)
    (calls : t.calls = s.calls.set i call') (kept : ∀ j, Kept t u j)
    (started : u.started = s.started) : CallStep start s u i call := by
  have hput : t.calls[i]? = some call' := by
    rw [calls]
    exact getElem?_set_of_some here _
  refine ⟨?_, ?_, .inl started⟩
  · obtain h | h := kept i
    · exact ⟨call', h.trans hput, move⟩
    · refine ⟨call'.assign, h.trans (by rw [hput]; rfl), ?_⟩
      cases hstarted : call'.pc.unstarted with
      | false => rwa [Call.assign_of_not_unstarted hstarted]
      | true => exact move.assign hstarted
  · intro j hj
    have hsame : t.calls[j]? = s.calls[j]? := by
      rw [calls]
      exact List.getElem?_set_ne (Ne.symm hj)
    unfold Kept
    rw [← hsame]
    exact kept j

theorem started_release (s : WarmExecutionScheduler ω τ) : s.release.started = s.started := by
  unfold WarmExecutionScheduler.release
  split <;> rfl

theorem started_giveUp (s : WarmExecutionScheduler ω τ) (i : Nat) (assigned : Bool) :
    (s.giveUp i assigned).started = s.started := by
  cases assigned with
  | true => exact started_release s
  | false => rfl

theorem CallRule.callStep {i : Nat} {call : Call ω τ} (rule : CallRule config start s i call s')
    (here : s.calls[i]? = some call) : CallStep start s s' i call := by
  cases rule with
  | started pc =>
      refine ⟨⟨_, getElem?_set_of_some here _, ?_⟩, ?_, .inr ⟨pc, rfl⟩⟩
      · rw [pc]
        exact .starts
      · exact fun j hj => .inl (List.getElem?_set_ne (Ne.symm hj))
  | operated operation next pc =>
      exact .put here rfl rfl (by rw [pc]; exact .operates operation next)
  | completed operation output pc =>
      exact .put here rfl rfl (by rw [pc]; exact .finishes operation output)
  | unwound operation panicked pc =>
      exact .put here rfl rfl (by rw [pc]; exact .unwinds operation panicked)
  | droppedQueued pc => exact .put here rfl rfl (.leaves (by rw [pc]; rfl) (by rw [pc]; simp))
  | returned output pc =>
      exact .then here (call.goto (.returned (.ok output))) (by rw [pc]; exact .returns output)
        rfl (kept_release _) (started_release _)
  | ended panicked pc =>
      exact .then here (call.goto (if panicked then .panicked else .dropped))
        (by rw [pc]; exact .ends panicked) rfl (kept_release _) (started_release _)
  | timedOut assigned pc =>
      exact .then here (call.goto (.abandoned false))
        (.waits (by rw [pc]; rfl) (by rw [pc]; simp) rfl) rfl
        (kept_giveUp _ _ · assigned) (started_giveUp _ _ _)
  | dropQueued deadline assigned pc =>
      exact .then here (call.goto (.abandoned true))
        (.waits (by rw [pc]; rfl) (by rw [pc]; simp) rfl) rfl
        (kept_giveUp _ _ · assigned) (started_giveUp _ _ _)
  | enter pc | taken pc | noPermits pc | queueFull pc | reserved pc | acquired pc | enqueued pc
  | pickedUp _ pc | pending _ pc | elapsed _ _ pc | parked _ _ pc | queueTimeout pc
  | leftQueue pc =>
      exact .put here rfl rfl (.waits (by rw [pc]; rfl) (by rw [pc]; simp) rfl)

/-! ### Operations are started once -/

/-- A call that is yet to start its operation has not started it, and no call has
more than once. -/
def StartedOnce (s : WarmExecutionScheduler ω τ) : Prop :=
  ∀ i, s.started.count i ≤ 1 ∧
    ∀ call, s.calls[i]? = some call → call.pc.unstarted = true → s.started.count i = 0

theorem CallMove.unstarted_of {before after : CallPc ω τ} (move : CallMove start before after)
    (h : after.unstarted = true) : before.unstarted = true ∧ before ≠ .starting := by
  cases move with
  | waits early held _ => exact ⟨early, held⟩
  | ends panicked => cases panicked <;> cases h
  | leaves | starts | operates | finishes | returns | unwinds => cases h

theorem startedOnce_step (hs : StartedOnce s) {i : Nat} {call : Call ω τ}
    (here : s.calls[i]? = some call) (step : CallStep start s s' i call) : StartedOnce s' := by
  obtain ⟨⟨call', here', move⟩, kept, started⟩ := step
  intro j
  obtain ⟨hone, hnone⟩ := hs j
  by_cases hji : j = i
  · subst hji
    have early : ∀ other, s'.calls[j]? = some other → other.pc.unstarted = true →
        call.pc.unstarted = true ∧ call.pc ≠ .starting := by
      intro other hother unstarted
      obtain rfl : call' = other := Option.some.inj (here'.symm.trans hother)
      exact move.unstarted_of unstarted
    obtain hsame | ⟨pc, hmore⟩ := started
    · rw [hsame]
      exact ⟨hone, fun other hother unstarted => hnone call here (early other hother unstarted).1⟩
    · have hzero := hnone call here (by rw [pc]; rfl)
      rw [hmore, List.count_cons_self, hzero]
      exact ⟨Nat.le_refl _,
        fun other hother unstarted => absurd pc (early other hother unstarted).2⟩
  · have hcount : s'.started.count j = s.started.count j := by
      obtain hsame | ⟨_, hmore⟩ := started
      · rw [hsame]
      · rw [hmore, List.count_cons_of_ne (Ne.symm hji)]
    rw [hcount]
    refine ⟨hone, fun other hother unstarted => ?_⟩
    obtain hsame | hassigned := kept j hji
    · exact hnone other (hsame.symm.trans hother) unstarted
    · obtain ⟨before, hbefore, rfl⟩ := Option.map_eq_some_iff.mp (hassigned.symm.trans hother)
      exact hnone before hbefore (by rwa [Call.assign_pc, CallPc.unstarted_assign] at unstarted)

theorem startedOnce_reachable {calls instant : Nat}
    (h : (warmExecution config start).Reachable (.new config calls instant) s) : StartedOnce s := by
  refine h.invariant ?_ ?_
  · intro i
    simp [WarmExecutionScheduler.new]
  · intro t a t' ht hstep
    cases step_cases hstep with
    | call i call here _ rule => exact startedOnce_step ht here (rule.callStep here)
    | elapse _ => exact ht

/-! ### What the scheduler promises -/

def WarmExecutionScheduler.runningOperations (s : WarmExecutionScheduler ω τ) : Nat :=
  s.calls.countP fun call => call.pc.isRunning

theorem runningOperations_le (s : WarmExecutionScheduler ω τ) :
    s.runningOperations ≤ s.permitsHeld := by
  refine List.countP_mono_left fun call _ running => ?_
  cases hpc : call.pc with
  | running _ => rfl
  | _ => simp [hpc, CallPc.isRunning] at running

theorem CallPc.holdings_of_outside {pc : CallPc ω τ} (h : pc.outside = true) :
    pc.holdsPermit = false ∧ pc.holdsTicket = false := by
  cases pc with
  | idle | returned _ | dropped | panicked => exact ⟨rfl, rfl⟩
  | _ => cases h

/-- In every state that any calls, however they interleave, can bring the scheduler
to: permits and tickets are accounted for and within their limits, a live ticket
can be given back, a call that was turned away has not run its operation and no
call has run it twice, and when no call is left the counters are as at first. -/
theorem scheduler_keeps_accounts (config : WarmExecutionConfig) (start : ω) (calls instant : Nat)
    (s : WarmExecutionScheduler ω τ)
    (h : (warmExecution config start).Reachable (.new config calls instant) s) :
    s.permitsHeld + s.semaphore.available = config.maxActiveRequests ∧
      s.runningOperations ≤ config.maxActiveRequests ∧
      s.queued = s.ticketsHeld ∧ s.queued ≤ config.maxQueuedRequests ∧
      (∀ (i : Nat) (call : Call ω τ), s.calls[i]? = some call → call.pc.holdsTicket = true →
        0 < s.queued) ∧
      (∀ (i : Nat) (call : Call ω τ) (error : WarmExecutionError), s.calls[i]? = some call →
        call.pc = .returned (.error error) → i ∉ s.started) ∧
      (∀ i, s.started.count i ≤ 1) ∧
      ((∀ call ∈ s.calls, call.pc.outside = true) →
        s.semaphore.available = config.maxActiveRequests ∧ s.queued = 0) := by
  have accounts := accounted_reachable h
  have once := startedOnce_reachable h
  have hpermits := accounts.permits
  have htickets := accounts.tickets
  have hrunning := runningOperations_le s
  refine ⟨by omega, by omega, htickets, accounts.limited, ?_, ?_, fun i => (once i).1, ?_⟩
  · intro i call here ticket
    rw [htickets]
    exact countP_pos_of_getElem? (p := fun call : Call ω τ => call.pc.holdsTicket) here ticket
  · intro i call error here returned
    exact List.count_eq_zero.mp ((once i).2 call here (by rw [returned]; rfl))
  · intro outside
    have noPermits : s.permitsHeld = 0 := by
      refine List.countP_eq_zero.mpr fun call hcall => ?_
      simp [(CallPc.holdings_of_outside (outside call hcall)).1]
    have noTickets : s.ticketsHeld = 0 := by
      refine List.countP_eq_zero.mpr fun call hcall => ?_
      simp [(CallPc.holdings_of_outside (outside call hcall)).2]
    exact ⟨by omega, by omega⟩

section Queued

def oneAndOne : WarmExecutionConfig where
  maxActiveRequests := 1
  maxQueuedRequests := 1
  queueTimeout := 0

/-- Call 0 runs its operation and call 1 comes to the queue. -/
def queueSchedule : List (Action Unit Unit) :=
  [.call 0 .enter, .call 0 .run, .call 0 .run, .call 1 .enter, .call 1 .run, .call 1 .run,
   .call 1 .run]

theorem scheduler_keeps_accounts_queued :
    ∃ s : WarmExecutionScheduler Unit Unit,
      (warmExecution oneAndOne ()).Reachable (.new oneAndOne 2 0) s ∧
      (s.runningOperations = 1 ∧ s.queued = 1) ∧ s.permitsHeld + s.semaphore.available = 1 := by
  have queued : ∃ s : WarmExecutionScheduler Unit Unit,
      (warmExecution oneAndOne ()).Reachable (.new oneAndOne 2 0) s ∧
        (s.runningOperations = 1 ∧ s.queued = 1) :=
    System.reachable_of_check queueSchedule (by decide)
  obtain ⟨s, hs, hcounts⟩ := queued
  exact ⟨s, hs, hcounts, (scheduler_keeps_accounts oneAndOne () 2 0 s hs).1⟩

end Queued
end LlmWakeProxy.Scheduler
