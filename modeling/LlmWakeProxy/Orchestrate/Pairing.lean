import LlmWakeProxy.Orchestrate.InFlight
import LlmWakeProxy.Orchestrate.WakeCount
import LlmWakeProxy.Scheduler.Resume

/-!
A call of the orchestrator and its call of the scheduler. The second is inside the
scheduler exactly while the first stands at `scheduled`, or unwinds from there; before
that it has not been made, and afterwards it is over. So whatever becomes of the calls,
when none is in progress nothing is held.
-/

namespace LlmWakeProxy.Orchestrate
open LlmWakeProxy.Library LlmWakeProxy.Scheduler LlmWakeProxy.Forward

universe u
variable {ν : Type u} {serde : SerdeJson ν} {config : AppConfig}

/-- Where the scheduler's call is while the call of the orchestrator stands at `pc`. -/
def pairs (pc : ExecPc) (call : CallPc ForwardPc ForwardResult) : Bool :=
  match pc with
  | .idle | .isCold | .coldPermit | .ensureBackend | .awaitDecision | .handleReady _ | .execute =>
      call.isIdle
  | .scheduled => call.isActive
  | .unwinding => call.isLeaving
  | _ => call.outside

structure Orchestrator.Paired (s : Orchestrator) : Prop where
  calls : ∀ (i : Nat) (exec : Exec), s.execs[i]? = some exec →
    ∃ call, s.scheduler.calls[i]? = some call ∧ pairs exec.pc call.pc = true
  execs : ∀ (i : Nat) (call : Call ForwardPc ForwardResult), s.scheduler.calls[i]? = some call →
    ∃ exec, s.execs[i]? = some exec

variable {s s' : Orchestrator} {i : Nat} {exec exec' : Exec}

theorem pairs_assign (pc : ExecPc) (call : CallPc ForwardPc ForwardResult) :
    pairs pc call.assign = pairs pc call := by
  cases pc <;> cases call <;> rfl

theorem Orchestrator.Paired.put {t : Orchestrator} (hs : s.Paired) (here : s.execs[i]? = some exec)
    (execs : t.execs = s.execs) (scheduler : t.scheduler = s.scheduler)
    (kept : ∀ call, pairs exec.pc call = true → pairs exec'.pc call = true) :
    (t.put i exec').Paired := by
  constructor
  · intro j other hother
    rw [Orchestrator.put_execs, execs] at hother
    rw [Orchestrator.put_scheduler, scheduler]
    obtain ⟨rfl, rfl⟩ | ⟨_, hold⟩ := getElem?_set_cases here hother
    · obtain ⟨call, hcall, paired⟩ := hs.calls j exec here
      exact ⟨call, hcall, kept call.pc paired⟩
    · exact hs.calls j other hold
  · intro j call hcall
    rw [Orchestrator.put_scheduler, scheduler] at hcall
    obtain ⟨other, hother⟩ := hs.execs j call hcall
    rw [Orchestrator.put_execs, execs]
    by_cases hji : j = i
    · subst hji
      exact ⟨exec', getElem?_set_of_some here _⟩
    · exact ⟨other, (List.getElem?_set_ne (Ne.symm hji)).trans hother⟩

theorem Orchestrator.Paired.driven {t : Orchestrator} {call : Call ForwardPc ForwardResult}
    (hs : s.Paired) (exec' : Exec) (here : s.execs[i]? = some exec)
    (execs : t.execs = s.execs.set i exec')
    (step : CallStep .begun s.scheduler t.scheduler i call)
    (moved : ∃ call', t.scheduler.calls[i]? = some call' ∧ pairs exec'.pc call'.pc = true) :
    t.Paired := by
  constructor
  · intro j other hother
    rw [execs] at hother
    obtain ⟨rfl, rfl⟩ | ⟨hne, hold⟩ := getElem?_set_cases here hother
    · exact moved
    · obtain ⟨before, hbefore, paired⟩ := hs.calls j other hold
      obtain same | assigned := step.kept j hne
      · exact ⟨before, same.trans hbefore, paired⟩
      · refine ⟨before.assign, assigned.trans (by rw [hbefore]; rfl), ?_⟩
        rw [Call.assign_pc, pairs_assign]
        exact paired
  · intro j other hother
    rw [execs]
    by_cases hji : j = i
    · subst hji
      exact ⟨exec', getElem?_set_of_some here _⟩
    · rw [List.getElem?_set_ne (Ne.symm hji)]
      obtain same | assigned := step.kept j hji
      · exact hs.execs j other (same.symm.trans hother)
      · obtain ⟨before, hbefore, _⟩ := Option.map_eq_some_iff.mp (assigned.symm.trans hother)
        exact hs.execs j before hbefore

theorem pairs_of_returned {pc : ExecPc} {call : CallPc ForwardPc ForwardResult}
    (apart : call.outside = true) (left : pairs pc = CallPc.outside) : pairs pc call = true := by
  rw [left]
  exact apart

theorem paired_executed {t : Orchestrator} {call : Call ForwardPc ForwardResult}
    {outcome : Except WarmExecutionError ForwardResult} (hs : s.Paired)
    (here : s.execs[i]? = some exec) (drive : s.drive config i .run = some t)
    (hcall : t.scheduler.calls[i]? = some call) (returned : call.pc = .returned outcome) :
    (t.afterExecute i exec outcome).Paired := by
  obtain ⟨before, _, step, _, execs, _⟩ := drive_callStep drive
  obtain ⟨inc, pc, hs', hpc⟩ := t.afterExecute_eq i exec outcome
  rw [hs']
  have left : pairs pc = CallPc.outside := by
    obtain ⟨_, rfl⟩ | rfl | ⟨_, rfl, _⟩ := hpc <;> rfl
  refine hs.driven (exec.goto pc) here ?_ step ⟨call, hcall, ?_⟩
  · rw [Orchestrator.put_execs, Orchestrator.count_execs, execs]
  · exact pairs_of_returned (by rw [returned]; rfl) left

theorem paired_exec {input : Input} (hs : s.Paired) (here : s.execs[i]? = some exec)
    (rule : ExecRule serde config s i exec input s') : s'.Paired := by
  have same : s.execs = s.execs.set i exec := (set_of_some here).symm
  have idle : ∀ pc : ExecPc, pairs exec.pc = CallPc.isIdle → pairs pc = CallPc.outside →
      ∀ call, pairs exec.pc call = true → pairs pc call = true := by
    intro pc before after call paired
    rw [before] at paired
    exact pairs_of_returned (CallPc.outside_of_isIdle paired) after
  cases rule with
  | enter _ _ pc | cold _ pc _ | notCold _ pc _ | admitted _ pc _ | callEnsure pc
  | callDegrade _ pc | callMark pc | degraded _ pc | retryPending _ _ _ pc _
  | retryDone _ _ _ pc _ | relayed pc =>
      exact hs.put here (by simp) (by simp) fun call paired => by rw [pc] at paired; exact paired
  | refused pc _ => exact hs.put here rfl rfl (idle _ (by rw [pc]; rfl) rfl)
  | decided decision pc =>
      cases decision with
      | ready status =>
          exact hs.put here rfl rfl fun call paired => by rw [pc] at paired; exact paired
      | warming _ _ | failed _ _ => exact hs.put here rfl rfl (idle _ (by rw [pc]; rfl) rfl)
  | retryDecided decision pc =>
      cases decision with
      | ready _ | warming _ _ | failed _ _ =>
          exact hs.put here rfl rfl fun call paired => by rw [pc] at paired; exact paired
  | handled _ pc _ =>
      exact hs.put here (by simp) (by simp) fun call paired => by rw [pc] at paired; exact paired
  | embeddingsDegraded _ pc _ _ =>
      exact hs.put here (by simp) (by simp) (idle _ (by rw [pc]; rfl) rfl)
  | execute t pc drive =>
      obtain ⟨before, _, step, _, execs, _⟩ := drive_callStep drive
      obtain ⟨call, hcall, hpc⟩ := drive_enter drive
      exact hs.driven (exec.goto .scheduled) here (by rw [Orchestrator.put_execs, execs])
        step ⟨call, hcall, by rw [hpc]; rfl⟩
  | scheduled _ call pc drive hcall pending =>
      obtain ⟨before, hbefore, step, run, execs, _⟩ := drive_callStep drive
      obtain ⟨before', hbefore', paired⟩ := hs.calls i exec here
      obtain rfl : before = before' := Option.some.inj (hbefore.symm.trans hbefore')
      rw [pc] at paired
      obtain ⟨after, hafter, move⟩ := callStep_run_moves run hbefore
      obtain rfl : call = after := Option.some.inj (hcall.symm.trans hafter)
      have moved := move.of_active paired
      refine hs.driven exec here (execs.trans same) step ⟨call, hcall, ?_⟩
      rw [pc]
      cases hpc : call.pc with
      | returned outcome => exact absurd hpc (pending outcome)
      | _ => simpa [hpc, CallPc.hasReturned, pairs] using moved
  | executed t call outcome _ drive hcall returned =>
      exact paired_executed hs here drive hcall returned
  | operate _ input _ _ next pc _ _ _ drive =>
      obtain ⟨before, hbefore, step, run, execs, _⟩ := drive_callStep drive
      rw [Orchestrator.noteDelivery_scheduler] at hbefore step run
      rw [Orchestrator.noteDelivery_execs] at execs
      obtain ⟨after, hafter, active⟩ := active_of_operate (.inl ⟨next, rfl⟩) run hbefore
      exact hs.driven exec here (execs.trans same) step ⟨after, hafter, by rw [pc]; exact active⟩
  | complete _ _ _ _ result pc _ _ _ drive =>
      obtain ⟨before, hbefore, step, run, execs, _⟩ := drive_callStep drive
      obtain ⟨after, hafter, active⟩ := active_of_operate (.inr ⟨result, rfl⟩) run hbefore
      exact hs.driven exec here (execs.trans same) step ⟨after, hafter, by rw [pc]; exact active⟩
  | returned response pc =>
      refine hs.put here rfl rfl fun call paired => ?_
      rw [pc] at paired
      cases response.streams with
      | true | false => exact paired
  | unwoundAwaiting _ pc =>
      refine hs.put here rfl rfl ?_
      intro call paired
      cases hpc : exec.pc with
      | awaitDecision => exact idle .unwound (by rw [hpc]; rfl) rfl call paired
      | awaitDegraded _ | awaitRetryDecision | retrying _ => rw [hpc] at paired; exact paired
      | _ => simp [hpc, ExecPc.awaitsLifecycle, ExecPc.retries] at pc
  | unwoundScheduled t panicked pc drive =>
      obtain ⟨before, hbefore, step, run, execs, _⟩ := drive_callStep drive
      obtain ⟨after, hafter, leaving⟩ := leaving_of_unwind
        (by cases panicked with
            | true => exact .inr rfl
            | false => exact .inl rfl) run hbefore
      exact hs.driven (exec.goto .unwinding) here (by rw [Orchestrator.put_execs, execs])
        step ⟨after, hafter, leaving⟩
  | unwinding _ call pc drive hcall pending =>
      obtain ⟨before, hbefore, _, run, _, _⟩ := drive_callStep drive
      obtain ⟨before', hbefore', paired⟩ := hs.calls i exec here
      obtain rfl : before = before' := Option.some.inj (hbefore.symm.trans hbefore')
      rw [pc] at paired
      obtain ⟨after, hafter, move⟩ := callStep_run_moves run hbefore
      obtain rfl : call = after := Option.some.inj (hcall.symm.trans hafter)
      exact absurd (move.of_leaving paired) (not_or.mpr pending)
  | unwoundCall t call pc drive hcall ended =>
      obtain ⟨_, _, step, _, execs, _⟩ := drive_callStep drive
      refine hs.driven (exec.goto .unwound) here (by rw [Orchestrator.put_execs, execs])
        step ⟨call, hcall, ?_⟩
      obtain hpc | hpc := ended
      · rw [hpc]; rfl
      · rw [hpc]; rfl
  | dropped pc =>
      exact hs.put here rfl rfl fun call paired => by rw [pc] at paired; exact paired

theorem paired_new (execs instant : Nat) : (Orchestrator.new config execs instant).Paired := by
  constructor
  · intro i exec here
    obtain ⟨hlt, rfl⟩ := by
      simpa [Orchestrator.new, List.getElem?_replicate] using here
    exact ⟨_, List.getElem?_replicate_of_lt hlt, rfl⟩
  · intro i call here
    obtain ⟨hlt, rfl⟩ := by
      simpa [Orchestrator.new, WarmExecutionScheduler.new, List.getElem?_replicate] using here
    exact ⟨_, List.getElem?_replicate_of_lt hlt⟩

theorem paired_step {a : Action} (hs : s.Paired)
    (hstep : (orchestrator serde config).step s a = some s') : s'.Paired := by
  cases step_cases hstep with
  | exec i input exec here _ rule => exact paired_exec hs here rule
  | elapse span scheduler drive =>
      cases drive
      exact ⟨hs.calls, hs.execs⟩

theorem paired_reachable {execs instant : Nat}
    (h : (orchestrator serde config).Reachable (.new config execs instant) s) : s.Paired :=
  h.invariant (paired_new execs instant) fun _ _ _ => paired_step

/-! ### What is held when calls are over -/

def ExecPc.inScheduler : ExecPc → Bool
  | .scheduled | .unwinding => true
  | _ => false

theorem outside_of_pairs {pc : ExecPc} {call : CallPc ForwardPc ForwardResult}
    (h : pairs pc call = true) (apart : pc.inScheduler = false) : call.outside = true := by
  cases pc with
  | scheduled | unwinding => cases apart
  | idle | isCold | coldPermit | ensureBackend | awaitDecision | handleReady _ | execute =>
      exact CallPc.outside_of_isIdle h
  | _ => exact h

/-- A property of scheduler calls that only those inside have is no more frequent than
the calls inside. -/
theorem Orchestrator.Paired.count_le (hs : s.Paired)
    (p : CallPc ForwardPc ForwardResult → Bool) (apart : ∀ pc, pc.outside = true → p pc = false) :
    (s.scheduler.calls.countP fun call => p call.pc) ≤
      s.execs.countP fun exec => exec.pc.inScheduler := by
  refine countP_le_countP_of_getElem? fun i call hcall held => ?_
  obtain ⟨exec, here⟩ := hs.execs i call hcall
  obtain ⟨call', hcall', paired⟩ := hs.calls i exec here
  obtain rfl : call = call' := Option.some.inj (hcall.symm.trans hcall')
  refine ⟨exec, here, ?_⟩
  cases inside : exec.pc.inScheduler with
  | true => rfl
  | false =>
      exact absurd ((apart call.pc (outside_of_pairs paired inside)).symm.trans held)
        Bool.false_ne_true

/-- A call that is over has given its cold-start permit back. -/
def Orchestrator.ColdReturned (s : Orchestrator) : Prop :=
  ∀ exec ∈ s.execs, exec.pc.over = true → exec.holdsColdPermit = false

theorem coldReturned_exec {input : Input} (hs : s.ColdReturned) (here : s.execs[i]? = some exec)
    (rule : ExecRule serde config s i exec input s') : s'.ColdReturned := by
  have moved : ∀ {t : Orchestrator} {exec' : Exec}, t.execs = s.execs → exec'.pc.over = false →
      (t.put i exec').ColdReturned := by
    intro t exec' execs inside
    rw [Orchestrator.ColdReturned, Orchestrator.put_execs, execs]
    exact forall_mem_set hs fun done => absurd (inside.symm.trans done) Bool.false_ne_true
  have still : ∀ {t : Orchestrator}, t.execs = s.execs → t.ColdReturned := by
    intro t execs
    rw [Orchestrator.ColdReturned, execs]
    exact hs
  have given : ∀ {t : Orchestrator} {exec' : Exec}, t.execs = s.execs →
      exec'.holdsColdPermit = false → (t.put i exec').ColdReturned := by
    intro t exec' execs nothing
    rw [Orchestrator.ColdReturned, Orchestrator.put_execs, execs]
    exact forall_mem_set hs fun _ => nothing
  cases rule with
  | decided decision _ =>
      obtain ⟨inc, pc, hs', hpc⟩ := s.afterDecision_eq i exec decision
      rw [hs']
      refine moved rfl ?_
      obtain ⟨_, _, rfl⟩ | ⟨_, rfl, _⟩ := hpc <;> rfl
  | retryDecided decision _ =>
      obtain ⟨pc, hs', hpc⟩ := s.afterRetryDecision_eq i exec decision
      rw [hs']
      refine moved rfl ?_
      obtain ⟨_, _, rfl⟩ | ⟨_, rfl, _⟩ := hpc <;> rfl
  | executed t call outcome _ drive _ _ =>
      obtain ⟨inc, pc, hs', hpc⟩ := t.afterExecute_eq i exec outcome
      rw [hs']
      refine moved (Orchestrator.drive_frame drive).1 ?_
      obtain ⟨_, rfl⟩ | rfl | ⟨_, rfl, _⟩ := hpc <;> rfl
  | scheduled _ _ _ drive _ _ | unwinding _ _ _ drive _ _ =>
      exact still (Orchestrator.drive_frame drive).1
  | operate _ _ _ _ _ _ _ _ _ drive =>
      exact still ((Orchestrator.drive_frame drive).1.trans (Orchestrator.noteDelivery_execs ..))
  | complete _ _ _ _ _ _ _ _ _ drive => exact still (Orchestrator.drive_frame drive).1
  | execute t _ drive | unwoundScheduled t _ _ drive | unwoundCall t _ _ drive _ _ =>
      exact moved (Orchestrator.drive_frame drive).1 rfl
  | returned _ _ | dropped _ => exact given rfl rfl
  | relayed pc =>
      exact given rfl (hs exec (List.mem_of_getElem? here) (by rw [pc]; rfl))
  | embeddingsDegraded _ _ _ _ | handled _ _ _ | retryPending _ _ _ _ _ | retryDone _ _ _ _ _ =>
      exact moved (by simp) rfl
  | _ => exact moved rfl rfl

theorem coldReturned_reachable {execs instant : Nat}
    (h : (orchestrator serde config).Reachable (.new config execs instant) s) :
    s.ColdReturned := by
  refine h.invariant ?_ ?_
  · intro exec hexec _
    obtain rfl := (List.mem_replicate.mp hexec).2
    rfl
  · intro t a t' ht hstep
    cases step_cases hstep with
    | elapse _ _ drive =>
        cases drive
        exact ht
    | exec i _ exec here _ rule => exact coldReturned_exec ht here rule

/-- Whatever is answered, dropped or panics, and in whatever order: the warm permits
and the queue tickets in use are no more than the calls inside the scheduler, a call
that is over holds no cold-start permit, and when all calls are over every permit and
every ticket is back. -/
theorem resources_return (serde : SerdeJson ν) (config : AppConfig) (execs instant : Nat)
    (s : Orchestrator) (h : (orchestrator serde config).Reachable (.new config execs instant) s) :
    config.warmExecution.maxActiveRequests ≤
        s.scheduler.semaphore.available + (s.execs.countP fun exec => exec.pc.inScheduler) ∧
      s.scheduler.queued ≤ (s.execs.countP fun exec => exec.pc.inScheduler) ∧
      (∀ exec ∈ s.execs, exec.pc.over = true → exec.holdsColdPermit = false) ∧
      ((∀ exec ∈ s.execs, exec.pc.over = true) →
        s.scheduler.semaphore.available = config.warmExecution.maxActiveRequests ∧
        s.scheduler.semaphore.waiting = [] ∧ s.scheduler.queued = 0 ∧
        s.coldStartSemaphore.available = config.coldStartMaxWaiting) := by
  have paired := paired_reachable h
  have accounts := accounted_reachable (scheduler_reachable h)
  have cold := coldAccounted_reachable h
  have returned := coldReturned_reachable h
  have permits := accounts.permits
  have tickets := accounts.tickets
  have held : s.scheduler.permitsHeld ≤ _ :=
    paired.count_le CallPc.holdsPermit fun _ out => (CallPc.holdings_of_outside out).1
  have taken : s.scheduler.ticketsHeld ≤ _ :=
    paired.count_le CallPc.holdsTicket fun _ out => (CallPc.holdings_of_outside out).2
  refine ⟨by omega, by omega, returned, fun ended => ?_⟩
  have nobody : (s.execs.countP fun exec => exec.pc.inScheduler) = 0 := by
    refine List.countP_eq_zero.mpr fun exec hexec inside => ?_
    have := ended exec hexec
    cases hpc : exec.pc with
    | scheduled | unwinding =>
        rw [hpc] at this
        cases this
    | _ => simp [hpc, ExecPc.inScheduler] at inside
  have noCold : s.coldPermitsHeld = 0 := by
    refine List.countP_eq_zero.mpr fun exec hexec => ?_
    simp [returned exec hexec (ended exec hexec)]
  have noWaiter : s.scheduler.semaphore.waiting = [] := by
    refine List.eq_nil_iff_forall_not_mem.mpr fun i hi => ?_
    obtain ⟨call, hcall, waits⟩ := (accounts.queues.mem i).mp hi
    have queueing := countP_pos_of_getElem? (p := fun call => call.pc.waits) hcall waits
    have := paired.count_le CallPc.waits fun _ out => CallPc.not_waits_of_outside out
    omega
  have coldPermits := cold.permits
  exact ⟨by omega, noWaiter, by omega, by omega⟩

section Returned

/-- The operation of call `i` panics, and the call unwinds. -/
def panicSchedule (i : Nat) : List Action :=
  [.exec i (.unwind true), .exec i .run, .exec i .run]

theorem resources_return_panicked :
    ∃ s, (orchestrator SerdeJson.mute oneAtATime).Reachable (.new oneAtATime 1 0) s ∧
      (∀ exec ∈ s.execs, exec.pc.over = true) ∧ s.scheduler.semaphore.available = 1 := by
  have panicked : ∃ s, (orchestrator SerdeJson.mute oneAtATime).Reachable (.new oneAtATime 1 0) s ∧
      s.execs.all (fun exec => exec.pc.over) = true :=
    System.reachable_of_check (sendSchedule 0 true ++ panicSchedule 0) (by decide)
  obtain ⟨s, hs, hover⟩ := panicked
  have ended := List.all_eq_true.mp hover
  exact ⟨s, hs, ended, ((resources_return SerdeJson.mute oneAtATime 1 0 s hs).2.2.2 ended).1⟩

end Returned
end LlmWakeProxy.Orchestrate
