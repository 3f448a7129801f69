import LlmWakeProxy.Orchestrate.Execute

/-!
What a step of the orchestrator can do, said once. Each rule is one branch of the
step function with its guard. The state a rule leads to is built with the
operations of the model, whose effect on each field is a lemma.
-/

namespace LlmWakeProxy.Orchestrate
open LlmWakeProxy.Library LlmWakeProxy.Scheduler LlmWakeProxy.Forward
open LlmWakeProxy.Lifecycle (LifecycleRequest LifecycleDecision BackendStatus TunnelState)

universe u
variable {ν : Type u} {serde : SerdeJson ν} {config : AppConfig}
variable {s s' : Orchestrator}

def ExecPc.awaitsLifecycle : ExecPc → Bool
  | .awaitDecision | .awaitDegraded _ | .awaitRetryDecision => true
  | _ => false

def ExecPc.retries : ExecPc → Bool
  | .retrying _ => true
  | _ => false

@[simp] theorem Exec.goto_pc (exec : Exec) (pc : ExecPc) : (exec.goto pc).pc = pc := rfl
@[simp] theorem Exec.goto_kind (exec : Exec) (pc : ExecPc) : (exec.goto pc).kind = exec.kind := rfl

namespace Orchestrator

@[simp] theorem put_execs (i : Nat) (exec : Exec) : (s.put i exec).execs = s.execs.set i exec := rfl
@[simp] theorem put_scheduler (i : Nat) (exec : Exec) :
    (s.put i exec).scheduler = s.scheduler := rfl
@[simp] theorem put_coldStartSemaphore (i : Nat) (exec : Exec) :
    (s.put i exec).coldStartSemaphore = s.coldStartSemaphore := rfl

@[simp] theorem emit_execs (event : Event) : (s.emit event).execs = s.execs := rfl
@[simp] theorem emit_scheduler (event : Event) : (s.emit event).scheduler = s.scheduler := rfl
@[simp] theorem emit_coldStartSemaphore (event : Event) :
    (s.emit event).coldStartSemaphore = s.coldStartSemaphore := rfl

@[simp] theorem count_execs (inc : Metrics → Metrics) : (s.count inc).execs = s.execs := rfl
@[simp] theorem count_scheduler (inc : Metrics → Metrics) :
    (s.count inc).scheduler = s.scheduler := rfl
@[simp] theorem count_coldStartSemaphore (inc : Metrics → Metrics) :
    (s.count inc).coldStartSemaphore = s.coldStartSemaphore := rfl

@[simp] theorem checkTunnelDrop_execs (kind : LifecycleRequest) (tunnel : TunnelState) :
    (s.checkTunnelDrop kind tunnel).execs = s.execs := by
  cases kind <;> (simp only [checkTunnelDrop]; split <;> rfl)

@[simp] theorem checkTunnelDrop_scheduler (kind : LifecycleRequest) (tunnel : TunnelState) :
    (s.checkTunnelDrop kind tunnel).scheduler = s.scheduler := by
  cases kind <;> (simp only [checkTunnelDrop]; split <;> rfl)

@[simp] theorem checkTunnelDrop_coldStartSemaphore (kind : LifecycleRequest)
    (tunnel : TunnelState) :
    (s.checkTunnelDrop kind tunnel).coldStartSemaphore = s.coldStartSemaphore := by
  cases kind <;> (simp only [checkTunnelDrop]; split <;> rfl)

@[simp] theorem noteDelivery_execs (i : Nat) (pc : ForwardPc) (input : ForwardInput) :
    (s.noteDelivery i pc input).execs = s.execs := rfl

@[simp] theorem noteDelivery_scheduler (i : Nat) (pc : ForwardPc) (input : ForwardInput) :
    (s.noteDelivery i pc input).scheduler = s.scheduler := rfl

@[simp] theorem noteDelivery_coldStartSemaphore (i : Nat) (pc : ForwardPc) (input : ForwardInput) :
    (s.noteDelivery i pc input).coldStartSemaphore = s.coldStartSemaphore := rfl

/-! What follows a decision or an outcome: the metrics move, and the call. -/

theorem afterDecision_eq (i : Nat) (exec : Exec) (decision : LifecycleDecision) :
    ∃ inc pc, s.afterDecision i exec decision = (s.count inc).put i (exec.goto pc) ∧
      ((∃ status, decision = .ready status ∧ pc = .handleReady status) ∨
        ∃ response, pc = .returning response ∧ response.streams = false) := by
  cases decision with
  | ready status => exact ⟨id, _, rfl, .inl ⟨status, rfl, rfl⟩⟩
  | warming _ _ => exact ⟨_, _, rfl, .inr ⟨_, rfl, rfl⟩⟩
  | failed _ _ => exact ⟨_, _, rfl, .inr ⟨_, rfl, rfl⟩⟩

theorem afterRetryDecision_eq (i : Nat) (exec : Exec) (decision : LifecycleDecision) :
    ∃ pc, s.afterRetryDecision i exec decision = s.put i (exec.goto pc) ∧
      ((∃ status, decision = .ready status ∧ pc = .retrying .begun) ∨
        ∃ response, pc = .returning response ∧ response.streams = false) := by
  cases decision with
  | ready status => exact ⟨_, rfl, .inl ⟨status, rfl, rfl⟩⟩
  | warming _ _ => exact ⟨_, rfl, .inr ⟨_, rfl, rfl⟩⟩
  | failed _ _ => exact ⟨_, rfl, .inr ⟨_, rfl, rfl⟩⟩

theorem afterExecute_eq (i : Nat) (exec : Exec)
    (outcome : Except WarmExecutionError ForwardResult) :
    ∃ inc pc, s.afterExecute i exec outcome = (s.count inc).put i (exec.goto pc) ∧
      ((∃ reason, pc = .degrade reason) ∨ pc = .markWarming ∨
        ∃ response, pc = .returning response ∧
          (outcome = .ok (.ok response) ∨ response.streams = false)) := by
  match outcome with
  | .ok (.ok response) => exact ⟨_, _, rfl, .inr (.inr ⟨response, rfl, .inl rfl⟩)⟩
  | .ok (.error .embeddingsUnsupported) => exact ⟨_, _, rfl, .inl ⟨_, rfl⟩⟩
  | .ok (.error .upstreamUnreachable) => exact ⟨_, _, rfl, .inr (.inl rfl)⟩
  | .ok (.error (.upstreamError _ _)) => exact ⟨_, _, rfl, .inr (.inr ⟨_, rfl, .inr rfl⟩)⟩
  | .ok (.error .cancelled) => exact ⟨_, _, rfl, .inr (.inr ⟨_, rfl, .inr rfl⟩)⟩
  | .error .queueFull => exact ⟨_, _, rfl, .inr (.inr ⟨_, rfl, .inr rfl⟩)⟩
  | .error .queueTimeout => exact ⟨_, _, rfl, .inr (.inr ⟨_, rfl, .inr rfl⟩)⟩

theorem drive_eq_some {i : Nat} {input : Scheduler.Input ForwardPc ForwardResult}
    (h : s.drive config i input = some s') :
    ∃ scheduler, s.scheduler.step config.warmExecution .begun (.call i input) =
      some scheduler ∧ s' = { s with scheduler := scheduler } := by
  obtain ⟨scheduler, hstep, hs⟩ := Option.map_eq_some_iff.mp h
  exact ⟨scheduler, hstep, hs.symm⟩

/-- The scheduler's step leaves the rest alone. -/
theorem drive_log {i : Nat} {input : Scheduler.Input ForwardPc ForwardResult} {t : Orchestrator}
    (h : s.drive config i input = some t) : t.log = s.log := by
  obtain ⟨scheduler, _, rfl⟩ := drive_eq_some h
  rfl

theorem drive_frame {i : Nat} {input : Scheduler.Input ForwardPc ForwardResult}
    (h : s.drive config i input = some s') :
    s'.execs = s.execs ∧ s'.coldStartSemaphore = s.coldStartSemaphore := by
  obtain ⟨scheduler, _, rfl⟩ := drive_eq_some h
  exact ⟨rfl, rfl⟩

end Orchestrator

@[simp] theorem noteDelivery_metrics (o : Orchestrator) (i : Nat) (pc : ForwardPc)
    (input : ForwardInput) : (o.noteDelivery i pc input).metrics = o.metrics := rfl

theorem drive_metrics {o o' : Orchestrator} {i : Nat}
    {input : Scheduler.Input ForwardPc ForwardResult} (h : o.drive config i input = some o') :
    o'.metrics = o.metrics := by
  obtain ⟨scheduler, _, rfl⟩ := Orchestrator.drive_eq_some h
  rfl

/-- The branches of one step of call `i`. -/
inductive ExecRule (serde : SerdeJson ν) (config : AppConfig) (s : Orchestrator) (i : Nat)
    (exec : Exec) : Input → Orchestrator → Prop
  | enter (kind : LifecycleRequest) (stream : Bool) (pc : exec.pc = .idle) :
      ExecRule serde config s i exec (.enter kind stream)
        (s.put i { exec with kind := kind, stream := stream, pc := .isCold })
  | cold (status : BackendStatus) (pc : exec.pc = .isCold) (isCold : status.lifecycle = .cold) :
      ExecRule serde config s i exec (.status status) (s.put i (exec.goto .coldPermit))
  | notCold (status : BackendStatus) (pc : exec.pc = .isCold) (isCold : status.lifecycle ≠ .cold) :
      ExecRule serde config s i exec (.status status) (s.put i (exec.goto .ensureBackend))
  | admitted (semaphore : Semaphore Nat) (pc : exec.pc = .coldPermit)
      (free : s.coldStartSemaphore.tryAcquire = some semaphore) :
      ExecRule serde config s i exec .run
        ({ s with coldStartSemaphore := semaphore }.put i
          { exec with holdsColdPermit := true, pc := .ensureBackend })
  | refused (pc : exec.pc = .coldPermit) (exhausted : s.coldStartSemaphore.tryAcquire = none) :
      ExecRule serde config s i exec .run (s.put i (exec.goto (.returning queueIsFull)))
  | callEnsure (pc : exec.pc = .ensureBackend) :
      ExecRule serde config s i exec .call (s.put i (exec.goto .awaitDecision))
  | callDegrade (reason : String) (pc : exec.pc = .degrade reason) :
      ExecRule serde config s i exec .call (s.put i (exec.goto (.awaitDegraded reason)))
  | callMark (pc : exec.pc = .markWarming) :
      ExecRule serde config s i exec .call (s.put i (exec.goto .awaitRetryDecision))
  | decided (decision : LifecycleDecision) (pc : exec.pc = .awaitDecision) :
      ExecRule serde config s i exec (.decide decision) (s.afterDecision i exec decision)
  | retryDecided (decision : LifecycleDecision) (pc : exec.pc = .awaitRetryDecision) :
      ExecRule serde config s i exec (.decide decision) (s.afterRetryDecision i exec decision)
  | degraded (reason : String) (pc : exec.pc = .awaitDegraded reason) :
      ExecRule serde config s i exec .degraded
        ((s.emit (.degraded i reason)).put i
          (exec.goto (.returning (embeddingDegradationResponse reason))))
  | embeddingsDegraded (status : BackendStatus) (pc : exec.pc = .handleReady status)
      (kind : exec.kind = .embeddings) (isDegraded : status.embeddings = .degraded) :
      ExecRule serde config s i exec .run
        ((s.checkTunnelDrop exec.kind status.tunnel).put i
          (exec.goto (.returning (embeddingsAreDegraded status.embeddingsReason))))
  | handled (status : BackendStatus) (pc : exec.pc = .handleReady status)
      (able : ¬ (exec.kind = .embeddings ∧ status.embeddings = .degraded)) :
      ExecRule serde config s i exec .run
        ((s.checkTunnelDrop exec.kind status.tunnel).put i (exec.goto .execute))
  | execute (t : Orchestrator) (pc : exec.pc = .execute) (drive : s.drive config i .enter = some t) :
      ExecRule serde config s i exec .run (t.put i (exec.goto .scheduled))
  | scheduled (t : Orchestrator) (call : Call ForwardPc ForwardResult) (pc : exec.pc = .scheduled)
      (drive : s.drive config i .run = some t) (here : t.scheduler.calls[i]? = some call)
      (pending : ∀ outcome, call.pc ≠ .returned outcome) :
      ExecRule serde config s i exec .run t
  | executed (t : Orchestrator) (call : Call ForwardPc ForwardResult)
      (outcome : Except WarmExecutionError ForwardResult) (pc : exec.pc = .scheduled)
      (drive : s.drive config i .run = some t) (here : t.scheduler.calls[i]? = some call)
      (returned : call.pc = .returned outcome) :
      ExecRule serde config s i exec .run (t.afterExecute i exec outcome)
  | operate (t : Orchestrator) (input : ForwardInput) (call : Call ForwardPc ForwardResult)
      (before after : ForwardPc) (pc : exec.pc = .scheduled)
      (here : s.scheduler.calls[i]? = some call) (running : call.pc = .running before)
      (forward : forwardStep serde (exec.request config) call.cancelled before input =
        some (.pending after))
      (drive : (s.noteDelivery i before input).drive config i (.operate after) = some t) :
      ExecRule serde config s i exec (.forward input) t
  | complete (t : Orchestrator) (input : ForwardInput) (call : Call ForwardPc ForwardResult)
      (before : ForwardPc) (result : ForwardResult) (pc : exec.pc = .scheduled)
      (here : s.scheduler.calls[i]? = some call) (running : call.pc = .running before)
      (forward : forwardStep serde (exec.request config) call.cancelled before input =
        some (.done result))
      (drive : (s.emit (.forwarded i result)).drive config i (.complete result) = some t) :
      ExecRule serde config s i exec (.forward input) t
  | retryPending (input : ForwardInput) (before after : ForwardPc) (pc : exec.pc = .retrying before)
      (forward : forwardStep serde (exec.request config) false before input =
        some (.pending after)) :
      ExecRule serde config s i exec (.forward input)
        ((s.noteDelivery i before input).put i (exec.goto (.retrying after)))
  | retryDone (input : ForwardInput) (before : ForwardPc) (result : ForwardResult)
      (pc : exec.pc = .retrying before)
      (forward : forwardStep serde (exec.request config) false before input =
        some (.done result)) :
      ExecRule serde config s i exec (.forward input)
        ((s.emit (.forwarded i result)).put i (exec.goto (.returning (unwrapOrOpenai result))))
  | returned (response : Response) (pc : exec.pc = .returning response) :
      ExecRule serde config s i exec .run
        ((s.emit (.responded i response)).dropColdPermit i exec
          (if response.streams then .relaying else .responded))
  | relayed (pc : exec.pc = .relaying) :
      ExecRule serde config s i exec .relayed (s.put i (exec.goto .responded))
  | unwoundAwaiting (panicked : Bool)
      (pc : exec.pc.awaitsLifecycle = true ∨ exec.pc.retries = true) :
      ExecRule serde config s i exec (.unwind panicked) (s.put i (exec.goto .unwound))
  | unwoundScheduled (t : Orchestrator) (panicked : Bool) (pc : exec.pc = .scheduled)
      (drive : s.drive config i (if panicked then .panic else .drop) = some t) :
      ExecRule serde config s i exec (.unwind panicked) (t.put i (exec.goto .unwinding))
  | unwinding (t : Orchestrator) (call : Call ForwardPc ForwardResult) (pc : exec.pc = .unwinding)
      (drive : s.drive config i .run = some t) (here : t.scheduler.calls[i]? = some call)
      (pending : call.pc ≠ .dropped ∧ call.pc ≠ .panicked) :
      ExecRule serde config s i exec .run t
  | unwoundCall (t : Orchestrator) (call : Call ForwardPc ForwardResult) (pc : exec.pc = .unwinding)
      (drive : s.drive config i .run = some t) (here : t.scheduler.calls[i]? = some call)
      (ended : call.pc = .dropped ∨ call.pc = .panicked) :
      ExecRule serde config s i exec .run (t.put i (exec.goto .unwound))
  | dropped (pc : exec.pc = .unwound) :
      ExecRule serde config s i exec .run (s.dropColdPermit i exec .dropped)

inductive StepRule (serde : SerdeJson ν) (config : AppConfig) (s : Orchestrator) :
    Action → Orchestrator → Prop
  | exec (i : Nat) (input : Input) (exec : Exec) (here : s.execs[i]? = some exec)
      (s' : Orchestrator) (rule : ExecRule serde config s i exec input s') :
      StepRule serde config s (.exec i input) s'
  | elapse (span : Nat) (scheduler : WarmExecutionScheduler ForwardPc ForwardResult)
      (drive : s.scheduler.step config.warmExecution .begun (.elapse span) =
        some scheduler) :
      StepRule serde config s (.elapse span) { s with scheduler := scheduler }

theorem execRun_cases {i : Nat} {exec : Exec} (h : s.execRun config i exec = some s') :
    ExecRule serde config s i exec .run s' := by
  unfold Orchestrator.execRun at h
  split at h
  next hpc =>
    split at h
    next semaphore hfree =>
      cases h
      exact .admitted semaphore hpc hfree
    next hnone =>
      cases h
      exact .refused hpc hnone
  next status hpc =>
    simp only at h
    split at h
    next hdegraded =>
      cases h
      exact .embeddingsDegraded status hpc hdegraded.1 hdegraded.2
    next hable =>
      cases h
      exact .handled status hpc hable
  next hpc =>
    obtain ⟨t, hdrive, rfl⟩ := Option.map_eq_some_iff.mp h
    exact .execute t hpc hdrive
  next hpc =>
    obtain ⟨t, hdrive, hrest⟩ := Option.bind_eq_some_iff.mp h
    obtain ⟨call, hhere, hcall⟩ := Option.bind_eq_some_iff.mp hrest
    split at hcall
    next outcome hreturned =>
      cases hcall
      exact .executed t call outcome hpc hdrive hhere hreturned
    next hpending =>
      cases hcall
      exact .scheduled _ call hpc hdrive hhere hpending
  next response hpc =>
    cases h
    exact .returned response hpc
  next hpc =>
    obtain ⟨t, hdrive, hrest⟩ := Option.bind_eq_some_iff.mp h
    obtain ⟨call, hhere, hcall⟩ := Option.bind_eq_some_iff.mp hrest
    split at hcall
    next hended =>
      cases hcall
      exact .unwoundCall t call hpc hdrive hhere (.inl hended)
    next hended =>
      cases hcall
      exact .unwoundCall t call hpc hdrive hhere (.inr hended)
    next hdropped hpanicked =>
      cases hcall
      exact .unwinding _ call hpc hdrive hhere ⟨hdropped, hpanicked⟩
  next hpc =>
    cases h
    exact .dropped hpc
  next => cases h

theorem forwardScheduled_cases {i : Nat} {exec : Exec} {input : ForwardInput}
    (pc : exec.pc = .scheduled) (h : s.forwardScheduled serde config i exec input = some s') :
    ExecRule serde config s i exec (.forward input) s' := by
  obtain ⟨call, hhere, hcall⟩ := Option.bind_eq_some_iff.mp h
  split at hcall
  next before hrunning =>
    obtain ⟨progress, hforward, hprogress⟩ := Option.bind_eq_some_iff.mp hcall
    cases progress with
    | pending after =>
        exact .operate s' input call before after pc hhere hrunning hforward hprogress
    | done result =>
        exact .complete s' input call before result pc hhere hrunning hforward hprogress
  next => cases hcall

theorem forwardRetry_cases {i : Nat} {exec : Exec} {before : ForwardPc} {input : ForwardInput}
    (pc : exec.pc = .retrying before)
    (h : s.forwardRetry serde config i exec before input = some s') :
    ExecRule serde config s i exec (.forward input) s' := by
  obtain ⟨progress, hforward, hprogress⟩ := Option.map_eq_some_iff.mp h
  cases progress with
  | pending after =>
      subst hprogress
      exact .retryPending input before after pc hforward
  | done result =>
      subst hprogress
      exact .retryDone input before result pc hforward

theorem execStep_cases {i : Nat} {exec : Exec} {input : Input}
    (h : s.execStep serde config i exec input = some s') :
    ExecRule serde config s i exec input s' := by
  cases input with
  | run => exact execRun_cases h
  | enter kind stream =>
      simp only [Orchestrator.execStep] at h
      split at h
      next hpc =>
        cases h
        exact .enter kind stream hpc
      next => cases h
  | status status =>
      simp only [Orchestrator.execStep] at h
      split at h
      next hpc =>
        cases h
        split
        next hcold => exact .cold status hpc hcold
        next hnot => exact .notCold status hpc hnot
      next => cases h
  | call =>
      simp only [Orchestrator.execStep] at h
      split at h
      next hpc =>
        cases h
        exact .callEnsure hpc
      next reason hpc =>
        cases h
        exact .callDegrade reason hpc
      next hpc =>
        cases h
        exact .callMark hpc
      next => cases h
  | decide decision =>
      simp only [Orchestrator.execStep] at h
      split at h
      next hpc =>
        cases h
        exact .decided decision hpc
      next hpc =>
        cases h
        exact .retryDecided decision hpc
      next => cases h
  | degraded =>
      simp only [Orchestrator.execStep] at h
      split at h
      next reason hpc =>
        cases h
        exact .degraded reason hpc
      next => cases h
  | forward input =>
      simp only [Orchestrator.execStep] at h
      split at h
      next hpc => exact forwardScheduled_cases hpc h
      next before hpc => exact forwardRetry_cases hpc h
      next => cases h
  | relayed =>
      simp only [Orchestrator.execStep] at h
      split at h
      next hpc =>
        cases h
        exact .relayed hpc
      next => cases h
  | unwind panicked =>
      simp only [Orchestrator.execStep] at h
      split at h
      next hpc =>
        cases h
        exact .unwoundAwaiting panicked (.inl (by rw [hpc]; rfl))
      next hpc =>
        cases h
        exact .unwoundAwaiting panicked (.inl (by rw [hpc]; rfl))
      next hpc =>
        cases h
        exact .unwoundAwaiting panicked (.inl (by rw [hpc]; rfl))
      next hpc =>
        cases h
        exact .unwoundAwaiting panicked (.inr (by rw [hpc]; rfl))
      next hpc =>
        obtain ⟨t, hdrive, rfl⟩ := Option.map_eq_some_iff.mp h
        exact .unwoundScheduled t panicked hpc hdrive
      next => cases h

theorem step_cases {a : Action} (h : (orchestrator serde config).step s a = some s') :
    StepRule serde config s a s' := by
  cases a with
  | exec i input =>
      obtain ⟨exec, here, hstep⟩ := Option.bind_eq_some_iff.mp h
      exact .exec i input exec here s' (execStep_cases hstep)
  | elapse span =>
      simp only [orchestrator, Orchestrator.step] at h
      obtain ⟨scheduler, hdrive, rfl⟩ := Option.map_eq_some_iff.mp h
      exact .elapse span scheduler hdrive

end LlmWakeProxy.Orchestrate
