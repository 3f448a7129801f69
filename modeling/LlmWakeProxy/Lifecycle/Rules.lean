import LlmWakeProxy.Lifecycle.Manager

/-!
What a step can do, said once. Each rule is one branch of the step functions
with its guard; `step_cases` turns an enabled step of the manager into a rule.
Every invariant of the manager is proved by cases on these rules and never
unfolds a step function.
-/

namespace LlmWakeProxy.Lifecycle
open LlmWakeProxy.Library

variable {timing : LifecycleTiming} {core core' : Core}

/-- The branches of one step of `observe_once`. -/
inductive ObserveRule (core : Core) (wakeRequest : Option LifecycleRequest)
    (observeRequest : LifecycleRequest) : ObservePc → Core → Observation → Prop
  | sshFailed (d : Draft) (error : LifecycleError) :
      ObserveRule core wakeRequest observeRequest (.sshIsReady d)
        (core.emit (.sshAnswered wakeRequest.isSome (.error error)))
        (.failed (d.edit .failed) error)
  | wake (d : Draft) (request : LifecycleRequest) (leader : wakeRequest = some request)
      (wakes : shouldRequestWake d.status.lifecycle = true) :
      ObserveRule core wakeRequest observeRequest (.sshIsReady d)
        ((core.emit (.sshAnswered wakeRequest.isSome (.ok false))).emit (.wakeRequested request))
        (.pending (.requestWake (d.edit (·.wakeStamped core.clock))))
  | asleep (d : Draft) (silent : wakeRequest = none ∨ d.status.lifecycle = .warming) :
      ObserveRule core wakeRequest observeRequest (.sshIsReady d)
        ((core.emit (.sshAnswered wakeRequest.isSome (.ok false))).publishObserved
          (d.edit .warmed)).1
        (.warming ((core.emit (.sshAnswered wakeRequest.isSome (.ok false))).publishObserved
          (d.edit .warmed)).2)
  | awake (d : Draft) :
      ObserveRule core wakeRequest observeRequest (.sshIsReady d)
        ((core.emit (.sshAnswered wakeRequest.isSome (.ok true))).emit
          (.helperCalled observeRequest))
        (.pending (.observeBackend { d with basis := some core.status.version }))
  | wakeFailed (d : Draft) (error : LifecycleError) :
      ObserveRule core wakeRequest observeRequest (.requestWake d) core
        (.failed (d.edit fun status => { status with lifecycle := .error }) error)
  | woken (d : Draft) :
      ObserveRule core wakeRequest observeRequest (.requestWake d)
        (core.publishObserved (d.edit .warmed)).1
        (.warming (core.publishObserved (d.edit .warmed)).2)
  | helperFailed (d : Draft) (error : LifecycleError) :
      ObserveRule core wakeRequest observeRequest (.observeBackend d) core
        (.failed (d.edit .failed) error)
  | reportedError (d : Draft) (o : ObservedBackendState) (ho : o.lifecycle = .error) :
      ObserveRule core wakeRequest observeRequest (.observeBackend d) core
        (.failed ((d.edit (·.withObserved o)).edit fun status => { status with tunnel := .down })
          { message := o.error.getD "backend reported error state" })
  | starting (d : Draft) (o : ObservedBackendState)
      (ho : o.lifecycle = .cold ∨ o.lifecycle = .warming) :
      ObserveRule core wakeRequest observeRequest (.observeBackend d)
        (core.publishObserved
          ((d.edit (·.withObserved o)).edit fun status => { status with tunnel := .down })).1
        (.warming (core.publishObserved
          ((d.edit (·.withObserved o)).edit fun status => { status with tunnel := .down })).2)
  | started (d : Draft) (o : ObservedBackendState) (ho : o.lifecycle = .ready) :
      ObserveRule core wakeRequest observeRequest (.observeBackend d) core
        (.pending (.ensureTunnel (d.edit (·.withObserved o))))
  | tunnelFailed (d : Draft) (error : LifecycleError) :
      ObserveRule core wakeRequest observeRequest (.ensureTunnel d) core
        (.failed (d.edit .failed) error)
  | tunnelReady (d : Draft) (tunnel : TunnelState)
      (ready : backendIsReady (d.status.withTunnel tunnel) = true) :
      ObserveRule core wakeRequest observeRequest (.ensureTunnel d)
        (core.publishObserved (d.edit (·.withTunnel tunnel))).1
        (.ready (core.publishObserved (d.edit (·.withTunnel tunnel))).2)
  | tunnelNotReady (d : Draft) (tunnel : TunnelState)
      (notReady : backendIsReady (d.status.withTunnel tunnel) = false) :
      ObserveRule core wakeRequest observeRequest (.ensureTunnel d)
        (core.publishObserved (d.edit (·.withTunnel tunnel))).1
        (.warming (core.publishObserved (d.edit (·.withTunnel tunnel))).2)

theorem observeOnce_cases {wakeRequest : Option LifecycleRequest}
    {observeRequest : LifecycleRequest} {pc : ObservePc} {answer : Answer}
    {observation : Observation}
    (h : observeOnce core wakeRequest observeRequest pc answer = some (core', observation)) :
    ObserveRule core wakeRequest observeRequest pc core' observation := by
  cases pc with
  | sshIsReady d =>
      cases answer with
      | wake _ | helper _ | tunnel _ => cases h
      | ssh result =>
          cases result with
          | error error =>
              cases h
              exact .sshFailed d error
          | ok ready =>
              cases ready with
              | true =>
                  cases h
                  exact .awake d
              | false =>
                  simp only [observeOnce] at h
                  split at h
                  · rename_i request hfilter
                    cases h
                    obtain ⟨hleader, hwakes⟩ := Option.filter_eq_some_iff.mp hfilter
                    exact .wake d request hleader hwakes
                  · rename_i hfilter
                    cases h
                    refine .asleep d ?_
                    cases hleader : wakeRequest with
                    | none => exact .inl rfl
                    | some request =>
                        rw [hleader] at hfilter
                        exact .inr (by simpa [Option.filter] using hfilter)
  | requestWake d =>
      cases answer with
      | ssh _ | helper _ | tunnel _ => cases h
      | wake result =>
          cases result with
          | error error =>
              cases h
              exact .wakeFailed d error
          | ok _ =>
              cases h
              exact .woken d
  | observeBackend d =>
      cases answer with
      | ssh _ | wake _ | tunnel _ => cases h
      | helper result =>
          cases result with
          | error error =>
              cases h
              exact .helperFailed d error
          | ok o =>
              simp only [observeOnce] at h
              split at h
              · rename_i ho
                cases h
                exact .reportedError d o ho
              · rename_i ho
                cases h
                exact .started d o ho
              · rename_i ho
                cases h
                exact .starting d o (.inl ho)
              · rename_i ho
                cases h
                exact .starting d o (.inr ho)
  | ensureTunnel d =>
      cases answer with
      | ssh _ | wake _ | helper _ => cases h
      | tunnel result =>
          cases result with
          | error error =>
              cases h
              exact .tunnelFailed d error
          | ok tunnel =>
              simp only [observeOnce] at h
              split at h
              · rename_i hready
                cases h
                exact .tunnelReady d tunnel hready
              · rename_i hready
                cases h
                exact .tunnelNotReady d tunnel (Bool.eq_false_iff.mpr hready)

/-- What a waiter can be told, and when. -/
theorem waitVerdict_cases {bootstrap : BootstrapState} {instant deadline : Instant}
    {status : BackendStatus} {decision : LifecycleDecision}
    (h : waitVerdict timing bootstrap instant deadline status
      (staleBootstrapView bootstrap status) = some decision) :
    (bootstrap.active = false ∧ backendIsReady status = true ∧ decision = .ready status) ∨
      (bootstrap.active = false ∧ status.lifecycle = .error ∧
        decision = .failed status (bootstrap.lastError.getD backendReportedErrorState)) ∨
      ∃ shown retry, decision = .warming shown retry := by
  unfold waitVerdict at h
  split at h
  · rename_i hready
    cases h
    obtain ⟨hstale, hready⟩ := Bool.and_eq_true_iff.mp hready
    have hlifecycle := (backendIsReady_iff.mp hready).1
    refine .inl ⟨?_, hready, rfl⟩
    simpa [staleBootstrapView, hlifecycle] using hstale
  · split at h
    · rename_i herror
      cases h
      obtain ⟨hstale, herror⟩ := Bool.and_eq_true_iff.mp herror
      have hlifecycle : status.lifecycle = .error := by simpa using herror
      refine .inr (.inl ⟨?_, hlifecycle, rfl⟩)
      simpa [staleBootstrapView, hlifecycle] using hstale
    · split at h
      · cases h
        exact .inr (.inr ⟨_, _, rfl⟩)
      · cases h

/-- The branches of one step of a client. -/
inductive ClientRule (timing : LifecycleTiming) (core : Core) :
    ClientPc → Core → ClientPc → Prop
  | markBorrow (next : Option LifecycleRequest) :
      ClientRule timing core (.markBorrow next) core (.markPublish next (core.borrow.edit .warmed))
  | markPublish (next : Option LifecycleRequest) (d : Draft) :
      ClientRule timing core (.markPublish next d) (core.publish .markWarming d) (afterMark next)
  | degradeBorrow (reason : String) :
      ClientRule timing core (.degradeBorrow reason) core
        (.degradePublish (core.borrow.edit (·.degraded reason)))
  | degradePublish (d : Draft) :
      ClientRule timing core (.degradePublish d) (core.publish .degradeEmbeddings d) .idle
  | borrowInitial (caller : Caller) :
      ClientRule timing core (.ensure caller) core (.checkActive caller core.borrow)
  | alreadyReady (caller : Caller) (initial : Draft) (idle : core.bootstrap.active = false)
      (ready : backendIsReady initial.status = true) :
      ClientRule timing core (.checkActive caller initial) core (.returned (.ready initial.status))
  | notReady (caller : Caller) (initial : Draft)
      (notReady : core.bootstrap.active = true ∨ backendIsReady initial.status = false) :
      ClientRule timing core (.checkActive caller initial) core (.startOrJoin caller initial)
  | start (caller : Caller) (initial : Draft) (idle : core.bootstrap.active = false) :
      ClientRule timing core (.startOrJoin caller initial)
        (({ core with bootstrap := (startOrJoinBootstrap core.bootstrap caller.request).2 } : Core).emit
          (.roundBegun caller.request initial.status))
        (.leadRequest caller.request initial
          { joinedAt := core.status.version, rx := core.status.subscribe })
  | join (caller : Caller) (initial : Draft) (active : core.bootstrap.active = true) :
      ClientRule timing core (.startOrJoin caller initial)
        { core with bootstrap := (startOrJoinBootstrap core.bootstrap caller.request).2 }
        (.waitEnter { joinedAt := core.status.version, rx := core.status.subscribe })
  | readRequest (request : LifecycleRequest) (initial : Draft) (wait : Wait) :
      ClientRule timing core (.leadRequest request initial wait) core
        (.lead request core.bootstrap.observeRequest wait (.sshIsReady initial))
  | leadPending (request observeRequest : LifecycleRequest) (wait : Wait) (pc pc' : ObservePc)
      (core' : Core)
      (observe : ObserveRule core (some request) observeRequest pc core' (.pending pc')) :
      ClientRule timing core (.lead request observeRequest wait pc) core'
        (.lead request observeRequest wait pc')
  | leadReady (request observeRequest : LifecycleRequest) (wait : Wait) (pc : ObservePc)
      (core' : Core) (d : Draft)
      (observe : ObserveRule core (some request) observeRequest pc core' (.ready d)) :
      ClientRule timing core (.lead request observeRequest wait pc) core' (.leadReread d.status)
  | handOver (request observeRequest : LifecycleRequest) (wait : Wait) (pc : ObservePc)
      (core' : Core) (d : Draft)
      (observe : ObserveRule core (some request) observeRequest pc core' (.warming d)) :
      ClientRule timing core (.lead request observeRequest wait pc) core'.spawnBootstrap
        (.waitEnter wait)
  | leadFailed (request observeRequest : LifecycleRequest) (wait : Wait) (pc : ObservePc)
      (core' : Core) (d : Draft) (error : LifecycleError)
      (observe : ObserveRule core (some request) observeRequest pc core' (.failed d error)) :
      ClientRule timing core (.lead request observeRequest wait pc) core'
        (.leadFinish d (some error) (.failed d.status error))
  | reread (status : BackendStatus) :
      ClientRule timing core (.leadReread status) core
        (.leadFinish core.borrow none (.ready status))
  | leadFinish (d : Draft) (error : Option LifecycleError) (decision : LifecycleDecision) :
      ClientRule timing core (.leadFinish d error decision) (core.finishBootstrap d error)
        (.returned decision)
  | waitOverflow (wait : Wait) :
      ClientRule timing core (.waitEnter wait) core .panicked
  | waitEnter (wait : Wait) (deadline : Instant) :
      ClientRule timing core (.waitEnter wait) core (.waitBorrow wait deadline)
  | waitBorrow (wait : Wait) (deadline : Instant) :
      ClientRule timing core (.waitBorrow wait deadline) core (.waitLock wait deadline core.borrow)
  | waitReturn (wait : Wait) (deadline : Instant) (d : Draft) (decision : LifecycleDecision)
      (verdict : waitVerdict timing core.bootstrap core.instant deadline d.status
        (staleBootstrapView core.bootstrap d.status) = some decision) :
      ClientRule timing core (.waitLock wait deadline d)
        (core.emit (.waiterReturned wait.joinedAt d.base decision)) (.returned decision)
  | waitOn (wait : Wait) (deadline : Instant) (d : Draft)
      (verdict : waitVerdict timing core.bootstrap core.instant deadline d.status
        (staleBootstrapView core.bootstrap d.status) = none) :
      ClientRule timing core (.waitLock wait deadline d) core
        (.waitChanged wait deadline (staleBootstrapView core.bootstrap d.status))
  | changed (wait : Wait) (deadline : Instant) (stale : Bool)
      (fresh : core.status.hasChanged wait.rx = true) :
      ClientRule timing core (.waitChanged wait deadline stale) core
        (.waitBorrow { wait with rx := core.status.subscribe } deadline)
  | timerFired (wait : Wait) (deadline : Instant) (stale : Bool)
      (unchanged : core.status.hasChanged wait.rx = false) (late : deadline ≤ core.instant) :
      ClientRule timing core (.waitChanged wait deadline stale) core (.waitTimedOut stale)
  | timedOut (stale : Bool) :
      ClientRule timing core (.waitTimedOut stale) core
        (.returned (.warming (bootstrapWaitStatus core.status.value stale) timing.retryAfterSecs))

theorem clientStep_cases {pc pc' : ClientPc} {input : Input}
    (h : clientStep timing core pc input = some (core', pc')) :
    ClientRule timing core pc core' pc' := by
  cases input with
  | run =>
      cases pc with
      | idle | lead _ _ _ _ | returned _ | dropped | panicked => cases h
      | markBorrow next => cases h; exact .markBorrow next
      | markPublish next d => cases h; exact .markPublish next d
      | degradeBorrow reason => cases h; exact .degradeBorrow reason
      | degradePublish d => cases h; exact .degradePublish d
      | ensure caller => cases h; exact .borrowInitial caller
      | checkActive caller initial =>
          simp only [clientStep] at h
          split at h
          · rename_i hready
            cases h
            simp only [Bool.and_eq_true, Bool.not_eq_true'] at hready
            exact .alreadyReady caller initial hready.1 hready.2
          · rename_i hready
            cases h
            refine .notReady caller initial ?_
            cases hactive : core.bootstrap.active with
            | true => exact .inl rfl
            | false =>
                refine .inr (Bool.eq_false_iff.mpr fun isReady => hready ?_)
                rw [hactive, isReady]
                rfl
      | startOrJoin caller initial =>
          have leads := startOrJoinBootstrap_leads core.bootstrap caller.request
          simp only [clientStep] at h
          split at h
          · rename_i hstart
            cases h
            exact .start caller initial (by simpa [hstart] using leads.symm)
          · rename_i hstart
            cases h
            exact .join caller initial (by simpa [hstart] using leads)
      | leadRequest request initial wait => cases h; exact .readRequest request initial wait
      | leadReread status => cases h; exact .reread status
      | leadFinish d error decision => cases h; exact .leadFinish d error decision
      | waitEnter wait =>
          simp only [clientStep] at h
          split at h
          · cases h; exact .waitOverflow wait
          · cases h; exact .waitEnter wait _
      | waitBorrow wait deadline => cases h; exact .waitBorrow wait deadline
      | waitLock wait deadline d =>
          simp only [clientStep] at h
          split at h
          · rename_i hverdict
            cases h
            exact .waitReturn wait deadline d _ hverdict
          · rename_i hverdict
            cases h
            exact .waitOn wait deadline d hverdict
      | waitChanged wait deadline stale =>
          simp only [clientStep] at h
          split at h
          · rename_i hfresh
            cases h
            exact .changed wait deadline stale hfresh
          · cases h
      | waitTimedOut stale => cases h; exact .timedOut stale
  | timeout =>
      cases pc with
      | waitChanged wait deadline stale =>
          simp only [clientStep] at h
          split at h
          · rename_i hlate
            cases h
            simp only [Bool.and_eq_true, Bool.not_eq_true', decide_eq_true_eq] at hlate
            exact .timerFired wait deadline stale hlate.1 hlate.2
          · cases h
      | _ => cases h
  | answer answer =>
      cases pc with
      | lead request observeRequest wait pc =>
          obtain ⟨⟨core₁, observation⟩, hobserve, hnext⟩ := Option.map_eq_some_iff.mp h
          have rule := observeOnce_cases hobserve
          cases observation with
          | pending pc' => cases hnext; exact .leadPending _ _ _ _ _ _ rule
          | ready d => cases hnext; exact .leadReady _ _ _ _ _ _ rule
          | warming d => cases hnext; exact .handOver _ _ _ _ _ _ rule
          | failed d error => cases hnext; exact .leadFailed _ _ _ _ _ _ _ rule
      | _ => cases h

/-- The branches of one step of a background task. -/
inductive TaskRule (timing : LifecycleTiming) (core : Core) : TaskPc → Core → TaskPc → Prop
  | overflow
      (panics : bootstrapDeadline timing core.status.value.lastWakeAttemptAt core.clock
        core.instant = none) :
      TaskRule timing core .start core .panicked
  | start (deadline : Instant)
      (window : bootstrapDeadline timing core.status.value.lastWakeAttemptAt core.clock
        core.instant = some deadline) :
      TaskRule timing core .start core (.top deadline)
  | deadlineAtTop (deadline : Instant) (late : deadline ≤ core.instant) :
      TaskRule timing core (.top deadline) core (deadlineExit core)
  | sleep (deadline wakeAt : Instant) (inTime : core.instant < deadline) :
      TaskRule timing core (.top deadline) core (.sleeping deadline wakeAt)
  | deadlineAfterSleep (deadline wakeAt : Instant) (late : deadline ≤ core.instant) :
      TaskRule timing core (.sleeping deadline wakeAt) core (deadlineExit core)
  | borrow (deadline wakeAt : Instant) (slept : wakeAt ≤ core.instant)
      (inTime : core.instant < deadline) :
      TaskRule timing core (.sleeping deadline wakeAt) core (.readRequest deadline core.borrow)
  | readRequest (deadline : Instant) (d : Draft) :
      TaskRule timing core (.readRequest deadline d) core
        (.observe deadline core.bootstrap.observeRequest (.sshIsReady d))
  | pending (deadline : Instant) (observeRequest : LifecycleRequest) (pc pc' : ObservePc)
      (core' : Core) (observe : ObserveRule core none observeRequest pc core' (.pending pc')) :
      TaskRule timing core (.observe deadline observeRequest pc) core'
        (.observe deadline observeRequest pc')
  | ready (deadline : Instant) (observeRequest : LifecycleRequest) (pc : ObservePc)
      (core' : Core) (d : Draft)
      (observe : ObserveRule core none observeRequest pc core' (.ready d)) :
      TaskRule timing core (.observe deadline observeRequest pc) core' (.finish d none)
  | warming (deadline : Instant) (observeRequest : LifecycleRequest) (pc : ObservePc)
      (core' : Core) (d : Draft)
      (observe : ObserveRule core none observeRequest pc core' (.warming d)) :
      TaskRule timing core (.observe deadline observeRequest pc) core' (.top deadline)
  | failed (deadline : Instant) (observeRequest : LifecycleRequest) (pc : ObservePc)
      (core' : Core) (d : Draft) (error : LifecycleError)
      (observe : ObserveRule core none observeRequest pc core' (.failed d error)) :
      TaskRule timing core (.observe deadline observeRequest pc) core' (.finish d (some error))
  | finish (d : Draft) (error : Option LifecycleError) :
      TaskRule timing core (.finish d error) (core.finishBootstrap d error) .done

theorem taskStep_cases {pc pc' : TaskPc} {input : Input}
    (h : taskStep timing core pc input = some (core', pc')) :
    TaskRule timing core pc core' pc' := by
  cases input with
  | run =>
      cases pc with
      | observe _ _ _ | done | panicked => cases h
      | start =>
          simp only [taskStep] at h
          split at h
          · rename_i hwindow
            cases h
            exact .overflow hwindow
          · rename_i hwindow
            cases h
            exact .start _ hwindow
      | top deadline =>
          simp only [taskStep] at h
          split at h
          · rename_i hlate
            cases h
            exact .deadlineAtTop deadline hlate
          · rename_i hlate
            cases h
            exact .sleep deadline _ (Nat.lt_of_not_le hlate)
      | sleeping deadline wakeAt =>
          simp only [taskStep] at h
          split at h
          · cases h
          · rename_i hslept
            split at h
            · rename_i hlate
              cases h
              exact .deadlineAfterSleep deadline wakeAt hlate
            · rename_i hlate
              cases h
              exact .borrow deadline wakeAt (Nat.le_of_not_lt hslept) (Nat.lt_of_not_le hlate)
      | readRequest deadline d => cases h; exact .readRequest deadline d
      | finish d error => cases h; exact .finish d error
  | timeout => cases pc <;> cases h
  | answer answer =>
      cases pc with
      | observe deadline observeRequest pc =>
          obtain ⟨⟨core₁, observation⟩, hobserve, hnext⟩ := Option.map_eq_some_iff.mp h
          have rule := observeOnce_cases hobserve
          cases observation with
          | pending pc' => cases hnext; exact .pending _ _ _ _ _ rule
          | ready d => cases hnext; exact .ready _ _ _ _ _ rule
          | warming d => cases hnext; exact .warming _ _ _ _ _ rule
          | failed d error => cases hnext; exact .failed _ _ _ _ _ _ rule
      | _ => cases h

inductive ManagerRule (timing : LifecycleTiming) (s : Manager) : Action → Manager → Prop
  | begin (i : Nat) (op : Op) (pc : ClientPc) (here : s.clients[i]? = some pc)
      (free : pc.free = true) :
      ManagerRule timing s (.begin i op) { s with clients := s.clients.set i op.entry }
  | client (i : Nat) (input : Input) (pc pc' : ClientPc) (core' : Core)
      (here : s.clients[i]? = some pc) (rule : ClientRule timing s.core pc core' pc') :
      ManagerRule timing s (.client i input) { core := core', clients := s.clients.set i pc' }
  | drop (i : Nat) (pc : ClientPc) (here : s.clients[i]? = some pc)
      (suspended : pc.suspended = true) :
      ManagerRule timing s (.drop i) { s with clients := s.clients.set i .dropped }
  | task (i : Nat) (input : Input) (pc pc' : TaskPc) (core' : Core)
      (here : s.core.tasks[i]? = some pc) (rule : TaskRule timing s.core pc core' pc') :
      ManagerRule timing s (.task i input)
        { s with core := { core' with tasks := core'.tasks.set i pc' } }
  | elapse (span : Duration) (clock : Timestamp) :
      ManagerRule timing s (.elapse span clock)
        { s with core := { s.core with instant := s.core.instant + span, clock := clock } }

theorem step_cases {s s' : Manager} {a : Action} (h : (lifecycle timing).step s a = some s') :
    ManagerRule timing s a s' := by
  change s.step timing a = some s' at h
  cases a with
  | begin i op =>
      obtain ⟨pc, here, hfree⟩ := Option.bind_eq_some_iff.mp h
      split at hfree
      · rename_i free
        cases hfree
        exact .begin i op pc here free
      · cases hfree
  | client i input =>
      obtain ⟨pc, here, hstep⟩ := Option.bind_eq_some_iff.mp h
      obtain ⟨⟨core', pc'⟩, hrule, hnext⟩ := Option.bind_eq_some_iff.mp hstep
      cases hnext
      exact .client i input pc pc' core' here (clientStep_cases hrule)
  | drop i =>
      obtain ⟨pc, here, hsuspended⟩ := Option.bind_eq_some_iff.mp h
      split at hsuspended
      · rename_i suspended
        cases hsuspended
        exact .drop i pc here suspended
      · cases hsuspended
  | task i input =>
      obtain ⟨pc, here, hstep⟩ := Option.bind_eq_some_iff.mp h
      obtain ⟨⟨core', pc'⟩, hrule, hnext⟩ := Option.bind_eq_some_iff.mp hstep
      cases hnext
      exact .task i input pc pc' core' here (taskStep_cases hrule)
  | elapse span clock =>
      cases h
      exact .elapse span clock

end LlmWakeProxy.Lifecycle
