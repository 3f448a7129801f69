import LlmWakeProxy.Lifecycle.Ownership

/-!
The coupling of lifecycle and tunnel. Ready means both, and an error means the
tunnel is down. Every place that publishes a status or returns a decision
restores the coupling by itself; the invariant only has to carry, per place,
the part of it the next edit relies on.
-/

namespace LlmWakeProxy.Lifecycle
open LlmWakeProxy.Library

variable {timing : LifecycleTiming} {core core' : Core}

def BackendStatus.Coupled (status : BackendStatus) : Prop :=
  (status.lifecycle = .ready ↔ status.tunnel = .ready) ∧
    (status.lifecycle = .error → status.tunnel = .down)

instance (status : BackendStatus) : Decidable status.Coupled :=
  inferInstanceAs (Decidable (_ ∧ _))

/-- What the status of a decision says, by the kind of decision. -/
def LifecycleDecision.Coupled : LifecycleDecision → Prop
  | .ready status => status.lifecycle = .ready ∧ status.tunnel = .ready
  | .failed status _ => status.lifecycle = .error ∧ status.tunnel = .down
  | .warming _ _ => True

namespace BackendStatus

theorem coupled_of_ready {status : BackendStatus} (h : backendIsReady status = true) :
    status.Coupled := by
  obtain ⟨hlifecycle, htunnel⟩ := backendIsReady_iff.mp h
  simp [Coupled, hlifecycle, htunnel]

theorem coupled_failed (status : BackendStatus) : status.failed.Coupled := by
  simp [Coupled, failed]

theorem coupled_warmed (status : BackendStatus) : status.warmed.Coupled := by
  simp [Coupled, warmed]

theorem Coupled.degraded {status : BackendStatus} (h : status.Coupled) (reason : String) :
    (status.degraded reason).Coupled := h

/-- Whatever the tunnel owner answers, a helper that is ready stays coupled. -/
theorem coupled_withTunnel {status : BackendStatus} (h : status.lifecycle = .ready)
    (tunnel : TunnelState) : (status.withTunnel tunnel).Coupled := by
  cases tunnel <;> simp [Coupled, withTunnel, h]

theorem coupled_observed_down {status : BackendStatus} {o : ObservedBackendState}
    (h : o.lifecycle ≠ .ready) : ({ status.withObserved o with tunnel := .down }).Coupled := by
  simp [Coupled, withObserved, h]

end BackendStatus

/-- What the edits after each port call rely on. -/
def ObservePc.Coupled : ObservePc → Prop
  | .requestWake d => d.status.tunnel = .down
  | .ensureTunnel d => d.status.lifecycle = .ready
  | _ => True

def ClientPc.Coupled : ClientPc → Prop
  | .markPublish _ d | .degradePublish d | .waitLock _ _ d => d.status.Coupled
  | .lead _ _ _ pc => pc.Coupled
  | .leadReread status => backendIsReady status = true
  | .leadFinish d _ decision => d.status.Coupled ∧ decision.Coupled
  | .returned decision => decision.Coupled
  | _ => True

def TaskPc.Coupled : TaskPc → Prop
  | .observe _ _ pc => pc.Coupled
  | .finish d _ => d.status.Coupled
  | _ => True

def Event.Coupled : Event → Prop
  | .published _ d _ => d.status.Coupled
  | _ => True

structure Core.Coupled (core : Core) : Prop where
  status : core.status.value.Coupled
  log : ∀ event ∈ core.log, event.Coupled

theorem Core.Coupled.emit {event : Event} (h : core.Coupled) (hevent : event.Coupled) :
    (core.emit event).Coupled :=
  ⟨h.status, List.forall_mem_cons.mpr ⟨hevent, h.log⟩⟩

theorem Core.Coupled.publish {writer : Writer} {d : Draft} (h : core.Coupled)
    (hd : d.status.Coupled) : (core.publish writer d).Coupled :=
  ⟨hd, List.forall_mem_cons.mpr ⟨hd, h.log⟩⟩

theorem Core.Coupled.finishBootstrap {d : Draft} {error : Option LifecycleError}
    (h : core.Coupled) (hd : d.status.Coupled) : (core.finishBootstrap d error).Coupled := by
  have published : (core.publish (.finishBootstrap error) d).Coupled := h.publish hd
  exact ⟨published.status, published.log⟩

theorem Core.Coupled.spawnBootstrap (h : core.Coupled) : core.spawnBootstrap.Coupled := by
  have emitted : (core.emit .pollingBegun).Coupled := h.emit trivial
  exact ⟨emitted.status, emitted.log⟩

def Observation.Coupled : Observation → Prop
  | .pending pc => pc.Coupled
  | .ready d => backendIsReady d.status = true
  | .warming _ => True
  | .failed d _ => d.status.lifecycle = .error ∧ d.status.tunnel = .down

theorem ObserveRule.coupled {wakeRequest : Option LifecycleRequest}
    {observeRequest : LifecycleRequest} {pc : ObservePc} {observation : Observation}
    (rule : ObserveRule core wakeRequest observeRequest pc core' observation)
    (h : core.Coupled) (hpc : pc.Coupled) : core'.Coupled ∧ observation.Coupled := by
  cases rule with
  | sshFailed d error => exact ⟨h.emit (by trivial), rfl, rfl⟩
  | wake d request leader wakes => exact ⟨(h.emit (by trivial)).emit (by trivial), rfl⟩
  | asleep d silent =>
      exact ⟨(h.emit (by trivial)).publish (BackendStatus.coupled_warmed _), trivial⟩
  | awake d => exact ⟨(h.emit (by trivial)).emit (by trivial), trivial⟩
  | wakeFailed d error => exact ⟨h, rfl, hpc⟩
  | woken d => exact ⟨h.publish (BackendStatus.coupled_warmed _), trivial⟩
  | helperFailed d error | tunnelFailed d error => exact ⟨h, rfl, rfl⟩
  | reportedError d o ho => exact ⟨h, ho, rfl⟩
  | starting d o ho =>
      refine ⟨h.publish (BackendStatus.coupled_observed_down ?_), trivial⟩
      rcases ho with ho | ho <;> simp [ho]
  | started d o ho => exact ⟨h, ho⟩
  | tunnelReady d tunnel ready =>
      exact ⟨h.publish (BackendStatus.coupled_withTunnel hpc tunnel), ready⟩
  | tunnelNotReady d tunnel notReady =>
      exact ⟨h.publish (BackendStatus.coupled_withTunnel hpc tunnel), trivial⟩

theorem BackendStatus.coupled_of_failed {status : BackendStatus}
    (h : status.lifecycle = .error ∧ status.tunnel = .down) : status.Coupled := by
  simp [BackendStatus.Coupled, h.1, h.2]

/-- A waiter returns a coupled decision from a coupled sample. -/
theorem waitVerdict_coupled {bootstrap : BootstrapState} {instant deadline : Instant}
    {status : BackendStatus} {decision : LifecycleDecision}
    (h : waitVerdict timing bootstrap instant deadline status
      (staleBootstrapView bootstrap status) = some decision)
    (hstatus : status.Coupled) : decision.Coupled := by
  obtain ⟨_, hready, rfl⟩ | ⟨_, herror, rfl⟩ | ⟨_, _, rfl⟩ := waitVerdict_cases h
  · exact backendIsReady_iff.mp hready
  · exact ⟨herror, hstatus.2 herror⟩
  · trivial

theorem ClientRule.coupled {pc pc' : ClientPc} (rule : ClientRule timing core pc core' pc')
    (h : core.Coupled) (hpc : pc.Coupled) : core'.Coupled ∧ pc'.Coupled := by
  cases rule with
  | markBorrow next => exact ⟨h, BackendStatus.coupled_warmed _⟩
  | markPublish next d => exact ⟨h.publish hpc, by cases next <;> trivial⟩
  | degradeBorrow reason => exact ⟨h, h.status.degraded reason⟩
  | degradePublish d => exact ⟨h.publish hpc, trivial⟩
  | alreadyReady caller initial idle ready => exact ⟨h, backendIsReady_iff.mp ready⟩
  | start caller initial idle =>
      exact ⟨Core.Coupled.emit ⟨h.status, h.log⟩ trivial, trivial⟩
  | join caller initial active => exact ⟨⟨h.status, h.log⟩, trivial⟩
  | leadPending request observeRequest wait pc pc' core₁ observe => exact observe.coupled h hpc
  | leadReady request observeRequest wait pc core₁ d observe => exact observe.coupled h hpc
  | handOver request observeRequest wait pc core₁ d observe =>
      exact ⟨(observe.coupled h hpc).1.spawnBootstrap, trivial⟩
  | leadFailed request observeRequest wait pc core₁ d error observe =>
      obtain ⟨hcore, hfailed⟩ := observe.coupled h hpc
      exact ⟨hcore, BackendStatus.coupled_of_failed hfailed, hfailed⟩
  | reread status => exact ⟨h, h.status, backendIsReady_iff.mp hpc⟩
  | leadFinish d error decision => exact ⟨h.finishBootstrap hpc.1, hpc.2⟩
  | waitBorrow wait deadline => exact ⟨h, h.status⟩
  | waitReturn wait deadline d decision verdict =>
      exact ⟨h.emit trivial, waitVerdict_coupled verdict hpc⟩
  | _ => exact ⟨h, trivial⟩

theorem TaskRule.coupled {pc pc' : TaskPc} (rule : TaskRule timing core pc core' pc')
    (h : core.Coupled) (hpc : pc.Coupled) : core'.Coupled ∧ pc'.Coupled := by
  cases rule with
  | deadlineAtTop | deadlineAfterSleep => exact ⟨h, BackendStatus.coupled_failed _⟩
  | pending deadline observeRequest pc pc' core₁ observe => exact observe.coupled h hpc
  | ready deadline observeRequest pc core₁ d observe =>
      obtain ⟨hcore, hready⟩ := observe.coupled h hpc
      exact ⟨hcore, BackendStatus.coupled_of_ready hready⟩
  | warming deadline observeRequest pc core₁ d observe =>
      exact ⟨(observe.coupled h hpc).1, trivial⟩
  | failed deadline observeRequest pc core₁ d error observe =>
      obtain ⟨hcore, hfailed⟩ := observe.coupled h hpc
      exact ⟨hcore, BackendStatus.coupled_of_failed hfailed⟩
  | finish d error => exact ⟨h.finishBootstrap hpc, trivial⟩
  | _ => exact ⟨h, trivial⟩

structure Manager.Coupled (s : Manager) : Prop where
  core : s.core.Coupled
  clients : ∀ pc ∈ s.clients, pc.Coupled
  tasks : ∀ pc ∈ s.core.tasks, pc.Coupled

theorem coupled_step {s s' : Manager} {a : Action} (h : s.Coupled)
    (rule : ManagerRule timing s a s') : s'.Coupled := by
  cases rule with
  | begin i op pc here free =>
      exact ⟨h.core, forall_mem_set h.clients (by cases op <;> trivial), h.tasks⟩
  | client i input pc pc' core' here rule =>
      obtain ⟨hcore, hpc⟩ := rule.coupled h.core (h.clients pc (List.mem_of_getElem? here))
      refine ⟨hcore, forall_mem_set h.clients hpc, ?_⟩
      intro task htask
      rcases rule.tasks_mem htask with hold | rfl
      · exact h.tasks task hold
      · trivial
  | drop i pc here suspended => exact ⟨h.core, forall_mem_set h.clients trivial, h.tasks⟩
  | task i input pc pc' core' here rule =>
      obtain ⟨hcore, hpc⟩ := rule.coupled h.core (h.tasks pc (List.mem_of_getElem? here))
      refine ⟨⟨hcore.status, hcore.log⟩, h.clients, ?_⟩
      simp only [rule.tasks]
      exact forall_mem_set h.tasks hpc
  | elapse span clock => exact ⟨⟨h.core.status, h.core.log⟩, h.clients, h.tasks⟩

theorem coupled_new (clients : Nat) {initialStatus : BackendStatus} (instant : Instant)
    (clock : Timestamp) (hinitial : initialStatus.Coupled) :
    (Manager.new clients initialStatus instant clock).Coupled := by
  refine ⟨⟨hinitial, by simp [Manager.new]⟩, ?_, by simp [Manager.new]⟩
  intro pc hpc
  rw [List.eq_of_mem_replicate hpc]
  trivial

theorem coupled_of_reachable {clients : Nat} {initialStatus : BackendStatus} {instant : Instant}
    {clock : Timestamp} {s : Manager} (hinitial : initialStatus.Coupled)
    (h : (lifecycle timing).Reachable (.new clients initialStatus instant clock) s) :
    s.Coupled := by
  refine h.invariant (I := Manager.Coupled) (coupled_new _ _ _ hinitial) ?_
  intro t a t' ht hstep
  exact coupled_step ht (step_cases hstep)

/-- From a coupled initial status, every status ever published is coupled, and
every decision `ensure_backend` returns says what its kind stands for. -/
theorem published_and_returned_coupled {clients : Nat} {initialStatus : BackendStatus}
    {instant : Instant} {clock : Timestamp} {s : Manager} (hinitial : initialStatus.Coupled)
    (h : (lifecycle timing).Reachable (.new clients initialStatus instant clock) s) :
    s.core.status.value.Coupled ∧
      (∀ writer d version, .published writer d version ∈ s.core.log → d.status.Coupled) ∧
      (∀ status, .returned (.ready status) ∈ s.clients →
        status.lifecycle = .ready ∧ status.tunnel = .ready) ∧
      (∀ status error, .returned (.failed status error) ∈ s.clients →
        status.lifecycle = .error ∧ status.tunnel = .down) := by
  have coupled : s.Coupled := coupled_of_reachable hinitial h
  exact ⟨coupled.core.status, fun _ _ _ hmem => coupled.core.log _ hmem,
    fun _ hmem => coupled.clients _ hmem, fun _ _ hmem => coupled.clients _ hmem⟩

theorem published_and_returned_coupled_ready :
    ∃ s, (lifecycle exampleTiming).Reachable (.new 1 .default 0 ⟨0⟩) s ∧
      (∃ status, .returned (.ready status) ∈ s.clients) ∧
      s.core.status.value.Coupled ∧
      (∀ writer d version, .published writer d version ∈ s.core.log → d.status.Coupled) ∧
      (∀ status, .returned (.ready status) ∈ s.clients →
        status.lifecycle = .ready ∧ status.tunnel = .ready) ∧
      (∀ status error, .returned (.failed status error) ∈ s.clients →
        status.lifecycle = .error ∧ status.tunnel = .down) := by
  obtain ⟨s, reached, returned⟩ : ∃ s,
      (lifecycle exampleTiming).Reachable (.new 1 .default 0 ⟨0⟩) s ∧
      s.clients = [.returned (.ready
        ((BackendStatus.default.withObserved observedReady).withTunnel .ready))] :=
    System.reachable_of_check readySchedule (by decide)
  have member := List.mem_singleton_self (ClientPc.returned (.ready
    ((BackendStatus.default.withObserved observedReady).withTunnel .ready)))
  rw [← returned] at member
  exact ⟨s, reached, ⟨_, member⟩, published_and_returned_coupled (by decide) reached⟩

end LlmWakeProxy.Lifecycle
