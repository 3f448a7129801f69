import LlmWakeProxy.Orchestrate.ColdStart

/-!
`tunnel_drops` over the real lifecycles. A call counts a drop when it is handled
with a tunnel that is not ready after one that was, but the manager gives no Ready
decision whose tunnel is not ready: a tunnel that has dropped is found by a call
that is told to wait, or after the first forward, and neither is handled. The
counter stays at zero whatever is published.
-/

namespace LlmWakeProxy.Orchestrate
open LlmWakeProxy.Library LlmWakeProxy.Scheduler LlmWakeProxy.Forward
open LlmWakeProxy.Lifecycle (LifecycleRequest LifecycleTiming LifecycleDecision BackendStatus
  TunnelState Timestamp ClientPc ClientRule ObserveRule Core Manager backendIsReady
  backendIsReady_iff)

universe u
variable {ν : Type u} {serde : SerdeJson ν} {config : AppConfig} {timing : LifecycleTiming}

/-! ### The manager's Ready decisions -/

/-- A Ready decision has its tunnel ready. -/
def decidesReady : LifecycleDecision → Prop
  | .ready status => status.tunnel = .ready
  | _ => True

def clientDecidesReady : ClientPc → Prop
  | .leadReread status => status.tunnel = .ready
  | .leadFinish _ _ decision | .returned decision => decidesReady decision
  | _ => True

theorem tunnel_of_ready {status : BackendStatus} (h : backendIsReady status = true) :
    status.tunnel = .ready :=
  (backendIsReady_iff.mp h).2

theorem clientRule_decidesReady {core core' : Core} {pc pc' : ClientPc}
    (rule : ClientRule timing core pc core' pc') (h : clientDecidesReady pc) :
    clientDecidesReady pc' := by
  cases rule with
  | alreadyReady _ _ _ ready => exact tunnel_of_ready ready
  | leadReady _ _ _ _ _ _ observe =>
      cases observe with
      | tunnelReady _ _ ready => exact tunnel_of_ready ready
  | reread _ => exact h
  | leadFinish _ _ _ => exact h
  | waitReturn _ _ _ _ verdict =>
      obtain ⟨_, ready, rfl⟩ | ⟨_, _, rfl⟩ | ⟨_, _, rfl⟩ := Lifecycle.waitVerdict_cases verdict
      · exact tunnel_of_ready ready
      · trivial
      · trivial
  | markPublish next _ => cases next <;> trivial
  | _ => trivial

def ManagerDecidesReady (manager : Manager) : Prop :=
  ∀ pc ∈ manager.clients, clientDecidesReady pc

theorem managerRule_decidesReady {manager manager' : Manager} {a : Lifecycle.Action}
    (rule : Lifecycle.ManagerRule timing manager a manager') (h : ManagerDecidesReady manager) :
    ManagerDecidesReady manager' := by
  cases rule with
  | begin i op pc here free => exact forall_mem_set h (by cases op <;> trivial)
  | client i input pc pc' core' here rule =>
      exact forall_mem_set h (clientRule_decidesReady rule (h pc (List.mem_of_getElem? here)))
  | drop i pc here suspended => exact forall_mem_set h trivial
  | task _ _ _ _ _ _ _ | elapse _ _ => exact h

/-! ### What a call does to the counter -/

/-- A step of call `i` comes to handle a status only if it is told one, and counts a
drop only if the status it handles has its tunnel not ready. -/
structure HandleStep (o o' : Orchestrator) (i : Nat) (exec : Exec) (input : Input) : Prop where
  drops : (∀ status, exec.pc = .handleReady status → status.tunnel = .ready) →
    o'.metrics.tunnelDrops = o.metrics.tunnelDrops
  moved : ∃ exec', o'.execs = o.execs.set i exec' ∧
    ∀ status, exec'.pc = .handleReady status → input = .decide (.ready status)

section Step

variable {o o' : Orchestrator} {i : Nat} {exec exec' : Exec} {input : Input}

theorem checkTunnelDrop_ready (o : Orchestrator) (kind : LifecycleRequest) {tunnel : TunnelState}
    (ready : tunnel = .ready) :
    (o.checkTunnelDrop kind tunnel).metrics = o.metrics := by
  subst ready
  cases kind <;> simp [Orchestrator.checkTunnelDrop]

theorem HandleStep.put {t : Orchestrator} (execs : t.execs = o.execs)
    (drops : t.metrics.tunnelDrops = o.metrics.tunnelDrops)
    (unhandled : ∀ status, exec'.pc = .handleReady status → input = .decide (.ready status)) :
    HandleStep o (t.put i exec') i exec input :=
  ⟨fun _ => drops, exec', by rw [Orchestrator.put_execs, execs], unhandled⟩

theorem HandleStep.same (here : o.execs[i]? = some exec) (execs : o'.execs = o.execs)
    (metrics : o'.metrics = o.metrics) (unhandled : ∀ status, exec.pc ≠ .handleReady status) :
    HandleStep o o' i exec input := by
  refine ⟨fun _ => by rw [metrics], exec, by rw [execs, set_of_some here], ?_⟩
  exact fun status pc => absurd pc (unhandled status)

theorem handleStep_afterExecute (t : Orchestrator) (execs : t.execs = o.execs)
    (metrics : t.metrics = o.metrics) (outcome : Except WarmExecutionError ForwardResult) :
    HandleStep o (t.afterExecute i exec outcome) i exec input := by
  have counted : ∀ (inc : Metrics → Metrics) (pc : ExecPc),
      (∀ metrics, (inc metrics).tunnelDrops = metrics.tunnelDrops) →
      (∀ status, pc ≠ .handleReady status) →
      HandleStep o ((t.count inc).put i (exec.goto pc)) i exec input := by
    intro inc pc same unhandled
    refine .put execs ?_ fun status hpc => absurd hpc (unhandled status)
    change (inc t.metrics).tunnelDrops = _
    rw [same, metrics]
  match outcome with
  | .ok (.ok _) | .ok (.error .embeddingsUnsupported) | .ok (.error .upstreamUnreachable)
  | .ok (.error (.upstreamError _ _)) | .ok (.error .cancelled) | .error .queueFull
  | .error .queueTimeout => exact counted _ _ (fun _ => rfl) (by simp)

theorem ExecRule.handleStep (rule : ExecRule serde config o i exec input o')
    (here : o.execs[i]? = some exec) : HandleStep o o' i exec input := by
  cases rule with
  | enter | cold | notCold | admitted | refused | callEnsure | callDegrade | callMark | degraded
  | retryDone | relayed | unwoundAwaiting | dropped => exact .put rfl rfl (by simp [Exec.goto])
  | decided decision _ =>
      cases decision with
      | ready status =>
          refine .put rfl rfl fun _ pc => ?_
          cases pc
          rfl
      | warming _ _ | failed _ _ => exact .put rfl rfl (by simp [Exec.goto])
  | retryDecided decision _ =>
      cases decision with
      | ready _ | warming _ _ | failed _ _ => exact .put rfl rfl (by simp [Exec.goto])
  | embeddingsDegraded status pc _ _ | handled status pc _ =>
      refine ⟨fun ready => ?_, _,
        congrArg (List.set · i _) (Orchestrator.checkTunnelDrop_execs _ _), by simp [Exec.goto]⟩
      exact congrArg Metrics.tunnelDrops (checkTunnelDrop_ready o exec.kind (ready status pc))
  | execute t _ drive | unwoundScheduled t _ _ drive | unwoundCall t _ _ drive _ _ =>
      exact .put (Orchestrator.drive_frame drive).1 (by rw [drive_metrics drive])
        (by simp [Exec.goto])
  | scheduled _ _ pc drive _ _ | unwinding _ _ pc drive _ _ =>
      exact .same here (Orchestrator.drive_frame drive).1 (drive_metrics drive) (by simp [pc])
  | complete _ _ _ _ _ pc _ _ _ drive =>
      exact .same here (Orchestrator.drive_frame drive).1 (by rw [drive_metrics drive]; rfl)
        (by simp [pc])
  | operate _ _ _ _ _ pc _ _ _ drive =>
      refine .same here ?_ (by rw [drive_metrics drive, noteDelivery_metrics]) (by simp [pc])
      rw [(Orchestrator.drive_frame drive).1, Orchestrator.noteDelivery_execs]
  | executed t _ outcome _ drive _ _ =>
      exact handleStep_afterExecute t (Orchestrator.drive_frame drive).1 (drive_metrics drive)
        outcome
  | retryPending _ _ _ _ _ => exact .put (by simp) (by simp) (by simp [Exec.goto])
  | returned response _ =>
      refine .put rfl rfl ?_
      cases response.streams with
      | true | false => simp

end Step

/-! ### No status that is handled has its tunnel down -/

/-- No manager decides Ready without its tunnel, no call handles a status without its
tunnel, and no drop is counted. -/
structure Proxy.NeverDropped (s : Proxy) : Prop where
  decides : ∀ backend, ManagerDecidesReady (s.lifecycles backend)
  handles : ∀ exec ∈ s.orchestrator.execs, ∀ status, exec.pc = .handleReady status →
    status.tunnel = .ready
  drops : s.orchestrator.metrics.tunnelDrops = 0

variable {s s' : Proxy}

theorem answer_decidesReady {manager manager' : Manager} {i : Nat} {exec : Exec} {input : Input}
    (answered : Proxy.answer timing manager i exec input = some manager')
    (h : ManagerDecidesReady manager) :
    ManagerDecidesReady manager' ∧
      ∀ status, input = .decide (.ready status) → status.tunnel = .ready := by
  constructor
  · cases answer_cases answered with
    | begun op _ _ _ => exact forall_mem_set h (by cases op <;> trivial)
    | dropped _ _ => exact forall_mem_set h trivial
    | settled _ _ _ _ | aside _ _ => exact h
  · rintro status rfl
    simp only [Proxy.answer] at answered
    split at answered
    next returned => exact h _ (List.mem_of_getElem? returned)
    next => cases answered

theorem neverDropped_step {a : Proxy.Action} (h : s.NeverDropped)
    (hstep : (proxy serde config timing).step s a = some s') : s'.NeverDropped := by
  have updated : ∀ (backend : Backend) (manager : Manager), ManagerDecidesReady manager →
      ∀ other, ManagerDecidesReady (Function.update s.lifecycles backend manager other) := by
    intro backend manager decides other
    by_cases hother : other = backend
    · subst hother
      rwa [Function.update_self]
    · rw [Function.update_of_ne hother]
      exact h.decides other
  cases proxy_cases hstep with
  | exec i input exec manager orchestrator here answered stepped =>
      obtain ⟨decides, told⟩ := answer_decidesReady answered (h.decides _)
      obtain ⟨drops, exec', execs, handled⟩ := (execStep_cases stepped).handleStep here
      refine ⟨updated _ manager decides, ?_, ?_⟩
      · rw [execs]
        exact forall_mem_set h.handles fun status pc => told status (handled status pc)
      · exact (drops (h.handles exec (List.mem_of_getElem? here))).trans h.drops
  | lifecycle backend action manager _ rule =>
      exact ⟨updated backend manager (managerRule_decidesReady rule (h.decides backend)), h.handles,
        h.drops⟩
  | elapse span clock t stepped clients =>
      simp only [Orchestrator.step] at stepped
      obtain ⟨_, _, hs'⟩ := Option.map_eq_some_iff.mp stepped
      refine ⟨fun backend => ?_, ?_, ?_⟩
      · unfold ManagerDecidesReady
        rw [clients backend]
        exact h.decides backend
      · rw [← hs']
        exact h.handles
      · rw [← hs']
        exact h.drops

theorem neverDropped_new (execs : Nat) (initial : Backend → BackendStatus) (instant : Nat)
    (clock : Timestamp) : (Proxy.new config execs initial instant clock).NeverDropped where
  decides _ pc hpc := by
    obtain rfl := (List.mem_replicate.mp hpc).2
    trivial
  handles exec hexec status pc := by
    obtain rfl := (List.mem_replicate.mp hexec).2
    cases pc
  drops := rfl

/-! ### What should have been counted -/

/-- The next step of call `i` handles a status whose tunnel is ready. -/
def Proxy.handlesReady (s : Proxy) (kind : LifecycleRequest) (i : Nat) : Bool :=
  s.orchestrator.execs[i]?.any fun exec =>
    exec.kind = kind && match exec.pc with
      | .handleReady status => status.tunnel = .ready
      | _ => false

/-- Between the two states a status is published whose tunnel is not ready. -/
def publishesDown (config : AppConfig) (kind : LifecycleRequest) (s s' : Proxy) : Bool :=
  let before := (s.lifecycles (config.lifecycleFor kind)).core.status
  let after := (s'.lifecycles (config.lifecycleFor kind)).core.status
  before.version < after.version && after.value.tunnel ≠ .ready

def Proxy.completes (s : Proxy) (kind : LifecycleRequest) (i : Nat) : Bool :=
  s.orchestrator.execs[i]?.any fun exec =>
    exec.kind = kind && match exec.pc with
      | .returning _ => true
      | _ => false

/-- A run from `s` to `t` that drops the tunnel: a call is handled with its tunnel
ready, later a status with a tunnel that is not is published for its backend, and later
still another call of the kind is handled to completion. -/
def TunnelDropped (serde : SerdeJson ν) (config : AppConfig) (timing : LifecycleTiming)
    (kind : LifecycleRequest) (s t : Proxy) : Prop :=
  ∃ i j s₁ s₂ a s₃ s₄, i ≠ j ∧
    s.handlesReady kind i = true ∧ (proxy serde config timing).step s (.exec i .run) = some s₁ ∧
    (proxy serde config timing).Reachable s₁ s₂ ∧
    (proxy serde config timing).step s₂ a = some s₃ ∧ publishesDown config kind s₂ s₃ = true ∧
    (proxy serde config timing).Reachable s₃ s₄ ∧
    s₄.completes kind j = true ∧ (proxy serde config timing).step s₄ (.exec j .run) = some t

theorem TunnelDropped.reachable {kind : LifecycleRequest} {t : Proxy}
    (h : TunnelDropped serde config timing kind s t) :
    (proxy serde config timing).Reachable s t := by
  obtain ⟨i, j, s₁, s₂, a, s₃, s₄, _, _, handled, first, published, _, later, _, completed⟩ := h
  have upTo₂ := (System.Reachable.step .refl handled).trans first
  exact .step ((System.Reachable.step upTo₂ published).trans later) completed

/-- In every run `tunnel_drops` stays at zero, whatever is published in between, and so
no run that drops the tunnel has it counted. -/
theorem tunnelDrops_never_counted (serde : SerdeJson ν) (config : AppConfig)
    (timing : LifecycleTiming) (execs instant : Nat) (initial : Backend → BackendStatus)
    (clock : Timestamp) (s : Proxy)
    (h : (proxy serde config timing).Reachable (.new config execs initial instant clock) s) :
    s.orchestrator.metrics.tunnelDrops = 0 ∧
      ∀ kind t, TunnelDropped serde config timing kind s t →
        ¬ s.orchestrator.metrics.tunnelDrops < t.orchestrator.metrics.tunnelDrops := by
  have never : ∀ t,
      (proxy serde config timing).Reachable (.new config execs initial instant clock) t →
      t.orchestrator.metrics.tunnelDrops = 0 := fun t ht =>
    (ht.invariant (neverDropped_new execs initial instant clock)
      fun _ _ _ held hstep => neverDropped_step held hstep).drops
  refine ⟨never s h, ?_⟩
  intro kind t dropped
  rw [never t (h.trans dropped.reachable)]
  exact Nat.not_lt_zero _

section Dropped

def readyStatus : BackendStatus :=
  (BackendStatus.default.withObserved Lifecycle.observedReady).withTunnel .ready

/-- Call `i` arrives, its client leads a round to the end, and it is told that the
backend is ready. -/
def findReadySchedule (i : Nat) : List Proxy.Action :=
  .exec i .call :: List.replicate 4 (.lifecycle .chat (.client i .run)) ++
    [.lifecycle .chat (.client i (.answer (.ssh (.ok true)))),
      .lifecycle .chat (.client i (.answer (.helper (.ok Lifecycle.observedReady)))),
      .lifecycle .chat (.client i (.answer (.tunnel (.ok .ready)))),
      .lifecycle .chat (.client i .run), .lifecycle .chat (.client i .run),
      .exec i (.decide (.ready readyStatus))]

/-- The first call finds the backend ready. -/
def handleSchedule : List Proxy.Action :=
  [.exec 0 (.enter .chat false), .exec 0 (.status .default), .exec 0 .run] ++ findReadySchedule 0

/-- It cannot connect, and marks the backend as warming. -/
def dropSchedule : List Proxy.Action :=
  List.replicate 3 (.exec 0 .run) ++
    [.exec 0 (.forward (.failed { isConnect := true, isTimeout := false, status := none,
                                  message := "" })),
      .exec 0 .run, .exec 0 .call, .lifecycle .chat (.client 0 .run)]

/-- The second call finds the backend ready again, and is answered. -/
def recoverSchedule : List Proxy.Action :=
  [.exec 1 (.enter .chat false), .exec 1 (.status readyStatus.warmed)] ++ findReadySchedule 1 ++
    List.replicate 4 (.exec 1 .run) ++
    [.exec 1 (.forward .deliver), .exec 1 (.forward (.answered 200)),
      .exec 1 (.forward (.body (some ['x']))), .exec 1 .run]

abbrev oneProxy : System Proxy Proxy.Action :=
  proxy SerdeJson.mute oneColdStart Lifecycle.exampleTiming

/-- A tunnel drops between two calls, and `tunnel_drops` is what it was. -/
theorem tunnelDropped_uncounted :
    ∃ s t, oneProxy.Reachable (.new oneColdStart 2 (fun _ => .default) 0 ⟨0⟩) s ∧
      TunnelDropped SerdeJson.mute oneColdStart Lifecycle.exampleTiming .chat s t ∧
      t.orchestrator.metrics.tunnelDrops = s.orchestrator.metrics.tunnelDrops := by
  have chain : ((oneProxy.replay (.new oneColdStart 2 (fun _ => .default) 0 ⟨0⟩)
        handleSchedule).any fun s =>
      s.handlesReady .chat 0 && (oneProxy.step s (.exec 0 .run)).any fun s₁ =>
      (oneProxy.replay s₁ dropSchedule).any fun s₂ =>
      (oneProxy.step s₂ (.lifecycle .chat (.client 0 .run))).any fun s₃ =>
      publishesDown oneColdStart .chat s₂ s₃ && (oneProxy.replay s₃ recoverSchedule).any fun s₄ =>
      s₄.completes .chat 1 && (oneProxy.step s₄ (.exec 1 .run)).any fun t =>
      t.orchestrator.metrics.tunnelDrops == s.orchestrator.metrics.tunnelDrops) = true := by
    decide
  obtain ⟨s, hs, chain⟩ := (Option.any_eq_true _ _).mp chain
  obtain ⟨handles, chain⟩ := Bool.and_eq_true_iff.mp chain
  obtain ⟨s₁, handled, chain⟩ := (Option.any_eq_true _ _).mp chain
  obtain ⟨s₂, first, chain⟩ := (Option.any_eq_true _ _).mp chain
  obtain ⟨s₃, published, chain⟩ := (Option.any_eq_true _ _).mp chain
  obtain ⟨down, chain⟩ := Bool.and_eq_true_iff.mp chain
  obtain ⟨s₄, later, chain⟩ := (Option.any_eq_true _ _).mp chain
  obtain ⟨completes, chain⟩ := Bool.and_eq_true_iff.mp chain
  obtain ⟨t, completed, same⟩ := (Option.any_eq_true _ _).mp chain
  refine ⟨s, t, System.reachable_of_replay _ hs, ?_, beq_iff_eq.mp same⟩
  exact ⟨0, 1, s₁, s₂, _, s₃, s₄, by decide, handles, handled, System.reachable_of_replay _ first,
    published, down, System.reachable_of_replay _ later, completes, completed⟩

/-- The tunnel has dropped, and the counter has not moved. -/
theorem tunnelDrops_never_counted_dropped :
    ∃ s t, oneProxy.Reachable (.new oneColdStart 2 (fun _ => .default) 0 ⟨0⟩) s ∧
      TunnelDropped SerdeJson.mute oneColdStart Lifecycle.exampleTiming .chat s t ∧
      s.orchestrator.metrics.tunnelDrops = 0 ∧
      ¬ s.orchestrator.metrics.tunnelDrops < t.orchestrator.metrics.tunnelDrops := by
  obtain ⟨s, t, hs, dropped, _⟩ := tunnelDropped_uncounted
  have never := tunnelDrops_never_counted SerdeJson.mute oneColdStart Lifecycle.exampleTiming 2 0
    (fun _ => .default) ⟨0⟩ s hs
  exact ⟨s, t, hs, dropped, never.1, never.2 .chat t dropped⟩

/-- Not every run that drops the tunnel counts it. -/
theorem dropped_tunnel_is_not_counted :
    ¬ ∀ s t, oneProxy.Reachable (.new oneColdStart 2 (fun _ => .default) 0 ⟨0⟩) s →
      TunnelDropped SerdeJson.mute oneColdStart Lifecycle.exampleTiming .chat s t →
      s.orchestrator.metrics.tunnelDrops < t.orchestrator.metrics.tunnelDrops := by
  intro counted
  obtain ⟨s, t, hs, dropped, same⟩ := tunnelDropped_uncounted
  have more := counted s t hs dropped
  rw [same] at more
  exact Nat.lt_irrefl _ more

end Dropped
end LlmWakeProxy.Orchestrate
