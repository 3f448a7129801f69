import LlmWakeProxy.Host.TunnelOwnership
import LlmWakeProxy.Lifecycle.Ownership

/-!
What a ready tunnel means. `ensure_tunnel` reports readiness when a child has not
exited, 500 ms after it was spawned or whenever it is called again; ssh may take
ten seconds to connect. A child that is found while it connects is reported ready,
and so is one that exits before the call has returned.

The lifecycle manager and its tunnel are composed, so that what `observe_once`
publishes is read against what the child does. The call returns and the status is
published without an await in between, in one step of the composition.
-/

namespace LlmWakeProxy.Host
open LlmWakeProxy.Library
open LlmWakeProxy.Lifecycle (Instant Duration LifecycleError TunnelState LifecycleTiming
  BackendStatus Timestamp Manager ClientPc TaskPc ObservePc)

/-- The observer stands at its call of `ensure_tunnel`. -/
def clientAwaitsTunnel : ClientPc → Bool
  | .lead _ _ _ (.ensureTunnel _) => true
  | _ => false

def taskAwaitsTunnel : TaskPc → Bool
  | .observe _ _ (.ensureTunnel _) => true
  | _ => false

inductive Observer where
  | client (client : Nat)
  | task (task : Nat)

/-- The observer goes on with the result of `ensure_tunnel`. -/
def Observer.goesOn (observer : Observer) (result : Except LifecycleError TunnelState) :
    Lifecycle.Action :=
  match observer with
  | .client i => .client i (.answer (.tunnel result))
  | .task k => .task k (.answer (.tunnel result))

/-- A lifecycle manager with the tunnel it owns. -/
structure Tunneled where
  manager : Manager
  tunnel : SshTunnelManager

namespace Tunneled

inductive Action where
  | lifecycle (action : Lifecycle.Action)
  | tunnel (action : TunnelAction)
  | answered (call : Nat) (observer : Observer)
  | elapse (span : Duration) (clock : Timestamp)

def new (clients calls : Nat) (initialStatus : BackendStatus) (instant : Instant)
    (clock : Timestamp) : Tunneled where
  manager := .new clients initialStatus instant clock
  tunnel := .new calls instant

/-- The acting observer is answered by the tunnel, or the clock is not its own. -/
def shared (manager : Manager) : Lifecycle.Action → Bool
  | .client i _ => manager.clients[i]?.any clientAwaitsTunnel
  | .task k _ => manager.core.tasks[k]?.any taskAwaitsTunnel
  | .elapse _ _ => true
  | _ => false

def step (timing : LifecycleTiming) (tunnel : SshTunnel) (s : Tunneled) :
    Action → Option Tunneled
  | .lifecycle a =>
      if shared s.manager a then none
      else (s.manager.step timing a).map fun manager => { s with manager := manager }
  | .tunnel (.elapse _) => none
  | .tunnel a => (s.tunnel.step tunnel a).map fun tunnel => { s with tunnel := tunnel }
  | .answered i observer =>
      match s.tunnel.calls[i]? with
      | some (.release result) => do
          let returned ← s.tunnel.step tunnel (.call i .run)
          let manager ← s.manager.step timing (observer.goesOn result)
          some { manager := manager, tunnel := returned }
      | _ => none
  | .elapse span clock => do
      let tunnel ← s.tunnel.step tunnel (.elapse span)
      let manager ← s.manager.step timing (.elapse span clock)
      some { manager := manager, tunnel := tunnel }

end Tunneled

def tunneled (timing : LifecycleTiming) (tunnel : SshTunnel) : System Tunneled Tunneled.Action where
  step := Tunneled.step timing tunnel

/-! ### The condition -/

namespace SshTunnelManager

def tried (s : SshTunnelManager) (i : Nat) : Option Child := do
  match ← s.calls[i]? with
  | .check => s.children[← s.proc]?
  | .sleeping c _ => s.children[c]?
  | _ => none

def forwards (s : SshTunnelManager) : Bool :=
  (s.proc.bind (s.children[·]?)).any fun child => child.phase = .forwarding

end SshTunnelManager

def TunnelPc.foundReady : TunnelPc → Bool
  | .release (.ok .ready) => true
  | _ => false

/-- No child is found running while it connects, and none exits between being
found and the return of the call that found it. -/
def SshTunnelManager.settled (s : SshTunnelManager) : TunnelAction → Bool
  | .call i (.tryWait .running) => (s.tried i).all fun child => child.phase ≠ .connecting
  | .exit c => !(s.proc = some c && s.calls.any TunnelPc.foundReady)
  | _ => true

def Settled (s : Tunneled) : Tunneled.Action → Prop
  | .tunnel a => s.tunnel.settled a = true
  | _ => True

instance (s : Tunneled) (a : Tunneled.Action) : Decidable (Settled s a) :=
  match a with
  | .tunnel _ => inferInstanceAs (Decidable (_ = _))
  | .lifecycle _ | .answered _ _ | .elapse _ _ => .isTrue trivial

/-! ### The tunnel -/

section
variable {tunnel : SshTunnel} {s s' t : SshTunnelManager}

theorem forwards_iff : s.forwards = true ↔
    ∃ (c : Nat) (child : Child), s.proc = some c ∧ s.children[c]? = some child ∧
      child.phase = .forwarding := by
  unfold SshTunnelManager.forwards
  cases hproc : s.proc with
  | none => simp
  | some c => cases hchild : s.children[c]? <;> simp [hchild]

/-- Whoever has found the tunnel ready has found it forwarding. -/
structure Steady (s : SshTunnelManager) : Prop where
  owned : Owned s
  forwarding : ∀ pc ∈ s.calls, pc.foundReady = true → s.forwards = true

theorem holdsLock_of_foundReady {pc : TunnelPc} (h : pc.foundReady = true) :
    pc.holdsLock = true := by
  cases pc with
  | release _ => rfl
  | _ => cases h

/-- A step under the mutex: nobody else has found the tunnel ready. -/
theorem Alone.forwarding {i : Nat} {pc pc' : TunnelPc} (alone : Alone s i pc)
    (calls : t.calls = s.calls) (found : pc'.foundReady = true → t.forwards = true) :
    ∀ pc'' ∈ (t.put i pc').calls, pc''.foundReady = true → (t.put i pc').forwards = true := by
  intro pc'' hmem hfound
  simp only [SshTunnelManager.put, calls] at hmem
  obtain rfl | ⟨j, hji, hj⟩ := mem_set_cases hmem
  · exact found hfound
  · have unlocked := alone.others hji hj
    rw [holdsLock_of_foundReady hfound] at unlocked
    cases unlocked

theorem forwards_of_waited {i c : Nat} (tried : s.tried i = s.children[c]?)
    (ok : s.settled (.call i (.tryWait .running)) = true) (waited : s.tryWait c .running = some t) :
    ∃ child, t.children[c]? = some child ∧ child.phase = .forwarding := by
  obtain ⟨child, here, fits, rfl⟩ := tryWait_cases waited
  refine ⟨_, getElem?_set_of_some here _, ?_⟩
  simp only [SshTunnelManager.settled, tried, here, Option.all_some, ne_eq, decide_not,
    Bool.not_eq_true', decide_eq_false_iff_not] at ok
  cases hphase : child.phase with
  | forwarding => rfl
  | connecting => exact absurd hphase ok
  | exited | killed =>
      rw [hphase] at fits
      cases fits

theorem forwarding_call {i : Nat} {pc : TunnelPc} {input : TunnelInput} (h : Steady s)
    (here : s.calls[i]? = some pc) (ok : s.settled (.call i input) = true)
    (rule : TunnelRule tunnel s i pc input s') :
    ∀ pc ∈ s'.calls, pc.foundReady = true → s'.forwards = true := by
  cases rule with
  | enter | dropWaiting =>
      intro pc' hmem hfound
      obtain rfl | ⟨j, _, hj⟩ := mem_set_cases hmem
      · cases hfound
      · exact h.forwarding pc' (List.mem_of_getElem? hj) hfound
  | locked free =>
      have alone : Alone s i .lock := by
        refine ⟨here, ?_⟩
        rw [h.owned.mutex, free]
        rfl
      exact alone.forwarding rfl fun hfound => by cases hfound
  | empty _ | notSpawned _ _ | spawned | released _ | unwound | dropSleeping _ _ =>
      exact (h.owned.alone here rfl).forwarding rfl fun hfound => by cases hfound
  | unknown _ _ _ _ waited | notCreated _ _ _ _ _ waited =>
      exact (h.owned.alone here rfl).forwarding (waited_of_tryWait waited).calls
        fun hfound => by cases hfound
  | ended _ _ _ _ waited =>
      exact (h.owned.alone here rfl).forwarding
        ((setProc_calls _ _).trans (waited_of_tryWait waited).calls) fun hfound => by cases hfound
  | running c t proc waited =>
      have after := waited_of_tryWait waited
      refine (h.owned.alone here rfl).forwarding after.calls fun _ => forwards_iff.mpr ?_
      have tried : s.tried i = s.children[c]? := by
        simp [SshTunnelManager.tried, here, proc]
      obtain ⟨child, there, phase⟩ := forwards_of_waited tried ok waited
      exact ⟨c, child, after.proc.trans proc, there, phase⟩
  | created c wakeAt t waited =>
      have after := waited_of_tryWait waited
      have empty : s.proc = none := h.owned.sited _ (List.mem_of_getElem? here)
      have replaced : t.setProc (some c) = { t with proc := some c } := by
        rw [SshTunnelManager.setProc, after.proc, empty]
        rfl
      rw [replaced]
      refine (h.owned.alone here rfl).forwarding after.calls fun _ => forwards_iff.mpr ?_
      have tried : s.tried i = s.children[c]? := by
        simp [SshTunnelManager.tried, here]
      obtain ⟨child, there, phase⟩ := forwards_of_waited tried ok waited
      exact ⟨c, child, rfl, there, phase⟩

theorem forwards_set {c : Nat} {child' : Child} (h : s.forwards = true)
    (aside : s.proc = some c → ∀ child, s.children[c]? = some child → child.phase ≠ .forwarding) :
    ({ s with children := s.children.set c child' } : SshTunnelManager).forwards = true := by
  obtain ⟨c', child, proc, there, forwarding⟩ := forwards_iff.mp h
  have hcc : c ≠ c' := by
    rintro rfl
    exact aside proc child there forwarding
  refine forwards_iff.mpr ⟨c', child, proc, ?_, forwarding⟩
  rwa [List.getElem?_set_ne hcc]

theorem steady_step {a : TunnelAction} (h : Steady s) (ok : s.settled a = true)
    (hstep : (sshTunnel tunnel).step s a = some s') : Steady s' := by
  refine ⟨owned_step h.owned hstep, ?_⟩
  cases tunnelStep_cases hstep with
  | call i input pc here _ rule => exact forwarding_call h here ok rule
  | elapse span => exact h.forwarding
  | connect c child here phase =>
      intro pc hmem hfound
      refine forwards_set (h.forwarding pc hmem hfound) fun _ child' there forwarding => ?_
      cases here.symm.trans there
      rw [phase] at forwarding
      cases forwarding
  | exit c child here phase =>
      intro pc hmem hfound
      refine forwards_set (h.forwarding pc hmem hfound) fun proc _ _ _ => ?_
      have someone : s.calls.any TunnelPc.foundReady = true :=
        List.any_eq_true.mpr ⟨pc, hmem, hfound⟩
      simp [SshTunnelManager.settled, proc, someone] at ok

end

/-! ### The publications -/

section
open LlmWakeProxy.Lifecycle (Core Event ObserveRule ClientRule TaskRule ManagerRule
  LifecycleRequest Observation Input observeOnce)
variable {timing : LifecycleTiming} {core core' : Core}

def opensTunnel : Event → Bool
  | .published .observeOnce draft _ => draft.status.tunnel = .ready
  | _ => false

def openings (core : Core) : Nat := core.log.countP opensTunnel

theorem openings_observe {wakeRequest : Option LifecycleRequest}
    {observeRequest : LifecycleRequest} {pc : ObservePc} {observation : Observation}
    (rule : ObserveRule core wakeRequest observeRequest pc core' observation)
    (elsewhere : ∀ d, pc ≠ .ensureTunnel d) : openings core' = openings core := by
  cases rule with
  | tunnelFailed d _ | tunnelReady d _ _ | tunnelNotReady d _ _ => exact absurd rfl (elsewhere d)
  | _ => rfl

theorem openings_notReady {wakeRequest : Option LifecycleRequest}
    {observeRequest : LifecycleRequest} {pc : ObservePc} {observation : Observation}
    {result : Except LifecycleError TunnelState}
    (h : observeOnce core wakeRequest observeRequest pc (.tunnel result) =
      some (core', observation))
    (notReady : result ≠ .ok .ready) : openings core' = openings core := by
  cases pc with
  | sshIsReady _ | requestWake _ | observeBackend _ => cases h
  | ensureTunnel d =>
      cases result with
      | error _ =>
          cases h
          rfl
      | ok tunnel =>
          cases tunnel with
          | ready => exact absurd rfl notReady
          | down | connecting =>
              simp only [observeOnce] at h
              split at h
              all_goals
                cases h
                rfl

theorem openings_client {pc pc' : ClientPc} (rule : ClientRule timing core pc core' pc')
    (elsewhere : clientAwaitsTunnel pc = false) : openings core' = openings core := by
  cases rule with
  | leadPending _ _ _ _ _ _ observe | leadReady _ _ _ _ _ _ observe
  | handOver _ _ _ _ _ _ observe | leadFailed _ _ _ _ _ _ _ observe =>
      refine Eq.trans ?_ (openings_observe observe ?_)
      · rfl
      · rintro d rfl
        cases elsewhere
  | _ => rfl

theorem openings_task {pc pc' : TaskPc} (rule : TaskRule timing core pc core' pc')
    (elsewhere : taskAwaitsTunnel pc = false) : openings core' = openings core := by
  cases rule with
  | pending _ _ _ _ _ observe | ready _ _ _ _ _ observe | warming _ _ _ _ _ observe
  | failed _ _ _ _ _ _ observe =>
      refine openings_observe observe ?_
      rintro d rfl
      cases elsewhere
  | _ => rfl

theorem openings_manager {s s' : Manager} {a : Lifecycle.Action} (rule : ManagerRule timing s a s')
    (own : Tunneled.shared s a = false) : openings s'.core = openings s.core := by
  cases rule with
  | begin _ _ _ _ _ | drop _ _ _ _ | elapse _ _ => rfl
  | client i _ pc _ _ here rule =>
      refine openings_client rule ?_
      simpa [Tunneled.shared, here] using own
  | task k _ pc _ _ here rule =>
      have elsewhere : taskAwaitsTunnel pc = false := by
        simpa [Tunneled.shared, here] using own
      have kept := openings_task rule elsewhere
      exact kept

/-- Only an observer that is told the tunnel is ready publishes it. -/
theorem openings_goesOn {s s' : Manager} {observer : Observer}
    {result : Except LifecycleError TunnelState}
    (h : s.step timing (observer.goesOn result) = some s') (notReady : result ≠ .ok .ready) :
    openings s'.core = openings s.core := by
  cases observer with
  | client i =>
      obtain ⟨pc, here, hstep⟩ := Option.bind_eq_some_iff.mp h
      obtain ⟨⟨core', pc'⟩, hrule, hnext⟩ := Option.bind_eq_some_iff.mp hstep
      cases hnext
      cases pc with
      | lead _ _ _ pc =>
          obtain ⟨⟨core₁, observation⟩, hobserve, hnext⟩ := Option.map_eq_some_iff.mp hrule
          refine Eq.trans ?_ (openings_notReady hobserve notReady)
          cases observation <;> cases hnext <;> rfl
      | _ => cases hrule
  | task k =>
      obtain ⟨pc, here, hstep⟩ := Option.bind_eq_some_iff.mp h
      obtain ⟨⟨core', pc'⟩, hrule, hnext⟩ := Option.bind_eq_some_iff.mp hstep
      cases hnext
      cases pc with
      | observe _ _ pc =>
          obtain ⟨⟨core₁, observation⟩, hobserve, hnext⟩ := Option.map_eq_some_iff.mp hrule
          refine Eq.trans ?_ (openings_notReady hobserve notReady)
          cases observation <;> cases hnext <;> rfl
      | _ => cases hrule

end

/-! ### The composition -/

section
variable {timing : LifecycleTiming} {tunnel : SshTunnel} {s s' : Tunneled}

inductive TunneledRule (timing : LifecycleTiming) (tunnel : SshTunnel) (s : Tunneled) :
    Tunneled.Action → Tunneled → Prop
  | lifecycle (a : Lifecycle.Action) (manager : Manager)
      (own : Tunneled.shared s.manager a = false) (step : s.manager.step timing a = some manager) :
      TunneledRule timing tunnel s (.lifecycle a) { s with manager := manager }
  | tunnel (a : TunnelAction) (t : SshTunnelManager)
      (step : (sshTunnel tunnel).step s.tunnel a = some t) :
      TunneledRule timing tunnel s (.tunnel a) { s with tunnel := t }
  | answered (i : Nat) (observer : Observer) (result : Except LifecycleError TunnelState)
      (t : SshTunnelManager) (manager : Manager)
      (here : s.tunnel.calls[i]? = some (.release result))
      (step : (sshTunnel tunnel).step s.tunnel (.call i .run) = some t)
      (goesOn : s.manager.step timing (observer.goesOn result) = some manager) :
      TunneledRule timing tunnel s (.answered i observer) { manager := manager, tunnel := t }
  | elapse (span : Duration) (clock : Timestamp) (t : SshTunnelManager) (manager : Manager)
      (step : (sshTunnel tunnel).step s.tunnel (.elapse span) = some t)
      (elapsed : s.manager.step timing (.elapse span clock) = some manager) :
      TunneledRule timing tunnel s (.elapse span clock) { manager := manager, tunnel := t }

theorem tunneled_cases {a : Tunneled.Action} (h : (tunneled timing tunnel).step s a = some s') :
    TunneledRule timing tunnel s a s' := by
  cases a with
  | lifecycle a =>
      simp only [tunneled, Tunneled.step] at h
      split at h
      next => cases h
      next own =>
        obtain ⟨manager, step, rfl⟩ := Option.map_eq_some_iff.mp h
        exact .lifecycle a manager (Bool.eq_false_iff.mpr own) step
  | tunnel a =>
      cases a with
      | elapse _ => cases h
      | call _ _ | connect _ | exit _ =>
          obtain ⟨t, step, rfl⟩ := Option.map_eq_some_iff.mp h
          exact .tunnel _ t step
  | answered i observer =>
      simp only [tunneled, Tunneled.step] at h
      split at h
      next result here =>
        obtain ⟨t, step, h⟩ := Option.bind_eq_some_iff.mp h
        obtain ⟨manager, goesOn, h⟩ := Option.bind_eq_some_iff.mp h
        cases h
        exact .answered i observer result t manager here step goesOn
      next => cases h
  | elapse span clock =>
      obtain ⟨t, step, h⟩ := Option.bind_eq_some_iff.mp h
      obtain ⟨manager, elapsed, h⟩ := Option.bind_eq_some_iff.mp h
      cases h
      exact .elapse span clock t manager step elapsed

theorem steady_tunneled {a : Tunneled.Action} (h : Steady s.tunnel) (ok : Settled s a)
    (hstep : (tunneled timing tunnel).step s a = some s') : Steady s'.tunnel := by
  cases tunneled_cases hstep with
  | lifecycle => exact h
  | tunnel a t step => exact steady_step h ok step
  | answered i _ _ t _ _ step _ => exact steady_step h rfl step
  | elapse span _ t _ step _ => exact steady_step h rfl step

theorem steady_new (calls : Nat) (instant : Instant) : Steady (.new calls instant) := by
  refine ⟨owned_new calls instant, ?_⟩
  intro pc hmem hfound
  obtain ⟨_, rfl⟩ := List.mem_replicate.mp hmem
  cases hfound

/-- From one state to the next, call `i` returns `Ok(TunnelState::Ready)`. -/
def ReturnsReady (t t' : SshTunnelManager) (i : Nat) : Prop :=
  t.calls[i]? ≠ some (.returned (.ok .ready)) ∧ t'.calls[i]? = some (.returned (.ok .ready))

instance (t t' : SshTunnelManager) (i : Nat) : Decidable (ReturnsReady t t' i) :=
  inferInstanceAs (Decidable (_ ∧ _))

/-- The call that returns ready leaves a child that forwards. -/
theorem Steady.forwards_of_returned {i : Nat} {a : TunnelAction} {t t' : SshTunnelManager}
    (h : Steady t) (hstep : (sshTunnel tunnel).step t a = some t') (returns : ReturnsReady t t' i) :
    t'.forwards = true := by
  obtain ⟨here, hproc, hchildren⟩ := release_of_returned hstep returns.1 returns.2
  have forwarding := h.forwarding _ (List.mem_of_getElem? here) rfl
  rwa [SshTunnelManager.forwards, hproc, hchildren]

theorem returned_of_release {i : Nat} {result : Except LifecycleError TunnelState}
    {t t' : SshTunnelManager} (here : t.calls[i]? = some (.release result))
    (step : (sshTunnel tunnel).step t (.call i .run) = some t') :
    t'.calls[i]? = some (.returned result) := by
  obtain ⟨pc, hpc, hstep⟩ := Option.bind_eq_some_iff.mp step
  cases here.symm.trans hpc
  cases hstep
  exact getElem?_set_of_some here _

/-- In every run whose steps all meet the condition, whenever a call of
`ensure_tunnel` returns ready, and whenever `observe_once` publishes a ready tunnel,
the stored child forwards. -/
theorem ready_tunnels_forward {clients calls : Nat} {initialStatus : BackendStatus}
    {instant : Instant} {clock : Timestamp} {a : Tunneled.Action}
    (h : ((tunneled timing tunnel).restrict Settled).Reachable
      (.new clients calls initialStatus instant clock) s)
    (hstep : (tunneled timing tunnel).step s a = some s') :
    (∀ i, ReturnsReady s.tunnel s'.tunnel i → s'.tunnel.forwards = true) ∧
    (openings s.manager.core < openings s'.manager.core → s'.tunnel.forwards = true) := by
  have steady : Steady s.tunnel := h.invariant_restrict (steady_new calls instant)
    fun _ _ _ ht ok hstep => steady_tunneled ht ok hstep
  cases tunneled_cases hstep with
  | lifecycle a manager own step =>
      refine ⟨fun i returns => absurd returns.2 returns.1, fun opened => ?_⟩
      rw [openings_manager (Lifecycle.step_cases step) own] at opened
      exact absurd opened (Nat.lt_irrefl _)
  | tunnel a t step =>
      exact ⟨fun i => steady.forwards_of_returned step,
        fun opened => absurd opened (Nat.lt_irrefl _)⟩
  | elapse span clock t manager step elapsed =>
      refine ⟨fun i => steady.forwards_of_returned step, fun opened => ?_⟩
      cases elapsed
      exact absurd opened (Nat.lt_irrefl _)
  | answered i observer result t manager here step goesOn =>
      refine ⟨fun i => steady.forwards_of_returned step, fun opened => ?_⟩
      have unready : result ≠ .ok .ready → t.forwards = true := by
        intro notReady
        rw [openings_goesOn goesOn notReady] at opened
        exact absurd opened (Nat.lt_irrefl _)
      cases result with
      | error _ => exact unready (by simp)
      | ok found =>
          cases found with
          | down | connecting => exact unready (by simp)
          | ready =>
              refine steady.forwards_of_returned step ⟨?_, returned_of_release here step⟩
              rw [here]
              simp

end

/-! ### The two timings of the child -/

/-- Client 0 leads a round, the helper is ready, and `ensure_tunnel` spawns a child. -/
def leadToTunnel : List Tunneled.Action :=
  [.lifecycle (.begin 0 (.ensureBackend .chat)), .lifecycle (.client 0 .run),
    .lifecycle (.client 0 .run), .lifecycle (.client 0 .run), .lifecycle (.client 0 .run),
    .lifecycle (.client 0 (.answer (.ssh (.ok true)))),
    .lifecycle (.client 0 (.answer (.helper (.ok Lifecycle.observedReady)))),
    .tunnel (.call 0 .enter), .tunnel (.call 0 .run), .tunnel (.call 0 .run),
    .tunnel (.call 0 (.spawned (.ok ()))), .elapse settleTime ⟨0⟩]

theorem ready_tunnels_forward_connected :
    ∃ s s', ((tunneled Lifecycle.exampleTiming exampleTunnel).restrict Settled).Reachable
        (.new 1 1 .default 0 ⟨0⟩) s ∧
      (tunneled Lifecycle.exampleTiming exampleTunnel).step s (.answered 0 (.client 0)) = some s' ∧
      ReturnsReady s.tunnel s'.tunnel 0 ∧ s'.tunnel.forwards = true := by
  have found : ∃ s, ((tunneled Lifecycle.exampleTiming exampleTunnel).restrict Settled).Reachable
      (.new 1 1 .default 0 ⟨0⟩) s ∧
      ((tunneled Lifecycle.exampleTiming exampleTunnel).step s (.answered 0 (.client 0))).any
        (fun s' => decide (ReturnsReady s.tunnel s'.tunnel 0)) = true :=
    System.reachable_of_check
      (leadToTunnel ++ [.tunnel (.connect 0), .tunnel (.call 0 (.tryWait .running))]) (by decide)
  obtain ⟨s, hrun, hchecked⟩ := found
  obtain ⟨s', hstep, returns⟩ := System.step_of_check hchecked
  exact ⟨s, s', hrun, hstep, returns, (ready_tunnels_forward hrun hstep).1 0 returns⟩

/-- The call comes back half a second after the spawn, and ssh still connects. -/
theorem connecting_tunnel_is_ready :
    ∃ s s', (tunneled Lifecycle.exampleTiming exampleTunnel).Reachable
        (.new 1 1 .default 0 ⟨0⟩) s ∧
      (tunneled Lifecycle.exampleTiming exampleTunnel).step s (.answered 0 (.client 0)) = some s' ∧
      ReturnsReady s.tunnel s'.tunnel 0 ∧ openings s.manager.core < openings s'.manager.core ∧
      s'.tunnel.children.map (·.phase) = [.connecting] ∧ s'.tunnel.forwards = false := by
  have found : ∃ s, (tunneled Lifecycle.exampleTiming exampleTunnel).Reachable
      (.new 1 1 .default 0 ⟨0⟩) s ∧
      ((tunneled Lifecycle.exampleTiming exampleTunnel).step s (.answered 0 (.client 0))).any
        (fun s' => decide (ReturnsReady s.tunnel s'.tunnel 0 ∧
          openings s.manager.core < openings s'.manager.core ∧
          s'.tunnel.children.map (·.phase) = [.connecting] ∧
          s'.tunnel.forwards = false)) = true :=
    System.reachable_of_check (leadToTunnel ++ [.tunnel (.call 0 (.tryWait .running))]) (by decide)
  obtain ⟨s, hrun, hchecked⟩ := found
  obtain ⟨s', hstep, bad⟩ := System.step_of_check hchecked
  exact ⟨s, s', hrun, hstep, bad⟩

end LlmWakeProxy.Host
