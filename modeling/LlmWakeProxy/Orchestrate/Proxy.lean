import LlmWakeProxy.Lifecycle.Rules
import LlmWakeProxy.Orchestrate.Rules

/-!
The orchestrator over its real lifecycles: the synchronised product of
`Orchestrator::execute` calls with the lifecycle managers of `AppState`. Call `i`
of the orchestrator is client `i` of the manager it turns to. The embeddings
backend has a manager of its own when it is configured; otherwise both kinds of
requests share the chat manager, and the other one is never used.

A call and its client step together where one calls, drops or is answered by the
other; everything else interleaves freely.
-/

namespace LlmWakeProxy.Orchestrate
open LlmWakeProxy.Library LlmWakeProxy.Forward
open LlmWakeProxy.Lifecycle (LifecycleRequest LifecycleTiming BackendStatus Timestamp Instant
  Duration Manager Op ClientPc)

universe u
variable {ν : Type u}

inductive Backend where
  | chat
  | embeddings
  deriving DecidableEq, Repr

def AppConfig.lifecycleFor (config : AppConfig) : LifecycleRequest → Backend
  | .chat => .chat
  | .embeddings => if config.embeddingsBackend.isSome then .embeddings else .chat

/-- The backend a call turns to where it stands; `embedding_degradation_response`
goes to the embeddings lifecycle whatever the kind. -/
def AppConfig.backendOf (config : AppConfig) (exec : Exec) : Backend :=
  match exec.pc with
  | .degrade _ | .awaitDegraded _ => config.lifecycleFor .embeddings
  | _ => config.lifecycleFor exec.kind

/-- The lifecycle's method that is called next. -/
def Exec.lifecycleCall (exec : Exec) : Option Op :=
  match exec.pc with
  | .ensureBackend => some (.ensureBackend exec.kind)
  | .markWarming => some (.markThenEnsure exec.kind)
  | .degrade reason => some (.degradeEmbeddings reason)
  | _ => none

structure Proxy where
  orchestrator : Orchestrator
  lifecycles : Backend → Manager

namespace Proxy

inductive Action where
  | exec (exec : Nat) (input : Input)
  | lifecycle (backend : Backend) (action : Lifecycle.Action)
  | elapse (span : Duration) (clock : Timestamp)

def new (config : AppConfig) (execs : Nat) (initial : Backend → BackendStatus) (instant : Instant)
    (clock : Timestamp) : Proxy where
  orchestrator := .new config execs instant
  lifecycles backend := .new execs (initial backend) instant clock

/-- The manager's part in a step of call `i`. -/
def answer (timing : LifecycleTiming) (manager : Manager) (i : Nat) (exec : Exec) :
    Input → Option Manager
  | .status status => if status = manager.core.status.value then some manager else none
  | .call => exec.lifecycleCall.bind fun op => manager.step timing (.begin i op)
  | .decide decision =>
      if manager.clients[i]? = some (.returned decision) then some manager else none
  | .degraded => if manager.clients[i]? = some .idle then some manager else none
  | .unwind panicked =>
      if exec.pc.awaitsLifecycle then
        if panicked then
          if manager.clients[i]? = some .panicked then some manager else none
        else
          manager.step timing (.drop i)
      else
        some manager
  | _ => some manager

def internal : Lifecycle.Action → Bool
  | .client .. | .task .. => true
  | _ => false

def step (serde : SerdeJson ν) (config : AppConfig) (timing : LifecycleTiming) (s : Proxy) :
    Action → Option Proxy
  | .exec i input => do
      let exec ← s.orchestrator.execs[i]?
      let backend := config.backendOf exec
      let manager ← answer timing (s.lifecycles backend) i exec input
      let orchestrator ← s.orchestrator.execStep serde config i exec input
      some { orchestrator := orchestrator
             lifecycles := Function.update s.lifecycles backend manager }
  | .lifecycle backend action =>
      if internal action then
        ((s.lifecycles backend).step timing action).map fun manager =>
          { s with lifecycles := Function.update s.lifecycles backend manager }
      else
        none
  | .elapse span clock => do
      let orchestrator ← s.orchestrator.step serde config (.elapse span)
      let chat ← (s.lifecycles .chat).step timing (.elapse span clock)
      let embeddings ← (s.lifecycles .embeddings).step timing (.elapse span clock)
      some { orchestrator := orchestrator
             lifecycles := fun
               | .chat => chat
               | .embeddings => embeddings }

end Proxy

def proxy (serde : SerdeJson ν) (config : AppConfig) (timing : LifecycleTiming) :
    System Proxy Proxy.Action where
  step := Proxy.step serde config timing

variable {serde : SerdeJson ν} {config : AppConfig} {timing : LifecycleTiming}
variable {s s' : Proxy}

inductive ProxyRule (serde : SerdeJson ν) (config : AppConfig) (timing : LifecycleTiming)
    (s : Proxy) : Proxy.Action → Proxy → Prop
  | exec (i : Nat) (input : Input) (exec : Exec) (manager : Manager) (orchestrator : Orchestrator)
      (here : s.orchestrator.execs[i]? = some exec)
      (answered : Proxy.answer timing (s.lifecycles (config.backendOf exec)) i exec input =
        some manager)
      (stepped : s.orchestrator.execStep serde config i exec input = some orchestrator) :
      ProxyRule serde config timing s (.exec i input)
        { orchestrator := orchestrator
          lifecycles := Function.update s.lifecycles (config.backendOf exec) manager }
  | lifecycle (backend : Backend) (action : Lifecycle.Action) (manager : Manager)
      (own : Proxy.internal action = true)
      (rule : Lifecycle.ManagerRule timing (s.lifecycles backend) action manager) :
      ProxyRule serde config timing s (.lifecycle backend action)
        { s with lifecycles := Function.update s.lifecycles backend manager }
  | elapse (span : Duration) (clock : Timestamp) (t : Proxy)
      (stepped : s.orchestrator.step serde config (.elapse span) = some t.orchestrator)
      (clients : ∀ backend, (t.lifecycles backend).clients = (s.lifecycles backend).clients) :
      ProxyRule serde config timing s (.elapse span clock) t

theorem proxy_cases {a : Proxy.Action} (h : (proxy serde config timing).step s a = some s') :
    ProxyRule serde config timing s a s' := by
  cases a with
  | exec i input =>
      obtain ⟨exec, here, hexec⟩ := Option.bind_eq_some_iff.mp h
      obtain ⟨manager, hanswer, hmanager⟩ := Option.bind_eq_some_iff.mp hexec
      obtain ⟨orchestrator, hstep, hs'⟩ := Option.bind_eq_some_iff.mp hmanager
      cases hs'
      exact .exec i input exec manager orchestrator here hanswer hstep
  | lifecycle backend action =>
      simp only [proxy, Proxy.step] at h
      split at h
      next own =>
        obtain ⟨manager, hstep, rfl⟩ := Option.map_eq_some_iff.mp h
        exact .lifecycle backend action manager own (Lifecycle.step_cases hstep)
      next => cases h
  | elapse span clock =>
      simp only [proxy, Proxy.step] at h
      obtain ⟨orchestrator, hstep, hrest⟩ := Option.bind_eq_some_iff.mp h
      cases hrest
      refine .elapse span clock _ hstep ?_
      intro backend
      cases backend <;> rfl

/-- To the orchestrator a step of the proxy is one of its own, or none. -/
theorem orchestrator_step {a : Proxy.Action} (h : (proxy serde config timing).step s a = some s') :
    (orchestrator serde config).Reachable s.orchestrator s'.orchestrator := by
  cases proxy_cases h with
  | exec i input exec _ _ here _ stepped =>
      exact .step (a := .exec i input) .refl (Option.bind_eq_some_iff.mpr ⟨exec, here, stepped⟩)
  | lifecycle _ _ _ _ _ => exact .refl
  | elapse span _ _ stepped _ => exact .step (a := .elapse span) .refl stepped

theorem orchestrator_reachable {execs : Nat} {initial : Backend → BackendStatus} {instant : Nat}
    {clock : Timestamp}
    (h : (proxy serde config timing).Reachable (.new config execs initial instant clock) s) :
    (orchestrator serde config).Reachable (.new config execs instant) s.orchestrator :=
  h.project (f := Proxy.orchestrator) fun _ _ _ hstep => orchestrator_step hstep

end LlmWakeProxy.Orchestrate
