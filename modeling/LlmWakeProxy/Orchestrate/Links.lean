import LlmWakeProxy.Library.Population
import LlmWakeProxy.Orchestrate.Proxy
import LlmWakeProxy.Orchestrate.Stages

/-!
The clients of the lifecycles and the calls of the orchestrator they belong to. A
client is inside a call of its manager only while its call of the orchestrator
awaits that manager. What the two have to do with each other is kept by every
step, if it holds when the manager is called and the client's own steps keep it.
-/

namespace LlmWakeProxy.Orchestrate
open LlmWakeProxy.Library LlmWakeProxy.Forward
open LlmWakeProxy.Lifecycle (LifecycleTiming BackendStatus Timestamp ClientPc ClientRule Core Manager)

universe u
variable {ν : Type u} {serde : SerdeJson ν} {config : AppConfig} {timing : LifecycleTiming}
variable {s s' : Proxy}

def clientBusy : ClientPc → Bool
  | .idle | .returned _ | .dropped | .panicked => false
  | _ => true

theorem clientRule_busy {core core' : Core} {pc pc' : ClientPc}
    (rule : ClientRule timing core pc core' pc') : clientBusy pc = true := by
  cases rule <;> rfl

def Input.endsAwait : Input → Bool
  | .decide _ | .degraded | .unwind _ => true
  | _ => false

theorem ExecRule.endsAwait {o o' : Orchestrator} {i : Nat} {exec : Exec} {input : Input}
    (rule : ExecRule serde config o i exec input o') (awaits : exec.pc.awaitsLifecycle = true) :
    input.endsAwait = true := by
  cases rule with
  | decided _ _ | retryDecided _ _ | degraded _ _ | unwoundAwaiting _ _
  | unwoundScheduled _ _ _ _ => rfl
  | enter _ _ pc | cold _ pc _ | notCold _ pc _ | admitted _ pc _ | refused pc _ | callEnsure pc
  | callDegrade _ pc | callMark pc | embeddingsDegraded _ pc _ _ | handled _ pc _ | execute _ pc _
  | scheduled _ _ pc _ _ _ | executed _ _ _ pc _ _ _ | operate _ _ _ _ _ pc _ _ _ _
  | complete _ _ _ _ _ pc _ _ _ _ | retryPending _ _ _ pc _ | retryDone _ _ _ pc _ | returned _ pc
  | relayed pc | unwinding _ _ pc _ _ _ | unwoundCall _ _ pc _ _ _ | dropped pc =>
      rw [pc] at awaits
      cases awaits

/-- The manager's part in a step of call `i`: its client begins a call, is
dropped, has come out of its call, or is not concerned. -/
inductive AnswerRule (manager : Manager) (i : Nat) (exec : Exec) : Input → Manager → Prop
  | begun (op : Lifecycle.Op) (call : exec.lifecycleCall = some op) (pc : ClientPc)
      (here : manager.clients[i]? = some pc) :
      AnswerRule manager i exec .call { manager with clients := manager.clients.set i op.entry }
  | dropped (pc : ClientPc) (here : manager.clients[i]? = some pc) :
      AnswerRule manager i exec (.unwind false)
        { manager with clients := manager.clients.set i .dropped }
  | settled (input : Input) (pc : ClientPc) (here : manager.clients[i]? = some pc)
      (settled : clientBusy pc = false) : AnswerRule manager i exec input manager
  | aside (input : Input)
      (aside : input.endsAwait = true → exec.pc.awaitsLifecycle = false) :
      AnswerRule manager i exec input manager

theorem answer_cases {manager manager' : Manager} {i : Nat} {exec : Exec} {input : Input}
    (h : Proxy.answer timing manager i exec input = some manager') :
    AnswerRule manager i exec input manager' := by
  cases input with
  | call =>
      obtain ⟨op, hop, hstep⟩ := Option.bind_eq_some_iff.mp h
      have rule : Lifecycle.ManagerRule timing manager (.begin i op) manager' :=
        Lifecycle.step_cases hstep
      cases rule with
      | begin _ _ pc here _ => exact .begun op hop pc here
  | decide decision =>
      simp only [Proxy.answer] at h
      split at h
      next hreturned =>
        cases h
        exact .settled _ _ hreturned rfl
      next => cases h
  | degraded =>
      simp only [Proxy.answer] at h
      split at h
      next hidle =>
        cases h
        exact .settled _ _ hidle rfl
      next => cases h
  | unwind panicked =>
      simp only [Proxy.answer] at h
      split at h
      next hawaits =>
        cases panicked with
        | true =>
            simp only [if_true] at h
            split at h
            next hpanicked =>
              cases h
              exact .settled _ _ hpanicked rfl
            next => cases h
        | false =>
            have rule : Lifecycle.ManagerRule timing manager (.drop i) manager' :=
              Lifecycle.step_cases h
            cases rule with
            | drop _ pc here _ => exact .dropped pc here
      next hapart =>
        cases h
        exact .aside _ fun _ => Bool.eq_false_iff.mpr hapart
  | status status =>
      simp only [Proxy.answer] at h
      split at h
      next =>
        cases h
        exact .aside _ fun hends => by cases hends
      next => cases h
  | enter _ _ | run | forward _ | relayed =>
      cases h
      exact .aside _ fun hends => by cases hends

/-- Beginning a call, the orchestrator comes to await the backend it calls. -/
theorem ExecRule.begun {o o' : Orchestrator} {i : Nat} {exec : Exec}
    (rule : ExecRule serde config o i exec .call o') :
    ∃ pc, o'.execs = o.execs.set i (exec.goto pc) ∧ pc.awaitsLifecycle = true ∧
      config.backendOf (exec.goto pc) = config.backendOf exec ∧
      ∀ reason, pc = .awaitDegraded reason → exec.pc = .degrade reason := by
  cases rule with
  | callEnsure pc =>
      exact ⟨_, rfl, rfl, by simp only [AppConfig.backendOf, pc]; rfl, fun _ hpc => by cases hpc⟩
  | callDegrade reason pc =>
      refine ⟨_, rfl, rfl, by simp only [AppConfig.backendOf, pc]; rfl, ?_⟩
      rintro _ ⟨rfl⟩
      exact pc
  | callMark pc =>
      exact ⟨_, rfl, rfl, by simp only [AppConfig.backendOf, pc]; rfl, fun _ hpc => by cases hpc⟩

/-- A client inside a call belongs to a call of the orchestrator that awaits it,
and the two are as `P` says. -/
def LinkedWith (config : AppConfig) (P : ClientPc → Exec → Prop) (s : Proxy) : Prop :=
  ∀ (backend : Backend) (i : Nat) (pc : ClientPc),
    (s.lifecycles backend).clients[i]? = some pc → clientBusy pc = true →
      ∃ exec, s.orchestrator.execs[i]? = some exec ∧ exec.pc.awaitsLifecycle = true ∧
        config.backendOf exec = backend ∧ P pc exec

variable {P : ClientPc → Exec → Prop}

theorem linkedWith_new (execs : Nat) (initial : Backend → BackendStatus) (instant : Nat)
    (clock : Timestamp) : LinkedWith config P (.new config execs initial instant clock) := by
  intro backend i pc hclient hbusy
  obtain rfl := (List.mem_replicate.mp (List.mem_of_getElem? hclient)).2
  cases hbusy

theorem linkedWith_exec {i : Nat} {exec : Exec} {input : Input} {manager : Manager}
    {o : Orchestrator} (h : LinkedWith config P s) (here : s.orchestrator.execs[i]? = some exec)
    (answer : AnswerRule (s.lifecycles (config.backendOf exec)) i exec input manager)
    (rule : ExecRule serde config s.orchestrator i exec input o)
    (begun : ∀ op pc, exec.lifecycleCall = some op →
      (∀ reason, pc = .awaitDegraded reason → exec.pc = .degrade reason) →
      P op.entry (exec.goto pc)) :
    LinkedWith config P
      { orchestrator := o
        lifecycles := Function.update s.lifecycles (config.backendOf exec) manager } := by
  intro backend j pc hclient hbusy
  have old : (s.lifecycles backend).clients[j]? = some pc → j ≠ i →
      ∃ exec', o.execs[j]? = some exec' ∧
      exec'.pc.awaitsLifecycle = true ∧ config.backendOf exec' = backend ∧ P pc exec' := by
    intro hold hne
    rw [((rule.stageStep here).others j hne).1]
    exact h backend j pc hold hbusy
  by_cases hbackend : backend = config.backendOf exec
  · subst hbackend
    simp only [Function.update_self] at hclient
    cases answer with
    | begun op call before hbefore =>
        cases getElem?_set_cases hbefore hclient with
        | inl hnew =>
            obtain ⟨rfl, rfl⟩ := hnew
            obtain ⟨pc', hexecs, hawaits, hsame, hdegrades⟩ := rule.begun
            refine ⟨exec.goto pc', ?_, hawaits, hsame, begun op pc' call hdegrades⟩
            rw [hexecs, getElem?_set_of_some here]
        | inr hold => exact old hold.2 hold.1
    | dropped before hbefore =>
        cases getElem?_set_cases hbefore hclient with
        | inl hnew =>
            obtain ⟨rfl, rfl⟩ := hnew
            cases hbusy
        | inr hold => exact old hold.2 hold.1
    | settled _ after hafter hsettled =>
        refine old hclient fun hji => ?_
        subst hji
        rw [hclient] at hafter
        cases hafter
        rw [hbusy] at hsettled
        cases hsettled
    | aside _ haside =>
        refine old hclient fun hji => ?_
        subst hji
        obtain ⟨exec', here', hawaits, _⟩ := h _ _ pc hclient hbusy
        rw [here] at here'
        cases here'
        rw [haside (rule.endsAwait hawaits)] at hawaits
        cases hawaits
  · simp only [Function.update_of_ne hbackend] at hclient
    refine old hclient fun hji => ?_
    subst hji
    obtain ⟨exec', here', _, hother, _⟩ := h _ _ pc hclient hbusy
    rw [here] at here'
    cases here'
    exact hbackend hother.symm

theorem linkedWith_lifecycle {backend : Backend} {action : Lifecycle.Action} {manager : Manager}
    (h : LinkedWith config P s) (own : Proxy.internal action = true)
    (rule : Lifecycle.ManagerRule timing (s.lifecycles backend) action manager)
    (moved : ∀ i input pc pc' core' exec, action = .client i input →
      (s.lifecycles backend).clients[i]? = some pc → s.orchestrator.execs[i]? = some exec →
      ClientRule timing (s.lifecycles backend).core pc core' pc' → clientBusy pc' = true →
      P pc exec → P pc' exec) :
    LinkedWith config P { s with lifecycles := Function.update s.lifecycles backend manager } := by
  intro backend' j pc hclient hbusy
  by_cases hbackend : backend' = backend
  · subst hbackend
    simp only [Function.update_self] at hclient
    cases rule with
    | begin _ _ _ _ _ | drop _ _ _ _ => cases own
    | elapse _ _ => exact h backend' j pc hclient hbusy
    | task _ _ _ _ _ _ _ => exact h backend' j pc hclient hbusy
    | client i input before after core' hbefore rule =>
        cases getElem?_set_cases hbefore hclient with
        | inr hold => exact h backend' j pc hold.2 hbusy
        | inl hnew =>
            obtain ⟨rfl, rfl⟩ := hnew
            obtain ⟨exec, here, hawaits, hsame, held⟩ :=
              h backend' j before hbefore (clientRule_busy rule)
            exact ⟨exec, here, hawaits, hsame,
              moved j input before pc core' exec rfl hbefore here rule hbusy held⟩
  · simp only [Function.update_of_ne hbackend] at hclient
    exact h backend' j pc hclient hbusy

theorem linkedWith_step {a : Proxy.Action} (h : LinkedWith config P s)
    (hstep : (proxy serde config timing).step s a = some s')
    (begun : ∀ (exec : Exec) op pc, exec.lifecycleCall = some op →
      (∀ reason, pc = .awaitDegraded reason → exec.pc = .degrade reason) →
      P op.entry (exec.goto pc))
    (moved : ∀ backend i input pc pc' core' exec, a = .lifecycle backend (.client i input) →
      (s.lifecycles backend).clients[i]? = some pc → s.orchestrator.execs[i]? = some exec →
      ClientRule timing (s.lifecycles backend).core pc core' pc' → clientBusy pc' = true →
      P pc exec → P pc' exec) : LinkedWith config P s' := by
  cases proxy_cases hstep with
  | exec i input exec _ _ here answered stepped =>
      exact linkedWith_exec h here (answer_cases answered) (execStep_cases stepped) (begun exec)
  | lifecycle backend action _ own rule =>
      refine linkedWith_lifecycle h own rule ?_
      rintro i input pc pc' core' exec rfl
      exact moved backend i input pc pc' core' exec rfl
  | elapse span clock _ stepped clients =>
      intro backend j pc hclient hbusy
      rw [clients backend] at hclient
      simp only [Orchestrator.step] at stepped
      obtain ⟨_, _, hs'⟩ := Option.map_eq_some_iff.mp stepped
      rw [← hs']
      exact h backend j pc hclient hbusy

end LlmWakeProxy.Orchestrate
