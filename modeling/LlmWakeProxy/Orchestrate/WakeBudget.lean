import LlmWakeProxy.Orchestrate.WakeCount

/-!
How many wakes a proxy can send. Only a call of `ensure_backend` begins a round, and at
most one; a call of `execute` makes at most two of them, and a round sends at most one
wake. What a call has been charged therefore pays for every wake it can cause, whoever
waits, panics or goes away.
-/

namespace LlmWakeProxy.Lifecycle
open LlmWakeProxy.Library

variable {timing : LifecycleTiming} {core core' : Core} {s s' : Manager}

def ClientPc.mayBegin : ClientPc → Bool
  | .markBorrow (some _) | .markPublish (some _) _ | .ensure _ | .checkActive _ _
  | .startOrJoin _ _ => true
  | _ => false

/-- A round is begun by a client that may begin one, and then may not. -/
theorem ClientRule.rounds {pc pc' : ClientPc} (rule : ClientRule timing core pc core' pc') :
    core'.rounds + pc'.mayBegin.toNat ≤ core.rounds + pc.mayBegin.toNat := by
  cases rule with
  | markBorrow next => cases next <;> exact Nat.le_refl _
  | markPublish next d =>
      cases next <;> simp [Core.rounds, Event.isRound, afterMark, ClientPc.mayBegin]
  | start caller initial idle =>
      simp [Core.rounds, List.countP_cons, Event.isRound, ClientPc.mayBegin]
  | leadPending _ _ _ _ _ _ observe | leadReady _ _ _ _ _ _ observe
  | leadFailed _ _ _ _ _ _ _ observe =>
      rw [observe.wakes.1]
      exact Nat.le_refl _
  | handOver _ _ _ _ core₁ _ observe =>
      have hspawn : core₁.spawnBootstrap.rounds = core₁.rounds := by
        simp [Core.rounds, Event.isRound]
      rw [hspawn, observe.wakes.1]
      exact Nat.le_refl _
  | _ => simp [Core.rounds, Event.isRound, ClientPc.mayBegin]

/-- The rounds of the manager, with those that its clients may still begin. -/
def Manager.charged (s : Manager) : Nat := s.core.rounds + s.clients.countP ClientPc.mayBegin

def Op.charge (op : Op) : Nat := op.entry.mayBegin.toNat

def Action.charge : Action → Nat
  | .begin _ op => op.charge
  | _ => 0

theorem charged_set {i : Nat} {pc pc' : ClientPc} (here : s.clients[i]? = some pc) :
    ({ s with clients := s.clients.set i pc' } : Manager).charged ≤
      s.charged + pc'.mayBegin.toNat := by
  have balance := countP_set_balance ClientPc.mayBegin (b := pc') here
  simp only [Manager.charged]
  omega

theorem charged_step {a : Action} (rule : ManagerRule timing s a s') :
    s'.charged ≤ s.charged + a.charge := by
  cases rule with
  | begin i op pc here free => exact charged_set here
  | client i input pc pc' core' here rule =>
      have balance := countP_set_balance ClientPc.mayBegin (b := pc') here
      have rounds := rule.rounds
      simp only [Manager.charged]
      omega
  | drop i pc here suspended => exact charged_set here
  | task i input pc pc' core' here rule =>
      exact Nat.le_of_eq (congrArg (· + s.clients.countP ClientPc.mayBegin) rule.wakes.2)
  | elapse span clock => exact Nat.le_refl _

end LlmWakeProxy.Lifecycle

namespace LlmWakeProxy.Orchestrate
open LlmWakeProxy.Library LlmWakeProxy.Forward
open LlmWakeProxy.Lifecycle (LifecycleTiming BackendStatus Timestamp ClientPc Manager lifecycle)

universe u
variable {ν : Type u} {serde : SerdeJson ν} {config : AppConfig} {timing : LifecycleTiming}
variable {s s' : Proxy}

/-! ### The managers of a proxy -/

theorem answer_reachable {manager manager' : Manager} {i : Nat} {exec : Exec} {input : Input}
    (h : Proxy.answer timing manager i exec input = some manager') :
    (lifecycle timing).Reachable manager manager' := by
  cases input with
  | call =>
      obtain ⟨op, _, hstep⟩ := Option.bind_eq_some_iff.mp h
      exact .step (a := .begin i op) .refl hstep
  | unwind panicked =>
      simp only [Proxy.answer] at h
      split at h
      next =>
        split at h
        next =>
          split at h
          next =>
            cases h
            exact .refl
          next => cases h
        next => exact .step (a := .drop i) .refl h
      next =>
        cases h
        exact .refl
  | decide _ | degraded | status _ =>
      simp only [Proxy.answer] at h
      split at h
      next =>
        cases h
        exact .refl
      next => cases h
  | enter _ _ | run | forward _ | relayed =>
      cases h
      exact .refl

theorem manager_step {a : Proxy.Action} (h : (proxy serde config timing).step s a = some s')
    (backend : Backend) :
    (lifecycle timing).Reachable (s.lifecycles backend) (s'.lifecycles backend) := by
  have updated : ∀ (other : Backend) (manager : Manager),
      (lifecycle timing).Reachable (s.lifecycles other) manager →
      (lifecycle timing).Reachable (s.lifecycles backend)
        (Function.update s.lifecycles other manager backend) := by
    intro other manager moved
    by_cases same : backend = other
    · subst same
      rwa [Function.update_self]
    · rw [Function.update_of_ne same]
      exact .refl
  cases a with
  | exec i input =>
      obtain ⟨exec, _, hexec⟩ := Option.bind_eq_some_iff.mp h
      obtain ⟨manager, answered, hmanager⟩ := Option.bind_eq_some_iff.mp hexec
      obtain ⟨orchestrator, _, hs'⟩ := Option.bind_eq_some_iff.mp hmanager
      cases hs'
      exact updated _ manager (answer_reachable answered)
  | lifecycle other action =>
      simp only [proxy, Proxy.step] at h
      split at h
      next =>
        obtain ⟨manager, stepped, rfl⟩ := Option.map_eq_some_iff.mp h
        exact updated other manager (.step .refl stepped)
      next => cases h
  | elapse span clock =>
      cases h
      refine .step (a := .elapse span clock) .refl ?_
      cases backend <;> rfl

section Reachable

variable {execs instant : Nat} {initial : Backend → BackendStatus} {clock : Timestamp}

/-- What is proved of a manager on its own holds of it within the proxy. -/
theorem manager_reachable
    (h : (proxy serde config timing).Reachable (.new config execs initial instant clock) s)
    (backend : Backend) :
    (lifecycle timing).Reachable (.new execs (initial backend) instant clock)
      (s.lifecycles backend) :=
  h.project (f := fun t => t.lifecycles backend) fun _ _ _ hstep => manager_step hstep backend

end Reachable

/-! ### What a call is charged -/

/-- The calls of `ensure_backend` that a call may have made. -/
def ExecPc.asked : ExecPc → Nat
  | .idle | .isCold | .coldPermit | .ensureBackend => 0
  | .awaitDecision | .handleReady _ | .execute | .scheduled | .degrade _ | .awaitDegraded _
  | .markWarming => 1
  | .awaitRetryDecision | .retrying _ | .returning _ | .relaying | .responded | .unwinding
  | .unwound | .dropped => 2

theorem ExecPc.asked_le_two (pc : ExecPc) : pc.asked ≤ 2 := by
  cases pc <;> exact Nat.le_of_ble_eq_true rfl

def Exec.charge (exec : Exec) : Input → Nat
  | .call => exec.lifecycleCall.elim 0 Lifecycle.Op.charge
  | _ => 0

theorem AnswerRule.charged {manager manager' : Manager} {i : Nat} {exec : Exec} {input : Input}
    (rule : AnswerRule manager i exec input manager') :
    manager'.charged ≤ manager.charged + exec.charge input := by
  cases rule with
  | begun op call pc here =>
      simp only [Exec.charge, call, Option.elim_some]
      exact Lifecycle.charged_set here
  | dropped pc here => exact Lifecycle.charged_set here
  | settled _ _ _ _ | aside _ _ => exact Nat.le_add_right _ _

def AskStep (s s' : Orchestrator) (i : Nat) (exec : Exec) (input : Input) : Prop :=
  ∃ exec', s'.execs = s.execs.set i exec' ∧ exec.pc.asked + exec.charge input ≤ exec'.pc.asked

section Step

variable {o o' : Orchestrator} {i : Nat} {exec exec' : Exec} {input : Input}

theorem AskStep.put {t : Orchestrator} (execs : t.execs = o.execs)
    (asked : exec.pc.asked + exec.charge input ≤ exec'.pc.asked) :
    AskStep o (t.put i exec') i exec input :=
  ⟨exec', by rw [Orchestrator.put_execs, execs], asked⟩

theorem AskStep.same (here : o.execs[i]? = some exec) (execs : o'.execs = o.execs)
    (free : exec.charge input = 0) : AskStep o o' i exec input :=
  ⟨exec, by rw [execs, set_of_some here], Nat.le_of_eq (by rw [free, Nat.add_zero])⟩

/-- A call that asks for its backend is charged for it. -/
theorem ExecRule.askStep (rule : ExecRule serde config o i exec input o')
    (here : o.execs[i]? = some exec) : AskStep o o' i exec input := by
  cases rule with
  | enter _ _ pc | cold _ pc _ | notCold _ pc _ | admitted _ pc _ | refused pc _ | degraded _ pc
  | retryDone _ _ _ pc _ | relayed pc | dropped pc =>
      exact .put rfl (by rw [pc]; exact Nat.le_of_ble_eq_true rfl)
  | callEnsure pc | callDegrade _ pc | callMark pc =>
      refine .put rfl ?_
      simp only [Exec.charge, Exec.lifecycleCall, pc]
      exact Nat.le_of_ble_eq_true rfl
  | decided decision pc =>
      obtain ⟨inc, after, hs', ⟨_, _, rfl⟩ | ⟨_, rfl, _⟩⟩ := o.afterDecision_eq i exec decision
      · exact ⟨_, by rw [hs']; rfl, by rw [pc]; exact Nat.le_refl _⟩
      · exact ⟨_, by rw [hs']; rfl, by rw [pc]; exact Nat.le_of_ble_eq_true rfl⟩
  | retryDecided decision pc =>
      obtain ⟨after, hs', ⟨_, _, rfl⟩ | ⟨_, rfl, _⟩⟩ := o.afterRetryDecision_eq i exec decision
      · exact ⟨_, by rw [hs']; rfl, by rw [pc]; exact Nat.le_refl _⟩
      · exact ⟨_, by rw [hs']; rfl, by rw [pc]; exact Nat.le_refl _⟩
  | embeddingsDegraded _ pc _ _ | handled _ pc _ | retryPending _ _ _ pc _ =>
      exact .put (by simp) (by rw [pc]; exact Nat.le_of_ble_eq_true rfl)
  | execute t pc drive | unwoundScheduled t _ pc drive | unwoundCall t _ pc drive _ _ =>
      exact .put (Orchestrator.drive_frame drive).1 (by rw [pc]; exact Nat.le_of_ble_eq_true rfl)
  | scheduled _ _ pc drive _ _ | unwinding _ _ pc drive _ _ | complete _ _ _ _ _ pc _ _ _ drive =>
      exact .same here (Orchestrator.drive_frame drive).1 rfl
  | operate _ _ _ _ _ pc _ _ _ drive =>
      refine .same here ?_ rfl
      rw [(Orchestrator.drive_frame drive).1, Orchestrator.noteDelivery_execs]
  | executed t _ outcome pc drive _ _ =>
      obtain ⟨inc, after, hs', onward⟩ := t.afterExecute_eq i exec outcome
      refine ⟨exec.goto after, ?_, ?_⟩
      · rw [hs', Orchestrator.put_execs, Orchestrator.count_execs,
          (Orchestrator.drive_frame drive).1]
      · rw [pc]
        obtain ⟨_, rfl⟩ | rfl | ⟨_, rfl, _⟩ := onward
        · exact Nat.le_refl _
        · exact Nat.le_refl _
        · exact Nat.le_of_ble_eq_true rfl
  | returned response pc =>
      refine .put rfl ?_
      rw [pc]
      cases response.streams with
      | true | false => exact Nat.le_refl _
  | unwoundAwaiting _ pc => exact .put rfl exec.pc.asked_le_two

end Step

/-! ### Every run -/

/-- The rounds of both backends, with those that their clients may still begin. -/
def Proxy.charged (s : Proxy) : Nat :=
  (s.lifecycles .chat).charged + (s.lifecycles .embeddings).charged

def Proxy.rounds (s : Proxy) : Nat :=
  (s.lifecycles .chat).core.rounds + (s.lifecycles .embeddings).core.rounds

def Orchestrator.asked (o : Orchestrator) : Nat := totalWeight (fun exec => exec.pc.asked) o.execs

theorem charged_update (o : Orchestrator) {charge : Nat} {backend : Backend} {manager : Manager}
    (h : manager.charged ≤ (s.lifecycles backend).charged + charge) :
    Proxy.charged { orchestrator := o
                    lifecycles := Function.update s.lifecycles backend manager } ≤
      s.charged + charge := by
  have balance := total_update Manager.charged s.lifecycles backend manager
  simp only [Proxy.charged]
  omega

/-- Every round is paid for by a call that asked for it. -/
theorem paid_step {a : Proxy.Action} (paid : s.charged ≤ s.orchestrator.asked)
    (h : (proxy serde config timing).step s a = some s') : s'.charged ≤ s'.orchestrator.asked := by
  have rule : ProxyRule serde config timing s a s' := proxy_cases h
  cases rule with
  | exec i input exec manager o here answered stepped =>
      obtain ⟨exec', hexecs, asks⟩ := (execStep_cases stepped).askStep here
      have charged := charged_update o (answer_cases answered).charged
      have balance := totalWeight_set_balance (fun exec : Exec => exec.pc.asked) (b := exec') here
      simp only [Orchestrator.asked] at paid
      simp only [Orchestrator.asked, hexecs]
      omega
  | lifecycle backend action manager own rule =>
      have free : action.charge = 0 := by
        cases action <;> first | rfl | cases own
      have charged := charged_update s.orchestrator (Lifecycle.charged_step rule)
      rw [free] at charged
      exact charged.trans paid
  | elapse span clock _ _ _ =>
      cases h
      exact paid

section Reachable

variable {execs instant : Nat} {initial : Backend → BackendStatus} {clock : Timestamp}

theorem rounds_le_asked
    (h : (proxy serde config timing).Reachable (.new config execs initial instant clock) s) :
    s.rounds ≤ s.orchestrator.asked := by
  have paid : s.charged ≤ s.orchestrator.asked := by
    refine h.invariant (I := fun t => t.charged ≤ t.orchestrator.asked) ?_
      fun _ _ _ paid hstep => paid_step paid hstep
    simp [Proxy.charged, Manager.charged, Proxy.new, Manager.new, Lifecycle.Core.rounds,
      List.countP_replicate, ClientPc.mayBegin]
  simp only [Proxy.charged, Manager.charged] at paid
  simp only [Proxy.rounds]
  omega

theorem wakes_le_rounds
    (h : (proxy serde config timing).Reachable (.new config execs initial instant clock) s) :
    s.wakes ≤ s.rounds :=
  Nat.add_le_add (Lifecycle.wakes_le_rounds (manager_reachable h .chat))
    (Lifecycle.wakes_le_rounds (manager_reachable h .embeddings))

end Reachable
end LlmWakeProxy.Orchestrate
