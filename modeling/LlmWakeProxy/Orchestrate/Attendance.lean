import LlmWakeProxy.Orchestrate.Links

/-!
A call of the orchestrator and its clients. Where the call awaits a lifecycle, its
client there is inside the method that was called or has come out of it with what the
call awaits; everywhere else its clients are free, so that the next method can be
called.
-/

namespace LlmWakeProxy.Orchestrate
open LlmWakeProxy.Library LlmWakeProxy.Forward
open LlmWakeProxy.Lifecycle (LifecycleTiming LifecycleDecision BackendStatus Timestamp ClientPc
  ClientRule Core Manager)

universe u
variable {ν : Type u} {serde : SerdeJson ν} {config : AppConfig} {timing : LifecycleTiming}
variable {s s' : Proxy}

def isDeciding : ClientPc → Bool
  | .ensure _ | .checkActive .. | .startOrJoin .. | .leadRequest .. | .lead .. | .leadReread _
  | .leadFinish .. | .waitEnter _ | .waitBorrow .. | .waitLock .. | .waitChanged ..
  | .waitTimedOut _ | .returned _ | .panicked => true
  | _ => false

/-- The client is in the `mark_warming` that precedes its `ensure_backend`. -/
def isMarking : ClientPc → Bool
  | .markBorrow (some _) | .markPublish (some _) _ => true
  | _ => false

def isDegrading : ClientPc → Bool
  | .degradeBorrow _ | .degradePublish _ | .idle => true
  | _ => false

def awaited : ExecPc → ClientPc → Bool
  | .awaitDecision, client => isDeciding client
  | .awaitRetryDecision, client => isDeciding client || isMarking client
  | .awaitDegraded _, client => isDegrading client
  | _, _ => false

def ExecPc.gone : ExecPc → Bool
  | .unwound | .dropped => true
  | _ => false

def attends (config : AppConfig) (exec : Exec) (backend : Backend) (client : ClientPc) : Bool :=
  exec.pc.gone ||
    (if exec.pc.awaitsLifecycle && config.backendOf exec == backend then awaited exec.pc client
     else client.free)

/-- Every call of the orchestrator has its client in each lifecycle. -/
def Proxy.Attended (config : AppConfig) (s : Proxy) : Prop :=
  ∀ (backend : Backend) (i : Nat) (exec : Exec), s.orchestrator.execs[i]? = some exec →
    ∃ client, (s.lifecycles backend).clients[i]? = some client ∧
      attends config exec backend client = true

/-! ### The steps of the client -/

theorem awaited_step {core core' : Core} {pc : ExecPc} {client client' : ClientPc}
    (rule : ClientRule timing core client core' client') (h : awaited pc client = true) :
    awaited pc client' = true := by
  cases pc with
  | awaitDecision =>
      cases rule with
      | markBorrow _ | markPublish _ _ | degradeBorrow _ | degradePublish _ => cases h
      | _ => rfl
  | awaitRetryDecision =>
      cases rule with
      | markBorrow next | markPublish next _ =>
          cases next with
          | none => cases h
          | some _ => rfl
      | degradeBorrow _ | degradePublish _ => cases h
      | _ => rfl
  | awaitDegraded _ =>
      cases rule with
      | degradeBorrow _ | degradePublish _ => rfl
      | _ => cases h
  | _ => cases h

theorem not_busy_of_free {client : ClientPc} (h : client.free = true) :
    clientBusy client = false := by
  cases client with
  | idle | returned _ => rfl
  | _ => cases h

theorem attends_step {exec : Exec} {backend : Backend} {core core' : Core}
    {client client' : ClientPc} (rule : ClientRule timing core client core' client')
    (h : attends config exec backend client = true) :
    attends config exec backend client' = true := by
  unfold attends at h ⊢
  obtain gone | held := Bool.or_eq_true_iff.mp h
  · rw [gone, Bool.true_or]
  · refine Bool.or_eq_true_iff.mpr (.inr ?_)
    split at held
    next here =>
      rw [if_pos here]
      exact awaited_step rule held
    next =>
      exact absurd ((not_busy_of_free held).symm.trans (clientRule_busy rule)) Bool.false_ne_true

theorem attended_lifecycle {backend : Backend} {action : Lifecycle.Action} {manager : Manager}
    (h : s.Attended config) (own : Proxy.internal action = true)
    (rule : Lifecycle.ManagerRule timing (s.lifecycles backend) action manager) :
    Proxy.Attended config { s with lifecycles := Function.update s.lifecycles backend manager } := by
  intro backend' i exec here
  obtain ⟨client, hclient, attended⟩ := h backend' i exec here
  by_cases hbackend : backend' = backend
  · subst hbackend
    simp only [Function.update_self]
    cases rule with
    | begin _ _ _ _ _ | drop _ _ _ _ => cases own
    | elapse _ _ | task _ _ _ _ _ _ _ => exact ⟨client, hclient, attended⟩
    | client j _ before after _ hbefore rule =>
        by_cases hij : i = j
        · subst hij
          obtain rfl : client = before := Option.some.inj (hclient.symm.trans hbefore)
          exact ⟨after, getElem?_set_of_some hbefore _, attends_step rule attended⟩
        · exact ⟨client, (List.getElem?_set_ne (Ne.symm hij)).trans hclient, attended⟩
  · simp only [Function.update_of_ne hbackend]
    exact ⟨client, hclient, attended⟩

/-! ### The steps of the call -/

theorem attends_of_free {exec : Exec} {backend : Backend} {client : ClientPc}
    (apart : exec.pc.awaitsLifecycle = false) (free : client.free = true) :
    attends config exec backend client = true := by
  simp [attends, apart, free]

theorem free_of_attends {exec : Exec} {backend : Backend} {client : ClientPc}
    (h : attends config exec backend client = true) (present : exec.pc.gone = false)
    (apart : exec.pc.awaitsLifecycle = false ∨ config.backendOf exec ≠ backend) :
    client.free = true := by
  unfold attends at h
  rw [present, Bool.false_or, if_neg] at h
  · exact h
  · obtain apart | other := apart
    · simp [apart]
    · simp [other]

theorem execs_of_drive {o t : Orchestrator} {i : Nat}
    {input : Scheduler.Input ForwardPc ForwardResult} (drive : o.drive config i input = some t)
    (exec' : Exec) : (t.put i exec').execs = o.execs.set i exec' := by
  rw [Orchestrator.put_execs, (Orchestrator.drive_frame drive).1]

theorem ExecRule.quiet {o o' : Orchestrator} {i : Nat} {exec : Exec} {input : Input}
    (rule : ExecRule serde config o i exec input o') (here : o.execs[i]? = some exec)
    (silent : input ≠ .call) :
    ∃ exec', o'.execs = o.execs.set i exec' ∧ exec'.pc.awaitsLifecycle = false ∧
      (exec.pc.gone = true → exec'.pc.gone = true) := by
  have present : ∀ {pc : ExecPc}, exec.pc = pc → pc.gone = false →
      ∀ {exec' : Exec}, exec.pc.gone = true → exec'.pc.gone = true := by
    intro pc hpc hgone exec' gone
    rw [hpc, hgone] at gone
    cases gone
  cases rule with
  | enter _ _ pc | cold _ pc _ | notCold _ pc _ | admitted _ pc _ | refused pc _
  | degraded _ pc | relayed pc =>
      exact ⟨_, rfl, rfl, present pc rfl⟩
  | retryPending _ _ _ pc _ | retryDone _ _ _ pc _ =>
      exact ⟨_, by simp; rfl, rfl, present pc rfl⟩
  | embeddingsDegraded _ pc _ _ | handled _ pc _ =>
      exact ⟨_, by simp; rfl, rfl, present pc rfl⟩
  | callEnsure _ | callDegrade _ _ | callMark _ => exact absurd rfl silent
  | decided decision pc =>
      obtain ⟨inc, pc', ho, hpc⟩ := o.afterDecision_eq i exec decision
      rw [ho]
      refine ⟨_, rfl, ?_, present pc rfl⟩
      obtain ⟨_, _, rfl⟩ | ⟨_, rfl, _⟩ := hpc <;> rfl
  | retryDecided decision pc =>
      obtain ⟨pc', ho, hpc⟩ := o.afterRetryDecision_eq i exec decision
      rw [ho]
      refine ⟨_, rfl, ?_, present pc rfl⟩
      obtain ⟨_, _, rfl⟩ | ⟨_, rfl, _⟩ := hpc <;> rfl
  | executed t _ outcome pc drive _ _ =>
      obtain ⟨inc, pc', ho, hpc⟩ := t.afterExecute_eq i exec outcome
      rw [ho]
      refine ⟨_, execs_of_drive drive (exec.goto pc'), ?_, present pc rfl⟩
      obtain ⟨_, rfl⟩ | rfl | ⟨_, rfl, _⟩ := hpc <;> rfl
  | scheduled _ _ pc drive _ _ | unwinding _ _ pc drive _ _
  | complete _ _ _ _ _ pc _ _ _ drive =>
      exact ⟨exec, (Orchestrator.drive_frame drive).1.trans (set_of_some here).symm,
        by rw [pc]; rfl, id⟩
  | operate _ _ _ _ _ pc _ _ _ drive =>
      refine ⟨exec, ?_, by rw [pc]; rfl, id⟩
      rw [(Orchestrator.drive_frame drive).1, Orchestrator.noteDelivery_execs, set_of_some here]
  | execute _ pc drive | unwoundScheduled _ _ pc drive | unwoundCall _ _ pc drive _ _ =>
      exact ⟨_, execs_of_drive drive _, rfl, present pc rfl⟩
  | returned response pc =>
      refine ⟨_, rfl, ?_, present pc rfl⟩
      cases response.streams <;> rfl
  | unwoundAwaiting _ _ => exact ⟨_, rfl, rfl, fun _ => rfl⟩
  | dropped _ => exact ⟨_, rfl, rfl, fun _ => rfl⟩

/-- What a call leaves of its clients when it does not come to await one: those it has
are free. -/
theorem attended_quiet {i : Nat} {exec exec' : Exec} {o : Orchestrator} {backend : Backend}
    {manager : Manager} (h : s.Attended config) (here : s.orchestrator.execs[i]? = some exec)
    (execs : o.execs = s.orchestrator.execs.set i exec')
    (others : ∀ j, j ≠ i → manager.clients[j]? = (s.lifecycles backend).clients[j]?)
    (free : ∀ backend', ∃ client,
      (Function.update s.lifecycles backend manager backend').clients[i]? = some client ∧
        attends config exec' backend' client = true) :
    Proxy.Attended config
      { orchestrator := o, lifecycles := Function.update s.lifecycles backend manager } := by
  intro backend' j other hother
  simp only at hother ⊢
  rw [execs] at hother
  obtain ⟨rfl, rfl⟩ | ⟨hne, hold⟩ := getElem?_set_cases here hother
  · exact free backend'
  · obtain ⟨client, hclient, attended⟩ := h backend' j other hold
    refine ⟨client, ?_, attended⟩
    by_cases hbackend : backend' = backend
    · subst hbackend
      rw [Function.update_self, others j hne]
      exact hclient
    · rw [Function.update_of_ne hbackend]
      exact hclient

theorem attended_aside {i : Nat} {exec : Exec} {input : Input} {o : Orchestrator}
    {backend : Backend} (h : s.Attended config) (here : s.orchestrator.execs[i]? = some exec)
    (rule : ExecRule serde config s.orchestrator i exec input o) (silent : input ≠ .call)
    (free : ∀ client, (s.lifecycles (config.backendOf exec)).clients[i]? = some client →
      attends config exec (config.backendOf exec) client = true →
      exec.pc.awaitsLifecycle = true → client.free = true) :
    Proxy.Attended config
      { orchestrator := o
        lifecycles := Function.update s.lifecycles backend (s.lifecycles backend) } := by
  obtain ⟨exec', execs, apart, gone⟩ := rule.quiet here silent
  refine attended_quiet h here execs (fun _ _ => rfl) fun backend' => ?_
  rw [Function.update_eq_self]
  obtain ⟨client, hclient, attended⟩ := h backend' i exec here
  refine ⟨client, hclient, ?_⟩
  cases hgone : exec.pc.gone with
  | true => simp [attends, gone hgone]
  | false =>
      refine attends_of_free apart ?_
      by_cases awaits : exec.pc.awaitsLifecycle = true ∧ config.backendOf exec = backend'
      · obtain ⟨hawaits, rfl⟩ := awaits
        exact free client hclient attended hawaits
      · refine free_of_attends attended hgone ?_
        obtain apart | other := not_and_or.mp awaits
        · exact .inl (Bool.eq_false_iff.mpr apart)
        · exact .inr other

theorem entry_awaited {exec : Exec} {op : Lifecycle.Op} {o : Orchestrator} {i : Nat}
    (rule : ExecRule serde config s.orchestrator i exec .call o)
    (call : exec.lifecycleCall = some op) :
    ∃ pc, o.execs = s.orchestrator.execs.set i (exec.goto pc) ∧
      pc.awaitsLifecycle = true ∧ config.backendOf (exec.goto pc) = config.backendOf exec ∧
      awaited pc op.entry = true ∧ exec.pc.gone = false ∧ exec.pc.awaitsLifecycle = false := by
  cases rule with
  | callEnsure pc =>
      simp only [Exec.lifecycleCall, pc] at call
      cases call
      exact ⟨_, rfl, rfl, by simp only [AppConfig.backendOf, pc]; rfl, rfl, by rw [pc]; rfl,
        by rw [pc]; rfl⟩
  | callDegrade reason pc =>
      simp only [Exec.lifecycleCall, pc] at call
      cases call
      exact ⟨_, rfl, rfl, by simp only [AppConfig.backendOf, pc]; rfl, rfl, by rw [pc]; rfl,
        by rw [pc]; rfl⟩
  | callMark pc =>
      simp only [Exec.lifecycleCall, pc] at call
      cases call
      exact ⟨_, rfl, rfl, by simp only [AppConfig.backendOf, pc]; rfl, rfl, by rw [pc]; rfl,
        by rw [pc]; rfl⟩

theorem ExecRule.apart_of_goesOn {o o' : Orchestrator} {i : Nat} {exec : Exec} {input : Input}
    (rule : ExecRule serde config o i exec input o') (goesOn : input.endsAwait = false) :
    exec.pc.awaitsLifecycle = false :=
  Bool.eq_false_iff.mpr fun awaits =>
    absurd (goesOn.symm.trans (rule.endsAwait awaits)) Bool.false_ne_true

theorem attended_unwound {i : Nat} {exec : Exec} {panicked : Bool} {manager : Manager}
    {o : Orchestrator} (h : s.Attended config) (here : s.orchestrator.execs[i]? = some exec)
    (awaits : exec.pc.awaitsLifecycle = true)
    (rule : ExecRule serde config s.orchestrator i exec (.unwind panicked) o)
    (clients : manager.clients = (s.lifecycles (config.backendOf exec)).clients ∨
      manager.clients = (s.lifecycles (config.backendOf exec)).clients.set i .dropped) :
    Proxy.Attended config
      { orchestrator := o
        lifecycles := Function.update s.lifecycles (config.backendOf exec) manager } := by
  cases rule with
  | unwoundScheduled _ _ pc _ =>
      rw [pc] at awaits
      cases awaits
  | unwoundAwaiting _ _ =>
      refine attended_quiet (o := s.orchestrator.put i (exec.goto .unwound)) h here rfl ?_
        fun backend' => ?_
      · intro j hne
        obtain same | dropped := clients
        · rw [same]
        · rw [dropped, List.getElem?_set_ne (Ne.symm hne)]
      · obtain ⟨client, hclient, _⟩ := h backend' i exec here
        by_cases hbackend : backend' = config.backendOf exec
        · subst hbackend
          rw [Function.update_self]
          obtain same | dropped := clients
          · exact ⟨client, same ▸ hclient, rfl⟩
          · exact ⟨.dropped, dropped ▸ getElem?_set_of_some hclient _, rfl⟩
        · rw [Function.update_of_ne hbackend]
          exact ⟨client, hclient, rfl⟩

theorem attended_exec {i : Nat} {exec : Exec} {input : Input} {manager : Manager}
    {o : Orchestrator} (h : s.Attended config) (here : s.orchestrator.execs[i]? = some exec)
    (answered : Proxy.answer timing (s.lifecycles (config.backendOf exec)) i exec input =
      some manager)
    (rule : ExecRule serde config s.orchestrator i exec input o) :
    Proxy.Attended config
      { orchestrator := o
        lifecycles := Function.update s.lifecycles (config.backendOf exec) manager } := by
  have unawaited : exec.pc.awaitsLifecycle = false → input ≠ .call →
      manager = s.lifecycles (config.backendOf exec) → Proxy.Attended config
        { orchestrator := o
          lifecycles := Function.update s.lifecycles (config.backendOf exec) manager } := by
    rintro apart silent rfl
    exact attended_aside h here rule silent fun _ _ _ awaits =>
      absurd (apart.symm.trans awaits) Bool.false_ne_true
  have settled : ∀ client : ClientPc,
      (s.lifecycles (config.backendOf exec)).clients[i]? = some client → client.free = true →
      input ≠ .call → manager = s.lifecycles (config.backendOf exec) → Proxy.Attended config
        { orchestrator := o
          lifecycles := Function.update s.lifecycles (config.backendOf exec) manager } := by
    rintro client hclient free silent rfl
    refine attended_aside h here rule silent fun client' hclient' _ _ => ?_
    obtain rfl : client = client' := Option.some.inj (hclient.symm.trans hclient')
    exact free
  cases input with
  | call =>
      obtain ⟨op, hop, hstep⟩ := Option.bind_eq_some_iff.mp answered
      have begun : Lifecycle.ManagerRule timing _ (.begin i op) manager :=
        Lifecycle.step_cases hstep
      cases begun with
      | begin _ _ before hbefore _ =>
          obtain ⟨pc, execs, awaits, same, hawaited, present, apart⟩ := entry_awaited rule hop
          refine attended_quiet h here execs
            (fun j hne => List.getElem?_set_ne (Ne.symm hne)) fun backend' => ?_
          by_cases hbackend : backend' = config.backendOf exec
          · subst hbackend
            rw [Function.update_self]
            refine ⟨op.entry, getElem?_set_of_some hbefore _, ?_⟩
            have awaits' : (exec.goto pc).pc.awaitsLifecycle = true := awaits
            simp only [attends, awaits', same, beq_self_eq_true, Bool.and_self, if_true]
            exact Bool.or_eq_true_iff.mpr (.inr hawaited)
          · rw [Function.update_of_ne hbackend]
            obtain ⟨client, hclient, attended⟩ := h backend' i exec here
            refine ⟨client, hclient, ?_⟩
            have free := free_of_attends attended present (.inl apart)
            have other : (config.backendOf exec == backend') = false := by
              simpa using Ne.symm hbackend
            simp [attends, same, other, free]
  | decide decision =>
      simp only [Proxy.answer] at answered
      split at answered
      next hreturned =>
        cases answered
        exact settled _ hreturned rfl (by simp) rfl
      next => cases answered
  | degraded =>
      simp only [Proxy.answer] at answered
      split at answered
      next hidle =>
        cases answered
        exact settled _ hidle rfl (by simp) rfl
      next => cases answered
  | unwind panicked =>
      simp only [Proxy.answer] at answered
      split at answered
      next awaits =>
        refine attended_unwound h here awaits rule ?_
        cases panicked with
        | true =>
            simp only [if_true] at answered
            split at answered
            next => cases answered; exact .inl rfl
            next => cases answered
        | false =>
            have dropped : Lifecycle.ManagerRule timing _ (.drop i) manager :=
              Lifecycle.step_cases answered
            cases dropped with
            | drop _ _ _ _ => exact .inr rfl
      next apart =>
        cases answered
        exact unawaited (Bool.eq_false_iff.mpr apart) (by simp) rfl
  | status status =>
      simp only [Proxy.answer] at answered
      split at answered
      next =>
        cases answered
        exact unawaited (rule.apart_of_goesOn rfl) (by simp) rfl
      next => cases answered
  | enter _ _ | run | forward _ | relayed =>
      cases answered
      exact unawaited (rule.apart_of_goesOn rfl) (by simp) rfl

theorem attended_new (execs : Nat) (initial : Backend → BackendStatus) (instant : Nat)
    (clock : Timestamp) : Proxy.Attended config (.new config execs initial instant clock) := by
  intro backend i exec here
  obtain ⟨hlt, rfl⟩ := by
    simpa [Proxy.new, Orchestrator.new, List.getElem?_replicate] using here
  exact ⟨.idle, List.getElem?_replicate_of_lt hlt, rfl⟩

theorem attended_step {a : Proxy.Action} (h : s.Attended config)
    (hstep : (proxy serde config timing).step s a = some s') : s'.Attended config := by
  cases proxy_cases hstep with
  | exec i input exec _ _ here answered stepped =>
      exact attended_exec h here answered (execStep_cases stepped)
  | lifecycle backend action _ own rule => exact attended_lifecycle h own rule
  | elapse span clock _ stepped clients =>
      intro backend i exec here
      simp only [Orchestrator.step] at stepped
      obtain ⟨_, _, hs'⟩ := Option.map_eq_some_iff.mp stepped
      rw [← hs'] at here
      rw [clients backend]
      exact h backend i exec here

theorem attended_reachable {execs : Nat} {initial : Backend → BackendStatus} {instant : Nat}
    {clock : Timestamp}
    (h : (proxy serde config timing).Reachable (.new config execs initial instant clock) s) :
    s.Attended config :=
  h.invariant (attended_new execs initial instant clock) fun _ _ _ => attended_step

end LlmWakeProxy.Orchestrate
