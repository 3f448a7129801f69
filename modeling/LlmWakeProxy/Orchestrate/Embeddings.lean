import LlmWakeProxy.Lifecycle.Ownership
import LlmWakeProxy.Orchestrate.Attendance
import LlmWakeProxy.Orchestrate.InFlight

/-!
Requests for embeddings and what is known of the backend's ability to answer
them. The first forward is gated: a backend whose embeddings are degraded is not
asked. When a forward finds the embeddings unsupported the embeddings lifecycle is
told, and publishes it. The second forward, after an unreachable upstream, does
neither: it takes any backend that is ready, and its outcome goes straight to the
client.
-/

namespace LlmWakeProxy.Orchestrate
open LlmWakeProxy.Library LlmWakeProxy.Scheduler LlmWakeProxy.Forward
open LlmWakeProxy.Lifecycle (BackendStatus LifecycleTiming Timestamp ClientPc ClientRule Manager)

universe u
variable {ν : Type u} {serde : SerdeJson ν} {config : AppConfig} {timing : LifecycleTiming}
variable {s s' : Orchestrator}

/-- What is noted of a call: the status it was last told the backend is ready with, and
whether its last forward found the embeddings unsupported and `degrade_embeddings` has
not published on the embeddings lifecycle since. -/
structure EmbeddingsAccount where
  ready : Option BackendStatus
  owes : Bool

abbrev EmbeddingsAccounts := Nat → EmbeddingsAccount

def readiness (decision : Option BackendStatus) : Input → Option BackendStatus
  | .decide (.ready status) => some status
  | _ => decision

/-- A step's events have their latest first. -/
def owing (owes : Bool) : List Event → Bool
  | .forwarded _ (.error .embeddingsUnsupported) :: _ => true
  | .forwarded _ _ :: _ => false
  | _ :: earlier => owing owes earlier
  | [] => owes

def newEvents (s s' : Orchestrator) : List Event :=
  s'.log.take (s'.log.length - s.log.length)

def publishesDegradation : ClientPc → Bool
  | .degradePublish _ => true
  | _ => false

def noteAccount (config : AppConfig) (s : Proxy) (a : Proxy.Action) (s' : Proxy)
    (accounts : EmbeddingsAccounts) : EmbeddingsAccounts :=
  match a with
  | .exec i input =>
      Function.update accounts i
        { ready := readiness (accounts i).ready input
          owes := owing (accounts i).owes (newEvents s.orchestrator s'.orchestrator) }
  | .lifecycle backend (.client i _) =>
      if backend = config.lifecycleFor .embeddings ∧
          (s.lifecycles backend).clients[i]?.any publishesDegradation = true then
        Function.update accounts i { accounts i with owes := false }
      else
        accounts
  | _ => accounts

def Stage.forwarding : Stage → Bool
  | .first _ | .second _ => true
  | _ => false

/-- No embeddings are asked of a backend that was found ready with its embeddings
degraded. -/
def Gated (t : Proxy × EmbeddingsAccounts) : Prop :=
  ∀ i exec, t.1.orchestrator.execs[i]? = some exec → exec.kind = .embeddings →
    (t.1.orchestrator.stage i exec).forwarding = true →
    ∃ status, (t.2 i).ready = some status ∧ status.embeddings ≠ .degraded

/-- A call that is about to return its response owes the embeddings lifecycle nothing. -/
def Reported (t : Proxy × EmbeddingsAccounts) : Prop :=
  ∀ i exec response, t.1.orchestrator.execs[i]? = some exec → exec.pc = .returning response →
    (t.2 i).owes = false

/-- The step takes a backend whose embeddings are degraded for a second forward of
embeddings, or ends such a forward with an answer that it does not support them. -/
def bypasses (exec : Exec) : Input → Bool
  | .decide (.ready status) =>
      match exec.pc with
      | .awaitRetryDecision => exec.kind = .embeddings && status.embeddings = .degraded
      | _ => false
  | .forward (.body _) =>
      match exec.pc with
      | .retrying (.reading status) => exec.kind = .embeddings && !exec.stream && status = 404
      | _ => false
  | _ => false

def bypassed (t : Proxy × EmbeddingsAccounts) : Proxy.Action → Bool
  | .exec i input => t.1.orchestrator.execs[i]?.any fun exec => bypasses exec input
  | _ => false

def Heeded (t : Proxy × EmbeddingsAccounts) (a : Proxy.Action) : Prop := bypassed t a = false

instance (t : Proxy × EmbeddingsAccounts) (a : Proxy.Action) : Decidable (Heeded t a) :=
  inferInstanceAs (Decidable (bypassed t a = false))

theorem bypasses_of_heeded {t : Proxy × EmbeddingsAccounts} {i : Nat} {exec : Exec} {input : Input}
    (ok : Heeded t (.exec i input)) (here : t.1.orchestrator.execs[i]? = some exec) :
    bypasses exec input = false := by
  simpa [Heeded, bypassed, here] using ok

/-! ### The gate -/

def ExecPc.forwards : ExecPc → Bool
  | .execute | .scheduled | .retrying _ => true
  | _ => false

/-- A call is told apart by what it was last told. -/
structure Cleared (decision : Option BackendStatus) (exec : Exec) : Prop where
  handled : ∀ status, exec.pc = .handleReady status → decision = some status
  able : exec.kind = .embeddings → exec.pc.forwards = true →
    ∃ status, decision = some status ∧ status.embeddings ≠ .degraded

theorem Cleared.quiet {decision : Option BackendStatus} {exec : Exec}
    (unhandled : ∀ status, exec.pc ≠ .handleReady status) (idle : exec.pc.forwards = false) :
    Cleared decision exec :=
  ⟨fun status hpc => absurd hpc (unhandled status), fun _ hforwards => by simp [idle] at hforwards⟩

theorem Cleared.onward {decision : Option BackendStatus} {exec : Exec} {pc : ExecPc}
    (hs : Cleared decision exec) (forwards : exec.pc.forwards = true)
    (unhandled : ∀ status, pc ≠ .handleReady status) : Cleared decision (exec.goto pc) :=
  ⟨fun status hpc => absurd hpc (unhandled status), fun kind _ => hs.able kind forwards⟩

/-- A step leaves the other calls as they are, and its own within the gate. -/
def GateStep (s s' : Orchestrator) (i : Nat) (decision : Option BackendStatus) : Prop :=
  ∃ exec', s'.execs = s.execs.set i exec' ∧ Cleared decision exec'

theorem GateStep.put {i : Nat} {exec' : Exec} {decision : Option BackendStatus} {t : Orchestrator}
    (execs : t.execs = s.execs) (cleared : Cleared decision exec') :
    GateStep s (t.put i exec') i decision :=
  ⟨exec', by rw [Orchestrator.put_execs, execs], cleared⟩

theorem GateStep.same {i : Nat} {exec : Exec} {decision : Option BackendStatus}
    (here : s.execs[i]? = some exec) (execs : s'.execs = s.execs)
    (cleared : Cleared decision exec) : GateStep s s' i decision :=
  ⟨exec, by rw [execs, set_of_some here], cleared⟩

theorem ExecRule.gateStep {i : Nat} {exec : Exec} {input : Input} {decision : Option BackendStatus}
    (rule : ExecRule serde config s i exec input s') (here : s.execs[i]? = some exec)
    (hs : Cleared decision exec) (ok : bypasses exec input = false) :
    GateStep s s' i (readiness decision input) := by
  cases rule with
  | enter _ _ _ | cold _ _ _ | notCold _ _ _ | admitted _ _ _ | refused _ _ | callEnsure _
  | callDegrade _ _ | callMark _ | degraded _ _ | relayed _ | unwoundAwaiting _ _ | dropped _
  | retryDone _ _ _ _ _ =>
      exact .put rfl (.quiet (by simp [Exec.goto]) rfl)
  | returned response _ =>
      refine .put rfl (.quiet ?_ ?_)
      · cases response.streams <;> simp
      · cases response.streams <;> rfl
  | decided answer pc =>
      cases answer with
      | ready status =>
          refine .put rfl ⟨?_, by simp [Exec.goto, ExecPc.forwards]⟩
          rintro _ ⟨rfl⟩
          rfl
      | warming _ _ | failed _ _ => exact .put rfl (.quiet (by simp [Exec.goto]) rfl)
  | retryDecided answer pc =>
      cases answer with
      | ready status =>
          refine .put rfl ⟨by simp [Exec.goto], ?_⟩
          intro kind _
          have hkind : exec.kind = .embeddings := kind
          exact ⟨status, rfl, by simpa [bypasses, pc, hkind] using ok⟩
      | warming _ _ | failed _ _ => exact .put rfl (.quiet (by simp [Exec.goto]) rfl)
  | embeddingsDegraded _ _ _ _ => exact .put (by simp) (.quiet (by simp [Exec.goto]) rfl)
  | handled status pc able =>
      refine .put (by simp) ⟨by simp [Exec.goto], ?_⟩
      intro kind _
      exact ⟨status, hs.handled status pc, fun degraded => able ⟨kind, degraded⟩⟩
  | execute t pc drive =>
      exact .put (Orchestrator.drive_frame drive).1 (hs.onward (by rw [pc]; rfl) (by simp))
  | scheduled _ _ _ drive _ _ | complete _ _ _ _ _ _ _ _ _ drive | unwinding _ _ _ drive _ _ =>
      exact .same here (Orchestrator.drive_frame drive).1 hs
  | operate _ _ _ _ _ _ _ _ _ drive =>
      refine .same here ?_ hs
      rw [(Orchestrator.drive_frame drive).1, Orchestrator.noteDelivery_execs]
  | executed t _ outcome _ drive _ _ =>
      obtain ⟨inc, pc, hs', hpc⟩ := t.afterExecute_eq i exec outcome
      rw [hs']
      refine .put (Orchestrator.drive_frame drive).1 (.quiet ?_ ?_)
      · obtain ⟨_, rfl⟩ | rfl | ⟨_, rfl, _⟩ := hpc <;> simp [Exec.goto]
      · obtain ⟨_, rfl⟩ | rfl | ⟨_, rfl, _⟩ := hpc <;> rfl
  | retryPending _ before after pc _ =>
      exact .put (by simp) (hs.onward (by rw [pc]; rfl) (by simp))
  | unwoundScheduled _ _ _ drive | unwoundCall _ _ _ drive _ _ =>
      exact .put (Orchestrator.drive_frame drive).1 (.quiet (by simp [Exec.goto]) rfl)

/-! ### The lifecycle is told -/

/-- Where a call that owes a report can be. -/
inductive Stage.InDebt : Stage → Prop
  | found : InDebt (.firstDone (.error .embeddingsUnsupported))
  | degrading (reason : String) : InDebt (.degrading reason)
  | over : InDebt .over

@[simp] theorem owing_deliveryOf (owes : Bool) (i : Nat) (pc : ForwardPc) (input : ForwardInput) :
    owing owes (deliveryOf i pc input) = owes := by
  unfold deliveryOf
  split <;> rfl

theorem result_of_owing {owes : Bool} {i : Nat} {result : ForwardResult}
    (h : owing owes [.forwarded i result] = true) : result = .error .embeddingsUnsupported := by
  match result with
  | .error .embeddingsUnsupported => rfl
  | .ok _ | .error .upstreamUnreachable | .error (.upstreamError _ _) | .error .cancelled => cases h

theorem kind_of_path {exec : Exec}
    (h : "/v1/embeddings".toList.isPrefixOf (exec.request config).path.toList = true) :
    exec.kind = .embeddings := by
  cases hkind : exec.kind with
  | embeddings => rfl
  | chat =>
      simp only [Exec.request, hkind] at h
      exact absurd h (by decide)

/-- A second forward that finds the embeddings unsupported is one that bypasses. -/
theorem supported_of_heeded {exec : Exec} {before : ForwardPc} {input : Input}
    {forwardInput : ForwardInput} (ok : bypasses exec input = false)
    (pc : exec.pc = .retrying before) (hinput : input = .forward forwardInput) :
    forwardStep serde (exec.request config) false before forwardInput ≠
      some (.done (.error .embeddingsUnsupported)) := by
  intro h
  obtain ⟨text, rfl, rfl, unstreamed, hpath⟩ := unsupported_of_forwardStep h
  have hstream : exec.stream = false := unstreamed
  simp [hinput, bypasses, pc, kind_of_path hpath, hstream] at ok

theorem Stage.InDebt.step {stage after : Stage} {news : List Event} {i : Nat} {input : Input}
    {request : ForwardRequest} {owes : Bool} (hs : owes = true → stage.InDebt)
    (rule : StageRule serde request i stage input news after)
    (told : input = .degraded → owes = false)
    (supported : ∀ before forwardInput, stage = .second before → input = .forward forwardInput →
      forwardStep serde request false before forwardInput ≠
        some (.done (.error .embeddingsUnsupported)))
    (h : owing owes news = true) : after.InDebt := by
  cases rule with
  | stays _ _ => exact hs h
  | leaves _ _ => exact .over
  | rejected _ _ | begins | unreachable | retries _ | givesUp _ _ | responded _ => cases hs h
  | answered result _ unsupported _ =>
      cases hs h with
      | found => exact absurd rfl unsupported
  | unsupported reason => exact .degrading reason
  | firstPending _ _ _ _ _ | secondPending _ _ _ _ =>
      rw [owing_deliveryOf] at h
      cases hs h
  | firstDone _ _ _ result _ =>
      rw [result_of_owing h]
      exact .found
  | secondDone forwardInput before result forward =>
      rw [result_of_owing h] at forward
      exact absurd forward (supported before forwardInput rfl rfl)
  | degraded reason _ => exact absurd (told rfl).symm (by simpa [owing] using h)

/-! ### The accounts of a run -/

/-- A call is within the gate, and if it owes a report it is where it can still make it. A
client that has come out of `degrade_embeddings` has made it. -/
structure Accounted (config : AppConfig) (s : Proxy) (i : Nat) (exec : Exec)
    (account : EmbeddingsAccount) : Prop where
  cleared : Cleared account.ready exec
  debt : account.owes = true → (s.orchestrator.stage i exec).InDebt
  told : ∀ reason, exec.pc = .awaitDegraded reason →
    (s.lifecycles (config.lifecycleFor .embeddings)).clients[i]? = some .idle →
    account.owes = false

def Audited (config : AppConfig) (t : Proxy × EmbeddingsAccounts) : Prop :=
  ∀ i exec, t.1.orchestrator.execs[i]? = some exec → Accounted config t.1 i exec (t.2 i)

theorem Accounted.frame {s s' : Proxy} {i : Nat} {exec : Exec} {account : EmbeddingsAccount}
    (hs : Accounted config s i exec account)
    (stage : s'.orchestrator.stage i exec = s.orchestrator.stage i exec)
    (idle : ∀ reason, exec.pc = .awaitDegraded reason →
      (s'.lifecycles (config.lifecycleFor .embeddings)).clients[i]? = some .idle →
      (s.lifecycles (config.lifecycleFor .embeddings)).clients[i]? = some .idle) :
    Accounted config s' i exec account :=
  ⟨hs.cleared, fun owes => stage ▸ hs.debt owes,
    fun reason hpc out => hs.told reason hpc (idle reason hpc out)⟩

theorem Accounted.paid {s s' : Proxy} {i : Nat} {exec : Exec} {account : EmbeddingsAccount}
    (hs : Accounted config s i exec account) :
    Accounted config s' i exec { account with owes := false } :=
  ⟨hs.cleared, fun owes => (by cases owes), fun _ _ _ => rfl⟩

theorem newEvents_of_log (news : List Event) (log : s'.log = news ++ s.log) :
    newEvents s s' = news := by
  rw [newEvents, log, List.length_append, Nat.add_sub_cancel]
  exact List.take_left

theorem backendOf_of_degraded {exec : Exec} {reason : String}
    (hpc : exec.pc = .degrade reason ∨ exec.pc = .awaitDegraded reason) :
    config.backendOf exec = config.lifecycleFor .embeddings := by
  obtain hpc | hpc := hpc <;> (unfold AppConfig.backendOf; rw [hpc])

section Exec

variable {t : Proxy} {i : Nat} {exec : Exec} {input : Input} {manager : Manager}
  {o : Orchestrator}

/-- A call that asks to degrade the embeddings asks the embeddings lifecycle. -/
theorem not_idle_of_callDegrade {reason : String} (hpc : exec.pc = .degrade reason)
    (answered : Proxy.answer timing (t.lifecycles (config.backendOf exec)) i exec .call =
      some manager) :
    (Function.update t.lifecycles (config.backendOf exec) manager
      (config.lifecycleFor .embeddings)).clients[i]? ≠ some .idle := by
  obtain ⟨op, hop, hstep⟩ := Option.bind_eq_some_iff.mp answered
  have begun : Lifecycle.ManagerRule timing _ (.begin i op) manager := Lifecycle.step_cases hstep
  simp only [Exec.lifecycleCall, hpc, Option.some.injEq] at hop
  rw [← backendOf_of_degraded (.inl hpc), Function.update_self]
  cases begun with
  | begin _ _ before hbefore _ =>
      rw [getElem?_set_of_some hbefore, ← hop]
      simp [Lifecycle.Op.entry]

/-- A call is answered that the embeddings are degraded when its client there is done. -/
theorem idle_of_degraded {reason : String} (hpc : exec.pc = .awaitDegraded reason)
    (answered : Proxy.answer timing (t.lifecycles (config.backendOf exec)) i exec .degraded =
      some manager) :
    (t.lifecycles (config.lifecycleFor .embeddings)).clients[i]? = some .idle := by
  rw [backendOf_of_degraded (.inr hpc)] at answered
  exact (Option.ite_none_right_eq_some.mp answered).1

theorem accounted_exec {account : EmbeddingsAccount} {exec' : Exec}
    (hs : Accounted config t i exec account) (here : t.orchestrator.execs[i]? = some exec)
    (answered : Proxy.answer timing (t.lifecycles (config.backendOf exec)) i exec input =
      some manager)
    (rule : ExecRule serde config t.orchestrator i exec input o)
    (ok : bypasses exec input = false) (here' : o.execs[i]? = some exec') :
    Accounted config
      { orchestrator := o
        lifecycles := Function.update t.lifecycles (config.backendOf exec) manager } i exec'
      { ready := readiness account.ready input
        owes := owing account.owes (newEvents t.orchestrator o) } := by
  refine ⟨?_, ?_, ?_⟩
  · obtain ⟨other, hexecs, cleared⟩ := rule.gateStep here hs.cleared ok
    rw [hexecs, getElem?_set_of_some here] at here'
    cases here'
    exact cleared
  · obtain ⟨⟨other, news, hother, log, _, moved⟩, _⟩ := rule.stageStep here
    obtain rfl : other = exec' := Option.some.inj (hother.symm.trans here')
    simp only [newEvents_of_log _ log]
    refine Stage.InDebt.step hs.debt moved ?_ ?_
    · rintro rfl
      cases rule with
      | degraded reason pc => exact hs.told reason pc (idle_of_degraded pc answered)
    · intro before forwardInput hstage hinput
      exact supported_of_heeded ok (retrying_of_stage hstage) hinput
  · intro reason hpc idle
    by_cases hcall : input = .call
    · subst hcall
      cases rule with
      | callEnsure _ | callMark _ =>
          rw [Orchestrator.put_execs, getElem?_set_of_some here] at here'
          cases here'
          cases hpc
      | callDegrade _ pc => exact absurd idle (not_idle_of_callDegrade pc answered)
    · obtain ⟨other, hexecs, apart, _⟩ := rule.quiet here hcall
      rw [hexecs, getElem?_set_of_some here] at here'
      cases here'
      rw [hpc] at apart
      cases apart

theorem AnswerRule.others {manager' : Manager} (rule : AnswerRule manager i exec input manager')
    {j : Nat} (hj : j ≠ i) : manager'.clients[j]? = manager.clients[j]? := by
  cases rule with
  | begun _ _ _ _ | dropped _ _ => exact List.getElem?_set_ne (Ne.symm hj)
  | settled _ _ _ _ | aside _ _ => rfl

theorem accounted_other {account : EmbeddingsAccount} {j : Nat} {other : Exec} (hj : j ≠ i)
    (hs : Accounted config t j other account) (here : t.orchestrator.execs[i]? = some exec)
    (answer : AnswerRule (t.lifecycles (config.backendOf exec)) i exec input manager)
    (rule : ExecRule serde config t.orchestrator i exec input o) :
    Accounted config
      { orchestrator := o
        lifecycles := Function.update t.lifecycles (config.backendOf exec) manager } j other
      account := by
  refine hs.frame (stage_of_kept ((rule.stageStep here).others j hj).2) fun _ _ idle => ?_
  by_cases hbackend : config.lifecycleFor .embeddings = config.backendOf exec
  · simp only [hbackend, Function.update_self, answer.others hj] at idle
    rwa [hbackend]
  · simpa only [Function.update_of_ne hbackend] using idle

end Exec

theorem publishes_of_idle {core core' : Lifecycle.Core} {pc : ClientPc}
    (rule : ClientRule timing core pc core' .idle) (degrading : isDegrading pc = true) :
    publishesDegradation pc = true := by
  generalize hafter : ClientPc.idle = after at rule
  cases rule with
  | degradePublish _ => rfl
  | degradeBorrow _ => cases hafter
  | _ => cases degrading

theorem degrading_of_attended {s : Proxy} {i : Nat} {exec : Exec} {reason : String} {pc : ClientPc}
    (attended : s.Attended config) (here : s.orchestrator.execs[i]? = some exec)
    (hpc : exec.pc = .awaitDegraded reason)
    (client : (s.lifecycles (config.lifecycleFor .embeddings)).clients[i]? = some pc) :
    isDegrading pc = true := by
  obtain ⟨other, hother, attends⟩ := attended (config.lifecycleFor .embeddings) i exec here
  obtain rfl : other = pc := Option.some.inj (hother.symm.trans client)
  simpa [Orchestrate.attends, backendOf_of_degraded (.inr hpc), hpc, ExecPc.gone,
    ExecPc.awaitsLifecycle, awaited] using attends

theorem audited_client {s : Proxy} {accounts : EmbeddingsAccounts} {backend : Backend} {k : Nat}
    {pc pc' : ClientPc} {core' : Lifecycle.Core} (input : Lifecycle.Input)
    (hs : Audited config (s, accounts)) (attended : s.Attended config)
    (client : (s.lifecycles backend).clients[k]? = some pc)
    (rule : ClientRule timing (s.lifecycles backend).core pc core' pc') :
    Audited config
      ({ s with
          lifecycles := Function.update s.lifecycles backend
            { core := core', clients := (s.lifecycles backend).clients.set k pc' } },
        noteAccount config s (.lifecycle backend (.client k input)) s accounts) := by
  intro j other hother
  have held := hs j other hother
  have quiet : ∀ reason, other.pc = .awaitDegraded reason → publishesDegradation pc = false ∨
      backend ≠ config.lifecycleFor .embeddings ∨ j ≠ k →
      (Function.update s.lifecycles backend
        { core := core', clients := (s.lifecycles backend).clients.set k pc' }
          (config.lifecycleFor .embeddings)).clients[j]? = some .idle →
      (s.lifecycles (config.lifecycleFor .embeddings)).clients[j]? = some .idle := by
    intro reason hpc aside idle
    by_cases hbackend : config.lifecycleFor .embeddings = backend
    · subst hbackend
      rw [Function.update_self] at idle
      obtain ⟨rfl, rfl⟩ | ⟨_, hold⟩ := getElem?_set_cases client idle
      · have published := publishes_of_idle rule
          (degrading_of_attended attended hother hpc client)
        simp [published] at aside
      · exact hold
    · rwa [Function.update_of_ne hbackend] at idle
  by_cases paid : backend = config.lifecycleFor .embeddings ∧ publishesDegradation pc = true
  · by_cases hj : j = k
    · subst hj
      simp only [noteAccount, client, Option.any_some, if_pos paid, Function.update_self]
      exact held.paid
    · simp only [noteAccount, client, Option.any_some, if_pos paid, Function.update_of_ne hj]
      exact held.frame rfl fun reason hpc => quiet reason hpc (.inr (.inr hj))
  · simp only [noteAccount, client, Option.any_some, if_neg paid]
    refine held.frame rfl fun reason hpc => quiet reason hpc ?_
    obtain other | silent := not_and_or.mp paid
    · exact .inr (.inl other)
    · exact .inl (Bool.eq_false_iff.mpr silent)

theorem audited_lifecycle {s : Proxy} {accounts : EmbeddingsAccounts} {backend : Backend}
    {action : Lifecycle.Action} {manager : Manager} (hs : Audited config (s, accounts))
    (attended : s.Attended config) (own : Proxy.internal action = true)
    (rule : Lifecycle.ManagerRule timing (s.lifecycles backend) action manager) :
    Audited config ({ s with lifecycles := Function.update s.lifecycles backend manager },
      noteAccount config s (.lifecycle backend action)
        { s with lifecycles := Function.update s.lifecycles backend manager } accounts) := by
  cases rule with
  | begin _ _ _ _ _ | drop _ _ _ _ | elapse _ _ => cases own
  | client k input pc pc' core' client rule => exact audited_client input hs attended client rule
  | task _ _ _ _ _ _ _ =>
      intro j other hother
      refine (hs j other hother).frame rfl fun _ _ idle => ?_
      by_cases hbackend : config.lifecycleFor .embeddings = backend
      · simpa only [hbackend, Function.update_self] using idle
      · simpa only [Function.update_of_ne hbackend] using idle

theorem audited_elapse {s s' : Proxy} {accounts : EmbeddingsAccounts} {span : Lifecycle.Duration}
    (hs : Audited config (s, accounts))
    (stepped : s.orchestrator.step serde config (.elapse span) = some s'.orchestrator)
    (clients : ∀ backend, (s'.lifecycles backend).clients = (s.lifecycles backend).clients) :
    Audited config (s', accounts) := by
  simp only [Orchestrator.step] at stepped
  obtain ⟨scheduler, drive, hs'⟩ := Option.map_eq_some_iff.mp stepped
  cases drive
  intro j other hother
  simp only [← hs'] at hother
  refine (hs j other hother).frame ?_ fun _ _ idle => ?_
  · rw [← hs']
    rfl
  · rwa [clients] at idle

theorem audited_step {t t' : Proxy × EmbeddingsAccounts} {a : Proxy.Action} (hs : Audited config t)
    (attended : t.1.Attended config) (ok : Heeded t a)
    (h : ((proxy serde config timing).monitor (noteAccount config)).step t a = some t') :
    Audited config t' := by
  obtain ⟨s, accounts⟩ := t
  obtain ⟨s', accounts'⟩ := t'
  obtain ⟨hstep, hnote⟩ := System.monitor_step_iff.mp h
  obtain rfl : accounts' = noteAccount config s a s' accounts := hnote
  have rule : ProxyRule serde config timing s a s' := proxy_cases hstep
  cases rule with
  | exec i input exec manager o here answered stepped =>
      have rule := execStep_cases stepped
      intro j other hother
      by_cases hj : j = i
      · subst hj
        simp only [noteAccount, Function.update_self]
        exact accounted_exec (hs j exec here) here answered rule (bypasses_of_heeded ok here) hother
      · simp only [noteAccount, Function.update_of_ne hj]
        have hold : s.orchestrator.execs[j]? = some other :=
          ((rule.stageStep here).others j hj).1.symm.trans hother
        exact accounted_other hj (hs j other hold) here (answer_cases answered) rule
  | lifecycle backend action _ own rule => exact audited_lifecycle hs attended own rule
  | elapse span clock _ stepped clients => exact audited_elapse hs stepped clients

theorem audited_reachable {execs instant : Nat} {initial : Backend → BackendStatus}
    {clock : Timestamp} {t : Proxy × EmbeddingsAccounts}
    (h : (((proxy serde config timing).monitor (noteAccount config)).restrict Heeded).Reachable
      (.new config execs initial instant clock, fun _ => ⟨none, false⟩) t) :
    Audited config t := by
  induction h with
  | refl =>
      intro i exec here
      obtain rfl := (List.mem_replicate.mp (List.mem_of_getElem? here)).2
      exact ⟨.quiet (by simp) rfl, fun owes => (by cases owes), fun _ hpc => (by cases hpc)⟩
  | step ht hstep ih =>
      obtain ⟨ok, hstep⟩ := System.restrict_step_iff.mp hstep
      exact audited_step ih (attended_reachable ht.unrestrict.unmonitor) ok hstep

theorem forwards_of_forwarding {i : Nat} {exec : Exec}
    (h : (s.stage i exec).forwarding = true) : exec.pc.forwards = true := by
  unfold Orchestrator.stage at h
  cases hpc : exec.pc with
  | execute | scheduled | retrying _ => rfl
  | _ =>
      rw [hpc] at h
      cases h


theorem of_bypassed {t : Proxy × EmbeddingsAccounts} {a : Proxy.Action} (h : ¬ Heeded t a) :
    ∃ i input exec, a = .exec i input ∧ t.1.orchestrator.execs[i]? = some exec ∧
      exec.kind = .embeddings ∧
      ((∃ status, input = .decide (.ready status) ∧ exec.pc = .awaitRetryDecision ∧
          status.embeddings = .degraded) ∨
        ∃ text, input = .forward (.body text) ∧ exec.pc = .retrying (.reading 404) ∧
          exec.stream = false) := by
  cases a with
  | lifecycle _ _ | elapse _ _ => exact absurd rfl h
  | exec i input =>
      have hbypassed : bypassed t (.exec i input) = true := by simpa [Heeded] using h
      obtain ⟨exec, here, hexec⟩ := (Option.any_eq_true _ _).mp hbypassed
      refine ⟨i, input, exec, rfl, here, ?_⟩
      unfold bypasses at hexec
      split at hexec
      next status =>
        split at hexec
        next hpc =>
          simp only [Bool.and_eq_true, decide_eq_true_eq] at hexec
          exact ⟨hexec.1, .inl ⟨status, rfl, hpc, hexec.2⟩⟩
        next => cases hexec
      next text =>
        split at hexec
        next status hpc =>
          simp only [Bool.and_eq_true, Bool.not_eq_true', decide_eq_true_eq] at hexec
          obtain ⟨⟨kind, unstreamed⟩, rfl⟩ := hexec
          exact ⟨kind, .inr ⟨text, rfl, hpc, unstreamed⟩⟩
        next => cases hexec
      next => cases hexec

/-- A second forward of embeddings to a backend whose embeddings are degraded. -/
theorem not_gated_of_degraded {u : Proxy} {accounts : EmbeddingsAccounts} {i : Nat} {exec : Exec}
    {status : BackendStatus} (here : s.execs[i]? = some exec) (kind : exec.kind = .embeddings)
    (moved : u.orchestrator = s.put i (exec.goto (.retrying .begun)))
    (told : (accounts i).ready = some status) (degraded : status.embeddings = .degraded) :
    ¬ Gated (u, accounts) := by
  intro gated
  have here' : u.orchestrator.execs[i]? = some (exec.goto (.retrying .begun)) := by
    rw [moved]
    exact getElem?_set_of_some here _
  obtain ⟨status', told', able⟩ := gated i _ here' kind rfl
  obtain rfl : status = status' := Option.some.inj (told.symm.trans told')
  exact able degraded

/-- A second forward of embeddings that is answered 404 leaves the call owing. -/
theorem owing_of_unsupported {i : Nat} {exec : Exec} {text : Option Text}
    (kind : exec.kind = .embeddings) (unstreamed : exec.stream = false)
    (h : s.forwardRetry serde config i exec (.reading 404) (.body text) = some s') :
    s' = (s.emit (.forwarded i (.error .embeddingsUnsupported))).put i
      (exec.goto (.returning (unwrapOrOpenai (.error .embeddingsUnsupported)))) := by
  have hanswer : readAnswer serde (exec.request config) 404 (text.getD []) =
      .error .embeddingsUnsupported := by
    simp [readAnswer, isSuccess, Exec.request, path, kind, unstreamed]
  simpa [Orchestrator.forwardRetry, forwardStep, hanswer] using h.symm

/-- In a run in which no second forward of embeddings is made to a backend whose
embeddings are degraded, nor answered that they are not supported, embeddings are
asked only of backends that are able, and no call is about to return its response
before the embeddings lifecycle was told. A step that is not so asks a backend that is
not able, or leaves a response to be returned that the lifecycle was not told of. -/
theorem embeddings_gated_and_reported (serde : SerdeJson ν) (config : AppConfig)
    (timing : LifecycleTiming) (execs instant : Nat) (initial : Backend → BackendStatus)
    (clock : Timestamp) :
    (∀ t, (((proxy serde config timing).monitor (noteAccount config)).restrict Heeded).Reachable
        (.new config execs initial instant clock, fun _ => ⟨none, false⟩) t →
      Gated t ∧ Reported t) ∧
    ∀ t a t', (((proxy serde config timing).monitor (noteAccount config)).restrict
        Heeded).Reachable (.new config execs initial instant clock, fun _ => ⟨none, false⟩) t →
      ((proxy serde config timing).monitor (noteAccount config)).step t a = some t' →
      ¬ Heeded t a → ¬ Gated t' ∨ ¬ Reported t' := by
  constructor
  · intro t ht
    have audited := audited_reachable ht
    constructor
    · intro i exec here kind forwarding
      exact (audited i exec here).cleared.able kind (forwards_of_forwarding forwarding)
    · intro i exec response here hpc
      refine Bool.eq_false_iff.mpr fun owes => ?_
      have debt := (audited i exec here).debt owes
      rw [Orchestrator.stage, hpc] at debt
      cases debt
  · intro t a t' ht h bypassed
    obtain ⟨i, input, exec, rfl, here, kind, hcase⟩ := of_bypassed bypassed
    obtain ⟨u, accounts⟩ := t'
    obtain ⟨hstep, hnote⟩ := System.monitor_step_iff.mp h
    obtain ⟨other, hother, hrest⟩ := Option.bind_eq_some_iff.mp hstep
    obtain rfl : exec = other := Option.some.inj (here.symm.trans hother)
    obtain ⟨manager, _, hrest⟩ := Option.bind_eq_some_iff.mp hrest
    obtain ⟨o, hexec, hu⟩ := Option.bind_eq_some_iff.mp hrest
    cases hu
    simp only at hnote
    obtain ⟨status, rfl, hpc, degraded⟩ | ⟨text, rfl, hpc, unstreamed⟩ := hcase
    · left
      simp only [Orchestrator.execStep, hpc, Orchestrator.afterRetryDecision,
        Option.some.injEq] at hexec
      refine not_gated_of_degraded here kind hexec.symm ?_ degraded
      simp [hnote, noteAccount, readiness]
    · right
      simp only [Orchestrator.execStep, hpc] at hexec
      obtain rfl := owing_of_unsupported kind unstreamed hexec
      intro reported
      have paid := reported i _ _ (getElem?_set_of_some here _) rfl
      simp only [hnote, noteAccount, Function.update_self] at paid
      rw [newEvents_of_log [.forwarded i (.error .embeddingsUnsupported)] rfl] at paid
      cases paid

section Bypassed

def twoBackends : AppConfig :=
  { oneAtATime with embeddingsBackend := some { modelAlias := ['e'], tunnelLocalPort := 8081 } }

/-- A request for embeddings is sent to a backend that is ready. -/
def askSchedule : List Proxy.Action :=
  [.exec 0 (.enter .embeddings false), .exec 0 (.status servingStatus), .exec 0 .call,
    .lifecycle .embeddings (.client 0 .run), .lifecycle .embeddings (.client 0 .run),
    .exec 0 (.decide (.ready servingStatus)), .exec 0 .run, .exec 0 .run, .exec 0 .run,
    .exec 0 .run]

/-- What the helper answers where only chat works. -/
def observedDegraded : Lifecycle.ObservedBackendState :=
  { Lifecycle.observedReady with embeddings := .degraded }

/-- The upstream cannot be connected to; a round finds the backend ready again. -/
def askAgainSchedule (observed : Lifecycle.ObservedBackendState) : List Proxy.Action :=
  [.exec 0 (.forward (.failed { isConnect := true, isTimeout := false, status := none,
                                message := "" })),
    .exec 0 .run, .exec 0 .call] ++
    List.replicate 6 (.lifecycle .embeddings (.client 0 .run)) ++
    [.lifecycle .embeddings (.client 0 (.answer (.ssh (.ok true)))),
      .lifecycle .embeddings (.client 0 (.answer (.helper (.ok observed)))),
      .lifecycle .embeddings (.client 0 (.answer (.tunnel (.ok .ready)))),
      .lifecycle .embeddings (.client 0 .run), .lifecycle .embeddings (.client 0 .run),
      .exec 0 (.decide (.ready ((servingStatus.withObserved observed).withTunnel .ready)))]

/-- It answers that it does not support embeddings. -/
def unsupportedSchedule : List Proxy.Action :=
  [.exec 0 (.forward .deliver), .exec 0 (.forward (.answered 404)), .exec 0 (.forward (.body none))]

def answeredSchedule : List Proxy.Action :=
  askSchedule ++ unsupportedSchedule ++
    [.exec 0 .run, .exec 0 .call, .lifecycle .embeddings (.client 0 .run),
      .lifecycle .embeddings (.client 0 .run), .exec 0 .degraded]

def ExecPc.replies : ExecPc → Bool
  | .returning _ => true
  | _ => false

/-- A first forward that is answered so is reported to the embeddings lifecycle, and not to
the other one, before the response is returned. -/
theorem embeddings_gated_and_reported_first :
    ∃ t, (((proxy SerdeJson.mute twoBackends Lifecycle.exampleTiming).monitor
        (noteAccount twoBackends)).restrict Heeded).Reachable
        (.new twoBackends 1 (fun _ => servingStatus) 0 ⟨0⟩, fun _ => ⟨none, false⟩) t ∧
      (t.1.orchestrator.execs[0]?.any (·.pc.replies) = true ∧
        (t.1.lifecycles .embeddings).core.status.value.embeddings = .degraded ∧
        (t.1.lifecycles .chat).core.status.value.embeddings = .ready) ∧
      Gated t ∧ Reported t := by
  have answered : ∃ t, (((proxy SerdeJson.mute twoBackends Lifecycle.exampleTiming).monitor
      (noteAccount twoBackends)).restrict Heeded).Reachable
        (.new twoBackends 1 (fun _ => servingStatus) 0 ⟨0⟩, fun _ => ⟨none, false⟩) t ∧
      (t.1.orchestrator.execs[0]?.any (·.pc.replies) = true ∧
        (t.1.lifecycles .embeddings).core.status.value.embeddings = .degraded ∧
        (t.1.lifecycles .chat).core.status.value.embeddings = .ready) :=
    System.reachable_of_check answeredSchedule (by decide)
  obtain ⟨t, ht, hanswered⟩ := answered
  exact ⟨t, ht, hanswered, (embeddings_gated_and_reported SerdeJson.mute twoBackends
    Lifecycle.exampleTiming 1 0 (fun _ => servingStatus) ⟨0⟩).1 t ht⟩

/-- Call 0 asks for embeddings of a backend that was ready with these degraded. -/
def asksDegraded (t : Proxy × EmbeddingsAccounts) : Bool :=
  (t.1.orchestrator.execs[0]?.any fun exec =>
    exec.kind = .embeddings && (t.1.orchestrator.stage 0 exec).forwarding) &&
    (t.2 0).ready.any fun status => status.embeddings = .degraded

theorem not_gated_of_asksDegraded {t : Proxy × EmbeddingsAccounts} (h : asksDegraded t = true) :
    ¬ Gated t := by
  intro hgated
  obtain ⟨hasks, hready⟩ := Bool.and_eq_true_iff.mp h
  obtain ⟨exec, here, hexec⟩ := (Option.any_eq_true _ _).mp hasks
  obtain ⟨status, told, degraded⟩ := (Option.any_eq_true _ _).mp hready
  simp only [Bool.and_eq_true, decide_eq_true_eq] at hexec degraded
  obtain ⟨status', told', able⟩ := hgated 0 exec here hexec.1 hexec.2
  obtain rfl : status = status' := Option.some.inj (told.symm.trans told')
  exact able degraded

/-- Call 0 is about to return a response without a report it owes. -/
def keepsQuiet (t : Proxy × EmbeddingsAccounts) : Bool :=
  (t.2 0).owes && t.1.orchestrator.execs[0]?.any (·.pc.replies)

theorem not_reported_of_keepsQuiet {t : Proxy × EmbeddingsAccounts} (h : keepsQuiet t = true) :
    ¬ Reported t := by
  intro reported
  obtain ⟨owes, hexec⟩ := Bool.and_eq_true_iff.mp h
  obtain ⟨exec, here, hpc⟩ := (Option.any_eq_true _ _).mp hexec
  cases hreplies : exec.pc with
  | returning response =>
      rw [reported 0 exec response here hreplies] at owes
      cases owes
  | _ =>
      rw [hreplies] at hpc
      cases hpc

/-- The second forward asks a backend that was ready with its embeddings degraded,
and is answered 404 without a report. -/
theorem second_forward_bypasses :
    (∃ t, ((proxy SerdeJson.mute twoBackends Lifecycle.exampleTiming).monitor
        (noteAccount twoBackends)).Reachable
        (.new twoBackends 1 (fun _ => servingStatus) 0 ⟨0⟩, fun _ => ⟨none, false⟩) t ∧
      ¬ Gated t) ∧
    ∃ t, ((proxy SerdeJson.mute twoBackends Lifecycle.exampleTiming).monitor
        (noteAccount twoBackends)).Reachable
        (.new twoBackends 1 (fun _ => servingStatus) 0 ⟨0⟩, fun _ => ⟨none, false⟩) t ∧
      ¬ Reported t := by
  have asks : ∃ t, ((proxy SerdeJson.mute twoBackends Lifecycle.exampleTiming).monitor
      (noteAccount twoBackends)).Reachable
        (.new twoBackends 1 (fun _ => servingStatus) 0 ⟨0⟩, fun _ => ⟨none, false⟩) t ∧
      asksDegraded t = true :=
    System.reachable_of_check (askSchedule ++ askAgainSchedule observedDegraded) (by decide)
  have quiet : ∃ t, ((proxy SerdeJson.mute twoBackends Lifecycle.exampleTiming).monitor
      (noteAccount twoBackends)).Reachable
        (.new twoBackends 1 (fun _ => servingStatus) 0 ⟨0⟩, fun _ => ⟨none, false⟩) t ∧
      keepsQuiet t = true :=
    System.reachable_of_check (askSchedule ++ askAgainSchedule Lifecycle.observedReady ++
      unsupportedSchedule) (by decide)
  obtain ⟨t, ht, hasks⟩ := asks
  obtain ⟨t', ht', hquiet⟩ := quiet
  exact ⟨⟨t, ht, not_gated_of_asksDegraded hasks⟩, t', ht', not_reported_of_keepsQuiet hquiet⟩

end Bypassed
end LlmWakeProxy.Orchestrate
