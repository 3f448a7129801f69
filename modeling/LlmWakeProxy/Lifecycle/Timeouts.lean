import LlmWakeProxy.Lifecycle.Coupling
import LlmWakeProxy.Lifecycle.Finish

/-!
What a waiter is told when its budget runs out. At the top of its loop it judges a
status that it borrowed before it looked at the round; after the timer it reads the
status again, and masks it by what it knew of the round before it began to wait.
While nothing but warming statuses is published between the timer and that read,
and no budget ends on a cold status whose round has finished meanwhile, the status
it returns is a warming one.
-/

namespace LlmWakeProxy.Lifecycle
open LlmWakeProxy.Library

variable {timing : LifecycleTiming} {core core' : Core}

/-- The calls made are calls of `ensure_backend` and `mark_warming`. -/
def WarmingCalls (_ : Manager) : Action → Prop
  | .begin _ (.degradeEmbeddings _) => False
  | _ => True

instance (s : Manager) (a : Action) : Decidable (WarmingCalls s a) :=
  match a with
  | .begin _ (.degradeEmbeddings _) => .isFalse id
  | .begin _ (.ensureBackend _) | .begin _ .markWarming | .begin _ (.markThenEnsure _)
  | .client _ _ | .drop _ | .task _ _ | .elapse _ _ => .isTrue trivial

def BackendStatus.Warming (status : BackendStatus) : Prop :=
  status.lifecycle = .warming ∧ status.tunnel ≠ .ready

instance (status : BackendStatus) : Decidable status.Warming :=
  inferInstanceAs (Decidable (_ ∧ _))

/-- Every answer that the backend is warming carries a status that says so. -/
def Manager.WarmingAnswers (s : Manager) : Prop :=
  ∀ status retryAfterSecs, .returned (.warming status retryAfterSecs) ∈ s.clients → status.Warming

/-- The client's budget has run out on a status that it did not take for stale, and
it is about to read the status again. -/
def ClientPc.expires : ClientPc → Bool
  | .waitTimedOut staleBootstrapView => !staleBootstrapView
  | _ => false

def announces (timing : LifecycleTiming) (s : Manager) (a : Action) : Bool :=
  ((lifecycle timing).step s a).any fun s' =>
    decide (s'.core.status.version ≠ s.core.status.version) &&
      decide (s'.core.status.value.lifecycle ≠ .warming)

/-- A waiter whose budget is spent takes the mutex with a cold status that it
borrowed before its round was over. -/
def judgesCold (s : Manager) : Action → Bool
  | .client i _ =>
      match s.clients[i]? with
      | some (.waitLock _ deadline draft) =>
          decide (draft.status.lifecycle = .cold) && !s.core.bootstrap.active &&
            decide (deadline ≤ s.core.instant)
      | _ => false
  | _ => false

/-- No budget ends on a cold status of a round that is over, and none but warming
statuses are published between a waiter's timer and its second read. -/
def SparesTimeouts (timing : LifecycleTiming) (s : Manager) (a : Action) : Prop :=
  judgesCold s a = false ∧
    (announces timing s a = true → ∀ pc ∈ s.clients, pc.expires = false)

instance (timing : LifecycleTiming) (s : Manager) (a : Action) :
    Decidable (SparesTimeouts timing s a) :=
  inferInstanceAs (Decidable (_ ∧ _))

theorem BackendStatus.Coupled.warming {status : BackendStatus} (h : status.Coupled)
    (warming : status.lifecycle = .warming) : status.Warming := by
  refine ⟨warming, fun ready => ?_⟩
  have hready := h.1.mpr ready
  rw [warming] at hready
  cases hready

theorem bootstrapWaitStatus_warming {status : BackendStatus} {stale : Bool}
    (h : stale = false → status.Warming) : (bootstrapWaitStatus status stale).Warming := by
  cases stale with
  | true => exact ⟨rfl, by simp [bootstrapWaitStatus]⟩
  | false => exact h rfl

/-! ### Publications -/

def Published (w w' : Watch BackendStatus) : Prop :=
  w' = w ∨ ∃ status, w' = w.send status

theorem Published.version_le {w w' : Watch BackendStatus} (h : Published w w') :
    w.version ≤ w'.version := by
  obtain rfl | ⟨status, rfl⟩ := h
  · exact Nat.le_refl _
  · exact Nat.le_succ _

theorem Published.eq_of_version {w w' : Watch BackendStatus} (h : Published w w')
    (version : w'.version = w.version) : w' = w := by
  obtain rfl | ⟨status, rfl⟩ := h
  · rfl
  · exact absurd version (Nat.succ_ne_self _)

theorem ObserveRule.published {wakeRequest : Option LifecycleRequest}
    {observeRequest : LifecycleRequest} {pc : ObservePc} {observation : Observation}
    (rule : ObserveRule core wakeRequest observeRequest pc core' observation) :
    Published core.status core'.status := by
  cases rule with
  | asleep | woken | starting | tunnelReady | tunnelNotReady => exact .inr ⟨_, rfl⟩
  | _ => exact .inl rfl

theorem ClientRule.published {pc pc' : ClientPc} (rule : ClientRule timing core pc core' pc') :
    Published core.status core'.status := by
  cases rule with
  | markPublish | degradePublish | leadFinish => exact .inr ⟨_, rfl⟩
  | leadPending _ _ _ _ _ _ observe | leadReady _ _ _ _ _ _ observe
  | handOver _ _ _ _ _ _ observe | leadFailed _ _ _ _ _ _ _ observe => exact observe.published
  | _ => exact .inl rfl

theorem TaskRule.published {pc pc' : TaskPc} (rule : TaskRule timing core pc core' pc') :
    Published core.status core'.status := by
  cases rule with
  | finish => exact .inr ⟨_, rfl⟩
  | pending _ _ _ _ _ observe | ready _ _ _ _ _ observe | warming _ _ _ _ _ observe
  | failed _ _ _ _ _ _ observe => exact observe.published
  | _ => exact .inl rfl

/-! ### What the clients hold -/

def ClientPc.TimeoutSound (w : Watch BackendStatus) : ClientPc → Prop
  | .markPublish _ d => d.status.lifecycle = .warming
  | .degradeBorrow _ | .degradePublish _ => False
  | .leadRequest _ _ wait | .lead _ _ wait _ | .waitEnter wait | .waitBorrow wait _ =>
      wait.rx.seen ≤ w.version
  | .leadReread _ => w.value.lifecycle ≠ .cold
  | .leadFinish d _ decision =>
      d.status.lifecycle ≠ .cold ∧ ∀ status retry, decision ≠ .warming status retry
  | .waitLock wait _ d => wait.rx.seen ≤ d.base ∧ Watch.Grounded (· = ·) w d.base d.status
  | .waitChanged wait _ stale =>
      wait.rx.seen ≤ w.version ∧
        (wait.rx.seen = w.version → stale = false → w.value.lifecycle = .warming)
  | .waitTimedOut stale => stale = false → w.value.lifecycle = .warming
  | .returned (.warming status _) => status.Warming
  | _ => True

def TaskPc.EndsRound : TaskPc → Prop
  | .finish d _ => d.status.lifecycle ≠ .cold
  | _ => True

/-- Somebody else's publication keeps a client's place as it is, unless it comes
between the timer and the second read, or between a leader's two looks at the
status, and is not a warming one. -/
theorem ClientPc.TimeoutSound.published {w w' : Watch BackendStatus} {pc : ClientPc}
    (h : pc.TimeoutSound w)
    (published : Published w w')
    (spared : w' ≠ w → w'.value.lifecycle ≠ .warming → pc.expires = false)
    (kept : pc.rereads = true → w' = w ∨ w'.value.lifecycle = .warming) : pc.TimeoutSound w' := by
  obtain rfl | ⟨status, rfl⟩ := published
  · exact h
  have sent : w.send status ≠ w := fun same =>
    Nat.succ_ne_self w.version (congrArg Watch.version same)
  have later : w.version < (w.send status).version := Nat.lt_succ_self _
  cases pc with
  | leadRequest | lead | waitEnter | waitBorrow => exact Nat.le_of_lt (Nat.lt_of_le_of_lt h later)
  | leadReread =>
      obtain same | warming := kept rfl
      · exact absurd same sent
      · intro cold
        cases warming.symm.trans cold
  | waitLock wait deadline d =>
      obtain ⟨seen, base, _⟩ := h
      exact ⟨seen, Watch.grounded_of_lt (Nat.lt_of_le_of_lt base later)⟩
  | waitChanged wait deadline stale =>
      have seen := Nat.lt_of_le_of_lt h.1 later
      exact ⟨Nat.le_of_lt seen, fun same => absurd same (Nat.ne_of_lt seen)⟩
  | waitTimedOut stale =>
      rintro rfl
      by_contra warming
      cases spared sent warming
  | idle | markBorrow | markPublish | degradeBorrow | degradePublish | ensure | checkActive
  | startOrJoin | leadFinish | dropped | panicked => exact h
  | returned decision => cases decision <;> exact h

/-- A status that a waiter does not return, and does not take for stale, is neither
ready nor an error. -/
theorem waitVerdict_open {bootstrap : BootstrapState} {instant deadline : Instant}
    {status : BackendStatus} {verdict : Option LifecycleDecision}
    (h : waitVerdict timing bootstrap instant deadline status false = verdict)
    (notReady : verdict ≠ some (.ready status))
    (notFailed : ∀ error, verdict ≠ some (.failed status error)) :
    backendIsReady status = false ∧ status.lifecycle ≠ .error := by
  subst h
  have open_ : backendIsReady status = false := by
    refine Bool.eq_false_iff.mpr fun ready => notReady ?_
    simp only [waitVerdict, ready, Bool.not_false, Bool.and_self, if_true]
  refine ⟨open_, fun error => notFailed (bootstrap.lastError.getD backendReportedErrorState) ?_⟩
  simp only [waitVerdict, open_, error, Bool.and_false, Bool.false_eq_true, if_false,
    Bool.not_false, decide_true, Bool.and_self, if_true]

/-- A waiter that answers that the backend is warming has spent its budget. -/
theorem waitVerdict_warming {bootstrap : BootstrapState} {instant deadline : Instant}
    {status shown : BackendStatus} {stale : Bool} {retryAfterSecs : UInt64}
    (h : waitVerdict timing bootstrap instant deadline status stale =
      some (.warming shown retryAfterSecs)) :
    deadline ≤ instant ∧ shown = bootstrapWaitStatus status stale := by
  unfold waitVerdict at h
  split at h
  next => cases h
  next =>
    split at h
    next => cases h
    next =>
      split at h
      next late =>
        cases h
        exact ⟨late, rfl⟩
      next => cases h

/-- Of a coupled status that is neither ready nor an error, only a cold one is not
warming. -/
theorem BackendStatus.Coupled.cold_or_warming {status : BackendStatus} (h : status.Coupled)
    (open_ : backendIsReady status = false ∧ status.lifecycle ≠ .error) :
    status.lifecycle = .cold ∨ status.lifecycle = .warming := by
  obtain ⟨notReady, notError⟩ := open_
  cases hlifecycle : status.lifecycle with
  | cold => exact .inl rfl
  | warming => exact .inr rfl
  | error => exact absurd hlifecycle notError
  | ready =>
      have ready := backendIsReady_iff.mpr ⟨hlifecycle, h.1.mp hlifecycle⟩
      cases notReady.symm.trans ready

/-- A view that is not stale and not warming is of a round that is over. -/
theorem idle_of_fresh {bootstrap : BootstrapState} {status : BackendStatus}
    (fresh : staleBootstrapView bootstrap status = false) (cold : status.lifecycle = .cold) :
    bootstrap.active = false := by
  simpa [staleBootstrapView, cold] using fresh

/-- A client's own step. The first two of the conditions are what the round's state
and the published status come to; the last is on a verdict that it may give. -/
theorem ClientRule.timeoutSound {pc pc' : ClientPc} (rule : ClientRule timing core pc core' pc')
    (h : pc.TimeoutSound core.status) (coupled : core.Coupled) (hpc : pc.Coupled)
    (cold : pc.waits = true → core.status.value.lifecycle = .cold → core.bootstrap.active = true)
    (spares : ∀ wait deadline d, pc = .waitLock wait deadline d → d.status.lifecycle = .cold →
      core.bootstrap.active = false → core.instant < deadline) :
    pc'.TimeoutSound core'.status := by
  have later : core.status.version ≤ core'.status.version := rule.published.version_le
  cases rule with
  | markBorrow next => rfl
  | markPublish next d => cases next <;> trivial
  | degradeBorrow | degradePublish => exact h.elim
  | start | join => exact Nat.le_refl _
  | readRequest | waitEnter => exact h
  | leadPending | handOver => exact Nat.le_trans h later
  | leadReady request observeRequest wait pc core₁ d observe =>
      obtain ⟨hpublished, hready⟩ := observe.ready_published
      intro hcold
      rw [hpublished, (backendIsReady_iff.mp hready).1] at hcold
      cases hcold
  | leadFailed request observeRequest wait pc core₁ d error observe =>
      refine ⟨?_, by simp⟩
      rw [observe.failed_lifecycle]
      simp
  | reread status => exact ⟨h, by simp⟩
  | leadFinish d error decision =>
      cases decision with
      | warming status retry => exact absurd rfl (h.2 status retry)
      | ready | failed => trivial
  | waitBorrow wait deadline => exact ⟨h, Watch.grounded_borrow _ rfl⟩
  | waitReturn wait deadline d decision verdict =>
      cases decision with
      | ready | failed => trivial
      | warming shown retry =>
          obtain ⟨late, rfl⟩ := waitVerdict_warming verdict
          refine bootstrapWaitStatus_warming fun fresh => ?_
          rw [fresh] at verdict
          have open_ := waitVerdict_open verdict (by simp) (by simp)
          obtain hcold | hwarming := BackendStatus.Coupled.cold_or_warming hpc open_
          · have idle := idle_of_fresh fresh hcold
            exact absurd late (Nat.not_le.mpr (spares wait deadline d rfl hcold idle))
          · exact BackendStatus.Coupled.warming hpc hwarming
  | waitOn wait deadline d verdict =>
      obtain ⟨seen, base, current⟩ := h
      refine ⟨Nat.le_trans seen base, fun same fresh => ?_⟩
      have hcurrent := current (Nat.le_antisymm base (same ▸ seen))
      rw [fresh] at verdict
      have open_ := waitVerdict_open verdict (by simp) (by simp)
      obtain hcold | hwarming := BackendStatus.Coupled.cold_or_warming hpc open_
      · have idle := idle_of_fresh fresh hcold
        have active := cold rfl (hcurrent ▸ hcold)
        cases active.symm.trans idle
      · exact hcurrent ▸ hwarming
  | changed wait deadline stale fresh => exact Nat.le_refl _
  | timerFired wait deadline stale unchanged late =>
      have same : core.status.version = wait.rx.seen := by
        simpa [Watch.hasChanged] using unchanged
      exact h.2 same.symm
  | timedOut stale =>
      exact bootstrapWaitStatus_warming fun fresh => coupled.status.warming (h fresh)
  | borrowInitial | alreadyReady | notReady | waitOverflow => trivial

/-- A task ends its round with a status that is not cold. -/
theorem TaskRule.endsRound {pc pc' : TaskPc} (rule : TaskRule timing core pc core' pc') :
    pc'.EndsRound := by
  cases rule with
  | deadlineAtTop | deadlineAfterSleep =>
      intro cold
      cases cold
  | ready deadline observeRequest pc core₁ d observe =>
      intro cold
      rw [(backendIsReady_iff.mp observe.ready_published.2).1] at cold
      cases cold
  | failed deadline observeRequest pc core₁ d error observe =>
      intro cold
      rw [observe.failed_lifecycle] at cold
      cases cold
  | _ => trivial

/-! ### Runs -/

/-- A cold status is the published one only in a round, or while nobody waits. -/
def Manager.ColdHidden (s : Manager) : Prop :=
  s.core.status.value.lifecycle = .cold →
    s.core.bootstrap.active = true ∨ ∀ pc ∈ s.clients, pc.waits = false

structure Manager.TimeoutsSound (s : Manager) : Prop where
  coupled : s.Coupled
  cold : s.ColdHidden
  clients : ∀ pc ∈ s.clients, pc.TimeoutSound s.core.status
  tasks : ∀ pc ∈ s.core.tasks, pc.EndsRound

/-- A client's step that publishes a cold status, or finds one published, does so
in a round, unless it waits no more than before. -/
theorem ClientRule.coldHidden {pc pc' : ClientPc} (rule : ClientRule timing core pc core' pc')
    (h : pc.TimeoutSound core.status) (leads : pc.leads = true → core.bootstrap.active = true)
    (cold : core'.status.value.lifecycle = .cold) :
    core'.bootstrap.active = true ∨
      (core'.bootstrap.active = core.bootstrap.active ∧ core.status.value.lifecycle = .cold ∧
        (pc'.waits = true → pc.waits = true)) := by
  cases rule with
  | markPublish next d =>
      have warming : d.status.lifecycle = .warming := h
      cases warming.symm.trans cold
  | degradeBorrow | degradePublish => exact h.elim
  | start caller | join caller => exact .inl (startOrJoinBootstrap_active _ caller.request)
  | readRequest | reread => exact .inl (leads rfl)
  | leadPending _ _ _ _ _ _ observe | leadReady _ _ _ _ _ _ observe
  | handOver _ _ _ _ _ _ observe | leadFailed _ _ _ _ _ _ _ observe =>
      refine .inl ?_
      have active := leads rfl
      rw [← observe.frame.1] at active
      exact active
  | leadFinish d error decision => exact absurd cold h.1
  | waitReturn | timedOut | alreadyReady | markBorrow | borrowInitial | notReady
  | waitOverflow => exact .inr ⟨rfl, cold, by simp [ClientPc.waits]⟩
  | waitEnter | waitBorrow | waitOn | changed | timerFired =>
      exact .inr ⟨rfl, cold, fun _ => rfl⟩

/-- What the condition spares, for one step that publishes. -/
theorem SparesTimeouts.expires {s s' : Manager} {a : Action} (spares : SparesTimeouts timing s a)
    (published : Published s.core.status s'.core.status)
    (hstep : (lifecycle timing).step s a = some s') (sent : s'.core.status ≠ s.core.status)
    (notWarming : s'.core.status.value.lifecycle ≠ .warming) :
    ∀ pc ∈ s.clients, pc.expires = false := by
  refine spares.2 ?_
  have version : s'.core.status.version ≠ s.core.status.version := fun same =>
    sent (published.eq_of_version same)
  simp [announces, hstep, version, notWarming]

theorem ClientPc.leads_of_rereads {pc : ClientPc} (h : pc.rereads = true) : pc.leads = true := by
  cases pc <;> first | rfl | cases h

/-- A client that does not drive the round publishes only warming statuses. -/
theorem ClientRule.published_warming {pc pc' : ClientPc}
    (rule : ClientRule timing core pc core' pc') (h : pc.TimeoutSound core.status)
    (notLeads : pc.leads = false) :
    core'.status = core.status ∨ core'.status.value.lifecycle = .warming := by
  cases houtsider : pc.outsider with
  | false => exact .inl (rule.status_eq notLeads houtsider)
  | true =>
      cases rule with
      | markPublish next d => exact .inr h
      | degradePublish => exact h.elim
      | _ => cases houtsider

theorem timeoutsSound_client {s : Manager} {i : Nat} {input : Input} {pc pc' : ClientPc}
    (h : s.TimeoutsSound) (exclusive : s.flight.Exclusive)
    (here : s.clients[i]? = some pc) (rule : ClientRule timing s.core pc core' pc')
    (spares : SparesTimeouts timing s (.client i input))
    (hstep : (lifecycle timing).step s (.client i input) =
      some { core := core', clients := s.clients.set i pc' }) :
    ({ core := core', clients := s.clients.set i pc' } : Manager).TimeoutsSound := by
  have hpc := List.mem_of_getElem? here
  have leads := active_of_leads exclusive here
  have coupled : ({ core := core', clients := s.clients.set i pc' } : Manager).Coupled :=
    coupled_step h.coupled (step_cases hstep)
  have own : pc'.TimeoutSound core'.status := by
    refine rule.timeoutSound (h.clients pc hpc) h.coupled.core (h.coupled.clients pc hpc) ?_ ?_
    · intro waits cold
      obtain active | nobody := h.cold cold
      · exact active
      · cases waits.symm.trans (nobody pc hpc)
    · rintro wait deadline d rfl cold idle
      simpa [judgesCold, here, cold, idle] using spares.1
  refine ⟨coupled, ?_, ?_, ?_⟩
  · intro cold
    obtain active | ⟨same, before, waits⟩ := rule.coldHidden (h.clients pc hpc) leads cold
    · exact .inl active
    · obtain active | nobody := h.cold before
      · exact .inl (same.trans active)
      · refine .inr (forall_mem_set nobody (Bool.eq_false_iff.mpr fun hwaits => ?_))
        cases (waits hwaits).symm.trans (nobody pc hpc)
  · intro other hother
    obtain rfl | ⟨j, hj, there⟩ := mem_set_cases hother
    · exact own
    · have hmem := List.mem_of_getElem? there
      refine (h.clients other hmem).published rule.published ?_ ?_
      · intro sent notWarming
        exact spares.expires rule.published hstep sent notWarming other hmem
      · intro rereads
        have otherLeads := ClientPc.leads_of_rereads rereads
        refine rule.published_warming (h.clients pc hpc) (Bool.eq_false_iff.mpr fun pcLeads => ?_)
        exact hj (leader_unique exclusive there here otherLeads pcLeads)
  · intro task htask
    obtain hold | rfl := rule.tasks_mem htask
    · exact h.tasks task hold
    · trivial

theorem timeoutsSound_task {s : Manager} {k : Nat} {input : Input} {pc pc' : TaskPc}
    (h : s.TimeoutsSound) (exclusive : s.flight.Exclusive)
    (here : s.core.tasks[k]? = some pc) (rule : TaskRule timing s.core pc core' pc')
    (spares : SparesTimeouts timing s (.task k input))
    (hstep : (lifecycle timing).step s (.task k input) =
      some { s with core := { core' with tasks := core'.tasks.set k pc' } }) :
    ({ s with core := { core' with tasks := core'.tasks.set k pc' } } : Manager).TimeoutsSound := by
  obtain ⟨active, followers⟩ := task_drives exclusive here rule.running
  refine ⟨coupled_step h.coupled (step_cases hstep), ?_, ?_, ?_⟩
  · intro cold
    cases rule.turn with
    | keep same | abandon _ same => exact .inl (same.trans active)
    | release _ _ after =>
        subst after
        have ends := h.tasks pc (List.mem_of_getElem? here)
        cases rule with
        | finish d error => exact absurd cold ends
  · intro other hother
    refine (h.clients other hother).published rule.published ?_ ?_
    · intro sent notWarming
      exact spares.expires rule.published hstep sent notWarming other hother
    · intro rereads
      cases (ClientPc.leads_of_rereads rereads).symm.trans (followers other hother)
  · simp only [rule.tasks]
    exact forall_mem_set h.tasks rule.endsRound

theorem timeoutsSound_step {s s' : Manager} {a : Action} (h : s.TimeoutsSound)
    (exclusive : s.flight.Exclusive) (scope : WarmingCalls s a)
    (spares : SparesTimeouts timing s a) (hstep : (lifecycle timing).step s a = some s') :
    s'.TimeoutsSound := by
  have rule := step_cases hstep
  have coupled : s'.Coupled := coupled_step h.coupled rule
  cases rule with
  | begin i op pc here free =>
      refine ⟨coupled, ?_, forall_mem_set h.clients ?_, h.tasks⟩
      · exact fun cold => (h.cold cold).imp_right fun nobody =>
          forall_mem_set nobody (entry_waits op)
      · cases op with
        | degradeEmbeddings reason => exact scope.elim
        | _ => trivial
  | client i input pc pc' core' here rule =>
      exact timeoutsSound_client h exclusive here rule spares hstep
  | drop i pc here suspended =>
      refine ⟨coupled, ?_, forall_mem_set h.clients trivial, h.tasks⟩
      exact fun cold => (h.cold cold).imp_right fun nobody => forall_mem_set nobody rfl
  | task k input pc pc' core' here rule =>
      exact timeoutsSound_task h exclusive here rule spares hstep
  | elapse span clock => exact ⟨coupled, h.cold, h.clients, h.tasks⟩

section Reachable

variable {clients : Nat} {initialStatus : BackendStatus} {instant : Instant} {clock : Timestamp}
  {s : Manager}

theorem timeoutsSound_of_reachable (hinitial : initialStatus.Coupled)
    (h : (((lifecycle timing).restrict WarmingCalls).restrict (SparesTimeouts timing)).Reachable
      (.new clients initialStatus instant clock) s) : s.TimeoutsSound := by
  have invariant : s.flight.Exclusive ∧ s.TimeoutsSound := by
    refine h.invariant_restrict (I := fun t => t.flight.Exclusive ∧ t.TimeoutsSound) ?_ ?_
    · refine ⟨by simp [Flight.Exclusive, new_flight], coupled_new _ _ _ hinitial, ?_, ?_, ?_⟩
      · intro _
        refine .inr fun pc hpc => ?_
        rw [List.eq_of_mem_replicate hpc]
        rfl
      · intro pc hpc
        rw [List.eq_of_mem_replicate hpc]
        trivial
      · simp [Manager.new]
    · rintro t a t' ⟨exclusive, sound⟩ spares hstep
      obtain ⟨scope, hstep⟩ := System.restrict_step_iff.mp hstep
      exact ⟨exclusive_step exclusive (step_cases hstep),
        timeoutsSound_step sound exclusive scope spares hstep⟩
  exact invariant.2

/-- A waiter that judges a cold status of a round that is over answers with it. -/
theorem judgesCold_answers {s' : Manager} {a : Action} (judges : judgesCold s a = true)
    (hstep : (lifecycle timing).step s a = some s') : ¬ s'.WarmingAnswers := by
  have rule := step_cases hstep
  cases rule with
  | begin | drop | task | elapse => cases judges
  | client i input pc pc' core' here rule =>
      simp only [judgesCold, here] at judges
      cases pc with
      | waitLock wait deadline d =>
          simp only [Bool.and_eq_true, decide_eq_true_eq, Bool.not_eq_true'] at judges
          obtain ⟨⟨cold, idle⟩, late⟩ := judges
          have verdict : waitVerdict timing s.core.bootstrap s.core.instant deadline d.status
              (staleBootstrapView s.core.bootstrap d.status) =
                some (.warming d.status timing.retryAfterSecs) := by
            simp [waitVerdict, staleBootstrapView, backendIsReady, bootstrapWaitStatus, cold, idle,
              late]
          cases rule with
          | waitReturn _ _ _ decision hverdict =>
              cases verdict.symm.trans hverdict
              intro answers
              have member := List.mem_of_getElem? (getElem?_set_of_some here
                (ClientPc.returned (.warming d.status timing.retryAfterSecs)))
              cases cold.symm.trans (answers _ _ member).1
          | waitOn _ _ _ hverdict => cases verdict.symm.trans hverdict
      | _ => cases judges

/-- A publication leaves a client whose timer has fired where it is. -/
theorem expired_stays {s' : Manager} {a : Action} {j : Nat}
    (there : s.clients[j]? = some (.waitTimedOut false))
    (hstep : (lifecycle timing).step s a = some s')
    (sent : s'.core.status.version ≠ s.core.status.version) :
    s'.clients[j]? = some (.waitTimedOut false) := by
  have rule := step_cases hstep
  cases rule with
  | begin | drop | elapse => exact absurd rfl sent
  | task => exact there
  | client i input pc pc' core' here rule =>
      by_cases hji : i = j
      · subst hji
        obtain rfl := Option.some.inj (here.symm.trans there)
        cases rule with
        | timedOut => exact absurd rfl sent
      · rw [← there]
        exact List.getElem?_set_ne hji

/-- What is published before a second read is answered with. -/
theorem announced_answers {s' : Manager} {a : Action} {pc : ClientPc}
    (announced : announces timing s a = true) (hpc : pc ∈ s.clients) (expires : pc.expires = true)
    (hstep : (lifecycle timing).step s a = some s') :
    ∃ j s'', (lifecycle timing).step s' (.client j .run) = some s'' ∧ ¬ s''.WarmingAnswers := by
  obtain ⟨j, there⟩ := List.mem_iff_getElem?.mp hpc
  obtain rfl : pc = .waitTimedOut false := by
    cases pc with
    | waitTimedOut stale =>
        cases stale with
        | false => rfl
        | true => cases expires
    | _ => cases expires
  simp only [announces, hstep, Option.any_some, Bool.and_eq_true, decide_eq_true_eq] at announced
  obtain ⟨sent, notWarming⟩ := announced
  have there' := expired_stays there hstep sent
  refine ⟨j, { s' with clients := s'.clients.set j (.returned (.warming
    (bootstrapWaitStatus s'.core.status.value false) timing.retryAfterSecs)) }, ?_, ?_⟩
  · simp [lifecycle, Manager.step, there', clientStep]
  · intro answers
    exact notWarming (answers _ _ (List.mem_of_getElem? (getElem?_set_of_some there' _))).1

/-- In every run of `ensure_backend` and `mark_warming` calls whose steps all meet
the condition, every answer that the backend is warming carries a warming status,
and the first step that does not meet it leads to one that does not. -/
theorem warming_answers_say_warming (hinitial : initialStatus.Coupled) :
    (∀ s, (((lifecycle timing).restrict WarmingCalls).restrict (SparesTimeouts timing)).Reachable
        (.new clients initialStatus instant clock) s → s.WarmingAnswers) ∧
    ∀ s a s', (((lifecycle timing).restrict WarmingCalls).restrict (SparesTimeouts timing)).Reachable
        (.new clients initialStatus instant clock) s →
      ((lifecycle timing).restrict WarmingCalls).step s a = some s' →
      ¬ SparesTimeouts timing s a →
      ∃ u, ((lifecycle timing).restrict WarmingCalls).Reachable s' u ∧ ¬ u.WarmingAnswers := by
  constructor
  · intro s hs status retryAfterSecs member
    exact (timeoutsSound_of_reachable hinitial hs).clients _ member
  · intro s a s' _ h disturbs
    obtain ⟨_, hstep⟩ := System.restrict_step_iff.mp h
    cases judges : judgesCold s a with
    | true => exact ⟨s', .refl, judgesCold_answers judges hstep⟩
    | false =>
        obtain ⟨announced, pc, hpc, expires⟩ : announces timing s a = true ∧
            ∃ pc ∈ s.clients, pc.expires = true := by
          simpa [SparesTimeouts, judges] using disturbs
        obtain ⟨j, s'', hnext, answers⟩ := announced_answers announced hpc expires hstep
        have plain : WarmingCalls s' (.client j .run) := trivial
        exact ⟨s'', .step .refl (System.restrict_step_iff.mpr ⟨plain, hnext⟩), answers⟩

end Reachable

/-- A client wakes the backend, and goes on to wait on the warming status until its
budget is spent. -/
def timeoutSchedule : List Action :=
  leadSchedule 0 .chat ++
    [.client 0 (.answer (.ssh (.ok false))), .client 0 (.answer (.wake (.ok ()))),
      .client 0 .run, .client 0 .run, .client 0 .run, .client 0 .run, .client 0 .run,
      .client 0 .run, .task 0 .run, .task 0 .run, .elapse (Duration.fromMillis 10) ⟨0⟩,
      .task 0 .run, .task 0 .run, .task 0 (.answer (.ssh (.ok true))),
      .task 0 (.answer (.helper (.ok observedReady))), .elapse (Duration.fromMillis 990) ⟨1⟩,
      .client 0 .timeout]

/-- A second client joins the round with the cold status it was called with, and
looks at the round only when it is over. -/
def coldJoinSchedule : List Action :=
  leadSchedule 0 .chat ++
    [.begin 1 (.ensureBackend .chat), .client 1 .run, .client 1 .run, .client 1 .run,
      .client 1 .run, .client 1 .run, .elapse (Duration.fromSecs 1) ⟨1⟩,
      .client 0 (.answer (.ssh (.ok true))), .client 0 (.answer (.helper (.ok observedReady))),
      .client 0 (.answer (.tunnel (.ok .ready))), .client 0 .run, .client 0 .run, .client 1 .run]

def ClientPc.answersWarmingWith (lifecycle : LifecycleState) : ClientPc → Bool
  | .returned (.warming status _) => decide (status.lifecycle = lifecycle)
  | _ => false

theorem warming_answers_say_warming_timeout :
    ∃ s, (((lifecycle exampleTiming).restrict WarmingCalls).restrict
        (SparesTimeouts exampleTiming)).Reachable (.new 2 .default 0 ⟨0⟩) s ∧
      s.clients.any (·.answersWarmingWith .warming) = true ∧ s.WarmingAnswers := by
  obtain ⟨s, reached, answered⟩ : ∃ s, (((lifecycle exampleTiming).restrict WarmingCalls).restrict
      (SparesTimeouts exampleTiming)).Reachable (.new 2 .default 0 ⟨0⟩) s ∧
        s.clients.any (·.answersWarmingWith .warming) = true :=
    System.reachable_of_check (timeoutSchedule ++ [.client 0 .run]) (by decide)
  exact ⟨s, reached, answered, (warming_answers_say_warming (by decide)).1 s reached⟩

theorem not_warmingAnswers {s : Manager} {shown : LifecycleState}
    (answered : s.clients.any (·.answersWarmingWith shown) = true) (notWarming : shown ≠ .warming) :
    ¬ s.WarmingAnswers := by
  intro answers
  obtain ⟨pc, hpc, hanswer⟩ := List.any_eq_true.mp answered
  cases pc with
  | returned decision =>
      cases decision with
      | warming status retryAfterSecs =>
          have hshown : status.lifecycle = shown := of_decide_eq_true hanswer
          exact notWarming (hshown.symm.trans (answers status retryAfterSecs hpc).1)
      | ready | failed => cases hanswer
  | _ => cases hanswer

/-- The task publishes that the backend is ready between a client's timer and its
second read. In another run a client's budget ends on a cold status while the round
it has joined is finished. -/
theorem late_waiters_answer_ready_and_cold :
    (¬ ∀ (timing : LifecycleTiming) (clients : Nat) (instant : Instant) (clock : Timestamp)
      (s : Manager), ((lifecycle timing).restrict WarmingCalls).Reachable
        (.new clients .default instant clock) s → s.WarmingAnswers) ∧
    ∃ s, ((lifecycle exampleTiming).restrict WarmingCalls).Reachable (.new 2 .default 0 ⟨0⟩) s ∧
      s.clients.any (·.answersWarmingWith .cold) = true := by
  refine ⟨fun claim => ?_, System.reachable_of_check coldJoinSchedule (by decide)⟩
  obtain ⟨s, reached, answered⟩ : ∃ s, ((lifecycle exampleTiming).restrict WarmingCalls).Reachable
      (.new 2 .default 0 ⟨0⟩) s ∧ s.clients.any (·.answersWarmingWith .ready) = true :=
    System.reachable_of_check
      (timeoutSchedule ++ [.task 0 (.answer (.tunnel (.ok .ready))), .client 0 .run]) (by decide)
  exact not_warmingAnswers answered (by decide) (claim _ _ _ _ s reached)

end LlmWakeProxy.Lifecycle
