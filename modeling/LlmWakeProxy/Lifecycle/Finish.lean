import LlmWakeProxy.Lifecycle.Ownership

/-!
What a round finishes with. The background task finishes with the status it
observed; a leader that found the backend ready reads the published status again
and finishes with what it reads. As long as nobody publishes between its
observation and that second read, every `finish_bootstrap` publishes a ready
status without an error or an error status with one, and no waiter is left
parked on a warming status that nobody is going to change.
-/

namespace LlmWakeProxy.Lifecycle
open LlmWakeProxy.Library

variable {timing : LifecycleTiming} {core core' : Core}

/-! ### Who publishes -/

/-- The client is about to publish without driving the round. -/
def ClientPc.outsider : ClientPc → Bool
  | .markPublish .. | .degradePublish _ => true
  | _ => false

/-- Besides these, only the leader's steps change the published status. -/
theorem ClientRule.status_eq {pc pc' : ClientPc} (rule : ClientRule timing core pc core' pc')
    (notLeads : pc.leads = false) (notOutsider : pc.outsider = false) :
    core'.status = core.status := by
  cases rule with
  | markPublish | degradePublish => cases notOutsider
  | leadPending | leadReady | handOver | leadFailed | leadFinish => cases notLeads
  | _ => rfl

/-! ### What a finish publishes -/

/-- A round ends ready and without an error, or in error and with one. -/
def FinishCoherent (status : BackendStatus) (error : Option LifecycleError) : Prop :=
  (status.lifecycle = .ready ∧ status.tunnel = .ready ∧ error = none) ∨
    (status.lifecycle = .error ∧ error.isSome = true)

instance (status : BackendStatus) (error : Option LifecycleError) :
    Decidable (FinishCoherent status error) :=
  inferInstanceAs (Decidable (_ ∨ _))

theorem finishCoherent_ready {status : BackendStatus} (h : backendIsReady status = true) :
    FinishCoherent status none :=
  .inl ⟨(backendIsReady_iff.mp h).1, (backendIsReady_iff.mp h).2, rfl⟩

theorem finishCoherent_error {status : BackendStatus} (h : status.lifecycle = .error)
    (error : LifecycleError) : FinishCoherent status (some error) :=
  .inr ⟨h, rfl⟩

theorem FinishCoherent.not_warming {status : BackendStatus} {error : Option LifecycleError}
    (h : FinishCoherent status error) : status.lifecycle ≠ .warming := by
  rcases h with ⟨hlifecycle, _⟩ | ⟨hlifecycle, _⟩ <;> simp [hlifecycle]

/-- A leader that has seen the backend ready and has not yet read the published
status again. -/
def ClientPc.rereads : ClientPc → Bool
  | .leadReread _ => true
  | _ => false

/-- What a client will finish with, given the published status. -/
def ClientPc.Coherent (published : BackendStatus) : ClientPc → Prop
  | .leadReread _ => backendIsReady published = true
  | .leadFinish d error _ => FinishCoherent d.status error
  | _ => True

def TaskPc.Coherent : TaskPc → Prop
  | .finish d error => FinishCoherent d.status error
  | _ => True

def Event.Coherent : Event → Prop
  | .published (.finishBootstrap error) d _ => FinishCoherent d.status error
  | _ => True

theorem ClientPc.coherent_of_not_leads {published : BackendStatus} {pc : ClientPc}
    (h : pc.leads = false) : pc.Coherent published := by
  cases pc with
  | leadReread | leadFinish => cases h
  | _ => trivial

/-- Only a leader about to reread depends on what is published. -/
theorem ClientPc.Coherent.of_not_rereads {published published' : BackendStatus} {pc : ClientPc}
    (h : pc.Coherent published) (notRereads : pc.rereads = false) : pc.Coherent published' := by
  cases pc with
  | leadReread => cases notRereads
  | _ => exact h

def Core.FinishesCoherent (core : Core) : Prop := ∀ event ∈ core.log, event.Coherent

theorem ObserveRule.coherent {wakeRequest : Option LifecycleRequest}
    {observeRequest : LifecycleRequest} {pc : ObservePc} {observation : Observation}
    (rule : ObserveRule core wakeRequest observeRequest pc core' observation)
    (h : core.FinishesCoherent) : core'.FinishesCoherent := by
  cases rule with
  | sshFailed | woken | starting | tunnelReady | tunnelNotReady =>
      exact List.forall_mem_cons.mpr ⟨by trivial, h⟩
  | wake | asleep | awake =>
      exact List.forall_mem_cons.mpr ⟨by trivial, List.forall_mem_cons.mpr ⟨by trivial, h⟩⟩
  | _ => exact h

theorem ObserveRule.ready_published {wakeRequest : Option LifecycleRequest}
    {observeRequest : LifecycleRequest} {pc : ObservePc} {d : Draft}
    (rule : ObserveRule core wakeRequest observeRequest pc core' (.ready d)) :
    core'.status.value = d.status ∧ backendIsReady d.status = true := by
  cases rule with
  | tunnelReady d tunnel ready => exact ⟨rfl, ready⟩

theorem ObserveRule.failed_lifecycle {wakeRequest : Option LifecycleRequest}
    {observeRequest : LifecycleRequest} {pc : ObservePc} {d : Draft} {error : LifecycleError}
    (rule : ObserveRule core wakeRequest observeRequest pc core' (.failed d error)) :
    d.status.lifecycle = .error := by
  cases rule with
  | reportedError d o ho => exact ho
  | _ => rfl

theorem ClientRule.coherent {pc pc' : ClientPc} (rule : ClientRule timing core pc core' pc')
    (h : core.FinishesCoherent) (hpc : pc.Coherent core.status.value) :
    core'.FinishesCoherent ∧ pc'.Coherent core'.status.value := by
  cases rule with
  | markPublish next d =>
      exact ⟨List.forall_mem_cons.mpr ⟨by trivial, h⟩,
        ClientPc.coherent_of_not_leads (afterMark_leads next)⟩
  | degradePublish | start | waitReturn =>
      exact ⟨List.forall_mem_cons.mpr ⟨by trivial, h⟩, trivial⟩
  | leadPending request observeRequest wait pc pc' core₁ observe =>
      exact ⟨observe.coherent h, trivial⟩
  | leadReady request observeRequest wait pc core₁ d observe =>
      obtain ⟨hpublished, hready⟩ := observe.ready_published
      refine ⟨observe.coherent h, ?_⟩
      simpa only [ClientPc.Coherent, hpublished] using hready
  | handOver request observeRequest wait pc core₁ d observe =>
      exact ⟨List.forall_mem_cons.mpr ⟨by trivial, observe.coherent h⟩, trivial⟩
  | leadFailed request observeRequest wait pc core₁ d error observe =>
      exact ⟨observe.coherent h, finishCoherent_error observe.failed_lifecycle error⟩
  | reread status => exact ⟨h, finishCoherent_ready hpc⟩
  | leadFinish d error decision => exact ⟨List.forall_mem_cons.mpr ⟨hpc, h⟩, trivial⟩
  | _ => exact ⟨h, trivial⟩

theorem TaskRule.coherent {pc pc' : TaskPc} (rule : TaskRule timing core pc core' pc')
    (h : core.FinishesCoherent) (hpc : pc.Coherent) : core'.FinishesCoherent ∧ pc'.Coherent := by
  cases rule with
  | deadlineAtTop | deadlineAfterSleep => exact ⟨h, finishCoherent_error rfl _⟩
  | pending _ _ _ _ _ observe | warming _ _ _ _ _ observe => exact ⟨observe.coherent h, trivial⟩
  | ready deadline observeRequest pc core₁ d observe =>
      exact ⟨observe.coherent h, finishCoherent_ready observe.ready_published.2⟩
  | failed deadline observeRequest pc core₁ d error observe =>
      exact ⟨observe.coherent h, finishCoherent_error observe.failed_lifecycle error⟩
  | finish d error => exact ⟨List.forall_mem_cons.mpr ⟨hpc, h⟩, trivial⟩
  | _ => exact ⟨h, trivial⟩

/-- No `mark_warming` or `degrade_embeddings` publishes while a leader that has
published its ready status is about to read the published status again. -/
def SparesReread (s : Manager) : Action → Prop
  | .client i _ =>
      (s.clients[i]?.any ClientPc.outsider) = true → s.clients.any ClientPc.rereads = false
  | _ => True

instance (s : Manager) (a : Action) : Decidable (SparesReread s a) :=
  match a with
  | .client _ _ => inferInstanceAs (Decidable (_ → _))
  | .begin _ _ | .drop _ | .task _ _ | .elapse _ _ => .isTrue trivial

/-- Every finish so far was coherent, and so will be those already under way. -/
structure Manager.FinishesCoherent (s : Manager) : Prop where
  log : s.core.FinishesCoherent
  clients : ∀ pc ∈ s.clients, pc.Coherent s.core.status.value
  tasks : ∀ pc ∈ s.core.tasks, pc.Coherent

theorem finishesCoherent_new (clients : Nat) (initialStatus : BackendStatus) (instant : Instant)
    (clock : Timestamp) : (Manager.new clients initialStatus instant clock).FinishesCoherent := by
  refine ⟨?_, ?_, ?_⟩
  · simp [Core.FinishesCoherent, Manager.new]
  · intro pc hpc
    rw [List.eq_of_mem_replicate hpc]
    trivial
  · simp [Manager.new]

theorem finishesCoherent_step {s s' : Manager} {a : Action} (h : s.FinishesCoherent)
    (exclusive : s.flight.Exclusive) (spares : SparesReread s a)
    (rule : ManagerRule timing s a s') : s'.FinishesCoherent := by
  cases rule with
  | begin i op pc here free =>
      exact ⟨h.log,
        forall_mem_set h.clients (ClientPc.coherent_of_not_leads (entry_leads op)), h.tasks⟩
  | client i input pc pc' core' here rule =>
      obtain ⟨hlog, hpc⟩ := rule.coherent h.log (h.clients pc (List.mem_of_getElem? here))
      refine ⟨hlog, ?_, ?_⟩
      · intro other hother
        rcases mem_set_cases hother with rfl | ⟨j, hne, hj⟩
        · exact hpc
        · have hold := h.clients other (List.mem_of_getElem? hj)
          cases hleads : pc.leads with
          | true =>
              refine ClientPc.coherent_of_not_leads (Bool.eq_false_iff.mpr fun hother => hne ?_)
              exact leader_unique exclusive hj here hother hleads
          | false =>
              cases houtsider : pc.outsider with
              | true =>
                  have hspared := spares (by simpa [here] using houtsider)
                  refine hold.of_not_rereads ?_
                  simpa using List.any_eq_false.mp hspared other (List.mem_of_getElem? hj)
              | false => simpa only [rule.status_eq hleads houtsider] using hold
      · intro task htask
        rcases rule.tasks_mem htask with hmem | rfl
        · exact h.tasks task hmem
        · trivial
  | drop i pc here suspended => exact ⟨h.log, forall_mem_set h.clients trivial, h.tasks⟩
  | task i input pc pc' core' here rule =>
      obtain ⟨hlog, hpc⟩ := rule.coherent h.log (h.tasks pc (List.mem_of_getElem? here))
      have idle := (task_drives exclusive here rule.running).2
      refine ⟨hlog, fun other hother => ClientPc.coherent_of_not_leads (idle other hother), ?_⟩
      simp only [rule.tasks]
      exact forall_mem_set h.tasks hpc
  | elapse span clock => exact ⟨h.log, h.clients, h.tasks⟩

/-! ### Who is left waiting -/

/-- The only calls made are `ensure_backend`, alone or after the caller's own
`mark_warming`, and no call is dropped. A caller that has marked and never gets
to run again stands for a `mark_warming` that nothing follows. -/
def MarkedCalls (_ : Manager) : Action → Prop
  | .begin _ (.ensureBackend _) | .begin _ (.markThenEnsure _) => True
  | .begin _ _ | .drop _ => False
  | _ => True

instance (s : Manager) (a : Action) : Decidable (MarkedCalls s a) :=
  match a with
  | .begin _ (.ensureBackend _) | .begin _ (.markThenEnsure _) => .isTrue trivial
  | .begin _ .markWarming | .begin _ (.degradeEmbeddings _) | .drop _ => .isFalse id
  | .client _ _ | .task _ _ | .elapse _ _ => .isTrue trivial

def ClientPc.unmarked : ClientPc → Bool
  | .markBorrow none | .markPublish none _ | .degradeBorrow _ | .degradePublish _ => true
  | _ => false

/-- Between the caller's own `mark_warming` and its `start_or_join_bootstrap`. -/
def ClientPc.retries : ClientPc → Bool
  | .ensure caller | .checkActive caller _ | .startOrJoin caller _ => caller.retrying
  | _ => false

/-- A retrying client that will not leave on the status it has borrowed. -/
def ClientPc.willJoin : ClientPc → Bool
  | .checkActive caller initial => caller.retrying && !backendIsReady initial.status
  | pc => pc.retries

/-- Inside `wait_for_ready_or_timeout`, before its time runs out. -/
def ClientPc.waits : ClientPc → Bool
  | .waitEnter _ | .waitBorrow .. | .waitLock .. | .waitChanged .. => true
  | _ => false

def ClientPc.parked (status : Watch BackendStatus) : ClientPc → Bool
  | .waitChanged wait _ _ => !status.hasChanged wait.rx
  | _ => false

/-- A call is parked on a warming status, nobody drives a round, and nobody who
has marked the backend is on the way to begin one. -/
def Manager.Stranded (s : Manager) : Prop :=
  (∃ pc ∈ s.clients, pc.parked s.core.status = true) ∧
    s.core.status.value.lifecycle = .warming ∧ ¬ s.HasDriver ∧
    ∀ pc ∈ s.clients, pc.retries = false

instance (s : Manager) : Decidable s.Stranded :=
  inferInstanceAs (Decidable (_ ∧ _))

/-- While no round is active a warming status has somebody on the way to begin
one, or nobody waits. -/
def Manager.Attended (s : Manager) : Prop :=
  s.core.bootstrap.active = false → s.core.status.value.lifecycle = .warming →
    (∃ pc ∈ s.clients, pc.willJoin = true) ∨ ∀ pc ∈ s.clients, pc.waits = false

theorem ClientPc.retries_of_willJoin {pc : ClientPc} (h : pc.willJoin = true) :
    pc.retries = true := by
  cases pc with
  | checkActive caller initial => exact (Bool.and_eq_true_iff.mp h).1
  | _ => exact h

theorem ClientPc.waits_of_parked {status : Watch BackendStatus} {pc : ClientPc}
    (h : pc.parked status = true) : pc.waits = true := by
  cases pc <;> first | rfl | cases h

theorem free_waits {pc : ClientPc} (h : pc.free = true) :
    pc.waits = false ∧ pc.willJoin = false := by
  cases pc <;> first | exact ⟨rfl, rfl⟩ | cases h

theorem entry_waits (op : Op) : op.entry.waits = false := by
  cases op <;> rfl

theorem not_ready_of_warming {status : BackendStatus} (h : status.lifecycle = .warming) :
    backendIsReady status = false := by
  simp [backendIsReady, h]

/-- A client's step that ends with no active round and a warming status either
puts its own client on the way to begin a round, or found it so and neither
takes a client off that way nor makes one wait. -/
theorem ClientRule.attends {pc pc' : ClientPc} (rule : ClientRule timing core pc core' pc')
    (coherent : pc.Coherent core.status.value) (scope : pc.unmarked = false)
    (leads : pc.leads = true → core.bootstrap.active = true)
    (idle : core'.bootstrap.active = false) (warming : core'.status.value.lifecycle = .warming) :
    pc'.willJoin = true ∨
      (core.bootstrap.active = false ∧ core.status.value.lifecycle = .warming ∧
        (pc.willJoin = true → pc'.willJoin = true) ∧ (pc'.waits = true → pc.waits = true)) := by
  cases rule with
  | markPublish next d =>
      cases next with
      | none => cases scope
      | some request => exact .inl rfl
  | degradeBorrow | degradePublish => cases scope
  | borrowInitial caller =>
      refine .inr ⟨idle, warming, ?_, nofun⟩
      intro retrying
      simpa [ClientPc.willJoin, ClientPc.retries, not_ready_of_warming warming] using retrying
  | alreadyReady caller initial _ ready =>
      refine .inr ⟨idle, warming, ?_, nofun⟩
      intro hjoin
      simp [ClientPc.willJoin, ready] at hjoin
  | notReady caller initial _ =>
      exact .inr ⟨idle, warming, fun hjoin => (Bool.and_eq_true_iff.mp hjoin).1, nofun⟩
  | start caller initial _ =>
      have hactive := startOrJoinBootstrap_active core.bootstrap caller.request
      exact absurd (hactive.symm.trans idle) nofun
  | join caller initial active =>
      have hactive := startOrJoinBootstrap_active core.bootstrap caller.request
      exact absurd (hactive.symm.trans idle) nofun
  | leadPending _ _ _ _ _ _ observe | leadReady _ _ _ _ _ _ observe
  | handOver _ _ _ _ _ _ observe | leadFailed _ _ _ _ _ _ _ observe =>
      have hactive : core.bootstrap.active = false := by
        rw [← observe.frame.1]
        exact idle
      exact absurd ((leads rfl).symm.trans hactive) nofun
  | readRequest | reread => exact absurd ((leads rfl).symm.trans idle) nofun
  | leadFinish d error decision => exact absurd warming coherent.not_warming
  | waitOverflow | waitEnter | waitBorrow | waitReturn | waitOn | changed | timerFired =>
      exact .inr ⟨idle, warming, nofun, fun _ => rfl⟩
  | _ => exact .inr ⟨idle, warming, nofun, nofun⟩

/-- The calls in scope keep their clients out of the other calls' places. -/
theorem unmarked_step {s s' : Manager} {a : Action} (h : ∀ pc ∈ s.clients, pc.unmarked = false)
    (scope : MarkedCalls s a) (rule : ManagerRule timing s a s') :
    ∀ pc ∈ s'.clients, pc.unmarked = false := by
  cases rule with
  | begin i op pc here free =>
      refine forall_mem_set h ?_
      cases op <;> first | rfl | cases scope
  | client i input pc pc' core' here rule =>
      refine forall_mem_set h ?_
      have hpc := h pc (List.mem_of_getElem? here)
      cases rule with
      | markBorrow next => cases next <;> first | rfl | cases hpc
      | markPublish next d => cases next <;> rfl
      | degradeBorrow => cases hpc
      | _ => rfl
  | drop i pc here suspended => cases scope
  | _ => exact h

theorem attended_step {s s' : Manager} {a : Action} (h : s.Attended)
    (exclusive : s.flight.Exclusive) (coherent : s.FinishesCoherent)
    (unmarked : ∀ pc ∈ s.clients, pc.unmarked = false) (scope : MarkedCalls s a)
    (rule : ManagerRule timing s a s') : s'.Attended := by
  cases rule with
  | begin i op pc here free =>
      obtain ⟨_, hjoin⟩ := free_waits free
      intro idle warming
      cases h idle warming with
      | inl hjoins =>
          exact .inl (exists_mem_set hjoins here (by simp [hjoin]))
      | inr hnobody =>
          exact .inr (forall_mem_set hnobody (entry_waits op))
  | client i input pc pc' core' here rule =>
      have hpc := List.mem_of_getElem? here
      intro idle warming
      rcases rule.attends (coherent.clients pc hpc) (unmarked pc hpc)
        (active_of_leads exclusive here) idle warming with hjoin | ⟨idle, warming, hjoin, hwaits⟩
      · exact .inl ⟨pc', List.mem_of_getElem? (getElem?_set_of_some here pc'), hjoin⟩
      · cases h idle warming with
        | inl hjoins =>
            exact .inl (exists_mem_set hjoins here hjoin)
        | inr hnobody =>
            refine .inr (forall_mem_set hnobody (Bool.eq_false_iff.mpr fun hwait => ?_))
            exact absurd ((hwaits hwait).symm.trans (hnobody pc hpc)) nofun
  | drop i pc here suspended => cases scope
  | task i input pc pc' core' here rule =>
      intro idle warming
      have hactive := (task_drives exclusive here rule.running).1
      have htask := coherent.tasks pc (List.mem_of_getElem? here)
      cases rule.turn with
      | keep active _ _ | abandon _ active _ =>
          exact absurd (hactive.symm.trans (active.symm.trans idle)) nofun
      | release _ _ after =>
          subst after
          cases rule with
          | finish d error => exact absurd warming (FinishCoherent.not_warming htask)
  | elapse span clock => exact h

/-- The condition on a step: `mark_warming` does not publish between a leader's
ready status and its second read, and a starting task's deadline can be computed. -/
def FinishesUndisturbed (timing : LifecycleTiming) (s : Manager) (a : Action) : Prop :=
  SparesReread s a ∧ KeepsDriver timing s a

instance (timing : LifecycleTiming) (s : Manager) (a : Action) :
    Decidable (FinishesUndisturbed timing s a) :=
  inferInstanceAs (Decidable (_ ∧ _))

/-- In every run of such calls whose steps all meet the condition, every finish
is coherent and no call is left stranded. -/
theorem finishes_coherent_and_nobody_stranded {clients : Nat} {initialStatus : BackendStatus}
    {instant : Instant} {clock : Timestamp} {s : Manager}
    (h : (((lifecycle timing).restrict MarkedCalls).restrict
      (FinishesUndisturbed timing)).Reachable (.new clients initialStatus instant clock) s) :
    (∀ error d version, .published (.finishBootstrap error) d version ∈ s.core.log →
      FinishCoherent d.status error) ∧ ¬ s.Stranded := by
  have invariant : s.flight.Held ∧ s.FinishesCoherent ∧
      (∀ pc ∈ s.clients, pc.unmarked = false) ∧ s.Attended := by
    refine h.invariant_restrict (I := fun t => t.flight.Held ∧ t.FinishesCoherent ∧
      (∀ pc ∈ t.clients, pc.unmarked = false) ∧ t.Attended) ?_ ?_
    · refine ⟨by simp [Flight.Held, new_flight], finishesCoherent_new _ _ _ _, ?_, ?_⟩
      · intro pc hpc
        rw [List.eq_of_mem_replicate hpc]
        rfl
      · intro _ _
        refine .inr fun pc hpc => ?_
        rw [List.eq_of_mem_replicate hpc]
        rfl
    · rintro t a t' ⟨held, coherent, unmarked, attended⟩ ⟨spares, keeps⟩ hstep
      obtain ⟨scope, hstep⟩ := System.restrict_step_iff.mp hstep
      have rule := step_cases hstep
      exact ⟨held.turn ((flight_step rule).1 keeps),
        finishesCoherent_step coherent held.exclusive spares rule,
        unmarked_step unmarked scope rule,
        attended_step attended held.exclusive coherent unmarked scope rule⟩
  obtain ⟨held, coherent, _, attended⟩ := invariant
  refine ⟨fun error d version hmem => coherent.log _ hmem, ?_⟩
  rintro ⟨⟨pc, hpc, hparked⟩, warming, noDriver, nobodyRetries⟩
  have idle : s.core.bootstrap.active = false := by
    refine Bool.eq_false_iff.mpr fun hactive => noDriver ?_
    exact Manager.driven_of_held held hactive
  rcases attended idle warming with ⟨other, hother, hjoin⟩ | hnobody
  · have hretries := ClientPc.retries_of_willJoin hjoin
    rw [nobodyRetries other hother] at hretries
    cases hretries
  · have hwaits := ClientPc.waits_of_parked hparked
    rw [hnobody pc hpc] at hwaits
    cases hwaits

/-- Client 0 leads and wakes the host; client 1 marks the backend warming, joins and parks;
the round's task finishes it. Client 0 is answered, marks the backend warming in its turn and
hands its round over, and client 1 parks again. -/
def markedRoundsSchedule : List Action :=
  leadSchedule 0 .chat ++ [.client 0 (.answer (.ssh (.ok false))),
    .client 0 (.answer (.wake (.ok ()))), .begin 1 (.markThenEnsure .chat)] ++
    List.replicate 8 (.client 1 .run) ++
    [.task 0 .run, .task 0 .run, .elapse (Duration.fromMillis 10) ⟨0⟩, .task 0 .run, .task 0 .run,
      .task 0 (.answer (.ssh (.ok true))), .task 0 (.answer (.helper (.ok observedReady))),
      .task 0 (.answer (.tunnel (.ok .ready))), .task 0 .run, .client 0 .run, .client 0 .run,
      .client 0 .run, .begin 0 (.markThenEnsure .chat)] ++
    List.replicate 6 (.client 0 .run) ++
    [.client 0 (.answer (.ssh (.ok false))), .client 1 .run, .client 1 .run, .client 1 .run]

theorem finishes_coherent_and_nobody_stranded_marked :
    ∃ s, (((lifecycle exampleTiming).restrict MarkedCalls).restrict
        (FinishesUndisturbed exampleTiming)).Reachable (.new 2 .default 0 ⟨0⟩) s ∧
      (publications s.core.log).map Prod.fst = [.observeOnce, .markWarming, .finishBootstrap none,
        .observeOnce, .markWarming, .observeOnce] ∧
      s.clients[1]?.any (·.parked s.core.status) = true ∧
      (∀ error d version, .published (.finishBootstrap error) d version ∈ s.core.log →
        FinishCoherent d.status error) ∧ ¬ s.Stranded := by
  obtain ⟨s, reached, writers, parked⟩ : ∃ s, (((lifecycle exampleTiming).restrict
      MarkedCalls).restrict (FinishesUndisturbed exampleTiming)).Reachable
        (.new 2 .default 0 ⟨0⟩) s ∧
      (publications s.core.log).map Prod.fst = [.observeOnce, .markWarming, .finishBootstrap none,
        .observeOnce, .markWarming, .observeOnce] ∧
      s.clients[1]?.any (·.parked s.core.status) = true :=
    System.reachable_of_check markedRoundsSchedule (by decide)
  exact ⟨s, reached, writers, parked, finishes_coherent_and_nobody_stranded reached⟩

/-- Client 0 leads and publishes that the backend is ready; client 1, whose
upstream request failed before that, marks the backend warming and joins; client
0 reads the warming status back and finishes with it. Client 1 parks on it. -/
def markedRereadSchedule : List Action :=
  leadSchedule 0 .chat ++ [.client 0 (.answer (.ssh (.ok true))),
    .client 0 (.answer (.helper (.ok observedReady))),
    .client 0 (.answer (.tunnel (.ok .ready))),
    .begin 1 (.markThenEnsure .chat), .client 1 .run, .client 1 .run, .client 1 .run,
    .client 1 .run, .client 1 .run, .client 0 .run, .client 0 .run, .client 1 .run,
    .client 1 .run, .client 1 .run, .client 1 .run, .client 1 .run, .client 1 .run]

theorem marked_reread_strands_waiter :
    ¬ ∀ (timing : LifecycleTiming) (clients : Nat) (initialStatus : BackendStatus)
      (instant : Instant) (clock : Timestamp) (s : Manager),
      ((lifecycle timing).restrict MarkedCalls).Reachable
        (.new clients initialStatus instant clock) s →
      (∀ error d version, .published (.finishBootstrap error) d version ∈ s.core.log →
        FinishCoherent d.status error) ∧ ¬ s.Stranded := by
  intro claim
  obtain ⟨s, reached, stranded⟩ : ∃ s, ((lifecycle exampleTiming).restrict MarkedCalls).Reachable
      (.new 2 .default 0 ⟨0⟩) s ∧ s.Stranded :=
    System.reachable_of_check markedRereadSchedule (by decide)
  exact (claim _ _ _ _ _ s reached).2 stranded

end LlmWakeProxy.Lifecycle
