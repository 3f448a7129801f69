import LlmWakeProxy.Lifecycle.Finish

/-!
What a waiter returns. It borrows the published status first and looks at the
round under the mutex later, so what it returns is its own round's outcome only
if no round finished in between. `Progress` says what a step can do to the
status, the round and the log together; the samples of the waiters are kept
sound by it.
-/

namespace LlmWakeProxy.Lifecycle
open LlmWakeProxy.Library

variable {timing : LifecycleTiming} {core core' : Core}

def PublishedAt (log : List Event) (version : Nat) (status : BackendStatus) : Prop :=
  ∃ writer d, .published writer d version ∈ log ∧ d.status = status

/-- The publication of the finish that passed `error`. -/
def FinishedAt (log : List Event) (version : Nat) (status : BackendStatus)
    (error : Option LifecycleError) : Prop :=
  ∃ d, .published (.finishBootstrap error) d version ∈ log ∧ d.status = status

/-- The status a waiter returns was published after the waiter had joined, and
the error it returns is the one its status was published with. -/
def LifecycleDecision.Faithful (log : List Event) (joinedAt version : Nat) :
    LifecycleDecision → Prop
  | .ready status => joinedAt < version ∧ PublishedAt log version status
  | .failed status error => joinedAt < version ∧ FinishedAt log version status (some error)
  | .warming _ _ => True

def ReturnsFaithful (log : List Event) : Prop :=
  ∀ joinedAt version decision, .waiterReturned joinedAt version decision ∈ log →
    decision.Faithful log joinedAt version

theorem LifecycleDecision.Faithful.mono {log log' : List Event} {joinedAt version : Nat}
    {decision : LifecycleDecision} (h : decision.Faithful log joinedAt version)
    (hlog : ∀ event ∈ log, event ∈ log') : decision.Faithful log' joinedAt version := by
  cases decision with
  | ready status =>
      obtain ⟨hjoined, writer, d, hmem, hstatus⟩ := h
      exact ⟨hjoined, writer, d, hlog _ hmem, hstatus⟩
  | failed status error =>
      obtain ⟨hjoined, d, hmem, hstatus⟩ := h
      exact ⟨hjoined, d, hlog _ hmem, hstatus⟩
  | warming => trivial

/-! ### What a step does to the shared core -/

def ClientPc.finishes : ClientPc → Bool
  | .leadFinish .. => true
  | _ => false

def TaskPc.finishes : TaskPc → Bool
  | .finish .. => true
  | _ => false

/-- What a step does to status, round and log while only drivers publish. A
round that is over has either been over before, untouched, or has just been
finished. -/
structure Progress (finishes : Bool) (core core' : Core) : Prop where
  version : core.status.version ≤ core'.status.version
  log : ∀ event ∈ core.log, event ∈ core'.log
  status : core'.status = core.status ∨ (core.status.version < core'.status.version ∧
    PublishedAt core'.log core'.status.version core'.status.value)
  idle : core'.bootstrap.active = false →
    (core.bootstrap.active = false ∧ core'.status = core.status ∧
      core'.bootstrap.lastError = core.bootstrap.lastError) ∨
    (finishes = true ∧ core.status.version < core'.status.version ∧
      FinishedAt core'.log core'.status.version core'.status.value core'.bootstrap.lastError)

theorem Progress.refl (finishes : Bool) (core : Core) : Progress finishes core core :=
  ⟨Nat.le_refl _, fun _ h => h, .inl rfl, fun idle => .inl ⟨idle, rfl, rfl⟩⟩

theorem Progress.active {finishes : Bool} (status : core'.status = core.status)
    (log : ∀ event ∈ core.log, event ∈ core'.log) (active : core'.bootstrap.active = true) :
    Progress finishes core core' :=
  ⟨Nat.le_of_eq (by rw [status]), log, .inl status,
    fun idle => absurd (active.symm.trans idle) nofun⟩

theorem Progress.emit {finishes : Bool} (event : Event) :
    Progress finishes core (core.emit event) :=
  ⟨Nat.le_refl _, fun _ h => List.mem_cons_of_mem _ h, .inl rfl,
    fun idle => .inl ⟨idle, rfl, rfl⟩⟩

theorem Progress.finish (d : Draft) (error : Option LifecycleError) :
    Progress true core (core.finishBootstrap d error) :=
  ⟨Nat.le_succ _, fun _ h => List.mem_cons_of_mem _ h,
    .inr ⟨Nat.lt_succ_self _, _, d, List.mem_cons_self, rfl⟩,
    fun _ => .inr ⟨rfl, Nat.lt_succ_self _, d, List.mem_cons_self, rfl⟩⟩

theorem ObserveRule.progress {wakeRequest : Option LifecycleRequest}
    {observeRequest : LifecycleRequest} {pc : ObservePc} {observation : Observation}
    (rule : ObserveRule core wakeRequest observeRequest pc core' observation) {finishes : Bool}
    (active : core.bootstrap.active = true) : Progress finishes core core' := by
  have still : core'.bootstrap.active = true := by rw [rule.frame.1, active]
  have notIdle : core'.bootstrap.active ≠ false := by simp [still]
  cases rule with
  | sshFailed => exact .active rfl (fun _ h => List.mem_cons_of_mem _ h) still
  | wake | awake =>
      exact .active rfl (fun _ h => List.mem_cons_of_mem _ (List.mem_cons_of_mem _ h)) still
  | asleep d silent =>
      exact ⟨Nat.le_succ _, fun _ h => List.mem_cons_of_mem _ (List.mem_cons_of_mem _ h),
        .inr ⟨Nat.lt_succ_self _, _, _, List.mem_cons_self, rfl⟩,
        fun idle => absurd idle notIdle⟩
  | woken | starting | tunnelReady | tunnelNotReady =>
      exact ⟨Nat.le_succ _, fun _ h => List.mem_cons_of_mem _ h,
        .inr ⟨Nat.lt_succ_self _, _, _, List.mem_cons_self, rfl⟩,
        fun idle => absurd idle notIdle⟩
  | _ => exact .refl _ _

theorem ClientRule.progress {pc pc' : ClientPc} (rule : ClientRule timing core pc core' pc')
    (notOutsider : pc.outsider = false) (leads : pc.leads = true → core.bootstrap.active = true) :
    Progress pc.finishes core core' := by
  cases rule with
  | markPublish | degradePublish => cases notOutsider
  | start caller initial idle =>
      exact .active rfl (fun _ h => List.mem_cons_of_mem _ h) (startOrJoinBootstrap_active _ _)
  | join caller initial active =>
      exact .active rfl (fun _ h => h) (startOrJoinBootstrap_active _ _)
  | leadPending _ _ _ _ _ _ observe | leadReady _ _ _ _ _ _ observe
  | leadFailed _ _ _ _ _ _ _ observe => exact observe.progress (leads rfl)
  | handOver request observeRequest wait pc core₁ d observe =>
      have observed : Progress false core core₁ := observe.progress (leads rfl)
      obtain ⟨hversion, hlog, hstatus, hidle⟩ := observed
      refine ⟨hversion, fun e h => List.mem_cons_of_mem _ (hlog e h), ?_, ?_⟩
      · rcases hstatus with hsame | ⟨hlt, writer, d, hmem, heq⟩
        · exact .inl hsame
        · exact .inr ⟨hlt, writer, d, List.mem_cons_of_mem _ hmem, heq⟩
      · intro idle
        rcases hidle idle with hbefore | ⟨hfinishes, _⟩
        · exact .inl hbefore
        · cases hfinishes
  | leadFinish d error decision => exact .finish d error
  | waitReturn => exact .emit _
  | _ => exact .refl _ _

theorem TaskRule.progress {pc pc' : TaskPc} (rule : TaskRule timing core pc core' pc')
    (active : core.bootstrap.active = true) : Progress pc.finishes core core' := by
  cases rule with
  | pending _ _ _ _ _ observe | ready _ _ _ _ _ observe | warming _ _ _ _ _ observe
  | failed _ _ _ _ _ _ observe => exact observe.progress active
  | finish d error => exact .finish d error
  | _ => exact .refl _ _

/-! ### What the waiters hold -/

/-- A call that has joined a round: the round is still on, or something has been
published since. -/
structure Joined (core : Core) (wait : Wait) : Prop where
  version : wait.joinedAt ≤ core.status.version
  idle : core.bootstrap.active = false → wait.joinedAt < core.status.version

/-- A status a waiter has borrowed and not yet judged. -/
structure Sampled (core : Core) (wait : Wait) (d : Draft) : Prop where
  base : d.base ≤ core.status.version
  current : d.base = core.status.version → d.status = core.status.value
  published : d.base = 0 ∨ PublishedAt core.log d.base d.status
  joined : core.bootstrap.active = false →
    d.status.lifecycle = .error ∨ backendIsReady d.status = true → wait.joinedAt < d.base
  latest : core.bootstrap.active = false → d.status.lifecycle = .error →
    d.base = core.status.version

def ClientPc.WaitSound (core : Core) : ClientPc → Prop
  | .leadRequest _ _ wait | .lead _ _ wait _ | .waitEnter wait | .waitBorrow wait _
  | .waitChanged wait _ _ => Joined core wait
  | .waitLock wait _ d => Joined core wait ∧ Sampled core wait d
  | _ => True

/-- A borrowed status that a finish would make the waiter return although it is
not that round's outcome: an error, or a ready status older than its join. -/
def ClientPc.sampleAtRisk : ClientPc → Bool
  | .waitLock wait _ d =>
      d.status.lifecycle = .error || (backendIsReady d.status && decide (d.base ≤ wait.joinedAt))
  | _ => false

theorem Joined.progress {finishes : Bool} {wait : Wait} (h : Joined core wait)
    (step : Progress finishes core core') : Joined core' wait := by
  refine ⟨Nat.le_trans h.version step.version, ?_⟩
  intro idle
  rcases step.idle idle with ⟨before, hstatus, _⟩ | ⟨_, hlt, _⟩
  · rw [hstatus]
    exact h.idle before
  · exact Nat.lt_of_le_of_lt h.version hlt

theorem Sampled.progress {finishes : Bool} {wait : Wait} {deadline : Instant} {d : Draft}
    (h : Sampled core wait d) (step : Progress finishes core core')
    (spared : finishes = true → (ClientPc.waitLock wait deadline d).sampleAtRisk = false) :
    Sampled core' wait d := by
  refine ⟨Nat.le_trans h.base step.version, ?_, ?_, ?_, ?_⟩
  · intro hbase
    rcases step.status with hsame | ⟨hlt, _⟩
    · rw [hsame] at hbase ⊢
      exact h.current hbase
    · exact absurd (hbase ▸ h.base) (Nat.not_le_of_lt hlt)
  · rcases h.published with hzero | ⟨writer, d', hmem, heq⟩
    · exact .inl hzero
    · exact .inr ⟨writer, d', step.log _ hmem, heq⟩
  · intro idle outcome
    rcases step.idle idle with ⟨before, _⟩ | ⟨hfinishes, _⟩
    · exact h.joined before outcome
    · have hspared := spared hfinishes
      simp only [ClientPc.sampleAtRisk, Bool.or_eq_false_iff, decide_eq_false_iff_not,
        Bool.and_eq_false_iff, Nat.not_le] at hspared
      cases outcome with
      | inl herror =>
          exact absurd herror hspared.1
      | inr hready =>
          exact hspared.2.resolve_left (by simp [hready])
  · intro idle herror
    rcases step.idle idle with ⟨before, hstatus, _⟩ | ⟨hfinishes, _⟩
    · rw [hstatus]
      exact h.latest before herror
    · have hspared := spared hfinishes
      simp [ClientPc.sampleAtRisk, herror] at hspared

/-- Somebody else's step keeps a waiter sound, unless it finishes a round under
a sample at risk. -/
theorem ClientPc.WaitSound.progress {finishes : Bool} {pc : ClientPc} (h : pc.WaitSound core)
    (step : Progress finishes core core')
    (spared : finishes = true → pc.sampleAtRisk = false) : pc.WaitSound core' := by
  cases pc with
  | leadRequest | lead | waitEnter | waitBorrow | waitChanged => exact Joined.progress h step
  | waitLock wait deadline d => exact ⟨h.1.progress step, h.2.progress step spared⟩
  | _ => trivial

/-- The published status is the initial one or is in the log, and while no round
is on it is what the last round finished with. -/
structure Core.Settled (core : Core) : Prop where
  published : core.status.version = 0 ∨
    PublishedAt core.log core.status.version core.status.value
  finished : core.bootstrap.active = false → core.status.version = 0 ∨
    FinishedAt core.log core.status.version core.status.value core.bootstrap.lastError

theorem Core.Settled.progress {finishes : Bool} (h : core.Settled)
    (step : Progress finishes core core') : core'.Settled := by
  constructor
  · rcases step.status with hsame | ⟨_, hpublished⟩
    · rw [hsame]
      rcases h.published with hzero | ⟨writer, d, hmem, heq⟩
      · exact .inl hzero
      · exact .inr ⟨writer, d, step.log _ hmem, heq⟩
    · exact .inr hpublished
  · intro idle
    rcases step.idle idle with ⟨before, hstatus, herror⟩ | ⟨_, _, hfinished⟩
    · rw [hstatus, herror]
      rcases h.finished before with hzero | ⟨d, hmem, heq⟩
      · exact .inl hzero
      · exact .inr ⟨d, step.log _ hmem, heq⟩
    · exact .inr hfinished

theorem ClientRule.waitSound {pc pc' : ClientPc} (rule : ClientRule timing core pc core' pc')
    (h : pc.WaitSound core) (settled : core.Settled) (step : Progress pc.finishes core core') :
    pc'.WaitSound core' := by
  cases rule with
  | markPublish next d => cases next <;> trivial
  | start caller initial idle =>
      have hactive := startOrJoinBootstrap_active core.bootstrap caller.request
      exact ⟨Nat.le_refl _, fun idle => absurd (hactive.symm.trans idle) nofun⟩
  | join caller initial active =>
      have hactive := startOrJoinBootstrap_active core.bootstrap caller.request
      exact ⟨Nat.le_refl _, fun idle => absurd (hactive.symm.trans idle) nofun⟩
  | readRequest | waitEnter => exact h
  | leadPending | handOver => exact Joined.progress h step
  | waitBorrow wait deadline =>
      exact ⟨h, Nat.le_refl _, fun _ => rfl, settled.published, fun idle _ => h.idle idle,
        fun _ _ => rfl⟩
  | waitOn wait deadline d verdict => exact h.1
  | changed wait deadline stale fresh => exact ⟨h.version, h.idle⟩
  | _ => trivial

/-! ### What the waiters return -/

def Event.isReturn : Event → Bool
  | .waiterReturned .. => true
  | _ => false

private theorem mem_of_mem_cons {event latest : Event} {log : List Event}
    (hmem : event ∈ latest :: log) (hreturn : event.isReturn = true)
    (silent : latest.isReturn = false) : event ∈ log := by
  cases List.mem_cons.mp hmem with
  | inl heq =>
      rw [← heq, hreturn] at silent
      cases silent
  | inr hlog => exact hlog

theorem ObserveRule.returns {wakeRequest : Option LifecycleRequest}
    {observeRequest : LifecycleRequest} {pc : ObservePc} {observation : Observation}
    (rule : ObserveRule core wakeRequest observeRequest pc core' observation) {event : Event}
    (hmem : event ∈ core'.log) (hreturn : event.isReturn = true) : event ∈ core.log := by
  cases rule with
  | sshFailed | woken | starting | tunnelReady | tunnelNotReady =>
      exact mem_of_mem_cons hmem hreturn rfl
  | wake | asleep | awake =>
      exact mem_of_mem_cons (mem_of_mem_cons hmem hreturn rfl) hreturn rfl
  | _ => exact hmem

/-- A sound sample is returned faithfully. -/
theorem Sampled.faithful {wait : Wait} {d : Draft} {instant deadline : Instant}
    {decision : LifecycleDecision} (sampled : Sampled core wait d) (settled : core.Settled)
    (coherent : core.FinishesCoherent)
    (verdict : waitVerdict timing core.bootstrap instant deadline d.status
      (staleBootstrapView core.bootstrap d.status) = some decision) :
    decision.Faithful core.log wait.joinedAt d.base := by
  rcases waitVerdict_cases verdict with ⟨idle, hready, rfl⟩ | ⟨idle, herror, rfl⟩ | ⟨_, _, rfl⟩
  · have joined := sampled.joined idle (.inr hready)
    exact ⟨joined, sampled.published.resolve_left (by omega)⟩
  · have joined := sampled.joined idle (.inl herror)
    have latest := sampled.latest idle herror
    obtain ⟨finish, hmem, hstatus⟩ := (settled.finished idle).resolve_left (by omega)
    rw [← sampled.current latest] at hstatus
    -- an error status is never published without an error
    obtain ⟨error, hlast⟩ : ∃ error, core.bootstrap.lastError = some error := by
      rcases coherent _ hmem with ⟨hready, _⟩ | ⟨_, hsome⟩
      · rw [hstatus, herror] at hready
        cases hready
      · exact Option.isSome_iff_exists.mp hsome
    rw [hlast] at hmem ⊢
    rw [← latest] at hmem
    exact ⟨joined, finish, hmem, hstatus⟩
  · trivial

theorem ClientRule.faithful {pc pc' : ClientPc} (rule : ClientRule timing core pc core' pc')
    (h : ReturnsFaithful core.log) (hpc : pc.WaitSound core) (settled : core.Settled)
    (coherent : core.FinishesCoherent) (step : Progress pc.finishes core core') :
    ReturnsFaithful core'.log := by
  intro joinedAt version decision hmem
  have old : .waiterReturned joinedAt version decision ∈ core.log →
      decision.Faithful core'.log joinedAt version :=
    fun hold => (h _ _ _ hold).mono step.log
  cases rule with
  | markPublish | degradePublish | start | leadFinish =>
      exact old (mem_of_mem_cons hmem rfl rfl)
  | leadPending _ _ _ _ _ _ observe | leadReady _ _ _ _ _ _ observe
  | leadFailed _ _ _ _ _ _ _ observe => exact old (observe.returns hmem rfl)
  | handOver _ _ _ _ _ _ observe =>
      exact old (observe.returns (mem_of_mem_cons hmem rfl rfl) rfl)
  | waitReturn wait deadline d decision verdict =>
      cases List.mem_cons.mp hmem with
      | inl heq =>
          cases heq
          exact (hpc.2.faithful settled coherent verdict).mono step.log
      | inr hold =>
          exact old hold
  | _ => exact old hmem

theorem TaskRule.faithful {pc pc' : TaskPc} (rule : TaskRule timing core pc core' pc')
    (h : ReturnsFaithful core.log) (step : Progress pc.finishes core core') :
    ReturnsFaithful core'.log := by
  intro joinedAt version decision hmem
  refine (h joinedAt version decision ?_).mono step.log
  cases rule with
  | pending _ _ _ _ _ observe | ready _ _ _ _ _ observe | warming _ _ _ _ _ observe
  | failed _ _ _ _ _ _ observe => exact observe.returns hmem rfl
  | finish d error => exact mem_of_mem_cons hmem rfl rfl
  | _ => exact hmem

def finishing (s : Manager) : Action → Bool
  | .client i _ => s.clients[i]?.any ClientPc.finishes
  | .task i _ => s.core.tasks[i]?.any TaskPc.finishes
  | _ => false

/-- No round finishes while a waiter holds a sample at risk, between its borrow
and its look at the round. -/
def SparesSamples (s : Manager) (a : Action) : Prop :=
  finishing s a = true → ∀ pc ∈ s.clients, pc.sampleAtRisk = false

instance (s : Manager) (a : Action) : Decidable (SparesSamples s a) :=
  inferInstanceAs (Decidable (_ → _))

/-- Not in a call of `mark_warming` or `degrade_embeddings`. -/
def ClientPc.ensures : ClientPc → Bool
  | .markBorrow _ | .markPublish .. | .degradeBorrow _ | .degradePublish _ => false
  | _ => true

theorem ClientPc.not_outsider_of_ensures {pc : ClientPc} (h : pc.ensures = true) :
    pc.outsider = false := by
  cases pc <;> first | rfl | cases h

theorem ensures_step {s s' : Manager} {a : Action} (h : ∀ pc ∈ s.clients, pc.ensures = true)
    (scope : EnsureCalls s a) (rule : ManagerRule timing s a s') :
    ∀ pc ∈ s'.clients, pc.ensures = true := by
  cases rule with
  | begin i op pc here free =>
      refine forall_mem_set h ?_
      cases op <;> first | rfl | cases scope
  | client i input pc pc' core' here rule =>
      refine forall_mem_set h ?_
      have hpc := h pc (List.mem_of_getElem? here)
      cases rule with
      | markBorrow | markPublish | degradeBorrow => cases hpc
      | _ => rfl
  | drop i pc here suspended => exact forall_mem_set h rfl
  | _ => exact h

structure Manager.WaitersSound (s : Manager) : Prop where
  ensures : ∀ pc ∈ s.clients, pc.ensures = true
  coherent : s.FinishesCoherent
  settled : s.core.Settled
  waits : ∀ pc ∈ s.clients, pc.WaitSound s.core
  returns : ReturnsFaithful s.core.log

theorem waitersSound_new (clients : Nat) (initialStatus : BackendStatus) (instant : Instant)
    (clock : Timestamp) : (Manager.new clients initialStatus instant clock).WaitersSound := by
  refine ⟨?_, finishesCoherent_new _ _ _ _, ⟨.inl rfl, fun _ => .inl rfl⟩, ?_, ?_⟩
  · intro pc hpc
    rw [List.eq_of_mem_replicate hpc]
    rfl
  · intro pc hpc
    rw [List.eq_of_mem_replicate hpc]
    trivial
  · intro joinedAt version decision hmem
    simp [Manager.new] at hmem

theorem waitersSound_step {s s' : Manager} {a : Action} (h : s.WaitersSound)
    (exclusive : s.flight.Exclusive) (scope : EnsureCalls s a) (spares : SparesSamples s a)
    (rule : ManagerRule timing s a s') : s'.WaitersSound := by
  have ensures := ensures_step h.ensures scope rule
  have sparesReread : SparesReread s a := by
    cases a with
    | client i input =>
        intro houtsider
        obtain ⟨pc, here, hpc⟩ := (Option.any_eq_true _ _).mp houtsider
        have hensures := h.ensures pc (List.mem_of_getElem? here)
        exact absurd (hpc.symm.trans (ClientPc.not_outsider_of_ensures hensures)) nofun
    | _ => trivial
  have coherent := finishesCoherent_step h.coherent exclusive sparesReread rule
  cases rule with
  | begin i op pc here free =>
      refine ⟨ensures, coherent, h.settled, forall_mem_set h.waits ?_, h.returns⟩
      cases op <;> trivial
  | client i input pc pc' core' here rule =>
      have hpc := List.mem_of_getElem? here
      have step := rule.progress (ClientPc.not_outsider_of_ensures (h.ensures pc hpc))
        (active_of_leads exclusive here)
      have spared : pc.finishes = true → ∀ other ∈ s.clients, other.sampleAtRisk = false :=
        fun hfinishes => spares (by simpa [finishing, here] using hfinishes)
      refine ⟨ensures, coherent, h.settled.progress step, ?_,
        rule.faithful h.returns (h.waits pc hpc) h.settled h.coherent.log step⟩
      refine forall_mem_set ?_ (rule.waitSound (h.waits pc hpc) h.settled step)
      intro other hother
      exact (h.waits other hother).progress step fun hfinishes => spared hfinishes other hother
  | drop i pc here suspended =>
      exact ⟨ensures, coherent, h.settled, forall_mem_set h.waits trivial, h.returns⟩
  | task i input pc pc' core' here rule =>
      have step := rule.progress (task_drives exclusive here rule.running).1
      have stored : Progress pc.finishes s.core { core' with tasks := core'.tasks.set i pc' } :=
        ⟨step.version, step.log, step.status, step.idle⟩
      refine ⟨ensures, coherent, h.settled.progress stored, ?_, rule.faithful h.returns step⟩
      intro other hother
      refine (h.waits other hother).progress stored fun hfinishes => ?_
      exact spares (by simpa [finishing, here] using hfinishes) other hother
  | elapse span clock =>
      have step : Progress false s.core
          { s.core with instant := s.core.instant + span, clock := clock } :=
        ⟨Nat.le_refl _, fun _ hmem => hmem, .inl rfl, fun idle => .inl ⟨idle, rfl, rfl⟩⟩
      exact ⟨ensures, coherent, h.settled.progress step,
        fun other hother => (h.waits other hother).progress step nofun, h.returns⟩

/-- In every run of `ensure_backend` calls in which no round finishes between a
waiter's borrow of a status at risk and its look at the round, every waiter
returns its own round's outcome. -/
theorem waiters_return_faithfully {clients : Nat} {initialStatus : BackendStatus}
    {instant : Instant} {clock : Timestamp} {s : Manager}
    (h : (((lifecycle timing).restrict EnsureCalls).restrict SparesSamples).Reachable
      (.new clients initialStatus instant clock) s) : ReturnsFaithful s.core.log := by
  have sound : s.flight.Exclusive ∧ s.WaitersSound := by
    refine h.invariant_restrict (I := fun t => t.flight.Exclusive ∧ t.WaitersSound) ?_ ?_
    · exact ⟨by simp [Flight.Exclusive, new_flight], waitersSound_new _ _ _ _⟩
    · rintro t a t' ⟨exclusive, sound⟩ spares hstep
      obtain ⟨scope, hstep⟩ := System.restrict_step_iff.mp hstep
      have rule := step_cases hstep
      exact ⟨exclusive_step exclusive rule, waitersSound_step sound exclusive scope spares rule⟩
  exact sound.2.returns

/-- Client 1 joins client 0's round, borrows only after its end, and returns what
the round published. -/
def joinSchedule : List Action :=
  leadSchedule 0 .chat ++ [.client 0 (.answer (.ssh (.ok true))),
    .client 0 (.answer (.helper (.ok observedReady))), .begin 1 (.ensureBackend .chat),
    .client 1 .run, .client 1 .run, .client 1 .run, .client 1 .run,
    .client 0 (.answer (.tunnel (.ok .ready))), .client 0 .run, .client 0 .run,
    .client 1 .run, .client 1 .run]

theorem waiters_return_faithfully_joined :
    ∃ s, (((lifecycle exampleTiming).restrict EnsureCalls).restrict SparesSamples).Reachable
        (.new 2 .default 0 ⟨0⟩) s ∧
      s.core.log.any Event.isReturn = true ∧ ReturnsFaithful s.core.log := by
  obtain ⟨s, reached, returned⟩ : ∃ s,
      (((lifecycle exampleTiming).restrict EnsureCalls).restrict SparesSamples).Reachable
        (.new 2 .default 0 ⟨0⟩) s ∧ s.core.log.any Event.isReturn = true :=
    System.reachable_of_check joinSchedule (by decide)
  exact ⟨s, reached, returned, waiters_return_faithfully reached⟩

/-- The backend's last round failed. Client 1 joins client 0's new round and
borrows the old error; the new round ends ready before client 1 looks at it. -/
def staleErrorSchedule : List Action :=
  leadSchedule 0 .chat ++ [.client 0 (.answer (.ssh (.ok true))),
    .client 0 (.answer (.helper (.ok observedReady))), .begin 1 (.ensureBackend .chat),
    .client 1 .run, .client 1 .run, .client 1 .run, .client 1 .run, .client 1 .run,
    .client 0 (.answer (.tunnel (.ok .ready))), .client 0 .run, .client 0 .run,
    .client 1 .run]

/-- A failure returned with a status no newer than the join. -/
def Event.isStaleFailure : Event → Bool
  | .waiterReturned joinedAt version (.failed ..) => version ≤ joinedAt
  | _ => false

theorem joiner_returns_stale_error :
    ¬ ∀ (timing : LifecycleTiming) (clients : Nat) (initialStatus : BackendStatus)
      (instant : Instant) (clock : Timestamp) (s : Manager),
      ((lifecycle timing).restrict EnsureCalls).Reachable
        (.new clients initialStatus instant clock) s → ReturnsFaithful s.core.log := by
  intro claim
  obtain ⟨s, reached, stale⟩ : ∃ s, ((lifecycle exampleTiming).restrict EnsureCalls).Reachable
      (.new 2 (BackendStatus.failed .default) 0 ⟨0⟩) s ∧
      s.core.log.any Event.isStaleFailure = true :=
    System.reachable_of_check staleErrorSchedule (by decide)
  obtain ⟨event, hmem, hstale⟩ := List.any_eq_true.mp stale
  cases event with
  | waiterReturned joinedAt version decision =>
      have faithful := claim _ _ _ _ _ s reached joinedAt version decision hmem
      cases decision with
      | failed status error =>
          have hle : version ≤ joinedAt := by simpa [Event.isStaleFailure] using hstale
          exact absurd faithful.1 (Nat.not_lt_of_le hle)
      | _ => cases hstale
  | _ => cases hstale

end LlmWakeProxy.Lifecycle
