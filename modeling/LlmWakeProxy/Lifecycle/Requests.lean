import LlmWakeProxy.Lifecycle.Deadline

/-!
The request kind that a round observes with. `start_or_join_bootstrap` writes it,
the leader once and the background task before each observation read it, and
`finish_bootstrap` leaves it as it is. Every read is by the round's one driver, so
that what it reads is the highest kind of the round's members so far and no later
read is lower.
-/

namespace LlmWakeProxy.Lifecycle
open LlmWakeProxy.Library

variable {timing : LifecycleTiming} {core core' : Core}

/-- A member of the list with the highest priority in it. -/
def Highest {α : Type} (priority : α → Nat) (a : α) (members : List α) : Prop :=
  a ∈ members ∧ ∀ b ∈ members, priority b ≤ priority a

namespace Highest

variable {α : Type} {priority : α → Nat} {a b : α} {members others : List α}

theorem singleton (a : α) : Highest priority a [a] := by
  simp [Highest]

theorem cons_of_le (h : Highest priority a members) (le : priority b ≤ priority a) :
    Highest priority a (b :: members) :=
  ⟨List.mem_cons_of_mem _ h.1, List.forall_mem_cons.mpr ⟨le, h.2⟩⟩

theorem cons_of_lt (h : Highest priority a members) (lt : priority a < priority b) :
    Highest priority b (b :: members) := by
  refine ⟨List.mem_cons_self, List.forall_mem_cons.mpr ⟨Nat.le_refl _, fun c hc => ?_⟩⟩
  exact Nat.le_trans (h.2 c hc) (Nat.le_of_lt lt)

theorem mono (h : Highest priority a members) (h' : Highest priority b others)
    (sub : members ⊆ others) : priority a ≤ priority b :=
  h'.2 a (sub h.1)

end Highest

/-- A call of the helper's `observe`: the kind it is made with, and the members of
the round when that was read. -/
structure Observed where
  request : LifecycleRequest
  read : List LifecycleRequest
  deriving DecidableEq, Repr

/-- The kinds of the leader and the joiners of the current round, latest first;
those that each client and each task found when it last read the kind to observe
with; and the calls of the helper in this round, latest first. -/
structure Membership where
  members : List LifecycleRequest
  led : Nat → List LifecycleRequest
  polled : Nat → List LifecycleRequest
  calls : List Observed

def Membership.none : Membership where
  members := []
  led _ := []
  polled _ := []
  calls := []

/-- The kind that a step calls the helper with. -/
def calledHelper (core core' : Core) : Option LifecycleRequest :=
  if core'.log.length = core.log.length then Option.none
  else
    match core'.log with
    | .helperCalled request :: _ => some request
    | _ => Option.none

def Membership.called (n : Membership) (read : List LifecycleRequest) :
    Option LifecycleRequest → Membership
  | some request => { n with calls := { request := request, read := read } :: n.calls }
  | Option.none => n

/-- Takes note of a client that leads or joins, and of one that reads the kind. -/
def Membership.turn (n : Membership) (active : Bool) (i : Nat) : ClientPc → Membership
  | .startOrJoin caller _ =>
      if active then { n with members := caller.request :: n.members }
      else { n with members := [caller.request], calls := [] }
  | .leadRequest .. => { n with led := Function.update n.led i n.members }
  | _ => n

/-- Takes note of a task that reads the kind. -/
def Membership.taskTurn (n : Membership) (k : Nat) : TaskPc → Membership
  | .readRequest .. => { n with polled := Function.update n.polled k n.members }
  | _ => n

/-- Takes note of who leads and joins, reads the kind, and calls the helper. -/
def noteRequests (s : Manager) (a : Action) (s' : Manager) (n : Membership) : Membership :=
  let call := calledHelper s.core s'.core
  match a with
  | .client i _ =>
      match s.clients[i]? with
      | some pc => (n.turn s.core.bootstrap.active i pc).called (n.led i) call
      | Option.none => n
  | .task k _ =>
      match s.core.tasks[k]? with
      | some pc => (n.taskTurn k pc).called (n.polled k) call
      | Option.none => n
  | _ => n

/-! ### Steps -/

theorem highest_join {bootstrap : BootstrapState} {members : List LifecycleRequest}
    (h : Highest requestPriority bootstrap.observeRequest members)
    (active : bootstrap.active = true) (request : LifecycleRequest) :
    Highest requestPriority (startOrJoinBootstrap bootstrap request).2.observeRequest
      (request :: members) := by
  unfold startOrJoinBootstrap
  simp only [active, Bool.not_true, Bool.false_eq_true, if_false]
  split
  next higher => exact h.cons_of_lt higher
  next notHigher => exact h.cons_of_le (Nat.le_of_not_lt notHigher)

/-- `start_or_join_bootstrap` as a start, whatever an earlier round has left. -/
theorem highest_start {bootstrap : BootstrapState} (idle : bootstrap.active = false)
    (request : LifecycleRequest) :
    Highest requestPriority (startOrJoinBootstrap bootstrap request).2.observeRequest
      [request] := by
  unfold startOrJoinBootstrap
  simp only [idle, Bool.not_false, if_true]
  exact .singleton request

theorem logged_of_calledHelper {request : LifecycleRequest}
    (h : calledHelper core core' = some request) :
    core'.log.length ≠ core.log.length ∧ ∃ log, core'.log = .helperCalled request :: log := by
  unfold calledHelper at h
  split at h
  next => cases h
  next grown =>
    refine ⟨grown, ?_⟩
    split at h
    next _ log heq =>
      cases h
      exact ⟨log, heq⟩
    next => cases h

/-- An observation calls the helper with the kind it was given, and goes on. -/
theorem ObserveRule.calledHelper {wakeRequest : Option LifecycleRequest}
    {observeRequest request : LifecycleRequest} {pc : ObservePc} {observation : Observation}
    (rule : ObserveRule core wakeRequest observeRequest pc core' observation)
    (h : calledHelper core core' = some request) : request = observeRequest := by
  obtain ⟨grown, log, hlog⟩ := logged_of_calledHelper h
  cases rule with
  | awake d =>
      cases hlog
      rfl
  | sshFailed | wake | asleep | woken | starting | tunnelReady | tunnelNotReady => cases hlog
  | wakeFailed | helperFailed | reportedError | started | tunnelFailed => exact absurd rfl grown

theorem ClientRule.calledHelper {pc pc' : ClientPc} {request : LifecycleRequest}
    (rule : ClientRule timing core pc core' pc') (h : calledHelper core core' = some request) :
    ∃ leader wait observePc, pc = .lead leader request wait observePc := by
  obtain ⟨grown, log, hlog⟩ := logged_of_calledHelper h
  cases rule with
  | leadPending leader observeRequest wait pc _ _ observe =>
      obtain rfl := observe.calledHelper h
      exact ⟨leader, wait, pc, rfl⟩
  | leadReady leader observeRequest wait pc _ _ observe =>
      obtain rfl := observe.calledHelper h
      exact ⟨leader, wait, pc, rfl⟩
  | leadFailed leader observeRequest wait pc _ _ _ observe =>
      obtain rfl := observe.calledHelper h
      exact ⟨leader, wait, pc, rfl⟩
  | markPublish | degradePublish | start | handOver | leadFinish | waitReturn => cases hlog
  | _ => exact absurd rfl grown

/-- A task calls the helper with the kind it has read before this observation. -/
theorem TaskRule.calledHelper {pc pc' : TaskPc} {request : LifecycleRequest}
    (rule : TaskRule timing core pc core' pc') (h : calledHelper core core' = some request) :
    ∃ deadline observePc, pc = .observe deadline request observePc := by
  obtain ⟨grown, log, hlog⟩ := logged_of_calledHelper h
  cases rule with
  | pending deadline observeRequest pc _ _ observe | ready deadline observeRequest pc _ _ observe
  | warming deadline observeRequest pc _ _ observe =>
      obtain rfl := observe.calledHelper h
      exact ⟨deadline, pc, rfl⟩
  | failed deadline observeRequest pc _ _ _ observe =>
      obtain rfl := observe.calledHelper h
      exact ⟨deadline, pc, rfl⟩
  | finish => cases hlog
  | _ => exact absurd rfl grown

/-! ### What the round holds -/

/-- The stored kind is the members' highest, and so was that of every call when it
was read; later calls go by what at least as many members had asked for. -/
structure RoundSound (bootstrap : BootstrapState) (n : Membership) : Prop where
  highest : bootstrap.active = true →
    Highest requestPriority bootstrap.observeRequest n.members
  calls : ∀ call ∈ n.calls,
    Highest requestPriority call.request call.read ∧ call.read <:+ n.members
  ordered : n.calls.Pairwise fun later earlier => earlier.read <:+ later.read

/-- What the driver of the round holds between its read and its call. -/
structure DriverRead (n : Membership) (request : LifecycleRequest) (read : List LifecycleRequest) :
    Prop where
  highest : Highest requestPriority request read
  members : read <:+ n.members
  calls : ∀ call ∈ n.calls, call.read <:+ read

theorem RoundSound.read {bootstrap : BootstrapState} {n : Membership}
    (h : RoundSound bootstrap n) (active : bootstrap.active = true) :
    DriverRead n bootstrap.observeRequest n.members :=
  ⟨h.highest active, List.suffix_refl _, fun call hcall => (h.calls call hcall).2⟩

theorem RoundSound.keep {bootstrap bootstrap' : BootstrapState} {n : Membership}
    (h : RoundSound bootstrap n) (same : bootstrap' = bootstrap ∨ bootstrap'.active = false) :
    RoundSound bootstrap' n := by
  refine ⟨fun active => ?_, h.calls, h.ordered⟩
  obtain rfl | idle := same
  · exact h.highest active
  · cases active.symm.trans idle

theorem RoundSound.called {bootstrap : BootstrapState} {n : Membership}
    {request : LifecycleRequest} {read : List LifecycleRequest} (h : RoundSound bootstrap n)
    (reads : DriverRead n request read) : RoundSound bootstrap (n.called read (some request)) :=
  ⟨h.highest, List.forall_mem_cons.mpr ⟨⟨reads.highest, reads.members⟩, h.calls⟩,
    List.pairwise_cons.mpr ⟨reads.calls, h.ordered⟩⟩

theorem DriverRead.called {n : Membership} {request : LifecycleRequest}
    {read : List LifecycleRequest} (h : DriverRead n request read) :
    DriverRead (n.called read (some request)) request read :=
  ⟨h.highest, h.members, List.forall_mem_cons.mpr ⟨List.suffix_refl _, h.calls⟩⟩

theorem DriverRead.join {n : Membership} {request member : LifecycleRequest}
    {read : List LifecycleRequest} (h : DriverRead n request read) :
    DriverRead { n with members := member :: n.members } request read :=
  ⟨h.highest, h.members.trans (List.suffix_cons _ _), h.calls⟩

/-- Noting who has read it leaves a read as it is. -/
theorem DriverRead.noted {n n' : Membership} {request : LifecycleRequest}
    {read read' : List LifecycleRequest} (h : DriverRead n request read)
    (members : n'.members = n.members) (calls : n'.calls = n.calls) (same : read' = read) :
    DriverRead n' request read' := by
  subst same
  exact ⟨h.highest, members ▸ h.members, calls ▸ h.calls⟩

def ClientPc.Reads (n : Membership) (i : Nat) : ClientPc → Prop
  | .lead _ observeRequest _ _ => DriverRead n observeRequest (n.led i)
  | _ => True

def TaskPc.Reads (n : Membership) (k : Nat) : TaskPc → Prop
  | .observe _ observeRequest _ => DriverRead n observeRequest (n.polled k)
  | _ => True

structure KindsSound (t : Manager × Membership) : Prop where
  exclusive : t.1.flight.Exclusive
  round : RoundSound t.1.core.bootstrap t.2
  clients : ∀ i (pc : ClientPc), t.1.clients[i]? = some pc → pc.Reads t.2 i
  tasks : ∀ k (pc : TaskPc), t.1.core.tasks[k]? = some pc → pc.Reads t.2 k

theorem ClientPc.reads_of_not_leads {n : Membership} {i : Nat} {pc : ClientPc}
    (h : pc.leads = false) : pc.Reads n i := by
  cases pc with
  | lead => cases h
  | _ => trivial

theorem TaskPc.reads_of_not_running {n : Membership} {k : Nat} {pc : TaskPc}
    (h : pc.running = false) : pc.Reads n k := by
  cases pc with
  | observe => cases h
  | _ => trivial

/-- A client's step keeps the round's state, ends the round, begins one or joins one. -/
theorem ClientRule.bootstrap {pc pc' : ClientPc} (rule : ClientRule timing core pc core' pc') :
    (∃ caller initial, pc = .startOrJoin caller initial ∧
      core'.bootstrap = (startOrJoinBootstrap core.bootstrap caller.request).2) ∨
      ((∀ caller initial, pc ≠ .startOrJoin caller initial) ∧
        (core'.bootstrap = core.bootstrap ∨ core'.bootstrap.active = false)) := by
  cases rule with
  | start caller initial | join caller initial => exact .inl ⟨caller, initial, rfl, rfl⟩
  | leadPending _ _ _ _ _ _ observe | leadReady _ _ _ _ _ _ observe
  | handOver _ _ _ _ _ _ observe | leadFailed _ _ _ _ _ _ _ observe =>
      exact .inr ⟨by simp, .inl observe.frame.1⟩
  | leadFinish => exact .inr ⟨by simp, .inr rfl⟩
  | _ => exact .inr ⟨by simp, .inl rfl⟩

theorem TaskRule.bootstrap {pc pc' : TaskPc} (rule : TaskRule timing core pc core' pc') :
    core'.bootstrap = core.bootstrap ∨ core'.bootstrap.active = false := by
  cases rule with
  | pending _ _ _ _ _ observe | ready _ _ _ _ _ observe | warming _ _ _ _ _ observe
  | failed _ _ _ _ _ _ observe => exact .inl observe.frame.1
  | finish => exact .inr rfl
  | _ => exact .inl rfl

/-- Beside a leading client nobody holds a read. -/
theorem reads_beside_leader {s : Manager} (exclusive : s.flight.Exclusive) {i : Nat}
    {pc : ClientPc} (here : s.clients[i]? = some pc) (leads : pc.leads = true) (n : Membership) :
    (∀ j (other : ClientPc), j ≠ i → s.clients[j]? = some other → other.Reads n j) ∧
      ∀ k (task : TaskPc), s.core.tasks[k]? = some task → task.Reads n k := by
  constructor
  · intro j other hj there
    refine ClientPc.reads_of_not_leads (Bool.eq_false_iff.mpr fun otherLeads => hj ?_)
    exact leader_unique exclusive there here otherLeads leads
  · intro k task there
    refine TaskPc.reads_of_not_running (Bool.eq_false_iff.mpr fun running => ?_)
    have follows := (task_drives exclusive there running).2 pc (List.mem_of_getElem? here)
    cases leads.symm.trans follows

/-- Outside a round nobody holds a read. -/
theorem reads_of_idle {s : Manager} (exclusive : s.flight.Exclusive)
    (idle : s.core.bootstrap.active = false) (n : Membership) :
    (∀ j (other : ClientPc), s.clients[j]? = some other → other.Reads n j) ∧
      ∀ k (task : TaskPc), s.core.tasks[k]? = some task → task.Reads n k := by
  constructor
  · intro j other there
    refine ClientPc.reads_of_not_leads (Bool.eq_false_iff.mpr fun otherLeads => ?_)
    cases (active_of_leads exclusive there otherLeads).symm.trans idle
  · intro k task there
    refine TaskPc.reads_of_not_running (Bool.eq_false_iff.mpr fun running => ?_)
    cases (task_drives exclusive there running).1.symm.trans idle

theorem ClientPc.Reads.join {n : Membership} {i : Nat} {pc : ClientPc} {member : LifecycleRequest}
    (h : pc.Reads n i) : pc.Reads { n with members := member :: n.members } i := by
  cases pc with
  | lead => exact DriverRead.join h
  | _ => trivial

theorem TaskPc.Reads.join {n : Membership} {k : Nat} {pc : TaskPc} {member : LifecycleRequest}
    (h : pc.Reads n k) : pc.Reads { n with members := member :: n.members } k := by
  cases pc with
  | observe => exact DriverRead.join h
  | _ => trivial

structure ClientStepSound (s : Manager) (i : Nat) (core' : Core) (pc' : ClientPc)
    (n' : Membership) : Prop where
  round : RoundSound core'.bootstrap n'
  own : pc'.Reads n' i
  others : ∀ j (other : ClientPc), j ≠ i → s.clients[j]? = some other → other.Reads n' j
  tasks : ∀ k (task : TaskPc), s.core.tasks[k]? = some task → task.Reads n' k

theorem sound_startOrJoin {s : Manager} {n : Membership} {i : Nat} {caller : Caller}
    {initial : Draft} {pc' : ClientPc} (h : KindsSound (s, n))
    (rule : ClientRule timing s.core (.startOrJoin caller initial) core' pc') :
    ClientStepSound s i core' pc'
      (n.turn s.core.bootstrap.active i (.startOrJoin caller initial)) := by
  cases rule with
  | start _ _ idle =>
      simp only [Membership.turn, idle, Bool.false_eq_true, if_false]
      obtain ⟨clients, tasks⟩ := reads_of_idle h.exclusive idle
        { n with members := [caller.request], calls := [] }
      exact ⟨⟨fun _ => highest_start idle caller.request, by simp, .nil⟩, trivial,
        fun j other _ there => clients j other there, tasks⟩
  | join _ _ active =>
      simp only [Membership.turn, active, if_true]
      refine ⟨⟨fun _ => ?_, fun call hcall => ?_, h.round.ordered⟩, trivial,
        fun j other _ there => (h.clients j other there).join,
        fun k task there => (h.tasks k task there).join⟩
      · exact highest_join (h.round.highest active) active caller.request
      · obtain ⟨highest, members⟩ := h.round.calls call hcall
        exact ⟨highest, members.trans (List.suffix_cons _ _)⟩

theorem sound_leaderCall {s : Manager} {n : Membership} {i : Nat}
    {leader request : LifecycleRequest}
    {wait : Wait} {pc : ObservePc} {pc' : ClientPc} (h : KindsSound (s, n))
    (here : s.clients[i]? = some (.lead leader request wait pc))
    (rule : ClientRule timing s.core (.lead leader request wait pc) core' pc')
    (same : core'.bootstrap = s.core.bootstrap ∨ core'.bootstrap.active = false) :
    ClientStepSound s i core' pc' (n.called (n.led i) (some request)) := by
  have reads : DriverRead n request (n.led i) := h.clients i _ here
  obtain ⟨others, tasks⟩ := reads_beside_leader h.exclusive here rfl
    (n.called (n.led i) (some request))
  refine ⟨(h.round.keep same).called reads, ?_, others, tasks⟩
  cases rule with
  | leadPending => exact reads.called
  | _ => trivial

theorem sound_client {s : Manager} {n : Membership} {i : Nat} {pc pc' : ClientPc}
    (h : KindsSound (s, n)) (here : s.clients[i]? = some pc)
    (rule : ClientRule timing s.core pc core' pc')
    (other : ∀ caller initial, pc ≠ .startOrJoin caller initial)
    (same : core'.bootstrap = s.core.bootstrap ∨ core'.bootstrap.active = false) :
    ClientStepSound s i core' pc' (n.turn s.core.bootstrap.active i pc) := by
  have round := h.round.keep same
  have own : pc.Reads n i := h.clients i pc here
  cases rule with
  | start caller initial | join caller initial => exact absurd rfl (other caller initial)
  | readRequest request initial wait =>
      obtain ⟨others, tasks⟩ := reads_beside_leader h.exclusive here rfl
        { n with led := Function.update n.led i n.members }
      refine ⟨⟨round.highest, round.calls, round.ordered⟩, ?_, others, tasks⟩
      have reads := h.round.read (active_of_leads h.exclusive here rfl)
      refine reads.noted rfl rfl ?_
      simp only [Membership.turn, Function.update_self]
  | leadPending => exact ⟨round, own, fun j other _ there => h.clients j other there, h.tasks⟩
  | markPublish next =>
      exact ⟨round, ClientPc.reads_of_not_leads (afterMark_leads next),
        fun j other _ there => h.clients j other there, h.tasks⟩
  | _ => exact ⟨round, trivial, fun j other _ there => h.clients j other there, h.tasks⟩

theorem kindsSound_client {s : Manager} {n : Membership} {i : Nat} {input : Input}
    {pc pc' : ClientPc} (h : KindsSound (s, n)) (here : s.clients[i]? = some pc)
    (rule : ClientRule timing s.core pc core' pc')
    (exclusive : ({ core := core', clients := s.clients.set i pc' } : Manager).flight.Exclusive) :
    KindsSound ({ core := core', clients := s.clients.set i pc' },
      noteRequests s (.client i input) { core := core', clients := s.clients.set i pc' } n) := by
  have sound : ClientStepSound s i core' pc'
      ((n.turn s.core.bootstrap.active i pc).called (n.led i) (calledHelper s.core core')) := by
    obtain ⟨caller, initial, rfl, _⟩ | ⟨other, same⟩ := rule.bootstrap
    · cases hcall : calledHelper s.core core' with
      | none => exact sound_startOrJoin h rule
      | some request =>
          obtain ⟨_, _, _, hpc⟩ := rule.calledHelper hcall
          cases hpc
    · cases hcall : calledHelper s.core core' with
      | none => exact sound_client h here rule other same
      | some request =>
          obtain ⟨leader, wait, observePc, rfl⟩ := rule.calledHelper hcall
          exact sound_leaderCall h here rule same
  simp only [noteRequests, here]
  refine ⟨exclusive, sound.round, ?_, ?_⟩
  · intro j other there
    obtain ⟨rfl, rfl⟩ | ⟨hj, there⟩ := getElem?_set_cases here there
    · exact sound.own
    · exact sound.others j other hj there
  · intro k task there
    obtain hold | rfl := rule.tasks_getElem? there
    · exact sound.tasks k task hold
    · trivial

/-- Beside a running task nobody holds a read. -/
theorem reads_beside_task {s : Manager} (exclusive : s.flight.Exclusive) {k : Nat} {pc : TaskPc}
    (here : s.core.tasks[k]? = some pc) (running : pc.running = true) (n : Membership) :
    (∀ j (other : ClientPc), s.clients[j]? = some other → other.Reads n j) ∧
      ∀ j (task : TaskPc), j ≠ k → s.core.tasks[j]? = some task → task.Reads n j := by
  constructor
  · intro j other there
    exact ClientPc.reads_of_not_leads
      ((task_drives exclusive here running).2 other (List.mem_of_getElem? there))
  · intro j task hj there
    refine TaskPc.reads_of_not_running (Bool.eq_false_iff.mpr fun alsoRunning => hj ?_)
    exact task_unique exclusive there here alsoRunning running

theorem kindsSound_task {s : Manager} {n : Membership} {k : Nat} {input : Input}
    {pc pc' : TaskPc} (h : KindsSound (s, n)) (here : s.core.tasks[k]? = some pc)
    (rule : TaskRule timing s.core pc core' pc')
    (exclusive : ({ s with core := { core' with tasks := core'.tasks.set k pc' } } :
      Manager).flight.Exclusive) :
    KindsSound ({ s with core := { core' with tasks := core'.tasks.set k pc' } },
      noteRequests s (.task k input)
        { s with core := { core' with tasks := core'.tasks.set k pc' } } n) := by
  have round := h.round.keep rule.bootstrap
  have own : pc.Reads n k := h.tasks k pc here
  obtain ⟨round', own'⟩ : RoundSound core'.bootstrap
        ((n.taskTurn k pc).called (n.polled k) (calledHelper s.core core')) ∧
      pc'.Reads ((n.taskTurn k pc).called (n.polled k) (calledHelper s.core core')) k := by
    cases hcall : calledHelper s.core core' with
    | some request =>
        obtain ⟨deadline, observePc, rfl⟩ := rule.calledHelper hcall
        refine ⟨round.called own, ?_⟩
        cases rule with
        | pending => exact DriverRead.called own
        | _ => trivial
    | none =>
        cases rule with
        | readRequest deadline d =>
            have reads := h.round.read (task_drives h.exclusive here rfl).1
            refine ⟨⟨round.highest, round.calls, round.ordered⟩, ?_⟩
            refine reads.noted rfl rfl ?_
            simp only [Membership.called, Membership.taskTurn, Function.update_self]
        | pending => exact ⟨round, own⟩
        | _ => exact ⟨round, trivial⟩
  obtain ⟨clients, others⟩ := reads_beside_task h.exclusive here rule.running
    ((n.taskTurn k pc).called (n.polled k) (calledHelper s.core core'))
  have note : noteRequests s (.task k input)
      { s with core := { core' with tasks := core'.tasks.set k pc' } } n =
        (n.taskTurn k pc).called (n.polled k) (calledHelper s.core core') := by
    simp only [noteRequests, here]
    rfl
  rw [note]
  refine ⟨exclusive, round', clients, ?_⟩
  intro j task there
  simp only [rule.tasks] at there
  obtain ⟨rfl, rfl⟩ | ⟨hj, there⟩ := getElem?_set_cases here there
  · exact own'
  · exact others j task hj there

theorem kindsSound_step {t t' : Manager × Membership} {a : Action} (h : KindsSound t)
    (hstep : ((lifecycle timing).monitor noteRequests).step t a = some t') : KindsSound t' := by
  obtain ⟨s, n⟩ := t
  obtain ⟨s', n'⟩ := t'
  obtain ⟨hstep, hnote⟩ := System.monitor_step_iff.mp hstep
  obtain rfl : n' = noteRequests s a s' n := hnote
  have rule : ManagerRule timing s a s' := step_cases hstep
  have exclusive : s'.flight.Exclusive := exclusive_step h.exclusive rule
  have others : ∀ {i : Nat} {old pc : ClientPc}, s.clients[i]? = some old → pc.leads = false →
      ∀ j (other : ClientPc), (s.clients.set i pc)[j]? = some other → other.Reads n j := by
    intro i old pc here notLeads j other there
    obtain ⟨rfl, rfl⟩ | ⟨_, there⟩ := getElem?_set_cases here there
    · exact ClientPc.reads_of_not_leads notLeads
    · exact h.clients j other there
  cases rule with
  | begin i op pc here free => exact ⟨exclusive, h.round, others here (entry_leads op), h.tasks⟩
  | client i input pc pc' core' here rule => exact kindsSound_client h here rule exclusive
  | drop i pc here suspended => exact ⟨exclusive, h.round, others here rfl, h.tasks⟩
  | task k input pc pc' core' here rule => exact kindsSound_task h here rule exclusive
  | elapse span clock => exact ⟨exclusive, h.round, h.clients, h.tasks⟩

/-- In every state of every run the kind stored for an active round is the highest
of its leader's and joiners'; every call of the helper in the round was made with
the highest kind of those that had joined it when the kind was read, and no later
call with a lower one. -/
theorem observes_highest_of_round {clients : Nat} {initialStatus : BackendStatus}
    {instant : Instant} {clock : Timestamp} {s : Manager} {n : Membership}
    (h : ((lifecycle timing).monitor noteRequests).Reachable
      (.new clients initialStatus instant clock, .none) (s, n)) :
    (s.core.bootstrap.active = true →
      Highest requestPriority s.core.bootstrap.observeRequest n.members) ∧
    (∀ call ∈ n.calls, Highest requestPriority call.request call.read ∧ call.read <:+ n.members) ∧
    n.calls.Pairwise fun later earlier =>
      requestPriority earlier.request ≤ requestPriority later.request := by
  have sound : KindsSound (s, n) := by
    refine h.invariant (I := KindsSound) ?_ fun _ _ _ ht hstep => kindsSound_step ht hstep
    refine ⟨by simp [Flight.Exclusive, new_flight], ?_, ?_, by simp [Manager.new]⟩
    · exact ⟨by simp [Manager.new, BootstrapState.default], by simp [Membership.none], .nil⟩
    intro i pc here
    rw [List.eq_of_mem_replicate (List.mem_of_getElem? here)]
    trivial
  have round : RoundSound s.core.bootstrap n := sound.round
  refine ⟨round.highest, round.calls, round.ordered.imp_of_mem ?_⟩
  intro later earlier hlater hearlier read
  exact (round.calls earlier hearlier).1.mono (round.calls later hlater).1 read.subset

/-- An embeddings call joins a chat call's round after the leader has read the kind;
the task that takes the round over observes for embeddings. -/
def joinEmbeddingsSchedule : List Action :=
  leadSchedule 0 .chat ++
    [.begin 1 (.ensureBackend .embeddings), .client 1 .run, .client 1 .run, .client 1 .run,
      .client 0 (.answer (.ssh (.ok true))),
      .client 0 (.answer (.helper (.ok { observedReady with lifecycle := .warming }))),
      .task 0 .run, .task 0 .run, .elapse (Duration.fromMillis 10) ⟨0⟩, .task 0 .run, .task 0 .run,
      .task 0 (.answer (.ssh (.ok true)))]

theorem observes_highest_of_round_joined :
    ∃ s n, ((lifecycle exampleTiming).monitor noteRequests).Reachable
        (.new 2 .default 0 ⟨0⟩, .none) (s, n) ∧
      n.calls = [⟨.embeddings, [.embeddings, .chat]⟩, ⟨.chat, [.chat]⟩] ∧
      (s.core.bootstrap.active = true →
        Highest requestPriority s.core.bootstrap.observeRequest n.members) ∧
      (∀ call ∈ n.calls,
        Highest requestPriority call.request call.read ∧ call.read <:+ n.members) ∧
      n.calls.Pairwise fun later earlier =>
        requestPriority earlier.request ≤ requestPriority later.request := by
  obtain ⟨t, reached, calls⟩ : ∃ t, ((lifecycle exampleTiming).monitor noteRequests).Reachable
      (.new 2 .default 0 ⟨0⟩, .none) t ∧
        t.2.calls = [⟨.embeddings, [.embeddings, .chat]⟩, ⟨.chat, [.chat]⟩] :=
    System.reachable_of_check joinEmbeddingsSchedule (by decide)
  exact ⟨t.1, t.2, reached, calls, observes_highest_of_round reached⟩

end LlmWakeProxy.Lifecycle
