import LlmWakeProxy.Library.Population
import LlmWakeProxy.Library.SingleFlight
import LlmWakeProxy.Lifecycle.Rules

/-!
Who drives a bootstrap round. The manager refines the single-flight pattern:
`bootstrap.active` is the flag, and its owners are the leaders between
`start_or_join_bootstrap` and the end of their part, and the running background
tasks. Every step of the manager is a turn of that pattern, except two that
abandon it: dropping a leading client's future, and a background task whose
deadline sum overflows.
-/

namespace LlmWakeProxy.Lifecycle
open LlmWakeProxy.Library

variable {timing : LifecycleTiming} {core core' : Core}

/-- The client has executed `start_or_join_bootstrap` as the leader and has
neither finished nor handed over. -/
def ClientPc.leads : ClientPc → Bool
  | .leadRequest .. | .lead .. | .leadReread _ | .leadFinish .. => true
  | _ => false

def TaskPc.running : TaskPc → Bool
  | .done | .panicked => false
  | _ => true

def Manager.owners (s : Manager) : Nat :=
  s.clients.countP ClientPc.leads + s.core.tasks.countP TaskPc.running

def Manager.flight (s : Manager) : Flight where
  active := s.core.bootstrap.active
  owners := s.owners

/-- A live driver of the current round. -/
def Manager.HasDriver (s : Manager) : Prop :=
  (∃ pc ∈ s.clients, pc.leads = true) ∨ ∃ pc ∈ s.core.tasks, pc.running = true

instance (s : Manager) : Decidable s.HasDriver :=
  inferInstanceAs (Decidable (_ ∨ _))

/-- While `bootstrap.active` is set somebody is there to call `finish_bootstrap`. -/
def Manager.Driven (s : Manager) : Prop :=
  s.core.bootstrap.active = true → s.HasDriver

instance (s : Manager) : Decidable s.Driven :=
  inferInstanceAs (Decidable (_ → _))

theorem hasDriver_iff (s : Manager) : s.HasDriver ↔ 0 < s.owners := by
  simp only [Manager.HasDriver, Manager.owners, Nat.add_pos_iff_pos_or_pos, List.countP_pos_iff]

@[simp] theorem afterMark_leads (next : Option LifecycleRequest) :
    (afterMark next).leads = false := by
  cases next <;> rfl

@[simp] theorem entry_leads (op : Op) : op.entry.leads = false := by
  cases op <;> rfl

@[simp] theorem dropped_leads : ClientPc.dropped.leads = false := rfl

theorem free_leads {pc : ClientPc} (h : pc.free = true) : pc.leads = false := by
  cases pc <;> first | rfl | cases h

theorem ObserveRule.frame {wakeRequest : Option LifecycleRequest}
    {observeRequest : LifecycleRequest} {pc : ObservePc} {observation : Observation}
    (rule : ObserveRule core wakeRequest observeRequest pc core' observation) :
    core'.bootstrap = core.bootstrap ∧ core'.tasks = core.tasks ∧ core'.clock = core.clock := by
  cases rule <;> exact ⟨rfl, rfl, rfl⟩

/-- What a client's step does to the round: nothing, begin it, hand it to a new
task, or finish it. -/
inductive ClientTurn (core : Core) (pc : ClientPc) (core' : Core) (pc' : ClientPc) : Prop
  | keep (active : core'.bootstrap.active = core.bootstrap.active)
      (tasks : core'.tasks = core.tasks) (leads : pc'.leads = pc.leads)
  | acquire (idle : core.bootstrap.active = false) (active : core'.bootstrap.active = true)
      (tasks : core'.tasks = core.tasks) (before : pc.leads = false) (after : pc'.leads = true)
  | handOver (active : core'.bootstrap.active = core.bootstrap.active)
      (tasks : core'.tasks = core.tasks ++ [.start]) (before : pc.leads = true)
      (after : pc'.leads = false)
  | release (idle : core'.bootstrap.active = false) (tasks : core'.tasks = core.tasks)
      (before : pc.leads = true) (after : pc'.leads = false)

theorem ClientRule.turn {pc pc' : ClientPc} (rule : ClientRule timing core pc core' pc') :
    ClientTurn core pc core' pc' := by
  cases rule with
  | markPublish next d => exact .keep rfl rfl (afterMark_leads next)
  | start caller initial idle =>
      exact .acquire idle (startOrJoinBootstrap_active _ _) rfl rfl rfl
  | join caller initial active =>
      refine .keep ?_ rfl rfl
      rw [active]
      exact startOrJoinBootstrap_active _ _
  | leadPending _ _ _ _ _ _ observe | leadReady _ _ _ _ _ _ observe
  | leadFailed _ _ _ _ _ _ _ observe =>
      obtain ⟨hbootstrap, htasks, _⟩ := observe.frame
      exact .keep (by rw [hbootstrap]) htasks rfl
  | handOver _ _ _ _ core₁ _ observe =>
      obtain ⟨hbootstrap, htasks, _⟩ := observe.frame
      refine .handOver ?_ ?_ rfl rfl
      · rw [Core.spawnBootstrap_bootstrap, hbootstrap]
      · rw [Core.spawnBootstrap_tasks, htasks]
  | leadFinish d error decision => exact .release rfl rfl rfl rfl
  | _ => exact .keep rfl rfl rfl

/-- A client's step leaves the tasks as they are, but for the one it spawns. -/
theorem ClientRule.tasks_getElem? {pc pc' : ClientPc} (rule : ClientRule timing core pc core' pc')
    {k : Nat} {task : TaskPc} (h : core'.tasks[k]? = some task) :
    core.tasks[k]? = some task ∨ task = .start := by
  cases rule.turn with
  | keep _ tasks _ | acquire _ _ tasks _ _ | release _ tasks _ _ => exact .inl (tasks ▸ h)
  | handOver _ tasks _ _ =>
      rw [tasks, List.getElem?_append] at h
      split at h
      next => exact .inl h
      next => exact .inr (List.mem_singleton.mp (List.mem_of_getElem? h))

/-- A client's step only ever adds the task it spawns. -/
theorem ClientRule.tasks_mem {pc pc' : ClientPc} (rule : ClientRule timing core pc core' pc')
    {task : TaskPc} (h : task ∈ core'.tasks) : task ∈ core.tasks ∨ task = .start := by
  cases rule.turn with
  | keep _ tasks _ => exact .inl (tasks ▸ h)
  | acquire _ _ tasks _ _ => exact .inl (tasks ▸ h)
  | handOver _ tasks _ _ =>
      rw [tasks, List.mem_append, List.mem_singleton] at h
      exact h
  | release _ tasks _ _ => exact .inl (tasks ▸ h)

inductive TaskTurn (core : Core) (pc : TaskPc) (core' : Core) (pc' : TaskPc) : Prop
  | keep (active : core'.bootstrap.active = core.bootstrap.active)
      (before : pc.running = true) (after : pc'.running = true)
  | release (idle : core'.bootstrap.active = false) (before : pc.running = true)
      (after : pc' = .done)
  | abandon (start : pc = .start) (active : core'.bootstrap.active = core.bootstrap.active)
      (after : pc' = .panicked)

theorem TaskRule.tasks {pc pc' : TaskPc} (rule : TaskRule timing core pc core' pc') :
    core'.tasks = core.tasks := by
  cases rule with
  | pending _ _ _ _ _ observe | ready _ _ _ _ _ observe | warming _ _ _ _ _ observe
  | failed _ _ _ _ _ _ observe => exact observe.frame.2.1
  | _ => rfl

theorem TaskRule.turn {pc pc' : TaskPc} (rule : TaskRule timing core pc core' pc') :
    TaskTurn core pc core' pc' := by
  cases rule with
  | overflow panics => exact .abandon rfl rfl rfl
  | pending _ _ _ _ _ observe | ready _ _ _ _ _ observe | warming _ _ _ _ _ observe
  | failed _ _ _ _ _ _ observe =>
      exact .keep (by rw [observe.frame.1]) rfl rfl
  | finish d error => exact .release rfl rfl rfl
  | _ => exact .keep rfl rfl rfl

private theorem turn_of_eq {f g : Flight} (h : g = f) : Flight.Turn f g := h ▸ .keep f

theorem flight_client {s : Manager} {i : Nat} {pc pc' : ClientPc}
    (here : s.clients[i]? = some pc) (rule : ClientRule timing s.core pc core' pc') :
    Flight.Turn s.flight
      ({ core := core', clients := s.clients.set i pc' } : Manager).flight := by
  have balance := countP_set_balance ClientPc.leads (b := pc') here
  cases rule.turn with
  | keep active tasks leads =>
      refine turn_of_eq ?_
      rw [leads] at balance
      simp only [Manager.flight, Manager.owners, active, tasks, Flight.mk.injEq, true_and]
      omega
  | acquire idle active tasks before after =>
      rw [before, after] at balance
      simp only [Manager.flight, Manager.owners, idle, active, tasks]
      simp only [Bool.toNat_true, Bool.toNat_false, Nat.add_zero] at balance
      rw [balance, Nat.add_right_comm]
      exact .acquire _
  | handOver active tasks before after =>
      refine turn_of_eq ?_
      rw [before, after] at balance
      simp only [Bool.toNat_true, Bool.toNat_false, Nat.add_zero] at balance
      simp only [Manager.flight, Manager.owners, active, tasks, List.countP_append,
        List.countP_singleton, TaskPc.running, if_true, Flight.mk.injEq, true_and]
      omega
  | release idle tasks before after =>
      rw [before, after] at balance
      simp only [Manager.flight, Manager.owners, idle, tasks]
      simp only [Bool.toNat_true, Bool.toNat_false, Nat.add_zero] at balance
      rw [← balance, Nat.add_right_comm]
      exact .release _ _

/-- A task's step is a turn of the flight, unless its deadline overflows. -/
theorem flight_task {s : Manager} {i : Nat} {pc pc' : TaskPc}
    (here : s.core.tasks[i]? = some pc) (rule : TaskRule timing s.core pc core' pc') :
    let t : Manager := { s with core := { core' with tasks := core'.tasks.set i pc' } }
    (pc' ≠ .panicked → Flight.Turn s.flight t.flight) ∧
      (pc' = .panicked → Flight.Abandon s.flight t.flight) := by
  have balance := countP_set_balance TaskPc.running (b := pc') here
  simp only [rule.tasks, Manager.flight, Manager.owners]
  cases rule.turn with
  | keep active before after =>
      refine ⟨fun _ => turn_of_eq ?_, ?_⟩
      · rw [before, after] at balance
        simp only [active, Flight.mk.injEq, true_and]
        omega
      · intro hpanic
        rw [hpanic] at after
        cases after
  | release idle before after =>
      subst after
      refine ⟨fun _ => ?_, fun hpanic => by cases hpanic⟩
      rw [before] at balance
      simp only [TaskPc.running, Bool.toNat_true, Bool.toNat_false, Nat.add_zero] at balance
      rw [idle, ← balance, ← Nat.add_assoc]
      exact .release _ _
  | abandon start active after =>
      subst start after
      refine ⟨fun h => absurd rfl h, fun _ => ?_⟩
      simp only [TaskPc.running, Bool.toNat_true, Bool.toNat_false, Nat.add_zero] at balance
      rw [active, ← balance, ← Nat.add_assoc]
      exact .lose _ _

/-- The step leaves the driver in place. The two kinds that do not: dropping the
future of a leading client, and starting a background task whose deadline sum
overflows. -/
def KeepsDriver (timing : LifecycleTiming) (s : Manager) : Action → Prop
  | .drop i => (s.clients[i]?.any ClientPc.leads) = false
  | .task i _ =>
      s.core.tasks[i]? = some .start →
        (bootstrapDeadline timing s.core.status.value.lastWakeAttemptAt s.core.clock
          s.core.instant).isSome = true
  | _ => True

instance (timing : LifecycleTiming) (s : Manager) (a : Action) :
    Decidable (KeepsDriver timing s a) :=
  match a with
  | .drop _ => inferInstanceAs (Decidable (_ = _))
  | .task _ _ => inferInstanceAs (Decidable (_ → _))
  | .begin _ _ | .client _ _ | .elapse _ _ => .isTrue trivial

/-- The manager refines the single-flight pattern. A step abandons the flight
exactly when it does not keep the driver. -/
theorem flight_step {s s' : Manager} {a : Action} (rule : ManagerRule timing s a s') :
    (KeepsDriver timing s a → Flight.Turn s.flight s'.flight) ∧
      (¬ KeepsDriver timing s a → Flight.Abandon s.flight s'.flight) := by
  cases rule with
  | begin i op pc here free =>
      have balance := countP_set_balance ClientPc.leads (b := op.entry) here
      rw [free_leads free, entry_leads] at balance
      refine ⟨fun _ => turn_of_eq ?_, fun h => absurd trivial h⟩
      simp only [Manager.flight, Manager.owners, Flight.mk.injEq, true_and]
      omega
  | client i input pc pc' core' here rule =>
      exact ⟨fun _ => flight_client here rule, fun h => absurd trivial h⟩
  | drop i pc here suspended =>
      have balance := countP_set_balance ClientPc.leads (b := .dropped) here
      simp only [KeepsDriver, here, Option.any_some]
      simp only [dropped_leads, Bool.toNat_false, Nat.add_zero] at balance
      constructor
      · intro hkeeps
        refine turn_of_eq ?_
        rw [hkeeps] at balance
        simp only [Bool.toNat_false, Nat.add_zero] at balance
        simp only [Manager.flight, Manager.owners, balance]
      · intro hleads
        rw [Bool.not_eq_false] at hleads
        rw [hleads, Bool.toNat_true] at balance
        simp only [Manager.flight, Manager.owners, ← balance]
        rw [Nat.add_right_comm]
        exact .lose _ _
  | task i input pc pc' core' here rule =>
      obtain ⟨hturn, habandon⟩ := flight_task here rule
      have hkeeps : KeepsDriver timing s (.task i input) ↔ pc' ≠ .panicked := by
        simp only [KeepsDriver, here, Option.some.injEq]
        cases rule with
        | overflow panics => simp [panics]
        | start deadline window => simp [window]
        | _ => simp [deadlineExit]
      exact ⟨fun h => hturn (hkeeps.mp h), fun h => habandon (by simpa [hkeeps] using h)⟩
  | elapse span clock => exact ⟨fun _ => .keep _, fun h => absurd trivial h⟩

theorem new_flight (clients : Nat) (initialStatus : BackendStatus) (instant : Instant)
    (clock : Timestamp) :
    (Manager.new clients initialStatus instant clock).flight = ⟨false, 0⟩ := by
  simp [Manager.flight, Manager.owners, Manager.new, BootstrapState.default, ClientPc.leads,
    List.countP_replicate]

theorem exclusive_clients_le_one {s : Manager} (h : s.flight.Exclusive) :
    s.clients.countP ClientPc.leads ≤ 1 :=
  Nat.le_trans (Nat.le_add_right _ _) h.owners_le_one

theorem exclusive_tasks_le_one {s : Manager} (h : s.flight.Exclusive) :
    s.core.tasks.countP TaskPc.running ≤ 1 :=
  Nat.le_trans (Nat.le_add_left _ _) h.owners_le_one

/-- Whoever leads does so in an active round. -/
theorem active_of_leads {s : Manager} (h : s.flight.Exclusive) {i : Nat} {pc : ClientPc}
    (here : s.clients[i]? = some pc) (leads : pc.leads = true) :
    s.core.bootstrap.active = true := by
  have hpos := countP_pos_of_getElem? here leads
  exact h.active (Nat.lt_of_lt_of_le hpos (Nat.le_add_right _ _))

/-- A running task is the only driver: no client leads beside it, and the round
is active. -/
theorem task_drives {s : Manager} (h : s.flight.Exclusive) {i : Nat} {pc : TaskPc}
    (here : s.core.tasks[i]? = some pc) (running : pc.running = true) :
    s.core.bootstrap.active = true ∧ ∀ client ∈ s.clients, client.leads = false := by
  have hpos := countP_pos_of_getElem? here running
  refine ⟨h.active (Nat.lt_of_lt_of_le hpos (Nat.le_add_left _ _)), ?_⟩
  intro client hclient
  refine Bool.eq_false_iff.mpr fun leads => ?_
  have hleads : 0 < s.clients.countP ClientPc.leads :=
    List.countP_pos_iff.mpr ⟨client, hclient, leads⟩
  have howners : s.owners ≤ 1 := h.owners_le_one
  simp only [Manager.owners] at howners
  omega

theorem leader_unique {s : Manager} (h : s.flight.Exclusive) {i j : Nat} {pc other : ClientPc}
    (hi : s.clients[i]? = some pc) (hj : s.clients[j]? = some other) (hpc : pc.leads = true)
    (hother : other.leads = true) : i = j :=
  eq_of_countP_le_one (exclusive_clients_le_one h) hi hj hpc hother

theorem task_unique {s : Manager} (h : s.flight.Exclusive) {i j : Nat} {pc other : TaskPc}
    (hi : s.core.tasks[i]? = some pc) (hj : s.core.tasks[j]? = some other)
    (hpc : pc.running = true) (hother : other.running = true) : i = j :=
  eq_of_countP_le_one (exclusive_tasks_le_one h) hi hj hpc hother

theorem TaskRule.running {pc pc' : TaskPc} (rule : TaskRule timing core pc core' pc') :
    pc.running = true := by
  cases rule <;> rfl

theorem exclusive_step {s s' : Manager} {a : Action} (exclusive : s.flight.Exclusive)
    (rule : ManagerRule timing s a s') : s'.flight.Exclusive := by
  obtain ⟨hturn, habandon⟩ := flight_step rule
  by_cases hkeeps : KeepsDriver timing s a
  · exact exclusive.turn (hturn hkeeps)
  · exact exclusive.abandon (habandon hkeeps)

section Reachable

variable {clients : Nat} {initialStatus : BackendStatus} {instant : Instant} {clock : Timestamp}
  {s : Manager}

/-- At most one driver, and none outside an active round, in every state. -/
theorem exclusive_of_reachable
    (h : (lifecycle timing).Reachable (.new clients initialStatus instant clock) s) :
    s.flight.Exclusive := by
  refine h.invariant (I := fun t => t.flight.Exclusive) ?_ ?_
  · simp [Flight.Exclusive, new_flight]
  · intro t a t' exclusive hstep
    exact exclusive_step exclusive (step_cases hstep)

/-- While no step takes the driver away, the flag is up exactly while it exists. -/
theorem held_of_reachable
    (h : ((lifecycle timing).restrict (KeepsDriver timing)).Reachable
      (.new clients initialStatus instant clock) s) : s.flight.Held := by
  refine h.invariant_restrict (I := fun t => t.flight.Held) ?_ ?_
  · simp [Flight.Held, new_flight]
  · intro t a t' held hkeeps hstep
    exact held.turn ((flight_step (step_cases hstep)).1 hkeeps)

theorem Manager.driven_of_held (held : s.flight.Held) : s.Driven := by
  intro hactive
  rw [hasDriver_iff]
  exact (Flight.held_iff_owned held.exclusive).mp held hactive

/-- In every run that keeps the driver at each step every active round has a
live driver, and the first step that does not keep it leaves an active round
with none. -/
theorem driven_iff_keepsDriver
    (h : ((lifecycle timing).restrict (KeepsDriver timing)).Reachable
      (.new clients initialStatus instant clock) s) :
    s.Driven ∧ ∀ a s', (lifecycle timing).step s a = some s' →
      (s'.Driven ↔ KeepsDriver timing s a) := by
  have held := held_of_reachable h
  refine ⟨Manager.driven_of_held held, ?_⟩
  intro a s' hstep
  obtain ⟨hturn, habandon⟩ := flight_step (step_cases hstep)
  constructor
  · intro driven
    by_contra hkeeps
    obtain ⟨hactive, howners⟩ := held.orphaned (habandon hkeeps)
    have hdriver := (hasDriver_iff s').mp (driven hactive)
    simp only [Manager.flight] at howners
    omega
  · intro hkeeps
    exact Manager.driven_of_held (held.turn (hturn hkeeps))

end Reachable

/-- A one-second timing, for the concrete schedules below. -/
def exampleTiming : LifecycleTiming where
  coldWaitBudgetSecs := 1
  hardBootDeadlineSecs := 1
  bootstrapPollIntervalMillis := 10
  retryAfterSecs := 10

/-- A single client begins a call on a cold manager and leads the round. -/
def leadSchedule (client : Nat) (request : LifecycleRequest) : List Action :=
  [.begin client (.ensureBackend request), .client client .run, .client client .run,
    .client client .run, .client client .run]

/-- Who published what, latest first. -/
def publications : List Event → List (Writer × BackendStatus)
  | .published writer d _ :: earlier => (writer, d.status) :: publications earlier
  | _ :: earlier => publications earlier
  | [] => []

/-- What the helper answers once the backend is up. -/
def observedReady : ObservedBackendState where
  lifecycle := .ready
  chat := .ready
  embeddings := .ready
  embeddingsReason := none
  error := none
  llamaServerUnit := .active
  inhibitUnit := .active

/-- The leader finds the backend up and runs the round to its end. -/
def readySchedule : List Action :=
  leadSchedule 0 .chat ++ [.client 0 (.answer (.ssh (.ok true))),
    .client 0 (.answer (.helper (.ok observedReady))),
    .client 0 (.answer (.tunnel (.ok .ready))), .client 0 .run, .client 0 .run]

theorem driven_iff_keepsDriver_lead :
    ∃ s, ((lifecycle exampleTiming).restrict (KeepsDriver exampleTiming)).Reachable
        (.new 1 .default 0 ⟨0⟩) s ∧
      s.Driven ∧ ∀ a s', (lifecycle exampleTiming).step s a = some s' →
        (s'.Driven ↔ KeepsDriver exampleTiming s a) := by
  have reached : ∃ s, ((lifecycle exampleTiming).restrict (KeepsDriver exampleTiming)).replay
      (.new 1 .default 0 ⟨0⟩) (leadSchedule 0 .chat) = some s := ⟨_, rfl⟩
  obtain ⟨s, hs⟩ := reached
  have reachable := System.reachable_of_replay _ hs
  exact ⟨s, reachable, driven_iff_keepsDriver reachable⟩

/-- A client disconnects while its call waits for the SSH probe: the round stays
active and nobody is left to finish it. -/
theorem dropped_leader_orphans_round :
    ¬ ∀ (timing : LifecycleTiming) (clients : Nat) (initialStatus : BackendStatus)
      (instant : Instant) (clock : Timestamp) (s : Manager),
      ((lifecycle timing).restrict EnsureCalls).Reachable
        (.new clients initialStatus instant clock) s → s.Driven := by
  intro claim
  have orphaned : ∃ s, ((lifecycle exampleTiming).restrict EnsureCalls).replay
      (.new 1 .default 0 ⟨0⟩) (leadSchedule 0 .chat ++ [.drop 0]) = some s ∧ ¬ s.Driven :=
    ⟨_, rfl, by decide⟩
  obtain ⟨s, hreplay, hbad⟩ := orphaned
  exact hbad (claim _ _ _ _ _ s (System.reachable_of_replay _ hreplay))

end LlmWakeProxy.Lifecycle
