import LlmWakeProxy.Lifecycle.Deadline
import LlmWakeProxy.Lifecycle.Finish

/-!
The polling loop of `start_bootstrap`. Every observation is preceded by a sleep of
one poll interval and begun before the deadline, so that the window bounds their
number; between two observations, and after the last one, the task takes a bounded
number of steps, and none of them can be refused for ever. Each way out of the
loop leads through one call of `finish_bootstrap`.
-/

namespace LlmWakeProxy.Lifecycle
open LlmWakeProxy.Library

variable {timing : LifecycleTiming} {core core' : Core}

def LifecycleTiming.pollInterval (timing : LifecycleTiming) : Duration :=
  Duration.fromMillis timing.bootstrapPollIntervalMillis

/-- What a background task has done so far: the start of its window and the
deadline, the calls of `observe_once`, whether the last of them returned `Ready`,
the arguments of the calls of `finish_bootstrap`, and the steps it has taken. -/
structure Polling where
  window : Option (Instant × Instant)
  observations : Nat
  ready : Bool
  finishes : List (BackendStatus × Option LifecycleError)
  steps : Nat

def Polling.none : Polling where
  window := Option.none
  observations := 0
  ready := false
  finishes := []
  steps := 0

/-- The answer ends the observation, which returns `Ready`. -/
def findsReady (core : Core) (observeRequest : LifecycleRequest) (pc : ObservePc) :
    Input → Bool
  | .answer answer =>
      match observeOnce core none observeRequest pc answer with
      | some (_, .ready _) => true
      | _ => false
  | _ => false

def noteTurn (core : Core) (pc : TaskPc) (input : Input) (pc' : TaskPc) (n : Polling) : Polling :=
  let n := { n with steps := n.steps + 1 }
  match pc with
  | .start => { n with window := pc'.deadline.map fun deadline => (core.instant, deadline) }
  | .readRequest .. => { n with observations := n.observations + 1 }
  | .observe _ observeRequest pc => { n with ready := findsReady core observeRequest pc input }
  | .finish draft error => { n with finishes := (draft.status, error) :: n.finishes }
  | _ => n

/-- Takes note of the steps of task `k`. -/
def notePolling (k : Nat) (s : Manager) (a : Action) (s' : Manager) (n : Polling) : Polling :=
  match a with
  | .task j input =>
      if j = k then
        match s.core.tasks[k]?, s'.core.tasks[k]? with
        | some pc, some pc' => noteTurn s.core pc input pc' n
        | _, _ => n
      else n
  | _ => n

/-- What `finish_bootstrap` is called with after a `Ready` observation, and
otherwise. -/
def RoundEnd (ready : Bool) (status : BackendStatus) (error : Option LifecycleError) : Prop :=
  if ready then status.lifecycle = .ready ∧ status.tunnel = .ready ∧ error = none
  else status.lifecycle = .error ∧ status.tunnel = .down ∧ error.isSome = true

instance (ready : Bool) (status : BackendStatus) (error : Option LifecycleError) :
    Decidable (RoundEnd ready status error) :=
  inferInstanceAs (Decidable (ite _ _ _))

/-- The answer is from the port that was called. -/
def ObservePc.accepts : ObservePc → Answer → Bool
  | .sshIsReady _, .ssh _ | .requestWake _, .wake _ | .observeBackend _, .helper _
  | .ensureTunnel _, .tunnel _ => true
  | _, _ => false

/-- The task takes any answer of the port it has called; elsewhere it goes on after
some time. -/
def CanGoOn (timing : LifecycleTiming) (s : Manager) (k : Nat) : Prop :=
  match s.core.tasks[k]? with
  | some (.observe _ _ pc) =>
      ∀ answer, pc.accepts answer = true →
        ((lifecycle timing).step s (.task k (.answer answer))).isSome = true
  | _ =>
      ∃ span t, (lifecycle timing).step s (.elapse span s.core.clock) = some t ∧
        ((lifecycle timing).step t (.task k .run)).isSome = true

/-- `tokio::time::sleep` waits until the poll interval has elapsed, whenever it is
called up to `now`. -/
def SleepsElapse (timing : LifecycleTiming) (now : Instant) : Prop :=
  ∀ instant ≤ now, instant + timing.pollInterval ≤ sleepDeadline instant timing.pollInterval

/-! ### Steps of the loop -/

theorem taskStep_sleep {deadline deadline' wakeAt : Instant} {input : Input}
    (poll : 0 < timing.pollInterval)
    (h : taskStep timing core (.top deadline) input = some (core', .sleeping deadline' wakeAt)) :
    wakeAt = sleepDeadline core.instant timing.pollInterval := by
  cases input with
  | run =>
      simp only [taskStep] at h
      split at h
      next => cases h
      next =>
        cases h
        exact if_neg (Nat.ne_of_gt poll)
  | answer _ | timeout => cases h

/-- The task is done with an observation that returned `Ready`, or with none. -/
theorem findsReady_iff {deadline : Instant} {observeRequest : LifecycleRequest} {pc : ObservePc}
    {pc' : TaskPc} {input : Input}
    (h : taskStep timing core (.observe deadline observeRequest pc) input = some (core', pc')) :
    findsReady core observeRequest pc input = true ↔ ∃ d, pc' = .finish d none := by
  cases input with
  | run | timeout => cases h
  | answer answer =>
      obtain ⟨⟨core₁, observation⟩, hobserve, hnext⟩ := Option.map_eq_some_iff.mp h
      simp only [findsReady, hobserve]
      cases observation with
      | pending _ | warming _ | failed _ _ =>
          cases hnext
          simp
      | ready d =>
          cases hnext
          simp

theorem findsReady_eq_false {deadline : Instant} {observeRequest : LifecycleRequest}
    {pc : ObservePc} {pc' : TaskPc} {input : Input}
    (h : taskStep timing core (.observe deadline observeRequest pc) input = some (core', pc'))
    (unready : ∀ d, pc' ≠ .finish d none) : findsReady core observeRequest pc input = false := by
  refine Bool.eq_false_iff.mpr fun ready => ?_
  obtain ⟨d, finished⟩ := (findsReady_iff h).mp ready
  exact unready d finished

/-- A task requests no wake. -/
theorem ObserveRule.silent {observeRequest : LifecycleRequest} {pc pc' : ObservePc}
    (rule : ObserveRule core none observeRequest pc core' (.pending pc')) (d : Draft) :
    pc' ≠ .requestWake d := by
  cases rule with
  | wake _ _ leader => cases leader
  | awake | started => simp

/-- Every failure but that of a wake request takes the tunnel down. -/
theorem ObserveRule.failed_down {wakeRequest : Option LifecycleRequest}
    {observeRequest : LifecycleRequest} {pc : ObservePc} {d : Draft} {error : LifecycleError}
    (rule : ObserveRule core wakeRequest observeRequest pc core' (.failed d error))
    (silent : ∀ draft, pc ≠ .requestWake draft) : d.status.tunnel = .down := by
  cases rule with
  | wakeFailed draft => exact absurd rfl (silent draft)
  | sshFailed | helperFailed | reportedError | tunnelFailed => rfl

/-- The steps that the task takes at most until it observes again or is done. -/
def TaskPc.stepsLeft : TaskPc → Nat
  | .start => 4
  | .top _ => 3
  | .sleeping .. => 2
  | .readRequest .. => 1
  | .observe _ _ (.sshIsReady _) => 6
  | .observe _ _ (.requestWake _) | .observe _ _ (.observeBackend _) => 5
  | .observe _ _ (.ensureTunnel _) => 4
  | .finish .. => 1
  | .done | .panicked => 0

theorem ObserveRule.stepsLeft {observeRequest : LifecycleRequest} {pc pc' : ObservePc}
    (rule : ObserveRule core none observeRequest pc core' (.pending pc')) (deadline : Instant) :
    (TaskPc.observe deadline observeRequest pc').stepsLeft + 1 ≤
      (TaskPc.observe deadline observeRequest pc).stepsLeft := by
  cases rule with
  | wake _ _ leader => cases leader
  | awake | started => exact Nat.le_refl _

theorem TaskPc.three_lt_stepsLeft (deadline : Instant) (observeRequest : LifecycleRequest)
    (pc : ObservePc) : 3 < (TaskPc.observe deadline observeRequest pc).stepsLeft := by
  cases pc <;> simp [TaskPc.stepsLeft]

@[simp] theorem noteTurn_steps (core : Core) (pc : TaskPc) (input : Input) (pc' : TaskPc)
    (n : Polling) : (noteTurn core pc input pc' n).steps = n.steps + 1 := by
  cases pc <;> rfl

/-- A step leaves fewer steps to take, or observes once more. -/
theorem TaskRule.spent {n : Polling} {pc pc' : TaskPc} (rule : TaskRule timing core pc core' pc')
    (input : Input) (h : n.steps + pc.stepsLeft ≤ 6 * n.observations + 4) :
    (noteTurn core pc input pc' n).steps + pc'.stepsLeft ≤
      6 * (noteTurn core pc input pc' n).observations + 4 := by
  rw [noteTurn_steps]
  cases rule with
  | overflow | start | deadlineAtTop | sleep | deadlineAfterSleep | borrow | readRequest | finish =>
      simp only [noteTurn, deadlineExit, TaskPc.stepsLeft] at h ⊢
      omega
  | pending d observeRequest pc pc' _ observe =>
      have less := observe.stepsLeft d
      simp only [noteTurn]
      omega
  | ready d observeRequest pc | warming d observeRequest pc | failed d observeRequest pc =>
      have many := TaskPc.three_lt_stepsLeft d observeRequest pc
      have few : ∀ left ≤ 3, n.steps + 1 + left ≤ 6 * n.observations + 4 := by omega
      exact few _ (by simp [TaskPc.stepsLeft])

/-- What has been noted of the end of the round. -/
def TaskPc.Ended (n : Polling) : TaskPc → Prop
  | .finish d error => n.finishes = [] ∧ RoundEnd n.ready d.status error
  | .done => ∃ status error, n.finishes = [(status, error)] ∧ RoundEnd n.ready status error
  | _ => n.finishes = [] ∧ n.ready = false

/-- Where a task stands in its window: every observation so far has taken a poll
interval of it, and the next one will. -/
structure Paced (timing : LifecycleTiming) (now : Instant) (n : Polling)
    (start deadline : Instant) (pc : TaskPc) : Prop where
  deadline_eq : ∀ d, pc.deadline = some d → d = deadline
  elapsed : start + n.observations * timing.pollInterval ≤ now
  within : start + n.observations * timing.pollInterval ≤ deadline
  sleeps : ∀ d wakeAt, pc = .sleeping d wakeAt →
    start + (n.observations + 1) * timing.pollInterval ≤ wakeAt
  slept : ∀ d draft, pc = .readRequest d draft →
    start + (n.observations + 1) * timing.pollInterval ≤ now ∧
      start + (n.observations + 1) * timing.pollInterval ≤ deadline
  silent : ∀ d observeRequest draft, pc ≠ .observe d observeRequest (.requestWake draft)
  spent : n.steps + pc.stepsLeft ≤ 6 * n.observations + 4
  ended : pc.Ended n

def Polled (timing : LifecycleTiming) (now : Instant) (n : Polling) : TaskPc → Prop
  | .start => n = .none
  | .panicked => n.window = none
  | pc => ∃ start deadline, n.window = some (start, deadline) ∧
      Paced timing now n start deadline pc

theorem Paced.later {now now' : Instant} {n : Polling} {start deadline : Instant} {pc : TaskPc}
    (h : Paced timing now n start deadline pc) (later : now ≤ now') :
    Paced timing now' n start deadline pc :=
  { h with
    elapsed := Nat.le_trans h.elapsed later
    slept := fun d draft hpc =>
      ⟨Nat.le_trans (h.slept d draft hpc).1 later, (h.slept d draft hpc).2⟩ }

theorem Polled.later {now now' : Instant} {n : Polling} {pc : TaskPc}
    (h : Polled timing now n pc) (later : now ≤ now') : Polled timing now' n pc := by
  cases pc with
  | start | panicked => exact h
  | top | sleeping | readRequest | observe | finish | done =>
      obtain ⟨start, deadline, window, paced⟩ := h
      exact ⟨start, deadline, window, paced.later later⟩

/-- A task that works out its deadline enters its window. -/
theorem paced_start {deadline : Instant}
    (window : bootstrapDeadline timing core.status.value.lastWakeAttemptAt core.clock
      core.instant = some deadline) :
    Paced timing core.instant
      { Polling.none with window := some (core.instant, deadline), steps := 1 }
      core.instant deadline (.top deadline) where
  deadline_eq d hd := by
    cases hd
    rfl
  elapsed := by simp [Polling.none]
  within := by
    rw [bootstrapDeadline_eq window]
    simp [Polling.none]
  sleeps d wakeAt hpc := by cases hpc
  slept d draft hpc := by cases hpc
  silent d observeRequest draft hpc := by cases hpc
  spent := by simp [Polling.none, TaskPc.stepsLeft]
  ended := ⟨rfl, rfl⟩

/-- One step of a task in its window, between two observations or out of the loop. -/
theorem Paced.turn {n : Polling} {start deadline : Instant} {pc pc' : TaskPc} {input : Input}
    (h : Paced timing core.instant n start deadline pc)
    (hstep : taskStep timing core pc input = some (core', pc')) (begun : pc ≠ .start)
    (poll : 0 < timing.pollInterval) (sleeps : SleepsElapse timing core.instant) :
    Paced timing core.instant (noteTurn core pc input pc' n) start deadline pc' := by
  have rule := taskStep_cases hstep
  have spent := rule.spent input h.spent
  cases rule with
  | overflow | start => exact absurd rfl begun
  | deadlineAtTop d late | deadlineAfterSleep d _ late =>
      refine ⟨by simp [deadlineExit, TaskPc.deadline], h.elapsed, h.within,
        by simp [deadlineExit], by simp [deadlineExit], by simp [deadlineExit], spent, ?_⟩
      obtain ⟨hfinishes, hready⟩ := h.ended
      refine ⟨hfinishes, ?_⟩
      simp only [noteTurn, RoundEnd, hready]
      exact ⟨rfl, rfl, rfl⟩
  | sleep d wakeAt inTime =>
      refine ⟨h.deadline_eq, h.elapsed, h.within, ?_, by simp, by simp, spent, h.ended⟩
      rintro _ _ ⟨⟩
      rw [taskStep_sleep poll hstep]
      calc start + (n.observations + 1) * timing.pollInterval
          = start + n.observations * timing.pollInterval + timing.pollInterval := by
            rw [Nat.add_mul, Nat.one_mul, Nat.add_assoc]
        _ ≤ core.instant + timing.pollInterval := Nat.add_le_add_right h.elapsed _
        _ ≤ sleepDeadline core.instant timing.pollInterval := sleeps _ (Nat.le_refl _)
  | borrow d wakeAt slept inTime =>
      refine ⟨h.deadline_eq, h.elapsed, h.within, by simp, ?_, by simp, spent, h.ended⟩
      rintro _ _ ⟨⟩
      have inTime : core.instant < deadline := h.deadline_eq d rfl ▸ inTime
      have elapsed := Nat.le_trans (h.sleeps d wakeAt rfl) slept
      exact ⟨elapsed, Nat.le_trans elapsed (Nat.le_of_lt inTime)⟩
  | readRequest d draft =>
      obtain ⟨elapsed, within⟩ := h.slept d draft rfl
      exact ⟨h.deadline_eq, elapsed, within, by simp, by simp, by simp, spent, h.ended⟩
  | pending d observeRequest pc pc' _ observe =>
      have hready : findsReady core observeRequest pc input = false :=
        findsReady_eq_false hstep (by simp)
      refine ⟨h.deadline_eq, h.elapsed, h.within, by simp, by simp, ?_, spent, h.ended.1, hready⟩
      rintro _ _ draft ⟨⟩
      exact observe.silent draft rfl
  | warming d observeRequest pc _ draft observe =>
      have hready : findsReady core observeRequest pc input = false :=
        findsReady_eq_false hstep (by simp)
      exact ⟨h.deadline_eq, h.elapsed, h.within, by simp, by simp, by simp, spent, h.ended.1,
        hready⟩
  | ready d observeRequest pc _ draft observe =>
      have hready : findsReady core observeRequest pc input = true :=
        (findsReady_iff hstep).mpr ⟨draft, rfl⟩
      refine ⟨by simp [TaskPc.deadline], h.elapsed, h.within, by simp, by simp, by simp, spent,
        h.ended.1, ?_⟩
      obtain ⟨hlifecycle, htunnel⟩ := backendIsReady_iff.mp observe.ready_published.2
      simp only [noteTurn, RoundEnd, hready, if_true]
      exact ⟨hlifecycle, htunnel, trivial⟩
  | failed d observeRequest pc _ draft error observe =>
      have hready : findsReady core observeRequest pc input = false :=
        findsReady_eq_false hstep (by simp)
      have silent : ∀ draft, pc ≠ .requestWake draft := by
        rintro draft rfl
        exact h.silent d observeRequest draft rfl
      refine ⟨by simp [TaskPc.deadline], h.elapsed, h.within, by simp, by simp, by simp, spent,
        h.ended.1, ?_⟩
      simp only [noteTurn, RoundEnd, hready]
      exact ⟨observe.failed_lifecycle, observe.failed_down silent, rfl⟩
  | finish draft error =>
      obtain ⟨hfinishes, hend⟩ := h.ended
      refine ⟨by simp [TaskPc.deadline], h.elapsed, h.within, by simp, by simp, by simp, spent, ?_⟩
      exact ⟨draft.status, error, by simp [noteTurn, hfinishes], hend⟩

/-! ### Runs -/

/-- What the notes say in a state of the manager. -/
structure Noted (timing : LifecycleTiming) (k : Nat) (t : Manager × Polling) : Prop where
  unborn : t.1.core.tasks.length ≤ k → t.2 = .none
  task : ∀ pc, t.1.core.tasks[k]? = some pc → Polled timing t.1.core.instant t.2 pc

/-- The first step of a task. -/
theorem Polled.start {pc' : TaskPc} {input : Input}
    (rule : TaskRule timing core .start core' pc') :
    Polled timing core.instant (noteTurn core .start input pc' .none) pc' := by
  cases rule with
  | overflow => rfl
  | start deadline window => exact ⟨core.instant, deadline, rfl, paced_start window⟩

theorem Polled.turn {n : Polling} {pc pc' : TaskPc} {input : Input}
    (h : Polled timing core.instant n pc)
    (hstep : taskStep timing core pc input = some (core', pc'))
    (poll : 0 < timing.pollInterval) (sleeps : SleepsElapse timing core.instant) :
    Polled timing core.instant (noteTurn core pc input pc' n) pc' := by
  have rule := taskStep_cases hstep
  by_cases begun : pc = .start
  · subst begun
    obtain rfl : n = .none := h
    exact Polled.start rule
  · have running := rule.running
    obtain ⟨start, deadline, window, paced⟩ : ∃ start deadline, n.window = some (start, deadline) ∧
        Paced timing core.instant n start deadline pc := by
      cases pc with
      | start => exact absurd rfl begun
      | panicked => cases running
      | _ => exact h
    have paced' := paced.turn hstep begun poll sleeps
    have window' : (noteTurn core pc input pc' n).window = some (start, deadline) := by
      cases pc with
      | start => exact absurd rfl begun
      | _ => exact window
    cases rule with
    | overflow | start => exact absurd rfl begun
    | _ => exact ⟨start, deadline, window', paced'⟩

theorem noted_client {s : Manager} {n : Polling} {i : Nat} {pc pc' : ClientPc} {k : Nat}
    (h : Noted timing k (s, n)) (rule : ClientRule timing s.core pc core' pc') :
    Noted timing k ({ core := core', clients := s.clients.set i pc' }, n) := by
  have hinstant := rule.instant
  have unchanged : core'.tasks = s.core.tasks ∨ core'.tasks = s.core.tasks ++ [.start] := by
    cases rule.turn with
    | keep _ tasks _ | acquire _ _ tasks _ _ | release _ tasks _ _ => exact .inl tasks
    | handOver _ tasks _ _ => exact .inr tasks
  constructor
  · intro unborn
    refine h.unborn (Nat.le_trans ?_ unborn)
    obtain tasks | tasks := unchanged
    · simp [tasks]
    · simp [tasks]
  · intro task here
    change Polled timing core'.instant n task
    rw [hinstant]
    obtain tasks | tasks := unchanged
    · exact h.task task (tasks ▸ here)
    · replace here : (s.core.tasks ++ [.start])[k]? = some task := tasks ▸ here
      rw [List.getElem?_append] at here
      split at here
      next => exact h.task task here
      next hk =>
        rw [List.mem_singleton.mp (List.mem_of_getElem? here)]
        exact h.unborn (Nat.le_of_not_lt hk)

theorem task_step {s s' : Manager} {k : Nat} {input : Input}
    (h : (lifecycle timing).step s (.task k input) = some s') :
    ∃ pc core' pc', s.core.tasks[k]? = some pc ∧
      taskStep timing s.core pc input = some (core', pc') ∧
      s' = { s with core := { core' with tasks := core'.tasks.set k pc' } } := by
  obtain ⟨pc, here, hstep⟩ := Option.bind_eq_some_iff.mp h
  obtain ⟨⟨core', pc'⟩, hturn, hnext⟩ := Option.bind_eq_some_iff.mp hstep
  exact ⟨pc, core', pc', here, hturn, (Option.some.inj hnext).symm⟩

theorem noted_task {s s' : Manager} {n : Polling} {j k : Nat} {input : Input}
    (h : Noted timing k (s, n)) (hstep : (lifecycle timing).step s (.task j input) = some s')
    (poll : 0 < timing.pollInterval) (sleeps : SleepsElapse timing s.core.instant) :
    Noted timing k (s', notePolling k s (.task j input) s' n) := by
  obtain ⟨pc, core', pc', here, hturn, rfl⟩ := task_step hstep
  have rule := taskStep_cases hturn
  have hinstant := rule.instant
  have here' : (core'.tasks.set j pc')[j]? = some pc' := by
    rw [rule.tasks]
    exact getElem?_set_of_some here pc'
  by_cases hj : j = k
  · subst hj
    have hnote : notePolling j s (.task j input)
        { s with core := { core' with tasks := core'.tasks.set j pc' } } n =
          noteTurn s.core pc input pc' n := by
      simp only [notePolling, here, here', if_true]
    refine ⟨fun unborn => ?_, fun task htask => ?_⟩
    · have hlt := (List.getElem?_eq_some_iff.mp here').1
      exact absurd hlt (Nat.not_lt.mpr unborn)
    · obtain rfl : pc' = task := Option.some.inj (here'.symm.trans htask)
      rw [hnote]
      change Polled timing core'.instant _ _
      rw [hinstant]
      exact (h.task pc here).turn hturn poll sleeps
  · have hnote : notePolling k s (.task j input)
        { s with core := { core' with tasks := core'.tasks.set j pc' } } n = n := by
      simp only [notePolling, if_neg hj]
    have others : (core'.tasks.set j pc')[k]? = s.core.tasks[k]? := by
      rw [rule.tasks]
      exact List.getElem?_set_ne hj
    rw [hnote]
    refine ⟨fun unborn => h.unborn ?_, fun task htask => ?_⟩
    · simpa [rule.tasks] using unborn
    · change Polled timing core'.instant _ _
      rw [hinstant]
      exact h.task task (others.symm.trans htask)

theorem noted_step {t t' : Manager × Polling} {a : Action} {k : Nat} (h : Noted timing k t)
    (hstep : ((lifecycle timing).monitor (notePolling k)).step t a = some t')
    (poll : 0 < timing.pollInterval) (sleeps : SleepsElapse timing t.1.core.instant) :
    Noted timing k t' := by
  obtain ⟨s, n⟩ := t
  obtain ⟨s', n'⟩ := t'
  obtain ⟨hstep, hnote⟩ := System.monitor_step_iff.mp hstep
  obtain rfl : n' = notePolling k s a s' n := hnote
  have rule : ManagerRule timing s a s' := step_cases hstep
  cases rule with
  | begin | drop => exact ⟨h.unborn, h.task⟩
  | client i input pc pc' core' here rule => exact noted_client h rule
  | task j input pc pc' core' here rule => exact noted_task h hstep poll sleeps
  | elapse span clock =>
      exact ⟨h.unborn, fun pc here => (h.task pc here).later (Nat.le_add_right _ span)⟩

theorem instant_le {s s' : Manager} {a : Action} (rule : ManagerRule timing s a s') :
    s.core.instant ≤ s'.core.instant := by
  cases rule with
  | begin | drop => exact Nat.le_refl _
  | client i input pc pc' core' here rule => exact Nat.le_of_eq rule.instant.symm
  | task i input pc pc' core' here rule => exact Nat.le_of_eq rule.instant.symm
  | elapse span clock => exact Nat.le_add_right _ _

theorem SleepsElapse.earlier {now now' : Instant} (h : SleepsElapse timing now')
    (earlier : now ≤ now') : SleepsElapse timing now :=
  fun instant hinstant => h instant (Nat.le_trans hinstant earlier)

/-- Intervals of up to thirty years are slept through at any time, and longer ones
while the clock has room for them. -/
theorem sleepsElapse {now : Instant}
    (room : timing.pollInterval ≤ 86400 * 365 * 30 * nanosPerSec ∨
      now + timing.pollInterval < instantLimit) : SleepsElapse timing now := by
  intro instant hinstant
  unfold sleepDeadline Instant.add?
  split
  next => exact Nat.le_refl _
  next full =>
    rw [Option.getD_none, Nat.add_comm]
    refine Nat.add_le_add_right ?_ _
    obtain short | room := room
    · exact short
    · exact absurd (Nat.lt_of_le_of_lt (Nat.add_le_add_right hinstant _) room) full

theorem observeOnce_accepts {wakeRequest : Option LifecycleRequest}
    {observeRequest : LifecycleRequest} {pc : ObservePc} {answer : Answer}
    (h : pc.accepts answer = true) :
    (observeOnce core wakeRequest observeRequest pc answer).isSome = true := by
  cases pc with
  | sshIsReady d =>
      cases answer with
      | ssh result =>
          rcases result with error | ready
          · rfl
          · cases ready with
            | true => rfl
            | false =>
                simp only [observeOnce]
                split <;> rfl
      | _ => cases h
  | requestWake d =>
      cases answer with
      | wake result => rcases result with error | _ <;> rfl
      | _ => cases h
  | observeBackend d =>
      cases answer with
      | helper result =>
          rcases result with error | observed
          · rfl
          · simp only [observeOnce]
            split <;> rfl
      | _ => cases h
  | ensureTunnel d =>
      cases answer with
      | tunnel result =>
          rcases result with error | tunnel
          · rfl
          · simp only [observeOnce]
            split <;> rfl
      | _ => cases h

/-- A running task is never stuck. -/
theorem canGoOn {s : Manager} {k : Nat} {pc : TaskPc} (here : s.core.tasks[k]? = some pc)
    (running : pc.running = true) : CanGoOn timing s k := by
  have run : ∀ span, (taskStep timing
      { s.core with instant := s.core.instant + span } pc .run).isSome = true →
        ∃ span t, (lifecycle timing).step s (.elapse span s.core.clock) = some t ∧
          ((lifecycle timing).step t (.task k .run)).isSome = true := by
    intro span hturn
    refine ⟨span, _, rfl, ?_⟩
    obtain ⟨⟨core', pc'⟩, hturn⟩ := Option.isSome_iff_exists.mp hturn
    simp [lifecycle, Manager.step, here, hturn]
  simp only [CanGoOn, here]
  cases pc with
  | done | panicked => cases running
  | start =>
      refine run 0 ?_
      simp only [taskStep]
      split <;> rfl
  | top deadline =>
      refine run 0 ?_
      simp only [taskStep]
      split <;> rfl
  | sleeping deadline wakeAt =>
      refine run (wakeAt - s.core.instant) ?_
      have awake : ¬ s.core.instant + (wakeAt - s.core.instant) < wakeAt :=
        Nat.not_lt.mpr (Nat.sub_le_iff_le_add'.mp (Nat.le_refl _))
      simp only [taskStep, if_neg awake]
      split <;> rfl
  | readRequest deadline draft => exact run 0 rfl
  | finish draft error => exact run 0 rfl
  | observe deadline observeRequest pc =>
      intro answer haccepts
      have answered : (observeOnce s.core none observeRequest pc answer).isSome = true :=
        observeOnce_accepts haccepts
      obtain ⟨next, hnext⟩ := Option.isSome_iff_exists.mp answered
      simp [lifecycle, Manager.step, here, taskStep, hnext]

/-- Of a window, a task can use as many poll intervals as fit in it. -/
theorem Paced.observations_le {now : Instant} {n : Polling} {start deadline : Instant}
    {pc : TaskPc} (h : Paced timing now n start deadline pc) (poll : 0 < timing.pollInterval) :
    n.observations ≤ (deadline - start) / timing.pollInterval :=
  (Nat.le_div_iff_mul_le poll).mpr (Nat.le_sub_of_add_le' h.within)

section Reachable

variable {clients : Nat} {initialStatus : BackendStatus} {instant : Instant} {clock : Timestamp}
  {k : Nat}

theorem noted_reachable {t : Manager × Polling}
    (h : ((lifecycle timing).monitor (notePolling k)).Reachable
      (.new clients initialStatus instant clock, .none) t)
    (poll : 0 < timing.pollInterval) (sleeps : SleepsElapse timing t.1.core.instant) :
    Noted timing k t := by
  induction h with
  | refl => exact ⟨fun _ => rfl, by simp [Manager.new]⟩
  | step _ hstep ih =>
      have earlier := instant_le (step_cases (System.monitor_step_iff.mp hstep).1)
      exact noted_step (ih (sleeps.earlier earlier)) hstep poll (sleeps.earlier earlier)

/-- A background task that has worked out its deadline observes the backend at most
as often as the poll interval fits in its window and takes a number of steps bounded
by that, none of which it can be kept from for ever; it calls `finish_bootstrap` once,
with its last step, and with what its last observation makes of the round. -/
theorem polling_terminates {s : Manager} {n : Polling} {start deadline : Instant}
    (h : ((lifecycle timing).monitor (notePolling k)).Reachable
      (.new clients initialStatus instant clock, .none) (s, n))
    (poll : 0 < timing.pollInterval) (sleeps : SleepsElapse timing s.core.instant)
    (window : n.window = some (start, deadline)) :
    n.observations ≤ (deadline - start) / timing.pollInterval ∧
      n.steps ≤ 6 * ((deadline - start) / timing.pollInterval) + 4 ∧
      ((CanGoOn timing s k ∧ n.finishes = []) ∨
        (s.core.tasks[k]? = some .done ∧ ∃ status error,
          n.finishes = [(status, error)] ∧ RoundEnd n.ready status error)) := by
  have noted := noted_reachable h poll sleeps
  obtain ⟨pc, here⟩ : ∃ pc, s.core.tasks[k]? = some pc := by
    refine ⟨_, List.getElem?_eq_getElem (Nat.lt_of_not_le fun unborn => ?_)⟩
    obtain rfl : n = .none := noted.unborn unborn
    cases window
  have polled : Polled timing s.core.instant n pc := noted.task pc here
  obtain ⟨start', deadline', window', paced⟩ : ∃ start deadline,
      n.window = some (start, deadline) ∧ Paced timing s.core.instant n start deadline pc := by
    cases pc with
    | start =>
        obtain rfl : n = .none := polled
        cases window
    | panicked => cases window.symm.trans polled
    | _ => exact polled
  obtain ⟨rfl, rfl⟩ : start' = start ∧ deadline' = deadline := by
    simpa using window'.symm.trans window
  have observations := paced.observations_le poll
  refine ⟨observations, ?_, ?_⟩
  · have spent := paced.spent
    omega
  · have ended := paced.ended
    cases pc with
    | done => exact .inr ⟨here, ended⟩
    | panicked => cases window.symm.trans polled
    | _ => exact .inl ⟨canGoOn here rfl, ended.1⟩

end Reachable

/-- One observation finds the backend up, and the round ends ready. -/
theorem polling_terminates_ready :
    ∃ s n, ((lifecycle exampleTiming).monitor (notePolling 0)).Reachable
        (.new 1 .default 0 ⟨0⟩, .none) (s, n) ∧
      n.window = some (0, exampleTiming.hardBoot) ∧ n.observations = 1 ∧ n.ready = true ∧
      1 ≤ (exampleTiming.hardBoot - 0) / exampleTiming.pollInterval ∧
      n.steps ≤ 6 * ((exampleTiming.hardBoot - 0) / exampleTiming.pollInterval) + 4 ∧
      ((CanGoOn exampleTiming s 0 ∧ n.finishes = []) ∨
        (s.core.tasks[0]? = some .done ∧ ∃ status error,
          n.finishes = [(status, error)] ∧ RoundEnd n.ready status error)) := by
  obtain ⟨t, reached, hinstant, window, observations, ready⟩ : ∃ t : Manager × Polling,
      ((lifecycle exampleTiming).monitor (notePolling 0)).Reachable
        (.new 1 .default 0 ⟨0⟩, .none) t ∧
      t.1.core.instant = exampleTiming.pollInterval ∧
      t.2.window = some (0, exampleTiming.hardBoot) ∧ t.2.observations = 1 ∧ t.2.ready = true :=
    System.reachable_of_check (wakeSchedule ++ pollSchedule) (by decide)
  have sleeps : SleepsElapse exampleTiming t.1.core.instant := sleepsElapse (.inl (by decide))
  obtain ⟨few, rest⟩ := polling_terminates reached (by decide) sleeps window
  exact ⟨t.1, t.2, reached, window, observations, ready, observations ▸ few, rest⟩

end LlmWakeProxy.Lifecycle
