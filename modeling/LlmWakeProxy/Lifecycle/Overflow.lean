import LlmWakeProxy.Config.Env
import LlmWakeProxy.Lifecycle.Deadline

/-!
When the deadlines can be computed. The `u64` arithmetic saturates, but the sum with
the `Instant` is checked: a window or a wait budget that ends beyond the range of
`Instant` makes the task or the waiter panic. Every `u64` can be configured.
-/

namespace LlmWakeProxy.Lifecycle
open LlmWakeProxy.Library
open LlmWakeProxy.Config (Environment parseU64)

variable {timing : LifecycleTiming} {core core' : Core}

/-- `read_env_or`. -/
def readEnvOr (env : Environment) (name : String) (default : UInt64) : UInt64 :=
  ((env name).bind parseU64).getD default

/-- `LifecycleTiming::default`. -/
def LifecycleTiming.fromEnv (env : Environment) : LifecycleTiming where
  coldWaitBudgetSecs := readEnvOr env "COLD_WAIT_BUDGET_SECS" 90
  hardBootDeadlineSecs := readEnvOr env "HARD_BOOT_DEADLINE_SECS" 300
  bootstrapPollIntervalMillis := readEnvOr env "BOOTSTRAP_POLL_INTERVAL_MS" 1000
  retryAfterSecs := readEnvOr env "RETRY_AFTER_SECS" 10

/-- A waiter and a background task that start here work out their deadlines. -/
def DeadlinesComputed (timing : LifecycleTiming) (core : Core) : Prop :=
  (∀ wait, ∃ deadline, clientStep timing core (.waitEnter wait) .run =
    some (core, .waitBorrow wait deadline)) ∧
  ∃ deadline, taskStep timing core .start .run = some (core, .top deadline)

/-- The wait budget and the window, counted from now, end at an `Instant`. -/
def DeadlinesFit (timing : LifecycleTiming) (core : Core) : Prop :=
  core.instant + nanosPerSec * timing.coldWaitBudgetSecs.toNat < instantLimit ∧
    core.instant + nanosPerSec * windowSecs timing core < instantLimit

instance (timing : LifecycleTiming) (core : Core) : Decidable (DeadlinesFit timing core) :=
  inferInstanceAs (Decidable (_ ∧ _))

theorem waitEnter_step (wait : Wait) :
    (∃ deadline, clientStep timing core (.waitEnter wait) .run =
      some (core, .waitBorrow wait deadline)) ↔
    core.instant + nanosPerSec * timing.coldWaitBudgetSecs.toNat < instantLimit := by
  rw [← Duration.fromSecs, ← Instant.add?_isSome, Option.isSome_iff_exists]
  simp only [clientStep]
  cases Instant.add? core.instant (Duration.fromSecs timing.coldWaitBudgetSecs) with
  | none => simp
  | some deadline => simp

theorem start_step :
    (∃ deadline, taskStep timing core .start .run = some (core, .top deadline)) ↔
    core.instant + nanosPerSec * windowSecs timing core < instantLimit := by
  rw [← Instant.add?_isSome, ← bootstrapDeadline_window, Option.isSome_iff_exists]
  simp only [taskStep]
  cases bootstrapDeadline timing core.status.value.lastWakeAttemptAt core.clock core.instant with
  | none => simp
  | some deadline => simp

/-- Whatever the configuration, the clocks and the recorded wake, both deadlines are
computed without a panic exactly when they fit. -/
theorem deadlines_computed_iff (timing : LifecycleTiming) (core : Core) :
    DeadlinesComputed timing core ↔ DeadlinesFit timing core := by
  unfold DeadlinesComputed DeadlinesFit
  rw [start_step]
  constructor
  · rintro ⟨waiters, task⟩
    exact ⟨(waitEnter_step { joinedAt := 0, rx := core.status.subscribe }).mp (waiters _), task⟩
  · rintro ⟨waiters, task⟩
    exact ⟨fun wait => (waitEnter_step wait).mpr waiters, task⟩

/-! ### Whole runs -/

def Fitting (timing : LifecycleTiming) (s : Manager) (_ : Action) : Prop :=
  DeadlinesFit timing s.core

instance (timing : LifecycleTiming) (s : Manager) (a : Action) : Decidable (Fitting timing s a) :=
  inferInstanceAs (Decidable (DeadlinesFit timing s.core))

theorem clientStep_not_panicked {pc pc' : ClientPc} {input : Input}
    (fits : DeadlinesFit timing core)
    (h : clientStep timing core pc input = some (core', pc')) : pc' ≠ .panicked := by
  cases clientStep_cases h with
  | waitOverflow wait =>
      obtain ⟨deadline, computed⟩ := (waitEnter_step wait).mpr fits.1
      cases input with
      | run => rw [computed] at h; cases h
      | answer _ | timeout => cases h
  | markPublish next _ => cases next <;> exact ClientPc.noConfusion
  | _ => exact ClientPc.noConfusion

theorem taskStep_not_panicked {pc pc' : TaskPc} {input : Input} (fits : DeadlinesFit timing core)
    (h : taskStep timing core pc input = some (core', pc')) : pc' ≠ .panicked := by
  cases taskStep_cases h with
  | overflow panics =>
      obtain ⟨deadline, computed⟩ := start_step.mpr fits.2
      cases input with
      | run => rw [computed] at h; cases h
      | answer _ | timeout => cases h
  | _ => exact TaskPc.noConfusion

structure Manager.Unhurt (s : Manager) : Prop where
  clients : ∀ pc ∈ s.clients, pc ≠ .panicked
  tasks : ∀ pc ∈ s.core.tasks, pc ≠ .panicked

theorem unhurt_step {s s' : Manager} {a : Action} (h : s.Unhurt) (fits : DeadlinesFit timing s.core)
    (hstep : (lifecycle timing).step s a = some s') : s'.Unhurt := by
  cases a with
  | elapse span clock =>
      cases hstep
      exact ⟨h.clients, h.tasks⟩
  | begin i op =>
      cases step_cases hstep with
      | begin _ _ pc here free =>
          refine ⟨forall_mem_set h.clients ?_, h.tasks⟩
          cases op <;> exact ClientPc.noConfusion
  | drop i =>
      cases step_cases hstep with
      | drop _ pc here suspended =>
          exact ⟨forall_mem_set h.clients ClientPc.noConfusion, h.tasks⟩
  | client i input =>
      obtain ⟨pc, here, hstep⟩ := Option.bind_eq_some_iff.mp hstep
      obtain ⟨⟨core', pc'⟩, hrule, hnext⟩ := Option.bind_eq_some_iff.mp hstep
      cases hnext
      refine ⟨forall_mem_set h.clients (clientStep_not_panicked fits hrule), fun task hmem => ?_⟩
      obtain hold | rfl := (clientStep_cases hrule).tasks_mem hmem
      · exact h.tasks task hold
      · exact TaskPc.noConfusion
  | task k input =>
      obtain ⟨pc, here, hstep⟩ := Option.bind_eq_some_iff.mp hstep
      obtain ⟨⟨core', pc'⟩, hrule, hnext⟩ := Option.bind_eq_some_iff.mp hstep
      cases hnext
      refine ⟨h.clients, ?_⟩
      simp only [(taskStep_cases hrule).tasks]
      exact forall_mem_set h.tasks (taskStep_not_panicked fits hrule)

/-- In a run whose deadlines all fit nobody panics. -/
theorem nobody_panics {clients : Nat} {initialStatus : BackendStatus} {instant : Instant}
    {clock : Timestamp} {s : Manager}
    (h : ((lifecycle timing).restrict (Fitting timing)).Reachable
      (.new clients initialStatus instant clock) s) : s.Unhurt := by
  refine h.invariant_restrict ?_ fun _ _ _ ht fits hstep => unhurt_step ht fits hstep
  refine ⟨fun pc hmem => ?_, fun task hmem => ?_⟩
  · obtain ⟨_, rfl⟩ := List.mem_replicate.mp hmem
    exact ClientPc.noConfusion
  · cases hmem

/-! ### The largest budget -/

def budgetOnly : Environment
  | "COLD_WAIT_BUDGET_SECS" => some "18446744073709551615".toList
  | _ => none

/-- With the largest wait budget no waiter has a deadline, from the first instant on. -/
theorem largest_budget_panics :
    ¬ DeadlinesComputed (.fromEnv budgetOnly) (Manager.new 1 .default 0 ⟨0⟩).core := by
  rintro ⟨waiters, _⟩
  have fits := (waitEnter_step { joinedAt := 0, rx := { seen := 0 } }).mp (waiters _)
  exact absurd fits (by decide)

end LlmWakeProxy.Lifecycle
