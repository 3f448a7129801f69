import LlmWakeProxy.Lifecycle.Ownership

/-!
How long a background round is given. `bootstrap_deadline` starts the window at
the wake that the status records and measures its age by the wall clock; the
window itself runs on the monotonic clock. The record stays in the status from
round to round, so the wake may be an earlier round's, and the wall clock may have
been set in between.
-/

namespace LlmWakeProxy.Lifecycle
open LlmWakeProxy.Library

variable {timing : LifecycleTiming} {core core' : Core}

/-- The instants that rounds are measured from, their own wake request or else
their start: of the round that each client led last, and of the round of each
task. Then, latest first, the windows that tasks were given, and how long the
rounds had lasted that ended with the boot deadline. -/
structure Rounds where
  led : Nat → Instant
  tasks : Nat → Instant
  granted : List Duration
  lasted : List Duration

def Rounds.none : Rounds where
  led _ := 0
  tasks _ := 0
  granted := []
  lasted := []

/-- Takes note of a round's start, of its wake request, of the task it is handed
to, of the window of the task and of the end at the boot deadline. -/
def noteRound (s : Manager) (a : Action) (s' : Manager) (n : Rounds) : Rounds :=
  match a with
  | .client i _ =>
      match s.clients[i]?, s'.clients[i]? with
      | some (.startOrJoin ..), some (.leadRequest ..) =>
          { n with led := Function.update n.led i s.core.instant }
      | some (.lead _ _ _ (.sshIsReady _)), some (.lead _ _ _ (.requestWake _)) =>
          { n with led := Function.update n.led i s.core.instant }
      | some (.lead ..), some (.waitEnter _) =>
          { n with tasks := Function.update n.tasks s.core.tasks.length (n.led i) }
      | _, _ => n
  | .task k _ =>
      match s.core.tasks[k]?, s'.core.tasks[k]? with
      | some .start, some (.top deadline) =>
          { n with granted := (deadline - s.core.instant) :: n.granted }
      | some (.top _), some (.finish ..) =>
          { n with lasted := (s.core.instant - n.tasks k) :: n.lasted }
      | some (.sleeping ..), some (.finish ..) =>
          { n with lasted := (s.core.instant - n.tasks k) :: n.lasted }
      | _, _ => n
  | _ => n

def LifecycleTiming.hardBoot (timing : LifecycleTiming) : Duration :=
  Duration.fromSecs timing.hardBootDeadlineSecs

/-- No window is longer than `hard_boot_deadline_secs`, and no round ends with the
boot deadline before that time has passed since its own wake, or its start. -/
def Timely (timing : LifecycleTiming) (t : Manager × Rounds) : Prop :=
  (∀ span ∈ t.2.granted, span ≤ timing.hardBoot) ∧ ∀ span ∈ t.2.lasted, timing.hardBoot ≤ span

/-- What the wall clock makes of the recorded wake is so: the wake is not in the
future, and as much of the window as has run off by the wall clock has passed
since `reference`. The last term counts what `u64` cannot. -/
def ageIsReal (timing : LifecycleTiming) (core : Core) (reference : Instant) : Bool :=
  let now := core.clock.unixSeconds.toNat
  let wake := (core.status.value.lastWakeAttemptAt.map (·.unixSeconds.toNat)).getD now
  let hard := timing.hardBootDeadlineSecs.toNat
  (wake ≤ now || 2 ^ 64 ≤ now + hard + 1) &&
    nanosPerSec * max (min hard (now - wake)) (now + hard + 1 - 2 ^ 64) ≤ core.instant - reference

/-- A task that works out its deadline finds the age of the recorded wake to be
real, for the round it is of. -/
def measures (timing : LifecycleTiming) (t : Manager × Rounds) : Action → Bool
  | .task k .run =>
      match t.1.core.tasks[k]? with
      | some .start => ageIsReal timing t.1.core (t.2.tasks k)
      | _ => true
  | _ => true

def Measured (timing : LifecycleTiming) (t : Manager × Rounds) (a : Action) : Prop :=
  measures timing t a = true

instance (t : Manager × Rounds) (a : Action) : Decidable (Measured timing t a) :=
  inferInstanceAs (Decidable (measures timing t a = true))

/-! ### The window -/

theorem saturatingAdd_toNat (a b : UInt64) :
    (saturatingAdd a b).toNat = min (a.toNat + b.toNat) (2 ^ 64 - 1) := by
  unfold saturatingAdd
  split
  next h =>
    rw [UInt64.toNat_add, Nat.mod_eq_of_lt h]
    omega
  next h =>
    rw [UInt64.toNat_ofNat']
    omega

theorem saturatingSub_toNat (a b : UInt64) : (saturatingSub a b).toNat = a.toNat - b.toNat := by
  unfold saturatingSub
  split
  next h => exact UInt64.toNat_sub_of_le _ _ h
  next h =>
    have hlt : a.toNat < b.toNat := by
      simpa [UInt64.le_iff_toNat_le] using h
    simp
    omega

theorem window_secs (wake hard : Nat) {now : Nat} (hnow : now < 2 ^ 64) :
    (min (wake + hard) (2 ^ 64 - 1) - now ≤ hard ↔ wake ≤ now ∨ 2 ^ 64 ≤ now + hard + 1) ∧
      hard - (min (wake + hard) (2 ^ 64 - 1) - now) =
        max (min hard (now - wake)) (now + hard + 1 - 2 ^ 64) := by
  omega

theorem window_nanos (window hard : Nat) {reference instant : Nat} (past : reference ≤ instant) :
    (window ≤ hard ∧ nanosPerSec * (hard - window) ≤ instant - reference) ↔
      nanosPerSec * window ≤ nanosPerSec * hard ∧
        reference + nanosPerSec * hard ≤ instant + nanosPerSec * window := by
  simp only [nanosPerSec]
  omega

def windowSecs (timing : LifecycleTiming) (core : Core) : Nat :=
  let now := core.clock.unixSeconds.toNat
  let wake := (core.status.value.lastWakeAttemptAt.map (·.unixSeconds.toNat)).getD now
  min (wake + timing.hardBootDeadlineSecs.toNat) (2 ^ 64 - 1) - now

theorem Instant.add?_eq_some {start deadline : Instant} {span : Duration}
    (h : Instant.add? start span = some deadline) : deadline = start + span := by
  unfold Instant.add? at h
  split at h
  next => exact (Option.some.inj h).symm
  next => cases h

/-- The deadline is now and the window, which no `u64` operation wraps. -/
theorem bootstrapDeadline_window :
    bootstrapDeadline timing core.status.value.lastWakeAttemptAt core.clock core.instant =
      Instant.add? core.instant (nanosPerSec * windowSecs timing core) := by
  have hwake : ((core.status.value.lastWakeAttemptAt.map Timestamp.unixSeconds).getD
      core.clock.unixSeconds).toNat =
        (core.status.value.lastWakeAttemptAt.map (·.unixSeconds.toNat)).getD
          core.clock.unixSeconds.toNat := by
    cases core.status.value.lastWakeAttemptAt <;> rfl
  simp only [bootstrapDeadline, Duration.fromSecs, saturatingSub_toNat, saturatingAdd_toNat, hwake,
    windowSecs]

theorem bootstrapDeadline_eq {deadline : Instant}
    (h : bootstrapDeadline timing core.status.value.lastWakeAttemptAt core.clock core.instant =
      some deadline) : deadline = core.instant + nanosPerSec * windowSecs timing core := by
  rw [bootstrapDeadline_window] at h
  exact Instant.add?_eq_some h

/-- The age of the recorded wake is real just when the window is no longer than
the hard deadline, and does not end before it. -/
theorem ageIsReal_iff {reference : Instant} (past : reference ≤ core.instant) :
    ageIsReal timing core reference = true ↔
      nanosPerSec * windowSecs timing core ≤ timing.hardBoot ∧
        reference + timing.hardBoot ≤ core.instant + nanosPerSec * windowSecs timing core := by
  obtain ⟨hlong, hshort⟩ := window_secs
    ((core.status.value.lastWakeAttemptAt.map (·.unixSeconds.toNat)).getD
      core.clock.unixSeconds.toNat)
    timing.hardBootDeadlineSecs.toNat core.clock.unixSeconds.toNat_lt
  simp only [ageIsReal, Bool.and_eq_true, Bool.or_eq_true, decide_eq_true_eq]
  rw [← hlong, ← hshort]
  exact window_nanos _ _ past

/-! ### Steps -/

def TaskPc.deadline : TaskPc → Option Instant
  | .top deadline | .sleeping deadline _ | .readRequest deadline _ | .observe deadline _ _ =>
      some deadline
  | _ => none

theorem ObserveRule.instant {wakeRequest : Option LifecycleRequest}
    {observeRequest : LifecycleRequest} {pc : ObservePc} {observation : Observation}
    (rule : ObserveRule core wakeRequest observeRequest pc core' observation) :
    core'.instant = core.instant := by
  cases rule <;> rfl

theorem ClientRule.instant {pc pc' : ClientPc} (rule : ClientRule timing core pc core' pc') :
    core'.instant = core.instant := by
  cases rule with
  | leadPending _ _ _ _ _ _ observe | leadReady _ _ _ _ _ _ observe
  | leadFailed _ _ _ _ _ _ _ observe | handOver _ _ _ _ _ _ observe => exact observe.instant
  | _ => rfl

theorem TaskRule.instant {pc pc' : TaskPc} (rule : TaskRule timing core pc core' pc') :
    core'.instant = core.instant := by
  cases rule with
  | pending _ _ _ _ _ observe | ready _ _ _ _ _ observe | warming _ _ _ _ _ observe
  | failed _ _ _ _ _ _ observe => exact observe.instant
  | _ => rfl

theorem TaskRule.deadline {pc pc' : TaskPc} (rule : TaskRule timing core pc core' pc')
    {deadline : Instant} (h : pc'.deadline = some deadline) :
    pc.deadline = some deadline ∨ pc = .start ∧
      bootstrapDeadline timing core.status.value.lastWakeAttemptAt core.clock core.instant =
        some deadline := by
  cases rule with
  | start deadline' window =>
      cases h
      exact .inr ⟨rfl, window⟩
  | sleep | borrow | readRequest | pending | warming => exact .inl h
  | overflow | deadlineAtTop | deadlineAfterSleep | ready | failed | finish => cases h

/-- The notes of a run, and what they say of the tasks. -/
structure Timed (timing : LifecycleTiming) (t : Manager × Rounds) : Prop where
  led : ∀ i, t.2.led i ≤ t.1.core.instant
  tasks : ∀ k, t.2.tasks k ≤ t.1.core.instant
  deadlines : ∀ k pc deadline, t.1.core.tasks[k]? = some pc → pc.deadline = some deadline →
    t.2.tasks k + timing.hardBoot ≤ deadline
  timely : Timely timing t

/-- What a client's step notes: nothing, an instant of the round it leads, or the
task it hands the round to. -/
theorem noteRound_client (s s' : Manager) (i : Nat) (input : Input) (n : Rounds) :
    noteRound s (.client i input) s' n = n ∨
      noteRound s (.client i input) s' n =
        { n with led := Function.update n.led i s.core.instant } ∨
      noteRound s (.client i input) s' n =
        { n with tasks := Function.update n.tasks s.core.tasks.length (n.led i) } := by
  unfold noteRound
  dsimp only
  split
  · exact .inr (.inl rfl)
  · exact .inr (.inl rfl)
  · exact .inr (.inr rfl)
  · exact .inl rfl

theorem update_le {α : Type} [DecidableEq α] {f : α → Nat} {bound : Nat} (h : ∀ a, f a ≤ bound)
    (a : α) {b : Nat} (hb : b ≤ bound) : ∀ c, Function.update f a b c ≤ bound := by
  intro c
  by_cases hc : c = a
  · subst hc
    rwa [Function.update_self]
  · rw [Function.update_of_ne hc]
    exact h c

theorem timed_client {s : Manager} {n : Rounds} {i : Nat} {input : Input} {pc pc' : ClientPc}
    (hs : Timed timing (s, n)) (rule : ClientRule timing s.core pc core' pc') :
    Timed timing ({ core := core', clients := s.clients.set i pc' },
      noteRound s (.client i input) { core := core', clients := s.clients.set i pc' } n) := by
  have hinstant := rule.instant
  have htasks : ∀ k task deadline, core'.tasks[k]? = some task → task.deadline = some deadline →
      k ≠ s.core.tasks.length ∧ n.tasks k + timing.hardBoot ≤ deadline := by
    intro k task deadline here hdeadline
    obtain hold | rfl := rule.tasks_getElem? here
    · have hlt := (List.getElem?_eq_some_iff.mp hold).1
      exact ⟨Nat.ne_of_lt hlt, hs.deadlines k task deadline hold hdeadline⟩
    · cases hdeadline
  obtain hnote | hnote | hnote := noteRound_client s
    { core := core', clients := s.clients.set i pc' } i input n
  · rw [hnote]
    refine ⟨?_, ?_, fun k task deadline here hd => (htasks k task deadline here hd).2, hs.timely⟩
    · exact fun j => hinstant ▸ hs.led j
    · exact fun k => hinstant ▸ hs.tasks k
  · rw [hnote]
    refine ⟨?_, ?_, fun k task deadline here hd => (htasks k task deadline here hd).2, hs.timely⟩
    · exact update_le (fun j => hinstant ▸ hs.led j) i (Nat.le_of_eq hinstant.symm)
    · exact fun k => hinstant ▸ hs.tasks k
  · rw [hnote]
    refine ⟨fun j => hinstant ▸ hs.led j, ?_, ?_, hs.timely⟩
    · exact update_le (fun k => hinstant ▸ hs.tasks k) _ (hinstant ▸ hs.led i)
    · intro k task deadline here hdeadline
      obtain ⟨hne, hle⟩ := htasks k task deadline here hdeadline
      simpa only [Function.update_of_ne hne] using hle

/-- What a task's step notes: nothing, the window it works out, or the end of its
round at the deadline. -/
theorem noteRound_task (s s' : Manager) (input : Input) (n : Rounds) {k : Nat} {pc pc' : TaskPc}
    (here : s.core.tasks[k]? = some pc) (here' : s'.core.tasks[k]? = some pc')
    (rule : TaskRule timing s.core pc core' pc') :
    (noteRound s (.task k input) s' n = n ∧ pc ≠ .start) ∨
      (noteRound s (.task k input) s' n = n ∧ pc' = .panicked) ∨
      (∃ deadline, pc = .start ∧ pc' = .top deadline ∧ noteRound s (.task k input) s' n =
        { n with granted := (deadline - s.core.instant) :: n.granted }) ∨
      ∃ deadline, pc.deadline = some deadline ∧ deadline ≤ s.core.instant ∧ pc'.deadline = none ∧
        noteRound s (.task k input) s' n =
          { n with lasted := (s.core.instant - n.tasks k) :: n.lasted } := by
  unfold noteRound
  simp only [here, here']
  cases rule with
  | overflow _ => exact .inr (.inl ⟨rfl, rfl⟩)
  | start deadline _ => exact .inr (.inr (.inl ⟨deadline, rfl, rfl, rfl⟩))
  | deadlineAtTop deadline late | deadlineAfterSleep deadline _ late =>
      exact .inr (.inr (.inr ⟨deadline, rfl, late, rfl, rfl⟩))
  | sleep | borrow | readRequest | pending | ready | warming | failed | finish =>
      exact .inl ⟨rfl, by simp⟩

theorem timed_task {s : Manager} {n : Rounds} {k : Nat} {input : Input} {pc pc' : TaskPc}
    (hs : Timed timing (s, n)) (here : s.core.tasks[k]? = some pc)
    (rule : TaskRule timing s.core pc core' pc')
    (ok : pc = .start → ageIsReal timing s.core (n.tasks k) = true) :
    Timed timing ({ s with core := { core' with tasks := core'.tasks.set k pc' } },
      noteRound s (.task k input)
        { s with core := { core' with tasks := core'.tasks.set k pc' } } n) := by
  have hinstant : core'.instant = s.core.instant := rule.instant
  have here' : (core'.tasks.set k pc')[k]? = some pc' := by
    rw [rule.tasks]
    exact getElem?_set_of_some here pc'
  have real := fun hstart => (ageIsReal_iff (hs.tasks k)).mp (ok hstart)
  have deadlines : ∀ j task deadline, (core'.tasks.set k pc')[j]? = some task →
      task.deadline = some deadline → n.tasks j + timing.hardBoot ≤ deadline := by
    intro j task deadline hj hdeadline
    rw [rule.tasks] at hj
    obtain ⟨rfl, rfl⟩ | ⟨_, hj⟩ := getElem?_set_cases here hj
    · obtain hold | ⟨rfl, window⟩ := rule.deadline hdeadline
      · exact hs.deadlines j pc deadline here hold
      · rw [bootstrapDeadline_eq window]
        exact (real rfl).2
    · exact hs.deadlines j task deadline hj hdeadline
  obtain ⟨granted, lasted⟩ := hs.timely
  obtain ⟨hnote, _⟩ | ⟨hnote, _⟩ | ⟨deadline, rfl, rfl, hnote⟩ |
      ⟨deadline, hdeadline, late, _, hnote⟩ :=
    noteRound_task s { s with core := { core' with tasks := core'.tasks.set k pc' } } input n
      here here' rule
  · rw [hnote]
    exact ⟨fun i => hinstant ▸ hs.led i, fun j => hinstant ▸ hs.tasks j, deadlines, hs.timely⟩
  · rw [hnote]
    exact ⟨fun i => hinstant ▸ hs.led i, fun j => hinstant ▸ hs.tasks j, deadlines, hs.timely⟩
  · rw [hnote]
    refine ⟨fun i => hinstant ▸ hs.led i, fun j => hinstant ▸ hs.tasks j, deadlines,
      List.forall_mem_cons.mpr ⟨?_, granted⟩, lasted⟩
    cases rule with
    | start _ window =>
        rw [bootstrapDeadline_eq window, Nat.add_sub_cancel_left]
        exact (real rfl).1
  · rw [hnote]
    refine ⟨fun i => hinstant ▸ hs.led i, fun j => hinstant ▸ hs.tasks j, deadlines, granted,
      List.forall_mem_cons.mpr ⟨?_, lasted⟩⟩
    have hle := hs.deadlines k pc deadline here hdeadline
    exact Nat.le_sub_of_add_le' (Nat.le_trans hle late)

theorem timed_step {t t' : Manager × Rounds} {a : Action} (hs : Timed timing t)
    (ok : Measured timing t a) (h : ((lifecycle timing).monitor noteRound).step t a = some t') :
    Timed timing t' := by
  obtain ⟨s, n⟩ := t
  obtain ⟨s', n'⟩ := t'
  obtain ⟨hstep, hnote⟩ := System.monitor_step_iff.mp h
  obtain rfl : n' = noteRound s a s' n := hnote
  have rule : ManagerRule timing s a s' := step_cases hstep
  cases rule with
  | begin i op pc here free => exact ⟨hs.led, hs.tasks, hs.deadlines, hs.timely⟩
  | drop i pc here suspended => exact ⟨hs.led, hs.tasks, hs.deadlines, hs.timely⟩
  | client i input pc pc' core' here rule => exact timed_client hs rule
  | task k input pc pc' core' here rule =>
      refine timed_task hs here rule ?_
      rintro rfl
      have hrun : input = .run := by
        cases input with
        | run => rfl
        | answer _ | timeout => simp [lifecycle, Manager.step, here, taskStep] at hstep
      simpa [Measured, measures, hrun, here] using ok
  | elapse span clock =>
      refine ⟨fun i => ?_, fun k => ?_, hs.deadlines, hs.timely⟩
      · exact Nat.le_trans (hs.led i) (Nat.le_add_right _ span)
      · exact Nat.le_trans (hs.tasks k) (Nat.le_add_right _ span)

section Reachable

variable {clients : Nat} {initialStatus : BackendStatus} {instant : Instant} {clock : Timestamp}

theorem timed_reachable {t : Manager × Rounds}
    (h : (((lifecycle timing).monitor noteRound).restrict (Measured timing)).Reachable
      (.new clients initialStatus instant clock, .none) t) : Timed timing t := by
  refine h.invariant_restrict ?_ fun _ _ _ hs ok hstep => timed_step hs ok hstep
  exact ⟨fun _ => Nat.zero_le _, fun _ => Nat.zero_le _, by simp [Manager.new],
    by simp [Rounds.none], by simp [Rounds.none]⟩

/-- A task that stands at its deadline ends its round there. -/
theorem ends_at_deadline {s : Manager} {n : Rounds} {k : Nat} {deadline : Instant}
    (here : s.core.tasks[k]? = some (.top deadline)) (late : deadline ≤ s.core.instant) :
    ∃ s', ((lifecycle timing).monitor noteRound).step (s, n) (.task k .run) =
      some (s', { n with lasted := (s.core.instant - n.tasks k) :: n.lasted }) := by
  have here' := getElem?_set_of_some here (deadlineExit s.core)
  refine ⟨{ s with core := { s.core with tasks := s.core.tasks.set k (deadlineExit s.core) } }, ?_⟩
  refine System.monitor_step_iff.mpr ⟨?_, ?_⟩
  · simp [lifecycle, Manager.step, here, taskStep, late]
  · simp only [noteRound, here, here']
    rfl

/-- A task whose deadline comes too early can end its round there. -/
theorem ends_early {t : Manager × Rounds} {k : Nat} {deadline : Instant}
    (here : t.1.core.tasks[k]? = some (.top deadline)) (past : t.2.tasks k ≤ t.1.core.instant)
    (later : t.1.core.instant ≤ deadline) (early : deadline < t.2.tasks k + timing.hardBoot) :
    ∃ u, ((lifecycle timing).monitor noteRound).Reachable t u ∧ ¬ Timely timing u := by
  obtain ⟨s, n⟩ := t
  have hinstant : s.core.instant + (deadline - s.core.instant) = deadline :=
    Nat.add_sub_cancel' later
  have waits : ((lifecycle timing).monitor noteRound).step (s, n)
      (.elapse (deadline - s.core.instant) s.core.clock) =
        some ({ s with core := { s.core with
          instant := s.core.instant + (deadline - s.core.instant), clock := s.core.clock } }, n) :=
    rfl
  obtain ⟨s', ends⟩ := @ends_at_deadline timing
    { s with core := { s.core with
      instant := s.core.instant + (deadline - s.core.instant), clock := s.core.clock } } n k deadline
    here (Nat.le_of_eq hinstant.symm)
  refine ⟨_, .step (.step .refl waits) ends, ?_⟩
  intro timely
  have hle := timely.2 _ List.mem_cons_self
  rw [hinstant] at hle
  have hlong := Nat.add_le_of_le_sub' (Nat.le_trans past later) hle
  exact absurd early (Nat.not_lt.mpr hlong)

/-- A window that the recorded wake's age does not bear out. -/
theorem window_misses {s s' : Manager} {n : Rounds} {k : Nat} {input : Input} {deadline : Instant}
    (here : s.core.tasks[k]? = some .start) (here' : s'.core.tasks[k]? = some (.top deadline))
    (instants : s'.core.instant = s.core.instant) (past : n.tasks k ≤ s.core.instant)
    (window : bootstrapDeadline timing s.core.status.value.lastWakeAttemptAt s.core.clock
      s.core.instant = some deadline)
    (unreal : ageIsReal timing s.core (n.tasks k) = false) :
    ∃ u, ((lifecycle timing).monitor noteRound).Reachable
        (s', noteRound s (.task k input) s' n) u ∧ ¬ Timely timing u := by
  have hdeadline := bootstrapDeadline_eq window
  have hnote : noteRound s (.task k input) s' n =
      { n with granted := (deadline - s.core.instant) :: n.granted } := by
    simp only [noteRound, here, here']
  rw [hnote]
  by_cases hlong : nanosPerSec * windowSecs timing s.core ≤ timing.hardBoot
  · refine ends_early here' ?_ ?_ ?_
    · exact instants ▸ past
    · rw [instants, hdeadline]
      exact Nat.le_add_right _ _
    · refine Nat.lt_of_not_le fun hshort => ?_
      rw [hdeadline] at hshort
      have real := (ageIsReal_iff past).mpr ⟨hlong, hshort⟩
      rw [unreal] at real
      cases real
  · refine ⟨_, .refl, fun timely => hlong ?_⟩
    have hle := timely.1 _ List.mem_cons_self
    rwa [hdeadline, Nat.add_sub_cancel_left] at hle

/-- In a run in which every task finds the recorded wake to be as old as its own
round's wake request or start, no window is longer than `hard_boot_deadline_secs`
and no round ends with the boot deadline earlier. A task that finds it otherwise
is given too long a window, or can end its round too early, if it does not panic. -/
theorem rounds_last_hard_boot_window :
    (∀ t, (((lifecycle timing).monitor noteRound).restrict (Measured timing)).Reachable
        (.new clients initialStatus instant clock, .none) t → Timely timing t) ∧
    ∀ t k t', (((lifecycle timing).monitor noteRound).restrict (Measured timing)).Reachable
        (.new clients initialStatus instant clock, .none) t →
      ((lifecycle timing).monitor noteRound).step t (.task k .run) = some t' →
      ¬ Measured timing t (.task k .run) →
      t'.1.core.tasks[k]? = some .panicked ∨
        ∃ u, ((lifecycle timing).monitor noteRound).Reachable t' u ∧ ¬ Timely timing u := by
  constructor
  · intro t ht
    exact (timed_reachable ht).timely
  · intro t k t' ht h unmeasured
    have hs := timed_reachable ht
    obtain ⟨s, n⟩ := t
    obtain ⟨s', n'⟩ := t'
    obtain ⟨hstep, hnote⟩ := System.monitor_step_iff.mp h
    obtain rfl : n' = noteRound s (.task k .run) s' n := hnote
    have rule : ManagerRule timing s (.task k .run) s' := step_cases hstep
    cases rule with
    | task _ _ pc pc' core' here rule =>
        cases pc with
        | start =>
            have here' : (core'.tasks.set k pc')[k]? = some pc' := by
              rw [rule.tasks]
              exact getElem?_set_of_some here pc'
            cases rule with
            | overflow _ => exact .inl here'
            | start deadline window =>
                refine .inr (window_misses here here' rfl (hs.tasks k) window ?_)
                simpa [Measured, measures, here] using unmeasured
        | _ => simp [Measured, measures, here] at unmeasured

end Reachable

section Earlier

/-- A client wakes the backend, and the round is handed to a task. -/
def wakeSchedule : List Action :=
  leadSchedule 0 .chat ++
    [.client 0 (.answer (.ssh (.ok false))), .client 0 (.answer (.wake (.ok ())))]

/-- The task polls once and finds the backend up. -/
def pollSchedule : List Action :=
  [.task 0 .run, .task 0 .run, .elapse (Duration.fromMillis 10) ⟨0⟩, .task 0 .run, .task 0 .run,
    .task 0 (.answer (.ssh (.ok true))), .task 0 (.answer (.helper (.ok observedReady))),
    .task 0 (.answer (.tunnel (.ok .ready))), .task 0 .run]

/-- Long after, the backend is marked as warming and found asleep, which makes for
a round that sends no wake. -/
def rewarmSchedule : List Action :=
  [.elapse (Duration.fromSecs 3600) ⟨3600⟩, .begin 1 (.markThenEnsure .chat), .client 1 .run,
    .client 1 .run, .client 1 .run, .client 1 .run, .client 1 .run, .client 1 .run,
    .client 1 (.answer (.ssh (.ok false))), .task 1 .run]

instance (t : Manager × Rounds) : Decidable (Timely exampleTiming t) :=
  inferInstanceAs (Decidable (_ ∧ _))

/-- A round that waits for its own wake is given the whole window. -/
theorem rounds_last_hard_boot_window_woken :
    ∃ t, (((lifecycle exampleTiming).monitor noteRound).restrict (Measured exampleTiming)).Reachable
        (.new 1 .default 0 ⟨0⟩, .none) t ∧ t.2.granted = [exampleTiming.hardBoot] ∧
      Timely exampleTiming t := by
  have woken : ∃ t, (((lifecycle exampleTiming).monitor noteRound).restrict
      (Measured exampleTiming)).Reachable (.new 1 .default 0 ⟨0⟩, .none) t ∧
        t.2.granted = [exampleTiming.hardBoot] :=
    System.reachable_of_check (wakeSchedule ++ [.task 0 .run]) (by decide)
  obtain ⟨t, ht, hgranted⟩ := woken
  exact ⟨t, ht, hgranted, rounds_last_hard_boot_window.1 t ht⟩

/-- A round that sends no wake ends at once with the boot deadline of the round
before it, and a clock that is set back makes for a window that is too long. -/
theorem earlier_wake_ends_round :
    (∃ t, ((lifecycle exampleTiming).monitor noteRound).Reachable (.new 2 .default 0 ⟨0⟩, .none) t ∧
      ¬ Timely exampleTiming t) ∧
    ∃ t, ((lifecycle exampleTiming).monitor noteRound).Reachable (.new 2 .default 0 ⟨10⟩, .none) t ∧
      ¬ Timely exampleTiming t :=
  ⟨System.reachable_of_check (wakeSchedule ++ pollSchedule ++ rewarmSchedule ++ [.task 1 .run])
      (by decide),
    System.reachable_of_check (wakeSchedule ++ [.elapse 0 ⟨5⟩, .task 0 .run]) (by decide)⟩

end Earlier
end LlmWakeProxy.Lifecycle
