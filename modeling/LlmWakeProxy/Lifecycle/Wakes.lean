import LlmWakeProxy.Lifecycle.Ownership

/-!
Wake requests and the rounds they belong to. A round sends at most one wake,
and only its leader sends it, right after its own SSH probe found the host
asleep. Whether it does depends on the status the leader borrowed when its call
began: from a status that says warming it sends none, and the background task
it hands over to never sends one either.
-/

namespace LlmWakeProxy.Lifecycle
open LlmWakeProxy.Library

variable {timing : LifecycleTiming} {core core' : Core}

/-! ### At most one wake a round -/

def Event.isWake : Event → Bool
  | .wakeRequested _ => true
  | _ => false

def Event.isRound : Event → Bool
  | .roundBegun .. => true
  | _ => false

def ObservePc.probing : ObservePc → Bool
  | .sshIsReady _ => true
  | _ => false

/-- A leader that has not yet heard from its SSH probe. -/
def ClientPc.probing : ClientPc → Bool
  | .leadRequest .. => true
  | .lead _ _ _ pc => pc.probing
  | _ => false

def Core.wakes (core : Core) : Nat := core.log.countP Event.isWake

def Core.rounds (core : Core) : Nat := core.log.countP Event.isRound

/-- Every wake is charged to a round, and the round of a leader that is still
probing has not been charged. -/
def Manager.WakesBudgeted (s : Manager) : Prop :=
  s.core.wakes + s.clients.countP ClientPc.probing ≤ s.core.rounds

/-- A step of `observe_once` sends a wake only from the probe of a leader. -/
theorem ObserveRule.wakes {wakeRequest : Option LifecycleRequest}
    {observeRequest : LifecycleRequest} {pc : ObservePc} {observation : Observation}
    (rule : ObserveRule core wakeRequest observeRequest pc core' observation) :
    core'.rounds = core.rounds ∧
      core'.wakes ≤ core.wakes + (pc.probing && wakeRequest.isSome).toNat ∧
      ∀ pc', observation = .pending pc' → pc'.probing = false := by
  cases rule with
  | wake d request leader wakes =>
      refine ⟨rfl, ?_, ?_⟩
      · simp [Core.wakes, List.countP_cons, Event.isWake, ObservePc.probing, leader]
      · intro pc' hpc
        cases hpc
        rfl
  | _ =>
      refine ⟨rfl, ?_, ?_⟩
      · simp [Core.wakes, Core.publishObserved, Event.isWake]
      · intro pc' hpc
        cases hpc <;> rfl

theorem ClientRule.wakes {pc pc' : ClientPc} (rule : ClientRule timing core pc core' pc') :
    core'.wakes + pc'.probing.toNat + core.rounds ≤
      core.wakes + pc.probing.toNat + core'.rounds := by
  cases rule with
  | markPublish next d =>
      cases next <;> simp [Core.wakes, Core.rounds, Event.isWake, Event.isRound, afterMark,
        ClientPc.probing]
  | start caller initial idle =>
      simp [Core.wakes, Core.rounds, List.countP_cons, Event.isWake, Event.isRound,
        ClientPc.probing]
      omega
  | readRequest request initial wait => exact Nat.le_refl _
  | leadPending request observeRequest wait pc pc' core₁ observe =>
      obtain ⟨hrounds, hwakes, hpending⟩ := observe.wakes
      simp only [ClientPc.probing, hpending pc' rfl, hrounds, Bool.toNat_false]
      simp only [Option.isSome_some, Bool.and_true] at hwakes
      omega
  | leadReady request observeRequest wait pc core₁ d observe
  | leadFailed request observeRequest wait pc core₁ d error observe =>
      obtain ⟨hrounds, hwakes, _⟩ := observe.wakes
      simp only [ClientPc.probing, hrounds, Bool.toNat_false]
      simp only [Option.isSome_some, Bool.and_true] at hwakes
      omega
  | handOver request observeRequest wait pc core₁ d observe =>
      obtain ⟨hrounds, hwakes, _⟩ := observe.wakes
      have hspawn : core₁.spawnBootstrap.wakes = core₁.wakes ∧
          core₁.spawnBootstrap.rounds = core₁.rounds := by
        simp [Core.wakes, Core.rounds, Event.isWake, Event.isRound]
      simp only [ClientPc.probing, hrounds, hspawn.1, hspawn.2, Bool.toNat_false]
      simp only [Option.isSome_some, Bool.and_true] at hwakes
      omega
  | _ =>
      simp [Core.wakes, Core.rounds, Event.isWake, Event.isRound, ClientPc.probing]

theorem ClientRule.leads_of_wake {pc pc' : ClientPc}
    (rule : ClientRule timing core pc core' pc') (h : core.wakes < core'.wakes) :
    pc.leads = true := by
  cases rule with
  | readRequest | leadPending | leadReady | handOver | leadFailed | reread | leadFinish => rfl
  | _ =>
      refine absurd h (Nat.not_lt.mpr (Nat.le_of_eq ?_))
      simp [Core.wakes, Event.isWake]

theorem TaskRule.wakes {pc pc' : TaskPc} (rule : TaskRule timing core pc core' pc') :
    core'.wakes ≤ core.wakes ∧ core'.rounds = core.rounds := by
  cases rule with
  | pending _ _ _ _ _ observe | ready _ _ _ _ _ observe | warming _ _ _ _ _ observe
  | failed _ _ _ _ _ _ observe =>
      obtain ⟨hrounds, hwakes, _⟩ := observe.wakes
      simp only [Option.isSome_none, Bool.and_false, Bool.toNat_false] at hwakes
      exact ⟨by omega, hrounds⟩
  | _ => simp [Core.wakes, Core.rounds, Event.isWake, Event.isRound]

/-- A step of `observe_once` sends a wake or none. -/
theorem ObserveRule.wakes_eq {wakeRequest : Option LifecycleRequest}
    {observeRequest : LifecycleRequest} {pc : ObservePc} {observation : Observation}
    (rule : ObserveRule core wakeRequest observeRequest pc core' observation) :
    core'.wakes = core.wakes ∨ core'.wakes = core.wakes + 1 ∧ wakeRequest.isSome = true := by
  cases rule with
  | wake d request leader wakes =>
      exact .inr ⟨by simp [Core.wakes, List.countP_cons, Event.isWake], by simp [leader]⟩
  | _ => exact .inl (by simp [Core.wakes, Core.publishObserved, Event.isWake])

/-- A leader's SSH probe finds the host asleep, and the status is one to wake it in. -/
def ObservePc.findsAsleep : ObservePc → Answer → Bool
  | .sshIsReady draft, .ssh (.ok false) => shouldRequestWake draft.status.lifecycle
  | _, _ => false

def ClientPc.findsAsleep : ClientPc → Input → Bool
  | .lead _ _ _ pc, .answer answer => pc.findsAsleep answer
  | _, _ => false

theorem ClientPc.leads_of_asleep {pc : ClientPc} {input : Input}
    (h : pc.findsAsleep input = true) : pc.leads = true := by
  cases pc with
  | lead _ _ _ _ => rfl
  | _ => cases h

/-- A probe is followed by a wake only if the host was found asleep. -/
theorem asleep_of_requestWake {wakeRequest : Option LifecycleRequest}
    {observeRequest : LifecycleRequest} {draft draft' : Draft} {answer : Answer}
    (h : observeOnce core wakeRequest observeRequest (.sshIsReady draft) answer =
      some (core', .pending (.requestWake draft'))) : answer = .ssh (.ok false) := by
  match answer with
  | .ssh (.ok false) => rfl
  | .ssh (.ok true) | .ssh (.error _) | .wake _ | .helper _ | .tunnel _ => simp [observeOnce] at h

theorem ObservePc.findsAsleep_cases {pc : ObservePc} {answer : Answer}
    (h : pc.findsAsleep answer = true) :
    ∃ draft, pc = .sshIsReady draft ∧ answer = .ssh (.ok false) ∧
      shouldRequestWake draft.status.lifecycle = true := by
  unfold ObservePc.findsAsleep at h
  split at h
  next draft => exact ⟨draft, rfl, rfl, h⟩
  next => cases h

/-- That is when a leader sends a wake. -/
theorem observeOnce_wakes {request observeRequest : LifecycleRequest} {pc : ObservePc}
    {answer : Answer} {observation : Observation}
    (h : observeOnce core (some request) observeRequest pc answer = some (core', observation)) :
    core'.wakes = core.wakes + (pc.findsAsleep answer).toNat := by
  cases hfinds : pc.findsAsleep answer with
  | true =>
      obtain ⟨draft, rfl, rfl, wakes⟩ := ObservePc.findsAsleep_cases hfinds
      simp only [observeOnce, Option.filter, wakes, if_true, Option.some.injEq,
        Prod.mk.injEq] at h
      rw [← h.1]
      simp [Core.wakes, List.countP_cons, Event.isWake]
  | false =>
      have rule := observeOnce_cases h
      cases rule with
      | wake draft _ _ wakes =>
          obtain rfl := asleep_of_requestWake h
          simp [ObservePc.findsAsleep, wakes] at hfinds
      | _ => simp [Core.wakes, Core.publishObserved, Event.isWake]

theorem clientStep_wakes {pc pc' : ClientPc} {input : Input}
    (h : clientStep timing core pc input = some (core', pc')) :
    core'.wakes = core.wakes + (pc.findsAsleep input).toNat := by
  have rule := clientStep_cases h
  cases pc with
  | lead request observeRequest wait pc =>
      cases input with
      | run | timeout => simp [clientStep] at h
      | answer answer =>
          simp only [clientStep] at h
          obtain ⟨⟨core₁, observation⟩, hobserve, hrest⟩ := Option.map_eq_some_iff.mp h
          have wakes := observeOnce_wakes hobserve
          have hspawn : core₁.spawnBootstrap.wakes = core₁.wakes := by
            simp [Core.wakes, Event.isWake]
          cases observation with
          | warming _ => exact (Prod.mk.inj hrest).1 ▸ hspawn.trans wakes
          | pending _ | ready _ | failed _ _ => exact (Prod.mk.inj hrest).1 ▸ wakes
  | _ => cases rule <;> simp [Core.wakes, Event.isWake, ClientPc.findsAsleep]

theorem TaskRule.wakes_eq {pc pc' : TaskPc} (rule : TaskRule timing core pc core' pc') :
    core'.wakes = core.wakes := by
  cases rule with
  | pending _ _ _ _ _ observe | ready _ _ _ _ _ observe | warming _ _ _ _ _ observe
  | failed _ _ _ _ _ _ observe =>
      obtain h | ⟨_, leader⟩ := observe.wakes_eq
      · exact h
      · cases leader
  | _ => simp [Core.wakes, Event.isWake]

theorem entry_probing (op : Op) : op.entry.probing = false := by
  cases op <;> rfl

theorem wakesBudgeted_step {s s' : Manager} {a : Action} (budget : s.WakesBudgeted)
    (rule : ManagerRule timing s a s') : s'.WakesBudgeted := by
  cases rule with
  | begin i op pc here free =>
      have balance := countP_set_balance ClientPc.probing (b := op.entry) here
      rw [entry_probing, Bool.toNat_false] at balance
      simp only [Manager.WakesBudgeted] at budget ⊢
      omega
  | client i input pc pc' core' here rule =>
      have balance := countP_set_balance ClientPc.probing (b := pc') here
      have hwakes := rule.wakes
      simp only [Manager.WakesBudgeted] at budget ⊢
      omega
  | drop i pc here suspended =>
      have balance := countP_set_balance ClientPc.probing (b := .dropped) here
      have hdropped : ClientPc.dropped.probing = false := rfl
      rw [hdropped, Bool.toNat_false] at balance
      simp only [Manager.WakesBudgeted] at budget ⊢
      omega
  | task i input pc pc' core' here rule =>
      obtain ⟨hwakes, hrounds⟩ := rule.wakes
      simp only [Manager.WakesBudgeted, Core.wakes, Core.rounds] at budget hwakes hrounds ⊢
      omega
  | elapse span clock => exact budget

/-- A step that sends a wake is a step of the leader. -/
theorem leader_of_wake {s s' : Manager} {a : Action} (rule : ManagerRule timing s a s')
    (h : s.core.wakes < s'.core.wakes) :
    ∃ i input pc, a = .client i input ∧ s.clients[i]? = some pc ∧ pc.leads = true := by
  cases rule with
  | client i input pc pc' core' here rule =>
      exact ⟨i, input, pc, rfl, here, rule.leads_of_wake h⟩
  | task i input pc pc' core' here rule =>
      have hwakes := rule.wakes.1
      simp only [Core.wakes] at hwakes h
      omega
  | _ => exact absurd h (Nat.lt_irrefl _)

/-- No more wakes are sent than rounds are begun. -/
theorem wakes_le_rounds {clients : Nat} {initialStatus : BackendStatus} {instant : Instant}
    {clock : Timestamp} {s : Manager}
    (h : (lifecycle timing).Reachable (.new clients initialStatus instant clock) s) :
    s.core.wakes ≤ s.core.rounds := by
  have budget : s.WakesBudgeted := by
    refine h.invariant (I := Manager.WakesBudgeted) ?_ ?_
    · simp [Manager.WakesBudgeted, Manager.new, Core.wakes, Core.rounds, ClientPc.probing,
        List.countP_replicate]
    · intro t a t' ht hstep
      exact wakesBudgeted_step ht (step_cases hstep)
  simp only [Manager.WakesBudgeted] at budget
  omega

/-- At most one driver exists, no more wakes are sent than rounds are begun, and
every wake is sent by a leader, whatever calls are made and whichever of them
are dropped. -/
theorem one_driver_and_one_wake_a_round {clients : Nat} {initialStatus : BackendStatus}
    {instant : Instant} {clock : Timestamp} {s : Manager}
    (h : (lifecycle timing).Reachable (.new clients initialStatus instant clock) s) :
    s.owners ≤ 1 ∧ s.core.wakes ≤ s.core.rounds ∧
      ∀ a s', (lifecycle timing).step s a = some s' → s.core.wakes < s'.core.wakes →
        ∃ i input pc, a = .client i input ∧ s.clients[i]? = some pc ∧ pc.leads = true := by
  refine ⟨?_, wakes_le_rounds h, fun a s' hstep => leader_of_wake (step_cases hstep)⟩
  exact (exclusive_of_reachable h).owners_le_one

theorem one_driver_and_one_wake_a_round_asleep :
    ∃ s, (lifecycle exampleTiming).replay (.new 2 .default 0 ⟨0⟩)
        (leadSchedule 0 .chat ++ [.client 0 (.answer (.ssh (.ok false)))]) = some s ∧
      s.owners ≤ 1 ∧ s.core.wakes ≤ s.core.rounds ∧
      ∀ a s', (lifecycle exampleTiming).step s a = some s' → s.core.wakes < s'.core.wakes →
        ∃ i input pc, a = .client i input ∧ s.clients[i]? = some pc ∧ pc.leads = true := by
  have reached : ∃ s, (lifecycle exampleTiming).replay (.new 2 .default 0 ⟨0⟩)
      (leadSchedule 0 .chat ++ [.client 0 (.answer (.ssh (.ok false)))]) = some s := ⟨_, rfl⟩
  obtain ⟨s, hs⟩ := reached
  exact ⟨s, hs, one_driver_and_one_wake_a_round (System.reachable_of_replay _ hs)⟩

/-! ### The wake before polling -/

/-- What the log says about the latest round: the status its leader borrowed,
whether its leader's SSH probe found the host asleep, and whether it sent a wake. -/
structure RoundView where
  initial : Option BackendStatus
  asleep : Bool
  woken : Bool
  deriving DecidableEq

def roundView : List Event → RoundView
  | [] => { initial := none, asleep := false, woken := false }
  | .roundBegun _ initial :: _ => { initial := some initial, asleep := false, woken := false }
  | .sshAnswered true (.ok false) :: rest => { roundView rest with asleep := true }
  | .wakeRequested _ :: rest => { roundView rest with woken := true }
  | _ :: rest => roundView rest

/-- Whenever a background task is spawned after the leader of its round found
the host asleep, that round has sent its wake. -/
def WokenBeforePolling (log : List Event) : Prop :=
  ∀ earlier, (.pollingBegun :: earlier) <:+ log →
    (roundView earlier).asleep = true → (roundView earlier).woken = true

/-- Every such round was begun from a status that does not say warming. -/
def BegunNotWarming (log : List Event) : Prop :=
  ∀ earlier, (.pollingBegun :: earlier) <:+ log →
    (roundView earlier).asleep = true →
      ∃ initial, (roundView earlier).initial = some initial ∧ initial.lifecycle ≠ .warming

/-- A round in which the host was found asleep sent its wake exactly when it was
not begun from a warming status. -/
def RoundView.Accounted (view : RoundView) : Prop :=
  ∃ initial, view.initial = some initial ∧
    (view.asleep = true → (view.woken = true ↔ initial.lifecycle ≠ .warming))

def PollingAccounted (log : List Event) : Prop :=
  ∀ earlier, (.pollingBegun :: earlier) <:+ log → (roundView earlier).Accounted

/-- What the latest round looks like from where its leader stands. -/
def ObservePc.Sees (view : RoundView) : ObservePc → Prop
  | .sshIsReady d => view = { initial := some d.status, asleep := false, woken := false }
  | .requestWake _ =>
      ∃ initial, view = { initial := some initial, asleep := true, woken := true } ∧
        initial.lifecycle ≠ .warming
  | .observeBackend _ | .ensureTunnel _ =>
      ∃ initial, view = { initial := some initial, asleep := false, woken := false }

def ClientPc.Sees (view : RoundView) : ClientPc → Prop
  | .leadRequest _ initial _ =>
      view = { initial := some initial.status, asleep := false, woken := false }
  | .lead _ _ _ pc => pc.Sees view
  | _ => True

theorem ObservePc.sees_sshIsReady {view : RoundView} {d : Draft} :
    (ObservePc.sshIsReady d).Sees view ↔
      view = { initial := some d.status, asleep := false, woken := false } := Iff.rfl

theorem ClientPc.sees_of_not_leads {view : RoundView} {pc : ClientPc} (h : pc.leads = false) :
    pc.Sees view := by
  cases pc with
  | leadRequest | lead => cases h
  | _ => trivial

@[simp] theorem roundView_published (w : Writer) (d : Draft) (v : Nat) (log : List Event) :
    roundView (.published w d v :: log) = roundView log := rfl
@[simp] theorem roundView_helperCalled (r : LifecycleRequest) (log : List Event) :
    roundView (.helperCalled r :: log) = roundView log := rfl
@[simp] theorem roundView_waiterReturned (j v : Nat) (d : LifecycleDecision) (log : List Event) :
    roundView (.waiterReturned j v d :: log) = roundView log := rfl
@[simp] theorem roundView_background (r : Except LifecycleError Bool) (log : List Event) :
    roundView (.sshAnswered false r :: log) = roundView log := rfl
@[simp] theorem roundView_awake (log : List Event) :
    roundView (.sshAnswered true (.ok true) :: log) = roundView log := rfl
@[simp] theorem roundView_asleep (log : List Event) :
    roundView (.sshAnswered true (.ok false) :: log) = { roundView log with asleep := true } := rfl
@[simp] theorem roundView_wakeRequested (r : LifecycleRequest) (log : List Event) :
    roundView (.wakeRequested r :: log) = { roundView log with woken := true } := rfl

theorem pollingAccounted_cons {event : Event} {log : List Event} (h : PollingAccounted log)
    (hevent : event = .pollingBegun → (roundView log).Accounted) :
    PollingAccounted (event :: log) := by
  intro earlier hsuffix
  cases List.suffix_cons_iff.mp hsuffix with
  | inl heq =>
      obtain ⟨hhead, rfl⟩ := List.cons.inj heq
      exact hevent hhead.symm
  | inr hsuffix =>
      exact h earlier hsuffix

theorem ObserveRule.sees {request observeRequest : LifecycleRequest} {pc pc' : ObservePc}
    (rule : ObserveRule core (some request) observeRequest pc core' (.pending pc'))
    (sees : pc.Sees (roundView core.log)) : pc'.Sees (roundView core'.log) := by
  cases rule with
  | wake d r leader wakes =>
      have hview := ObservePc.sees_sshIsReady.mp sees
      refine ⟨d.status, ?_, ?_⟩
      · simp [hview]
      · intro hwarming
        rw [hwarming] at wakes
        cases wakes
  | awake d =>
      have hview := ObservePc.sees_sshIsReady.mp sees
      exact ⟨d.status, by simpa using hview⟩
  | started d o ho => exact sees

theorem ObserveRule.accounted {request observeRequest : LifecycleRequest} {pc : ObservePc}
    {d : Draft} (rule : ObserveRule core (some request) observeRequest pc core' (.warming d))
    (sees : pc.Sees (roundView core.log)) : (roundView core'.log).Accounted := by
  cases rule with
  | asleep d silent =>
      have hview := ObservePc.sees_sshIsReady.mp sees
      have hwarming : d.status.lifecycle = .warming := by simpa using silent
      refine ⟨d.status, ?_, fun _ => ?_⟩
      · simp [Core.publishObserved, hview]
      · simp [Core.publishObserved, hview, hwarming]
  | woken d =>
      obtain ⟨initial, hview, hlifecycle⟩ := sees
      refine ⟨initial, ?_, fun _ => ?_⟩
      · simp [Core.publishObserved, hview]
      · simp [Core.publishObserved, hview, hlifecycle]
  | starting d o ho | tunnelNotReady d tunnel notReady =>
      obtain ⟨initial, hview⟩ := sees
      refine ⟨initial, ?_, ?_⟩
      · simp [Core.publishObserved, hview]
      · simp [Core.publishObserved, hview]

/-- `observe_once` never begins polling itself. -/
theorem ObserveRule.pollingAccounted {wakeRequest : Option LifecycleRequest}
    {observeRequest : LifecycleRequest} {pc : ObservePc} {observation : Observation}
    (rule : ObserveRule core wakeRequest observeRequest pc core' observation)
    (h : PollingAccounted core.log) : PollingAccounted core'.log := by
  cases rule with
  | sshFailed => exact pollingAccounted_cons h nofun
  | wake | asleep | awake =>
      exact pollingAccounted_cons (pollingAccounted_cons h nofun)
        nofun
  | woken | starting | tunnelReady | tunnelNotReady =>
      exact pollingAccounted_cons h nofun
  | _ => exact h

theorem ClientRule.sees {pc pc' : ClientPc} (rule : ClientRule timing core pc core' pc')
    (sees : pc.Sees (roundView core.log)) (h : PollingAccounted core.log) :
    pc'.Sees (roundView core'.log) ∧ PollingAccounted core'.log ∧
      (roundView core'.log ≠ roundView core.log → pc.leads = true ∨ pc'.leads = true) := by
  cases rule with
  | markPublish next d =>
      refine ⟨?_, pollingAccounted_cons h nofun, fun hview => ?_⟩
      · exact ClientPc.sees_of_not_leads (afterMark_leads next)
      · exact absurd rfl hview
  | degradePublish d =>
      exact ⟨trivial, pollingAccounted_cons h nofun,
        fun hview => absurd rfl hview⟩
  | start caller initial idle =>
      exact ⟨rfl, pollingAccounted_cons h nofun, fun _ => .inr rfl⟩
  | readRequest request initial wait => exact ⟨sees, h, fun _ => .inl rfl⟩
  | leadPending request observeRequest wait pc pc' core₁ observe =>
      exact ⟨observe.sees sees, observe.pollingAccounted h, fun _ => .inl rfl⟩
  | leadReady request observeRequest wait pc core₁ d observe
  | leadFailed request observeRequest wait pc core₁ d error observe =>
      exact ⟨trivial, observe.pollingAccounted h, fun _ => .inl rfl⟩
  | handOver request observeRequest wait pc core₁ d observe =>
      refine ⟨trivial, ?_, fun _ => .inl rfl⟩
      exact pollingAccounted_cons (observe.pollingAccounted h)
        (fun _ => observe.accounted sees)
  | leadFinish d error decision =>
      exact ⟨trivial, pollingAccounted_cons h nofun, fun _ => .inl rfl⟩
  | waitReturn wait deadline d decision verdict =>
      exact ⟨trivial, pollingAccounted_cons h nofun,
        fun hview => absurd rfl hview⟩
  | _ => exact ⟨trivial, h, fun hview => absurd rfl hview⟩

theorem TaskRule.sees {pc pc' : TaskPc} (rule : TaskRule timing core pc core' pc')
    (h : PollingAccounted core.log) :
    roundView core'.log = roundView core.log ∧ PollingAccounted core'.log := by
  cases rule with
  | pending _ _ _ _ _ observe | ready _ _ _ _ _ observe | warming _ _ _ _ _ observe
  | failed _ _ _ _ _ _ observe =>
      refine ⟨?_, observe.pollingAccounted h⟩
      cases observe <;> first | rfl | contradiction
  | finish d error => exact ⟨rfl, pollingAccounted_cons h nofun⟩
  | _ => exact ⟨rfl, h⟩

/-- The invariant behind the wake: every handed-over round is accounted for, and
the leader of the current round sees it as its place says. -/
structure Manager.RoundSeen (s : Manager) : Prop where
  accounted : PollingAccounted s.core.log
  sees : ∀ pc ∈ s.clients, pc.Sees (roundView s.core.log)

theorem roundSeen_step {s s' : Manager} {a : Action} (seen : s.RoundSeen)
    (before : s.flight.Exclusive) (after : s'.flight.Exclusive)
    (rule : ManagerRule timing s a s') : s'.RoundSeen := by
  cases rule with
  | begin i op pc here free =>
      exact ⟨seen.accounted,
        forall_mem_set seen.sees (ClientPc.sees_of_not_leads (entry_leads op))⟩
  | client i input pc pc' core' here rule =>
      obtain ⟨hsees, haccounted, hview⟩ :=
        rule.sees (seen.sees pc (List.mem_of_getElem? here)) seen.accounted
      refine ⟨haccounted, ?_⟩
      intro other hother
      rcases mem_set_cases hother with rfl | ⟨j, hne, hj⟩
      · exact hsees
      · by_cases hsame : roundView core'.log = roundView s.core.log
        · simp only [hsame]
          exact seen.sees other (List.mem_of_getElem? hj)
        · refine ClientPc.sees_of_not_leads (Bool.eq_false_iff.mpr fun hleads => hne ?_)
          cases hview hsame with
          | inl hbefore =>
              exact eq_of_countP_le_one (exclusive_clients_le_one before) hj here hleads hbefore
          | inr hafter =>
              have hi : (s.clients.set i pc')[i]? = some pc' := getElem?_set_of_some here pc'
              have hj' : (s.clients.set i pc')[j]? = some other := by
                rwa [List.getElem?_set_ne (Ne.symm hne)]
              exact eq_of_countP_le_one (exclusive_clients_le_one after) hj' hi hleads hafter
  | drop i pc here suspended =>
      exact ⟨seen.accounted, forall_mem_set seen.sees trivial⟩
  | task i input pc pc' core' here rule =>
      obtain ⟨hview, haccounted⟩ := rule.sees seen.accounted
      refine ⟨haccounted, ?_⟩
      intro other hother
      simp only [hview]
      exact seen.sees other hother
  | elapse span clock => exact ⟨seen.accounted, seen.sees⟩

theorem roundSeen_of_reachable {clients : Nat} {initialStatus : BackendStatus}
    {instant : Instant} {clock : Timestamp} {s : Manager}
    (h : (lifecycle timing).Reachable (.new clients initialStatus instant clock) s) :
    s.RoundSeen := by
  induction h with
  | refl =>
      refine ⟨?_, ?_⟩
      · intro earlier hsuffix
        simp [Manager.new] at hsuffix
      · intro pc hpc
        rw [List.eq_of_mem_replicate hpc]
        trivial
  | step reached hstep ih =>
      exact roundSeen_step ih (exclusive_of_reachable reached)
        (exclusive_of_reachable (.step reached hstep)) (step_cases hstep)

/-- Every round that found the host asleep was woken before polling began,
exactly when every such round was begun from a status that does not say warming. -/
theorem wokenBeforePolling_iff {clients : Nat} {initialStatus : BackendStatus}
    {instant : Instant} {clock : Timestamp} {s : Manager}
    (h : (lifecycle timing).Reachable (.new clients initialStatus instant clock) s) :
    WokenBeforePolling s.core.log ↔ BegunNotWarming s.core.log := by
  have accounted := (roundSeen_of_reachable h).accounted
  constructor
  · intro woken earlier hsuffix hasleep
    obtain ⟨initial, hinitial, hiff⟩ := accounted earlier hsuffix
    exact ⟨initial, hinitial, (hiff hasleep).mp (woken earlier hsuffix hasleep)⟩
  · intro begun earlier hsuffix hasleep
    obtain ⟨initial, hinitial, hiff⟩ := accounted earlier hsuffix
    obtain ⟨initial', hinitial', hne⟩ := begun earlier hsuffix hasleep
    rw [hinitial] at hinitial'
    cases hinitial'
    exact (hiff hasleep).mpr hne

/-- The retry path on a host that went to sleep while it was ready: the upstream
is unreachable, the caller marks the backend warming and leads a round, the
probe answers that the host is asleep, and polling begins. -/
def retrySchedule : List Action :=
  [.begin 0 (.markThenEnsure .chat), .client 0 .run, .client 0 .run, .client 0 .run,
    .client 0 .run, .client 0 .run, .client 0 .run, .client 0 (.answer (.ssh (.ok false)))]

theorem wokenBeforePolling_iff_retry :
    ∃ s, (lifecycle exampleTiming).replay (.new 1 .default 0 ⟨0⟩) retrySchedule = some s ∧
      (WokenBeforePolling s.core.log ↔ BegunNotWarming s.core.log) := by
  have reached : ∃ s, (lifecycle exampleTiming).replay (.new 1 .default 0 ⟨0⟩)
      retrySchedule = some s := ⟨_, rfl⟩
  obtain ⟨s, hs⟩ := reached
  exact ⟨s, hs, wokenBeforePolling_iff (System.reachable_of_replay _ hs)⟩

/-- After `mark_warming` the round polls a sleeping host it never woke. -/
theorem marked_round_polls_unwoken :
    ¬ ∀ (timing : LifecycleTiming) (clients : Nat) (initialStatus : BackendStatus)
      (instant : Instant) (clock : Timestamp) (s : Manager),
      (lifecycle timing).Reachable (.new clients initialStatus instant clock) s →
        WokenBeforePolling s.core.log := by
  intro claim
  have unwoken : ∃ s, (lifecycle exampleTiming).replay
      (.new 1 { BackendStatus.default with lifecycle := .ready, tunnel := .ready } 0 ⟨0⟩)
      retrySchedule = some s ∧
      ∃ earlier, s.core.log = .pollingBegun :: earlier ∧ (roundView earlier).asleep = true ∧
        (roundView earlier).woken = false := ⟨_, rfl, _, rfl, rfl, rfl⟩
  obtain ⟨s, hreplay, earlier, hlog, hasleep, hwoken⟩ := unwoken
  have woken := claim _ _ _ _ _ s (System.reachable_of_replay _ hreplay) earlier
    (hlog ▸ List.suffix_rfl) hasleep
  rw [hwoken] at woken
  cases woken

end LlmWakeProxy.Lifecycle
