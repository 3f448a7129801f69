import LlmWakeProxy.Lifecycle.Ownership

/-!
What a ready backend rests on. A pass of `observe_once` asks SSH, then the helper, then
the tunnel, each only after the one before has answered that it may; it publishes a
ready status when all three have. Every other way of publishing passes on a status that
was published before, or says that the backend is not ready. So whoever finds the
backend ready, at whatever remove, does so on the answers of one pass.
-/

namespace LlmWakeProxy.Lifecycle
open LlmWakeProxy.Library

variable {timing : LifecycleTiming} {core core' : Core} {trail : List Answer} {E E' : Prop}

inductive Driver where
  | client (client : Nat)
  | task (task : Nat)
  deriving DecidableEq, Repr

/-- The answers each driver has had in its pass of `observe_once`, and those of every
pass that published a ready status, latest first. -/
structure Sightings where
  trail : Driver → List Answer
  seen : List (List Answer)

def Sightings.none : Sightings where
  trail _ := []
  seen := []

/-- SSH is asked first in every pass. -/
def trailAfter (trail : List Answer) : Answer → List Answer
  | .ssh result => [.ssh result]
  | answer => answer :: trail

def showsReady (s s' : Manager) : Bool :=
  decide (s.core.status.version < s'.core.status.version) && backendIsReady s'.core.status.value

def Sightings.answered (n : Sightings) (s s' : Manager) (driver : Driver) (answer : Answer) :
    Sightings where
  trail := Function.update n.trail driver (trailAfter (n.trail driver) answer)
  seen := if showsReady s s' then trailAfter (n.trail driver) answer :: n.seen else n.seen

def noteSighting (s : Manager) (a : Action) (s' : Manager) (n : Sightings) : Sightings :=
  match a with
  | .client i (.answer answer) => n.answered s s' (.client i) answer
  | .task i (.answer answer) => n.answered s s' (.task i) answer
  | _ => n

/-- SSH answered that the host is up, then the helper that the backend is ready, then
the tunnel that it is. -/
def Sighting (trail : List Answer) : Prop :=
  ∃ observed : ObservedBackendState, observed.lifecycle = .ready ∧
    trail = [.tunnel (.ok .ready), .helper (.ok observed), .ssh (.ok true)]

/-! ### One pass -/

/-- What has been answered where the pass stands. -/
def ObservePc.Trailed : ObservePc → List Answer → Prop
  | .sshIsReady _, _ => True
  | .requestWake _, trail => trail = [.ssh (.ok false)]
  | .observeBackend _, trail => trail = [.ssh (.ok true)]
  | .ensureTunnel d, trail => d.status.lifecycle = .ready ∧
      ∃ observed : ObservedBackendState, observed.lifecycle = .ready ∧
        trail = [.helper (.ok observed), .ssh (.ok true)]

/-- What a step of a pass, answered `trail` so far, leaves behind. -/
structure PassStep (core core' : Core) (trail : List Answer) (observation : Observation) : Prop where
  status : core'.status = core.status ∨
    core.status.version < core'.status.version ∧
      (backendIsReady core'.status.value = true → Sighting trail)
  pending : ∀ pc, observation = .pending pc → pc.Trailed trail
  ready : ∀ d, observation = .ready d → Sighting trail ∧
    core.status.version < core'.status.version ∧ backendIsReady core'.status.value = true
  failed : ∀ d error, observation = .failed d error → backendIsReady d.status = false

theorem notReady_of_lifecycle {status : BackendStatus} (h : status.lifecycle ≠ .ready) :
    backendIsReady status = false := by
  simp [backendIsReady, h]

theorem PassStep.stays (core : Core) {pc : ObservePc} (h : pc.Trailed trail)
    (same : core'.status = core.status) : PassStep core core' trail (.pending pc) where
  status := .inl same
  pending := by
    rintro _ ⟨rfl⟩
    exact h
  ready := by
    rintro d ⟨⟩
  failed := by
    rintro d error ⟨⟩

theorem PassStep.fails (core : Core) {d : Draft} (error : LifecycleError)
    (h : d.status.lifecycle ≠ .ready) (same : core'.status = core.status) :
    PassStep core core' trail (.failed d error) where
  status := .inl same
  pending := by
    rintro pc ⟨⟩
  ready := by
    rintro d ⟨⟩
  failed := by
    rintro _ _ ⟨rfl, rfl⟩
    exact notReady_of_lifecycle h

theorem PassStep.warms {d : Draft} (h : backendIsReady d.status = false) {d' : Draft}
    (sent : core'.status = core.status.send d.status) :
    PassStep core core' trail (.warming d') where
  status := by
    refine .inr ⟨by rw [sent]; exact Nat.lt_succ_self _, fun ready => ?_⟩
    rw [sent] at ready
    exact absurd (h.symm.trans ready) Bool.false_ne_true
  pending := by
    rintro pc ⟨⟩
  ready := by
    rintro d ⟨⟩
  failed := by
    rintro d error ⟨⟩

theorem observeOnce_pass {wakeRequest : Option LifecycleRequest}
    {observeRequest : LifecycleRequest} {pc : ObservePc} {answer : Answer}
    {observation : Observation} (htrail : pc.Trailed trail)
    (h : observeOnce core wakeRequest observeRequest pc answer = some (core', observation)) :
    PassStep core core' (trailAfter trail answer) observation := by
  cases pc with
  | sshIsReady d =>
      cases answer with
      | wake _ | helper _ | tunnel _ => cases h
      | ssh result =>
          cases result with
          | error error => cases h; exact .fails core error (by simp [BackendStatus.failed]) rfl
          | ok isUp =>
              cases isUp with
              | true => cases h; exact .stays core rfl rfl
              | false =>
                  simp only [observeOnce] at h
                  split at h
                  next => cases h; exact .stays core rfl rfl
                  next => cases h; exact .warms (d := d.edit .warmed) (by simp [backendIsReady,
                            BackendStatus.warmed]) rfl
  | requestWake d =>
      cases answer with
      | ssh _ | helper _ | tunnel _ => cases h
      | wake result =>
          cases result with
          | error error => cases h; exact .fails core error (by simp) rfl
          | ok _ => cases h; exact .warms (d := d.edit .warmed) (by simp [backendIsReady,
                        BackendStatus.warmed]) rfl
  | observeBackend d =>
      cases answer with
      | ssh _ | wake _ | tunnel _ => cases h
      | helper result =>
          cases result with
          | error error => cases h; exact .fails core error (by simp [BackendStatus.failed]) rfl
          | ok o =>
              simp only [observeOnce] at h
              split at h
              next ho =>
                cases h
                exact .fails core _ (by simp [BackendStatus.withObserved, ho]) rfl
              next ho => cases h; exact .stays core ⟨ho, o, ho, by rw [htrail]; rfl⟩ rfl
              next =>
                cases h
                exact .warms (d := (d.edit (·.withObserved o)).edit fun status =>
                  { status with tunnel := .down }) (by simp [backendIsReady]) rfl
              next =>
                cases h
                exact .warms (d := (d.edit (·.withObserved o)).edit fun status =>
                  { status with tunnel := .down }) (by simp [backendIsReady]) rfl
  | ensureTunnel d =>
      cases answer with
      | ssh _ | wake _ | helper _ => cases h
      | tunnel result =>
          cases result with
          | error error => cases h; exact .fails core error (by simp [BackendStatus.failed]) rfl
          | ok tunnel =>
              cases ready : backendIsReady (d.status.withTunnel tunnel) with
              | false =>
                  simp only [observeOnce, Core.publishObserved, Draft.rebase_status,
                    Draft.edit_status, ready, Bool.false_eq_true, if_false] at h
                  cases h
                  exact .warms (d := d.edit (·.withTunnel tunnel)) ready rfl
              | true =>
                  simp only [observeOnce, Core.publishObserved, Draft.rebase_status,
                    Draft.edit_status, ready, if_true] at h
                  cases h
                  obtain rfl : tunnel = .ready := (backendIsReady_iff.mp ready).2
                  obtain ⟨_, o, ho, rfl⟩ := htrail
                  have sighting : Sighting (trailAfter [.helper (.ok o), .ssh (.ok true)]
                    (.tunnel (.ok .ready))) := ⟨o, ho, rfl⟩
                  have newer : core.status.version <
                      (core.publish .observeOnce (d.edit (·.withTunnel .ready))).status.version :=
                    Nat.lt_succ_self _
                  refine ⟨.inr ⟨newer, fun _ => sighting⟩, ?_, ?_, ?_⟩
                  · rintro pc ⟨⟩
                  · exact fun _ _ => ⟨sighting, newer, ready⟩
                  · rintro d error ⟨⟩

/-! ### Where readiness is passed on -/

/-- What the places of a client that tell of a ready backend rest on, the client's pass
having been answered `trail` so far. -/
def ClientPc.Evident (E : Prop) (trail : List Answer) : ClientPc → Prop
  | .markPublish _ d | .degradePublish d | .checkActive _ d | .waitLock _ _ d =>
      backendIsReady d.status = true → E
  | .lead _ _ _ pc => pc.Trailed trail
  | .leadReread _ => E
  | .leadFinish d _ decision =>
      (backendIsReady d.status = true → E) ∧ ∀ status, decision = .ready status → E
  | .returned decision => ∀ status, decision = .ready status → E
  | _ => True

def TaskPc.Evident (E : Prop) (trail : List Answer) : TaskPc → Prop
  | .observe _ _ pc => pc.Trailed trail
  | .finish d _ => backendIsReady d.status = true → E
  | _ => True

theorem ClientPc.Evident.mono {pc : ClientPc} (h : pc.Evident E trail) (imp : E → E') :
    pc.Evident E' trail := by
  cases pc with
  | markPublish _ _ | degradePublish _ | checkActive _ _ | waitLock _ _ _ =>
      exact fun ready => imp (h ready)
  | lead _ _ _ _ => exact h
  | leadReread _ => exact imp h
  | leadFinish _ _ _ => exact ⟨fun ready => imp (h.1 ready), fun status hd => imp (h.2 status hd)⟩
  | returned _ => exact fun status hd => imp (h status hd)
  | _ => trivial

theorem TaskPc.Evident.mono {pc : TaskPc} (h : pc.Evident E trail) (imp : E → E') :
    pc.Evident E' trail := by
  cases pc with
  | observe _ _ _ => exact h
  | finish _ _ => exact fun ready => imp (h ready)
  | _ => trivial

theorem ClientRule.evident {pc pc' : ClientPc} (rule : ClientRule timing core pc core' pc')
    (quiet : ∀ request observeRequest wait observe, pc ≠ .lead request observeRequest wait observe)
    (hcore : backendIsReady core.status.value = true → E) (h : pc.Evident E trail) :
    (backendIsReady core'.status.value = true → E) ∧ pc'.Evident E trail := by
  cases rule with
  | markBorrow next =>
      refine ⟨hcore, fun ready => ?_⟩
      simp [backendIsReady, BackendStatus.warmed] at ready
  | markPublish next d => exact ⟨h, by cases next <;> trivial⟩
  | degradeBorrow reason => exact ⟨hcore, hcore⟩
  | degradePublish d => exact ⟨h, trivial⟩
  | borrowInitial caller => exact ⟨hcore, hcore⟩
  | alreadyReady caller initial _ ready => exact ⟨hcore, fun _ _ => h ready⟩
  | leadPending _ _ _ _ _ _ _ | leadReady _ _ _ _ _ _ _ | handOver _ _ _ _ _ _ _
  | leadFailed _ _ _ _ _ _ _ _ => exact absurd rfl (quiet _ _ _ _)
  | reread status => exact ⟨hcore, hcore, fun _ _ => h⟩
  | leadFinish d error decision => exact ⟨h.1, h.2⟩
  | waitBorrow wait deadline => exact ⟨hcore, hcore⟩
  | waitReturn wait deadline d decision verdict =>
      refine ⟨hcore, ?_⟩
      rintro status rfl
      obtain ⟨_, ready, _⟩ | ⟨_, _, hd⟩ | ⟨_, _, hd⟩ := waitVerdict_cases verdict
      · exact h ready
      · cases hd
      · cases hd
  | readRequest _ _ _ | notReady _ _ _ | start _ _ _ | join _ _ _ | waitOverflow _ | waitEnter _ _
  | waitOn _ _ _ _ | changed _ _ _ _ | timerFired _ _ _ _ _ => exact ⟨hcore, trivial⟩
  | timedOut stale =>
      refine ⟨hcore, ?_⟩
      rintro status ⟨⟩

theorem TaskRule.evident {pc pc' : TaskPc} (rule : TaskRule timing core pc core' pc')
    (quiet : ∀ deadline observeRequest observe, pc ≠ .observe deadline observeRequest observe)
    (hcore : backendIsReady core.status.value = true → E) (h : pc.Evident E trail) :
    (backendIsReady core'.status.value = true → E) ∧ pc'.Evident E trail := by
  cases rule with
  | pending _ _ _ _ _ _ | ready _ _ _ _ _ _ | warming _ _ _ _ _ _ | failed _ _ _ _ _ _ _ =>
      exact absurd rfl (quiet _ _ _)
  | deadlineAtTop _ _ | deadlineAfterSleep _ _ _ =>
      refine ⟨hcore, fun ready => ?_⟩
      simp [backendIsReady, BackendStatus.failed] at ready
  | finish d error => exact ⟨h, trivial⟩
  | overflow _ | start _ _ | sleep _ _ _ | borrow _ _ _ _ | readRequest _ _ =>
      exact ⟨hcore, trivial⟩

theorem clientStep_answer {pc pc' : ClientPc} {answer : Answer}
    (h : clientStep timing core pc (.answer answer) = some (core', pc')) :
    ∃ request observeRequest wait observe core₁ observation,
      pc = .lead request observeRequest wait observe ∧
      observeOnce core (some request) observeRequest observe answer =
        some (core₁, observation) ∧ core'.status = core₁.status ∧
      ((∃ next, observation = .pending next ∧ pc' = .lead request observeRequest wait next) ∨
        (∃ d, observation = .ready d ∧ pc' = .leadReread d.status) ∨
        (∃ d, observation = .warming d ∧ pc' = .waitEnter wait) ∨
        ∃ d error, observation = .failed d error ∧
          pc' = .leadFinish d (some error) (.failed d.status error)) := by
  cases pc with
  | lead request observeRequest wait observe =>
      obtain ⟨⟨core₁, observation⟩, hobserve, hnext⟩ := Option.map_eq_some_iff.mp h
      refine ⟨request, observeRequest, wait, observe, core₁, observation, rfl, hobserve, ?_⟩
      cases observation with
      | pending next => cases hnext; exact ⟨rfl, .inl ⟨next, rfl, rfl⟩⟩
      | ready d => cases hnext; exact ⟨rfl, .inr (.inl ⟨d, rfl, rfl⟩)⟩
      | warming d => cases hnext; exact ⟨rfl, .inr (.inr (.inl ⟨d, rfl, rfl⟩))⟩
      | failed d error => cases hnext; exact ⟨rfl, .inr (.inr (.inr ⟨d, error, rfl, rfl⟩))⟩
  | _ => cases h

theorem taskStep_answer {pc pc' : TaskPc} {answer : Answer}
    (h : taskStep timing core pc (.answer answer) = some (core', pc')) :
    ∃ deadline observeRequest observe observation,
      pc = .observe deadline observeRequest observe ∧
      observeOnce core none observeRequest observe answer = some (core', observation) ∧
      ((∃ next, observation = .pending next ∧ pc' = .observe deadline observeRequest next) ∨
        (∃ d, observation = .ready d ∧ pc' = .finish d none) ∨
        (∃ d, observation = .warming d ∧ pc' = .top deadline) ∨
        ∃ d error, observation = .failed d error ∧ pc' = .finish d (some error)) := by
  cases pc with
  | observe deadline observeRequest observe =>
      obtain ⟨⟨core₁, observation⟩, hobserve, hnext⟩ := Option.map_eq_some_iff.mp h
      refine ⟨deadline, observeRequest, observe, observation, rfl, ?_⟩
      cases observation with
      | pending next => cases hnext; exact ⟨hobserve, .inl ⟨next, rfl, rfl⟩⟩
      | ready d => cases hnext; exact ⟨hobserve, .inr (.inl ⟨d, rfl, rfl⟩)⟩
      | warming d => cases hnext; exact ⟨hobserve, .inr (.inr (.inl ⟨d, rfl, rfl⟩))⟩
      | failed d error => cases hnext; exact ⟨hobserve, .inr (.inr (.inr ⟨d, error, rfl, rfl⟩))⟩
  | _ => cases h

/-! ### The whole manager -/

/-- Some pass has published a ready status, or the manager began with one. -/
def Sightings.Seen (n : Sightings) (initially : Prop) : Prop :=
  initially ∨ n.seen ≠ []

/-- What a manager knows of a ready backend, and what its drivers have been answered. -/
structure Manager.Evident (initially : Prop) (s : Manager) (n : Sightings) : Prop where
  sightings : ∀ trail ∈ n.seen, Sighting trail
  status : backendIsReady s.core.status.value = true → n.Seen initially
  clients : ∀ (i : Nat) (pc : ClientPc), s.clients[i]? = some pc →
    pc.Evident (n.Seen initially) (n.trail (.client i))
  tasks : ∀ (i : Nat) (pc : TaskPc), s.core.tasks[i]? = some pc →
    pc.Evident (n.Seen initially) (n.trail (.task i))

section Answers

variable {initially : Prop} {s s' : Manager} {n : Sightings} {driver : Driver} {answer : Answer}

theorem Sightings.seen_answered (h : n.Seen initially) :
    (n.answered s s' driver answer).Seen initially := by
  obtain h | h := h
  · exact .inl h
  · refine .inr ?_
    simp only [Sightings.answered]
    split
    next => exact List.cons_ne_nil _ _
    next => exact h

theorem Sightings.seen_of_showsReady (h : showsReady s s' = true) :
    (n.answered s s' driver answer).Seen initially := by
  refine .inr ?_
  simp only [Sightings.answered, if_pos h]
  exact List.cons_ne_nil _ _

theorem Sightings.trail_answered :
    (n.answered s s' driver answer).trail driver = trailAfter (n.trail driver) answer :=
  Function.update_self ..

theorem Sightings.trail_other {other : Driver} (h : other ≠ driver) :
    (n.answered s s' driver answer).trail other = n.trail other :=
  Function.update_of_ne h ..

/-- What the answer to a driver's pass leaves for everyone: the sightings, and the
published status. -/
theorem answered_status (driver : Driver) (answer : Answer) {observation : Observation}
    (h : s.Evident initially n)
    (pass : PassStep s.core s'.core (trailAfter (n.trail driver) answer) observation) :
    (∀ trail ∈ (n.answered s s' driver answer).seen, Sighting trail) ∧
      (backendIsReady s'.core.status.value = true →
        (n.answered s s' driver answer).Seen initially) := by
  have fresh : s.core.status.version < s'.core.status.version →
      backendIsReady s'.core.status.value = true → showsReady s s' = true := by
    intro newer ready
    simp [showsReady, newer, ready]
  constructor
  · intro trail hmem
    simp only [Sightings.answered] at hmem
    split at hmem
    next announced =>
      obtain rfl | hold := List.mem_cons.mp hmem
      · obtain ⟨newer, ready⟩ := Bool.and_eq_true_iff.mp announced
        obtain same | ⟨_, sighted⟩ := pass.status
        · rw [same] at newer
          exact absurd (of_decide_eq_true newer) (Nat.lt_irrefl _)
        · exact sighted ready
      · exact h.sightings trail hold
    next => exact h.sightings trail hmem
  · intro ready
    obtain same | ⟨newer, _⟩ := pass.status
    · rw [same] at ready
      exact Sightings.seen_answered (h.status ready)
    · exact Sightings.seen_of_showsReady (fresh newer ready)

theorem showsReady_of_ready {observation : Observation} {d : Draft} {trail : List Answer}
    (pass : PassStep s.core s'.core trail observation) (h : observation = .ready d) :
    showsReady s s' = true := by
  obtain ⟨_, newer, ready⟩ := pass.ready d h
  simp [showsReady, newer, ready]

end Answers

section Steps

variable {initially : Prop} {s s' : Manager} {n : Sightings}

theorem evident_client_answer {i : Nat} {answer : Answer} {pc pc' : ClientPc} {core' : Core}
    (h : s.Evident initially n) (here : s.clients[i]? = some pc)
    (moved : clientStep timing s.core pc (.answer answer) = some (core', pc'))
    (hs' : s' = { core := core', clients := s.clients.set i pc' }) :
    s'.Evident initially (n.answered s s' (.client i) answer) := by
  obtain ⟨request, observeRequest, wait, observe, core₁, observation, rfl, hobserve, same, left⟩ :=
    clientStep_answer moved
  have pass₁ := observeOnce_pass (h.clients i _ here) hobserve
  have pass : PassStep s.core s'.core (trailAfter (n.trail (.client i)) answer) observation := by
    have hcore : s'.core.status = core₁.status := by rw [hs', ← same]
    exact ⟨hcore ▸ pass₁.status, pass₁.pending, hcore ▸ pass₁.ready, pass₁.failed⟩
  obtain ⟨sightings, status⟩ := answered_status (.client i) answer h pass
  refine ⟨sightings, status, ?_, ?_⟩
  · intro j other hother
    have hclients : s'.clients = s.clients.set i pc' := by rw [hs']
    rw [hclients] at hother
    obtain ⟨rfl, rfl⟩ | ⟨hne, hold⟩ := getElem?_set_cases here hother
    · rw [Sightings.trail_answered]
      obtain ⟨next, hobs, rfl⟩ | ⟨d, hobs, rfl⟩ | ⟨d, _, rfl⟩ | ⟨d, error, hobs, rfl⟩ := left
      · exact pass.pending next hobs
      · exact Sightings.seen_of_showsReady (showsReady_of_ready pass hobs)
      · trivial
      · refine ⟨fun ready => ?_, ?_⟩
        · exact absurd ((pass.failed d error hobs).symm.trans ready) Bool.false_ne_true
        · rintro status ⟨⟩
    · rw [Sightings.trail_other (by simpa using hne)]
      exact (h.clients j other hold).mono Sightings.seen_answered
  · intro k task htask
    have htasks : s'.core.tasks = core'.tasks := by rw [hs']
    rw [htasks] at htask
    obtain hold | rfl := (clientStep_cases moved).tasks_getElem? htask
    · rw [Sightings.trail_other (by simp)]
      exact (h.tasks k task hold).mono Sightings.seen_answered
    · trivial

theorem evident_task_answer {i : Nat} {answer : Answer} {pc pc' : TaskPc} {core' : Core}
    (h : s.Evident initially n) (here : s.core.tasks[i]? = some pc)
    (moved : taskStep timing s.core pc (.answer answer) = some (core', pc'))
    (hs' : s' = { s with core := { core' with tasks := core'.tasks.set i pc' } }) :
    s'.Evident initially (n.answered s s' (.task i) answer) := by
  obtain ⟨deadline, observeRequest, observe, observation, rfl, hobserve, left⟩ :=
    taskStep_answer moved
  have pass₁ := observeOnce_pass (h.tasks i _ here) hobserve
  have pass : PassStep s.core s'.core (trailAfter (n.trail (.task i)) answer) observation := by
    have hcore : s'.core.status = core'.status := by rw [hs']
    exact ⟨hcore ▸ pass₁.status, pass₁.pending, hcore ▸ pass₁.ready, pass₁.failed⟩
  obtain ⟨sightings, status⟩ := answered_status (.task i) answer h pass
  refine ⟨sightings, status, ?_, ?_⟩
  · intro j other hother
    have hclients : s'.clients = s.clients := by rw [hs']
    rw [hclients] at hother
    rw [Sightings.trail_other (by simp)]
    exact (h.clients j other hother).mono Sightings.seen_answered
  · intro k task htask
    have htasks : s'.core.tasks = s.core.tasks.set i pc' := by
      rw [hs', (taskStep_cases moved).tasks]
    rw [htasks] at htask
    obtain ⟨rfl, rfl⟩ | ⟨hne, hold⟩ := getElem?_set_cases here htask
    · rw [Sightings.trail_answered]
      obtain ⟨next, hobs, rfl⟩ | ⟨d, hobs, rfl⟩ | ⟨d, _, rfl⟩ | ⟨d, error, hobs, rfl⟩ := left
      · exact pass.pending next hobs
      · exact fun _ => Sightings.seen_of_showsReady (showsReady_of_ready pass hobs)
      · trivial
      · exact fun ready =>
          absurd ((pass.failed d error hobs).symm.trans ready) Bool.false_ne_true
    · rw [Sightings.trail_other (by simpa using hne)]
      exact (h.tasks k task hold).mono Sightings.seen_answered

theorem evident_client_quiet {i : Nat} {pc pc' : ClientPc} {core' : Core}
    (h : s.Evident initially n) (here : s.clients[i]? = some pc)
    (rule : ClientRule timing s.core pc core' pc')
    (quiet : ∀ request observeRequest wait observe,
      pc ≠ .lead request observeRequest wait observe) :
    Manager.Evident initially { core := core', clients := s.clients.set i pc' } n := by
  obtain ⟨status, evident⟩ := rule.evident quiet h.status (h.clients i pc here)
  refine ⟨h.sightings, status, ?_, ?_⟩
  · intro j other hother
    obtain ⟨rfl, rfl⟩ | ⟨_, hold⟩ := getElem?_set_cases here hother
    · exact evident
    · exact h.clients j other hold
  · intro k task htask
    obtain hold | rfl := rule.tasks_getElem? htask
    · exact h.tasks k task hold
    · trivial

theorem evident_task_quiet {i : Nat} {pc pc' : TaskPc} {core' : Core}
    (h : s.Evident initially n) (here : s.core.tasks[i]? = some pc)
    (rule : TaskRule timing s.core pc core' pc')
    (quiet : ∀ deadline observeRequest observe, pc ≠ .observe deadline observeRequest observe) :
    Manager.Evident initially { s with core := { core' with tasks := core'.tasks.set i pc' } } n := by
  obtain ⟨status, evident⟩ := rule.evident quiet h.status (h.tasks i pc here)
  refine ⟨h.sightings, status, h.clients, ?_⟩
  intro k task htask
  rw [rule.tasks] at htask
  obtain ⟨rfl, rfl⟩ | ⟨_, hold⟩ := getElem?_set_cases here htask
  · exact evident
  · exact h.tasks k task hold

theorem lead_of_quiet {core core' : Core} {pc pc' : ClientPc} {input : Input}
    (h : clientStep timing core pc input = some (core', pc'))
    (quiet : ∀ answer, input ≠ .answer answer) :
    ∀ request observeRequest wait observe, pc ≠ .lead request observeRequest wait observe := by
  rintro request observeRequest wait observe rfl
  cases input with
  | answer answer => exact quiet answer rfl
  | run | timeout => cases h

theorem observe_of_quiet {core core' : Core} {pc pc' : TaskPc} {input : Input}
    (h : taskStep timing core pc input = some (core', pc'))
    (quiet : ∀ answer, input ≠ .answer answer) :
    ∀ deadline observeRequest observe, pc ≠ .observe deadline observeRequest observe := by
  rintro deadline observeRequest observe rfl
  cases input with
  | answer answer => exact quiet answer rfl
  | run | timeout => cases h

theorem evident_step (timing : LifecycleTiming) {a : Action} (h : s.Evident initially n)
    (hstep : (lifecycle timing).step s a = some s') :
    s'.Evident initially (noteSighting s a s' n) := by
  change s.step timing a = some s' at hstep
  cases a with
  | begin i op =>
      obtain ⟨pc, here, hfree⟩ := Option.bind_eq_some_iff.mp hstep
      split at hfree
      next =>
        cases hfree
        refine ⟨h.sightings, h.status, ?_, h.tasks⟩
        intro j other hother
        obtain ⟨rfl, rfl⟩ | ⟨_, hold⟩ := getElem?_set_cases here hother
        · cases op <;> trivial
        · exact h.clients j other hold
      next => cases hfree
  | client i input =>
      obtain ⟨pc, here, hclient⟩ := Option.bind_eq_some_iff.mp hstep
      obtain ⟨⟨core', pc'⟩, moved, hnext⟩ := Option.bind_eq_some_iff.mp hclient
      cases input with
      | answer answer => exact evident_client_answer h here moved (Option.some.inj hnext).symm
      | run =>
          cases hnext
          exact evident_client_quiet h here (clientStep_cases moved)
            (lead_of_quiet moved (by simp))
      | timeout =>
          cases hnext
          exact evident_client_quiet h here (clientStep_cases moved)
            (lead_of_quiet moved (by simp))
  | drop i =>
      obtain ⟨pc, here, hsuspended⟩ := Option.bind_eq_some_iff.mp hstep
      split at hsuspended
      next =>
        cases hsuspended
        refine ⟨h.sightings, h.status, ?_, h.tasks⟩
        intro j other hother
        obtain ⟨rfl, rfl⟩ | ⟨_, hold⟩ := getElem?_set_cases here hother
        · trivial
        · exact h.clients j other hold
      next => cases hsuspended
  | task i input =>
      obtain ⟨pc, here, htask⟩ := Option.bind_eq_some_iff.mp hstep
      obtain ⟨⟨core', pc'⟩, moved, hnext⟩ := Option.bind_eq_some_iff.mp htask
      cases input with
      | answer answer => exact evident_task_answer h here moved (Option.some.inj hnext).symm
      | run =>
          cases hnext
          exact evident_task_quiet h here (taskStep_cases moved) (observe_of_quiet moved (by simp))
      | timeout =>
          cases hnext
          exact evident_task_quiet h here (taskStep_cases moved) (observe_of_quiet moved (by simp))
  | elapse span clock =>
      cases hstep
      exact ⟨h.sightings, h.status, h.clients, h.tasks⟩

theorem evident_new (clients : Nat) (initial : BackendStatus) (instant : Instant)
    (clock : Timestamp) :
    (Manager.new clients initial instant clock).Evident (backendIsReady initial = true) .none := by
  refine ⟨?_, .inl, ?_, ?_⟩
  · intro trail hmem
    cases hmem
  · intro i pc here
    rw [List.eq_of_mem_replicate (List.mem_of_getElem? here)]
    trivial
  · intro i pc here
    cases here

end Steps
end LlmWakeProxy.Lifecycle
