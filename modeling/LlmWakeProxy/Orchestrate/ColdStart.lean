import LlmWakeProxy.Library.Population
import LlmWakeProxy.Lifecycle.Ownership
import LlmWakeProxy.Orchestrate.Links

/-!
The calls that wait for a cold start. The cold-start permits are conserved, and a
call that was admitted with one holds it until it ends. Whether a call needs one
is decided by a single look at the status, before it waits: a call that does not
see a cold backend goes on without, and waits with the others when the backend
turns out not to be ready.
-/

namespace LlmWakeProxy.Orchestrate
open LlmWakeProxy.Library LlmWakeProxy.Forward
open LlmWakeProxy.Lifecycle (LifecycleTiming BackendStatus Timestamp ClientPc ClientRule Core Manager)

universe u
variable {ν : Type u} {serde : SerdeJson ν} {config : AppConfig} {timing : LifecycleTiming}

/-! ### The permits -/

section Permits

variable {s s' : Orchestrator}

def ExecPc.unadmitted : ExecPc → Bool
  | .idle | .isCold | .coldPermit => true
  | _ => false

def Orchestrator.coldPermitsHeld (s : Orchestrator) : Nat :=
  s.execs.countP fun exec => exec.holdsColdPermit

/-- What a step of call `i` does to the cold-start permits. -/
inductive ColdTurn (s : Orchestrator) (i : Nat) (exec : Exec) (s' : Orchestrator) : Prop
  | kept (exec' : Exec) (execs : s'.execs = s.execs.set i exec')
      (semaphore : s'.coldStartSemaphore = s.coldStartSemaphore)
      (permit : exec'.holdsColdPermit = exec.holdsColdPermit)
      (unadmitted : exec'.pc.unadmitted = true → exec.pc.unadmitted = true)
  | taken (pc : exec.pc = .coldPermit)
      (execs : s'.execs = s.execs.set i { exec with holdsColdPermit := true, pc := .ensureBackend })
      (free : s.coldStartSemaphore.tryAcquire = some s'.coldStartSemaphore)
  | dropped (pc : ExecPc) (ended : pc.unadmitted = false)
      (execs : s'.execs = s.execs.set i { exec with holdsColdPermit := false, pc := pc })
      (semaphore : s'.coldStartSemaphore =
        if exec.holdsColdPermit then s.coldStartSemaphore.release.2 else s.coldStartSemaphore)

theorem ExecRule.coldTurn {i : Nat} {exec : Exec} {input : Input}
    (rule : ExecRule serde config s i exec input s') (here : s.execs[i]? = some exec) :
    ColdTurn s i exec s' := by
  have still : s'.execs = s.execs → s'.coldStartSemaphore = s.coldStartSemaphore →
      ColdTurn s i exec s' :=
    fun hexecs hcold => .kept exec (by rw [hexecs, set_of_some here]) hcold rfl id
  have moved : ∀ pc : ExecPc, pc.unadmitted = false → s'.execs = s.execs.set i (exec.goto pc) →
      s'.coldStartSemaphore = s.coldStartSemaphore → ColdTurn s i exec s' :=
    fun pc hpc hexecs hcold =>
      .kept (exec.goto pc) hexecs hcold rfl fun hun => absurd (hpc.symm.trans hun) Bool.false_ne_true
  cases rule with
  | enter kind stream pc => exact .kept _ rfl rfl rfl fun _ => by rw [pc]; rfl
  | cold _ pc _ => exact .kept _ rfl rfl rfl fun _ => by rw [pc]; rfl
  | admitted semaphore pc free => exact .taken pc rfl free
  | returned response pc =>
      refine .dropped _ ?_ rfl rfl
      cases response.streams <;> rfl
  | dropped pc => exact .dropped _ rfl rfl rfl
  | decided decision _ =>
      obtain ⟨inc, pc, hs', hpc⟩ := s.afterDecision_eq i exec decision
      rw [hs'] at moved ⊢
      refine moved pc ?_ rfl rfl
      obtain ⟨_, _, rfl⟩ | ⟨_, rfl, _⟩ := hpc <;> rfl
  | retryDecided decision _ =>
      obtain ⟨pc, hs', hpc⟩ := s.afterRetryDecision_eq i exec decision
      rw [hs'] at moved ⊢
      refine moved pc ?_ rfl rfl
      obtain ⟨_, _, rfl⟩ | ⟨_, rfl, _⟩ := hpc <;> rfl
  | executed t _ outcome _ drive _ _ =>
      obtain ⟨hexecs, hcold⟩ := Orchestrator.drive_frame drive
      obtain ⟨inc, pc, hs', hpc⟩ := t.afterExecute_eq i exec outcome
      rw [hs'] at moved ⊢
      refine moved pc ?_ (by simp [hexecs]) hcold
      obtain ⟨_, rfl⟩ | rfl | ⟨_, rfl, _⟩ := hpc <;> rfl
  | scheduled _ _ _ drive _ _ | unwinding _ _ _ drive _ _ | complete _ _ _ _ _ _ _ _ _ drive =>
      obtain ⟨hexecs, hcold⟩ := Orchestrator.drive_frame drive
      exact still hexecs hcold
  | operate _ _ _ _ _ _ _ _ _ drive =>
      obtain ⟨hexecs, hcold⟩ := Orchestrator.drive_frame drive
      exact still (by simpa using hexecs) (by simpa using hcold)
  | execute t _ drive | unwoundScheduled t _ _ drive | unwoundCall t _ _ drive _ _ =>
      obtain ⟨hexecs, hcold⟩ := Orchestrator.drive_frame drive
      exact moved _ rfl (by rw [← hexecs]; rfl) hcold
  | embeddingsDegraded status _ _ _ =>
      exact moved (.returning (embeddingsAreDegraded status.embeddingsReason)) rfl (by simp)
        (by simp)
  | handled status _ _ => exact moved .execute rfl (by simp) (by simp)
  | retryPending _ _ after _ _ => exact moved (.retrying after) rfl (by simp) (by simp)
  | _ => exact moved _ rfl rfl rfl

/-- The permits of the cold-start semaphore are conserved, nobody queues for one,
and a call has none before it is admitted. -/
structure ColdAccounted (config : AppConfig) (s : Orchestrator) : Prop where
  permits : s.coldStartSemaphore.available + s.coldPermitsHeld = config.coldStartMaxWaiting
  nobodyQueues : s.coldStartSemaphore.waiting = []
  fresh : ∀ exec ∈ s.execs, exec.pc.unadmitted = true → exec.holdsColdPermit = false

theorem coldAccounted_new (execs instant : Nat) :
    ColdAccounted config (.new config execs instant) := by
  refine ⟨?_, rfl, ?_⟩
  · simp only [Orchestrator.new, Orchestrator.coldPermitsHeld, Semaphore.new,
      List.countP_replicate]
    rfl
  · intro exec hexec _
    obtain rfl := (List.mem_replicate.mp hexec).2
    rfl

theorem coldAccounted_turn {i : Nat} {exec : Exec} (h : ColdAccounted config s)
    (here : s.execs[i]? = some exec) (turn : ColdTurn s i exec s') : ColdAccounted config s' := by
  have hpermits := h.permits
  simp only [Orchestrator.coldPermitsHeld] at hpermits
  cases turn with
  | kept exec' execs semaphore permit unadmitted =>
      have balance := countP_set_balance (fun exec : Exec => exec.holdsColdPermit) (b := exec') here
      refine ⟨?_, by rw [semaphore, h.nobodyQueues], ?_⟩
      · rw [Orchestrator.coldPermitsHeld, execs, semaphore]
        rw [permit] at balance
        omega
      · rw [execs]
        refine forall_mem_set h.fresh fun hun => ?_
        rw [permit]
        exact h.fresh exec (List.mem_of_getElem? here) (unadmitted hun)
  | taken pc execs free =>
      have balance := countP_set_balance (fun exec : Exec => exec.holdsColdPermit)
        (b := { exec with holdsColdPermit := true, pc := .ensureBackend }) here
      have hnone := h.fresh exec (List.mem_of_getElem? here) (by rw [pc]; rfl)
      obtain ⟨havailable, hwaiting⟩ := Semaphore.tryAcquire_eq_some free
      refine ⟨?_, by rw [hwaiting, h.nobodyQueues], ?_⟩
      · rw [Orchestrator.coldPermitsHeld, execs]
        simp only [hnone, Bool.toNat_true, Bool.toNat_false] at balance
        omega
      · rw [execs]
        exact forall_mem_set h.fresh fun hun => by cases hun
  | dropped pc ended execs semaphore =>
      have balance := countP_set_balance (fun exec : Exec => exec.holdsColdPermit)
        (b := { exec with holdsColdPermit := false, pc := pc }) here
      have hrelease : s.coldStartSemaphore.release.2 =
          { s.coldStartSemaphore with available := s.coldStartSemaphore.available + 1 } := by
        simp only [Semaphore.release, h.nobodyQueues]
      rw [hrelease] at semaphore
      refine ⟨?_, ?_, ?_⟩
      · rw [Orchestrator.coldPermitsHeld, execs, semaphore]
        cases hholds : exec.holdsColdPermit with
        | true =>
            simp only [hholds, Bool.toNat_true, Bool.toNat_false] at balance
            simp only [if_true]
            omega
        | false =>
            simp only [hholds, Bool.toNat_false] at balance
            simp only [Bool.false_eq_true, if_false]
            omega
      · rw [semaphore]
        cases exec.holdsColdPermit <;> exact h.nobodyQueues
      · rw [execs]
        exact forall_mem_set h.fresh fun _ => rfl

theorem coldAccounted_reachable {execs instant : Nat}
    (h : (orchestrator serde config).Reachable (.new config execs instant) s) :
    ColdAccounted config s := by
  refine h.invariant (coldAccounted_new execs instant) ?_
  intro t a t' ht hstep
  cases step_cases hstep with
  | elapse _ _ _ => exact ⟨ht.permits, ht.nobodyQueues, ht.fresh⟩
  | exec i _ exec here _ rule => exact coldAccounted_turn ht here (rule.coldTurn here)

end Permits

/-! ### The waiting calls -/

variable {s s' : Proxy}

/-- The client is past the ready check of `ensure_backend`: it observes as the
leader, or waits. -/
def waitsForColdStart : ClientPc → Bool
  | .leadRequest .. | .lead .. | .leadReread .. | .leadFinish .. | .waitEnter .. | .waitBorrow ..
  | .waitLock .. | .waitChanged .. | .waitTimedOut .. => true
  | _ => false

def Proxy.waitingOn (s : Proxy) (backend : Backend) : Nat :=
  (s.lifecycles backend).clients.countP waitsForColdStart

def Proxy.waiting (s : Proxy) : Nat :=
  s.waitingOn .chat + s.waitingOn .embeddings

theorem clientRule_waits {core core' : Core} {pc pc' : ClientPc}
    (rule : ClientRule timing core pc core' pc') (hwaits : waitsForColdStart pc' = true) :
    waitsForColdStart pc = true ∨ ∃ caller initial, pc = .startOrJoin caller initial := by
  cases rule with
  | start caller initial _ | join caller initial _ => exact .inr ⟨caller, initial, rfl⟩
  | markPublish next _ => cases next <;> cases hwaits
  | markBorrow _ | degradeBorrow _ | degradePublish _ | borrowInitial _ | alreadyReady _ _ _ _
  | notReady _ _ _ => cases hwaits
  | _ => exact .inl rfl

/-- A client inside a call belongs to a call of the orchestrator that awaits it,
and one that waits for a cold start to one that was admitted with a permit. -/
def Linked (config : AppConfig) (s : Proxy) : Prop :=
  ∀ (backend : Backend) (i : Nat) (pc : ClientPc),
    (s.lifecycles backend).clients[i]? = some pc → clientBusy pc = true →
      ∃ exec, s.orchestrator.execs[i]? = some exec ∧ exec.pc.awaitsLifecycle = true ∧
        config.backendOf exec = backend ∧
        (waitsForColdStart pc = true → exec.holdsColdPermit = true)

/-- A call without a cold-start permit goes past the ready check. -/
def joinsUnpermitted (s : Proxy) : Proxy.Action → Bool
  | .lifecycle backend (.client i _) =>
      match (s.lifecycles backend).clients[i]?, s.orchestrator.execs[i]? with
      | some (.startOrJoin ..), some exec => !exec.holdsColdPermit
      | _, _ => false
  | _ => false

def Admitted (s : Proxy) (a : Proxy.Action) : Prop := joinsUnpermitted s a = false

instance (s : Proxy) (a : Proxy.Action) : Decidable (Admitted s a) :=
  inferInstanceAs (Decidable (joinsUnpermitted s a = false))

theorem admitted_join {backend : Backend} {i : Nat} {input : Lifecycle.Input}
    {caller : Lifecycle.Caller} {initial : Lifecycle.Draft} {exec : Exec}
    (ok : Admitted s (.lifecycle backend (.client i input)))
    (client : (s.lifecycles backend).clients[i]? = some (.startOrJoin caller initial))
    (here : s.orchestrator.execs[i]? = some exec) : exec.holdsColdPermit = true := by
  simpa [Admitted, joinsUnpermitted, client, here] using ok

theorem entry_waits (op : Lifecycle.Op) : waitsForColdStart op.entry = false := by
  cases op <;> rfl

theorem linked_step {a : Proxy.Action} (h : Linked config s) (ok : Admitted s a)
    (hstep : (proxy serde config timing).step s a = some s') : Linked config s' := by
  refine linkedWith_step h hstep ?_ ?_
  · intro exec op pc _ _ hwaits
    rw [entry_waits] at hwaits
    cases hwaits
  · rintro backend i input pc pc' core' exec rfl hclient here rule _ held hwaits
    obtain hwaited | ⟨caller, initial, rfl⟩ := clientRule_waits rule hwaits
    · exact held hwaited
    · exact admitted_join ok hclient here

theorem linked_new (execs : Nat) (initial : Backend → BackendStatus) (instant : Nat)
    (clock : Timestamp) : Linked config (.new config execs initial instant clock) :=
  linkedWith_new execs initial instant clock

theorem waiting_le (h : Linked config s) : s.waiting ≤ s.orchestrator.coldPermitsHeld := by
  have on : ∀ backend, s.waitingOn backend ≤
      (s.orchestrator.execs.filter fun exec => decide (config.backendOf exec = backend)).countP
        fun exec => exec.holdsColdPermit := by
    intro backend
    rw [List.countP_filter]
    refine countP_le_countP_of_getElem? fun i pc hclient hwaits => ?_
    have hbusy : clientBusy pc = true := by
      cases pc <;> first | rfl | cases hwaits
    obtain ⟨exec, here, _, hbackend, hpermit⟩ := h backend i pc hclient hbusy
    exact ⟨exec, here, by simp [hbackend, hpermit hwaits]⟩
  have hchat := on .chat
  have hembeddings := on .embeddings
  have hother : (fun exec => !decide (config.backendOf exec = .chat)) =
      fun exec => decide (config.backendOf exec = .embeddings) := by
    funext exec
    cases config.backendOf exec <;> rfl
  rw [Proxy.waiting, Orchestrator.coldPermitsHeld,
    List.countP_eq_countP_filter_add _ _ fun exec => decide (config.backendOf exec = .chat), hother]
  omega

/-- While only calls that hold a cold-start permit lead or join a round, no more
calls wait for a cold start than there are permits. -/
theorem coldStartWaiters_within_permits (serde : SerdeJson ν) (config : AppConfig)
    (timing : LifecycleTiming) (execs instant : Nat) (initial : Backend → BackendStatus)
    (clock : Timestamp) :
    ∀ s, ((proxy serde config timing).restrict Admitted).Reachable
        (.new config execs initial instant clock) s →
      s.waiting ≤ config.coldStartMaxWaiting := by
  intro s h
  have hlinked : Linked config s :=
    h.invariant_restrict (linked_new execs initial instant clock)
      fun _ _ _ ht ok hstep => linked_step ht ok hstep
  have hpermits := (coldAccounted_reachable (orchestrator_reachable h.unrestrict)).permits
  have hle := waiting_le hlinked
  omega

section Overrun

def oneColdStart : AppConfig where
  modelAlias := ['a']
  tunnelLocalPort := 8080
  embeddingsBackend := none
  warmExecution := { maxActiveRequests := 1, maxQueuedRequests := 0, queueTimeout := 0 }
  coldStartMaxWaiting := 1

/-- The first call finds the backend cold and leads a round, up to its wake. -/
def wakeSchedule : List Proxy.Action :=
  [.exec 0 (.enter .chat false), .exec 0 (.status .default), .exec 0 .run, .exec 0 .call] ++
    List.replicate 4 (.lifecycle .chat (.client 0 .run)) ++
    [.lifecycle .chat (.client 0 (.answer (.ssh (.ok false)))),
      .lifecycle .chat (.client 0 (.answer (.wake (.ok ())))),
      .lifecycle .chat (.client 0 .run)]

/-- The second call finds it warming, and joins. -/
def joinSchedule : List Proxy.Action :=
  [.exec 1 (.enter .chat false),
    .exec 1 (.status { BackendStatus.default with
                       lifecycle := .warming, lastWakeAttemptAt := some ⟨0⟩ }),
    .exec 1 .call] ++
    List.replicate 3 (.lifecycle .chat (.client 1 .run))

theorem coldStartWaiters_within_permits_wake :
    ∃ s, ((proxy SerdeJson.mute oneColdStart Lifecycle.exampleTiming).restrict Admitted).Reachable
        (.new oneColdStart 2 (fun _ => .default) 0 ⟨0⟩) s ∧ s.waiting = 1 ∧
      s.waiting ≤ oneColdStart.coldStartMaxWaiting := by
  have woken : ∃ s,
      ((proxy SerdeJson.mute oneColdStart Lifecycle.exampleTiming).restrict Admitted).Reachable
        (.new oneColdStart 2 (fun _ => .default) 0 ⟨0⟩) s ∧ s.waiting = 1 :=
    System.reachable_of_check wakeSchedule (by decide)
  obtain ⟨s, hs, hcount⟩ := woken
  exact ⟨s, hs, hcount,
    coldStartWaiters_within_permits SerdeJson.mute oneColdStart Lifecycle.exampleTiming 2 0
      (fun _ => .default) ⟨0⟩ s hs⟩

/-- With one cold-start permit two calls wait: the second one was let through
because the backend was not cold any more when it looked. -/
theorem warming_join_exceeds_permits :
    ∃ s, (proxy SerdeJson.mute oneColdStart Lifecycle.exampleTiming).Reachable
        (.new oneColdStart 2 (fun _ => .default) 0 ⟨0⟩) s ∧
      oneColdStart.coldStartMaxWaiting < s.waiting :=
  System.reachable_of_check (wakeSchedule ++ joinSchedule) (by decide)

end Overrun
end LlmWakeProxy.Orchestrate
