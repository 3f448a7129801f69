import LlmWakeProxy.Lifecycle.Completion
import LlmWakeProxy.Orchestrate.Attendance
import LlmWakeProxy.Orchestrate.Pairing

/-!
Every call can come to its end. From whatever state the proxy has reached, a call can
be brought to its response by its own steps and those of its clients, if time passes
and the hosts and servers it asks answer something. It waits for no other call, no
background task and no permit longer than its own deadlines say.
-/

namespace LlmWakeProxy.Orchestrate
open LlmWakeProxy.Library LlmWakeProxy.Scheduler LlmWakeProxy.Forward
open LlmWakeProxy.Lifecycle (LifecycleTiming BackendStatus Timestamp Duration ClientPc Manager
  OfClient client_can_settle)

universe u
variable {ν : Type u} {serde : SerdeJson ν} {config : AppConfig} {timing : LifecycleTiming}
variable {s t : Proxy} {i : Nat} {exec : Exec}

/-- The step is one of call `i`, of its client, or of the clock, and does not drop the
call; a call unwinds only when its client has panicked. -/
def ofCall (i : Nat) (s : Proxy) : Proxy.Action → Bool
  | .exec j (.unwind panicked) =>
      i == j && panicked && s.orchestrator.execs[i]?.any fun exec => exec.pc.awaitsLifecycle
  | .exec j _ => i == j
  | .lifecycle _ (.client j _) => i == j
  | .lifecycle _ _ => false
  | .elapse .. => true

def OfCall (i : Nat) (s : Proxy) (a : Proxy.Action) : Prop := ofCall i s a = true

instance (i : Nat) (s : Proxy) (a : Proxy.Action) : Decidable (OfCall i s a) :=
  inferInstanceAs (Decidable (ofCall i s a = true))

/-- How far a call is from its end, with its call of the scheduler. -/
def ExecPc.rank (call : Option (CallPc ForwardPc ForwardResult)) : ExecPc → Nat
  | .idle => 30
  | .isCold => 29
  | .coldPermit => 28
  | .ensureBackend => 27
  | .awaitDecision => 26
  | .handleReady _ => 25
  | .execute => 24
  | .scheduled => 10 + (call.map CallPc.rank).getD 0
  | .degrade _ | .markWarming => 9
  | .awaitDegraded _ | .awaitRetryDecision => 8
  | .retrying _ => 7
  | .returning _ => 6
  | .unwinding => 5
  | .unwound => 4
  | .relaying => 1
  | .responded | .dropped => 0

def Proxy.remaining (i : Nat) (s : Proxy) : Nat :=
  (s.orchestrator.execs[i]?.map fun exec =>
    exec.pc.rank (s.orchestrator.scheduler.calls[i]?.map Call.pc)).getD 0

def Nearer (i : Nat) (s t : Proxy) : Prop :=
  (∃ exec, t.orchestrator.execs[i]? = some exec) ∧ t.remaining i < s.remaining i

theorem remaining_of_getElem? (here : s.orchestrator.execs[i]? = some exec) :
    s.remaining i = exec.pc.rank (s.orchestrator.scheduler.calls[i]?.map Call.pc) := by
  simp [Proxy.remaining, here]

/-! ### Steps of the call -/

theorem ofCall_exec {input : Input} {manager : Manager} {o : Orchestrator}
    (here : s.orchestrator.execs[i]? = some exec) (own : OfCall i s (.exec i input))
    (answered : Proxy.answer timing (s.lifecycles (config.backendOf exec)) i exec input =
      some manager)
    (stepped : s.orchestrator.execStep serde config i exec input = some o) :
    ((proxy serde config timing).restrict (OfCall i)).step s (.exec i input) =
      some { orchestrator := o
             lifecycles := Function.update s.lifecycles (config.backendOf exec) manager } := by
  refine System.restrict_step_iff.mpr ⟨own, ?_⟩
  refine Option.bind_eq_some_iff.mpr ⟨exec, here, ?_⟩
  refine Option.bind_eq_some_iff.mpr ⟨manager, answered, ?_⟩
  exact Option.bind_eq_some_iff.mpr ⟨o, stepped, rfl⟩

theorem nearer_of_exec (input : Input) (exec' : Exec) {m : Manager} {o : Orchestrator}
    (here : s.orchestrator.execs[i]? = some exec) (own : OfCall i s (.exec i input))
    (answered : Proxy.answer timing (s.lifecycles (config.backendOf exec)) i exec input =
      some m)
    (stepped : s.orchestrator.execStep serde config i exec input = some o)
    (there : o.execs[i]? = some exec')
    (lower : exec'.pc.rank (o.scheduler.calls[i]?.map Call.pc) <
      exec.pc.rank (s.orchestrator.scheduler.calls[i]?.map Call.pc)) :
    ((proxy serde config timing).restrict (OfCall i)).Leads s (Nearer i s) := by
  refine .step (ofCall_exec here own answered stepped) (.here ⟨⟨exec', there⟩, ?_⟩)
  rw [remaining_of_getElem? here, remaining_of_getElem? (s := { orchestrator := o, .. }) there]
  exact lower

theorem nearer_via (reach : ((proxy serde config timing).restrict (OfCall i)).Reachable s t)
    (same : t.remaining i = s.remaining i)
    (h : ((proxy serde config timing).restrict (OfCall i)).Leads t (Nearer i t)) :
    ((proxy serde config timing).restrict (OfCall i)).Leads s (Nearer i s) := by
  refine (h.mono fun u near => ?_).after reach
  exact ⟨near.1, same ▸ near.2⟩

theorem reachable_of_client (serde : SerdeJson ν) (config : AppConfig) {backend : Backend}
    {manager : Manager}
    (h : ((Lifecycle.lifecycle timing).restrict (OfClient i)).Reachable (s.lifecycles backend)
      manager) :
    ∃ t, ((proxy serde config timing).restrict (OfCall i)).Reachable s t ∧
      t.lifecycles backend = manager ∧ t.orchestrator.execs = s.orchestrator.execs := by
  refine h.simulate (R := fun (m : Manager) (t : Proxy) => t.lifecycles backend = m ∧
    t.orchestrator.execs = s.orchestrator.execs) ⟨rfl, rfl⟩ ?_
  rintro m a m' u ⟨rfl, execs⟩ hstep
  obtain ⟨own, hmoved⟩ := System.restrict_step_iff.mp hstep
  cases a with
  | begin _ _ | drop _ | task _ _ => cases own
  | client j input =>
      refine ⟨{ u with lifecycles := Function.update u.lifecycles backend m' },
        .step (a := .lifecycle backend (.client j input)) .refl ?_, ?_, execs⟩
      · refine System.restrict_step_iff.mpr ⟨own, ?_⟩
        simp only [proxy, Proxy.step, Proxy.internal, if_true]
        exact Option.map_eq_some_iff.mpr ⟨m', hmoved, rfl⟩
      · exact Function.update_self ..
  | elapse span clock =>
      refine ⟨_, .step (a := .elapse span clock) .refl
        (System.restrict_step_iff.mpr ⟨rfl, rfl⟩), ?_, execs⟩
      cases hmoved
      cases backend <;> rfl

theorem elapse_reachable (serde : SerdeJson ν) (config : AppConfig) (timing : LifecycleTiming)
    (span : Duration) (clock : Timestamp) :
    ∃ t, ((proxy serde config timing).restrict (OfCall i)).Reachable s t ∧
      t.orchestrator.execs = s.orchestrator.execs ∧
      t.orchestrator.scheduler.calls = s.orchestrator.scheduler.calls ∧
      t.orchestrator.scheduler.instant = s.orchestrator.scheduler.instant + span :=
  ⟨_, .step (a := .elapse span clock) .refl (System.restrict_step_iff.mpr ⟨rfl, rfl⟩),
    rfl, rfl, rfl⟩

/-! ### Inside the scheduler -/

theorem drive_of_callStep {o : Orchestrator} {call : Call ForwardPc ForwardResult}
    {input : Scheduler.Input ForwardPc ForwardResult}
    {scheduler : WarmExecutionScheduler ForwardPc ForwardResult}
    (here : o.scheduler.calls[i]? = some call)
    (stepped : o.scheduler.callStep config.warmExecution .begun i call input =
      some scheduler) : o.drive config i input = some { o with scheduler := scheduler } :=
  Option.map_eq_some_iff.mpr ⟨scheduler, Option.bind_eq_some_iff.mpr ⟨call, here, stepped⟩, rfl⟩

theorem rank_afterExecute (o : Orchestrator) (here : o.execs[i]? = some exec)
    (outcome : Except WarmExecutionError ForwardResult) :
    ∃ exec', (o.afterExecute i exec outcome).execs[i]? = some exec' ∧
      ∀ call, exec'.pc.rank call < 10 := by
  obtain ⟨inc, pc, ho, hpc⟩ := o.afterExecute_eq i exec outcome
  refine ⟨exec.goto pc, ?_, ?_⟩
  · rw [ho]
    exact getElem?_set_of_some here _
  · intro call
    obtain ⟨_, rfl⟩ | rfl | ⟨_, rfl, _⟩ := hpc <;> simp [Exec.goto, ExecPc.rank]

theorem nearer_scheduled_run {call : Call ForwardPc ForwardResult}
    (here : s.orchestrator.execs[i]? = some exec) (pc : exec.pc = .scheduled)
    (hcall : s.orchestrator.scheduler.calls[i]? = some call) (active : call.pc.isActive = true)
    (apart : call.pc.isRunning = false)
    (late : call.pc.deadline ≤ s.orchestrator.scheduler.instant) :
    ((proxy serde config timing).restrict (OfCall i)).Leads s (Nearer i s) := by
  have inside : call.pc.outside = false := by
    simpa using (Bool.and_eq_true_iff.mp active).1
  obtain ⟨scheduler, stepped⟩ : ∃ scheduler, s.orchestrator.scheduler.callStep
      config.warmExecution .begun i call .run = some scheduler :=
    callStep_run_enabled inside apart
  obtain ⟨call', hcall', move⟩ := callStep_run_moves stepped hcall
  have drive := drive_of_callStep hcall stepped
  have lower := move.lowers late
  cases hpc : call'.pc with
  | returned outcome =>
      obtain ⟨exec', there, hrank⟩ := rank_afterExecute
        { s.orchestrator with scheduler := scheduler } here outcome
      refine nearer_of_exec .run _ here (beq_self_eq_true i) rfl ?_ there ?_
      · simp only [Orchestrator.execStep, Orchestrator.execRun, pc, drive]
        simp only [Option.bind_eq_bind, Option.bind_some, hcall', hpc]
      · rw [pc]
        exact Nat.lt_of_lt_of_le (hrank _) (Nat.le_add_right 10 _)
  | _ =>
      refine nearer_of_exec .run exec
        (o := { s.orchestrator with scheduler := scheduler }) here (beq_self_eq_true i) rfl ?_
        here ?_
      · simp only [Orchestrator.execStep, Orchestrator.execRun, pc, drive]
        simp only [Option.bind_eq_bind, Option.bind_some, hcall', hpc]
      · simp only [pc, hcall, hcall', ExecPc.rank, Option.map_some, Option.getD_some]
        omega

theorem forwardStep_fails (serde : SerdeJson ν) (request : ForwardRequest) (isCancelled : Bool)
    (pc : ForwardPc) :
    ∃ input result, forwardStep serde request isCancelled pc input = some (.done result) := by
  cases pc with
  | sending redirects posts delivered =>
      let error : ReqwestError :=
        { isConnect := false, isTimeout := false, status := none, message := "" }
      exact ⟨.failed error, .error (.ofReqwest error), by simp [forwardStep, error]⟩
  | reading status => exact ⟨.body none, _, rfl⟩

theorem nearer_scheduled {call : Call ForwardPc ForwardResult}
    (here : s.orchestrator.execs[i]? = some exec) (pc : exec.pc = .scheduled)
    (hcall : s.orchestrator.scheduler.calls[i]? = some call) (active : call.pc.isActive = true) :
    ((proxy serde config timing).restrict (OfCall i)).Leads s (Nearer i s) := by
  cases running : call.pc.isRunning with
  | false =>
      obtain ⟨t, reach, execs, calls, instant⟩ :=
        elapse_reachable serde config timing (s := s) (i := i)
          call.pc.deadline { unixSeconds := 0 }
      have there : t.orchestrator.execs[i]? = some exec := by rw [execs]; exact here
      have hcall' : t.orchestrator.scheduler.calls[i]? = some call := by rw [calls]; exact hcall
      refine nearer_via reach ?_ (nearer_scheduled_run there pc hcall' active running ?_)
      · rw [remaining_of_getElem? here, remaining_of_getElem? there, calls]
      · rw [instant]
        exact Nat.le_add_left _ _
  | true =>
      obtain ⟨forward, hpc⟩ : ∃ forward, call.pc = .running forward := by
        cases hpc : call.pc with
        | running forward => exact ⟨forward, rfl⟩
        | _ => simp [hpc, CallPc.isRunning] at running
      obtain ⟨input, result, hforward⟩ := forwardStep_fails serde (exec.request config)
        call.cancelled forward
      have stepped : (s.orchestrator.emit (.forwarded i result)).scheduler.callStep
          config.warmExecution .begun i call (.complete result) =
          some ((s.orchestrator.emit (.forwarded i result)).scheduler.put i
            (call.goto (.finished result))) := by
        simp only [WarmExecutionScheduler.callStep, hpc]
      have drive := drive_of_callStep (o := s.orchestrator.emit (.forwarded i result)) hcall stepped
      refine nearer_of_exec (.forward input) exec here (beq_self_eq_true i) rfl
        (o := { s.orchestrator.emit (.forwarded i result) with
          scheduler := (s.orchestrator.emit (.forwarded i result)).scheduler.put i
            (call.goto (.finished result)) }) ?_ here ?_
      · simp only [Orchestrator.execStep, pc, Orchestrator.forwardScheduled, hcall,
          Option.bind_eq_bind, Option.bind_some, hpc, hforward]
        exact drive
      · have there : (s.orchestrator.scheduler.put i (call.goto (.finished result))).calls[i]? =
            some (call.goto (.finished result)) := getElem?_set_of_some hcall _
        simp only [pc, hcall, ExecPc.rank, Option.map_some, Option.getD_some, hpc,
          Orchestrator.emit_scheduler, there]
        simp [Call.goto, CallPc.rank]

/-! ### Where the call awaits a lifecycle -/

theorem awaited_settled {pc : ExecPc} {client : ClientPc} (h : awaited pc client = true)
    (settled : client.settled = true) :
    (∃ reason, pc = .awaitDegraded reason ∧ client = .idle) ∨
      (pc = .awaitDecision ∨ pc = .awaitRetryDecision) ∧
        (client = .panicked ∨ ∃ decision, client = .returned decision) := by
  cases pc with
  | awaitDegraded reason =>
      cases client with
      | idle => exact .inl ⟨reason, rfl, rfl⟩
      | returned _ | dropped | panicked => cases h
      | _ => cases settled
  | awaitDecision =>
      cases client with
      | returned decision => exact .inr ⟨.inl rfl, .inr ⟨decision, rfl⟩⟩
      | panicked => exact .inr ⟨.inl rfl, .inl rfl⟩
      | idle | dropped => cases h
      | _ => cases settled
  | awaitRetryDecision =>
      cases client with
      | returned decision => exact .inr ⟨.inr rfl, .inr ⟨decision, rfl⟩⟩
      | panicked => exact .inr ⟨.inr rfl, .inl rfl⟩
      | idle | dropped => cases h
      | _ => cases settled
  | _ => cases h

theorem nearer_answered {client : ClientPc} (here : s.orchestrator.execs[i]? = some exec)
    (hclient : (s.lifecycles (config.backendOf exec)).clients[i]? = some client)
    (held : awaited exec.pc client = true) (settled : client.settled = true) :
    ((proxy serde config timing).restrict (OfCall i)).Leads s (Nearer i s) := by
  obtain ⟨reason, pc, rfl⟩ | ⟨awaits, rfl | ⟨decision, rfl⟩⟩ := awaited_settled held settled
  · refine nearer_of_exec .degraded _ here (beq_self_eq_true i) (if_pos hclient)
      (by simp only [Orchestrator.execStep, pc]; rfl) (getElem?_set_of_some here _) ?_
    simp [pc, Exec.goto, ExecPc.rank]
  · have waits : exec.pc.awaitsLifecycle = true := by
      obtain pc | pc := awaits
      · rw [pc]; rfl
      · rw [pc]; rfl
    refine nearer_of_exec (.unwind true) (exec.goto .unwound)
      (m := s.lifecycles (config.backendOf exec))
      (o := s.orchestrator.put i (exec.goto .unwound)) here ?_ ?_ ?_
      (getElem?_set_of_some here _) ?_
    · simp [OfCall, ofCall, here, waits]
    · simp only [Proxy.answer, waits, hclient, if_true]
    · obtain pc | pc := awaits
      · simp only [Orchestrator.execStep, pc]
      · simp only [Orchestrator.execStep, pc]
    · obtain pc | pc := awaits
      · simp [pc, Exec.goto, ExecPc.rank]
      · simp [pc, Exec.goto, ExecPc.rank]
  · obtain pc | pc := awaits
    · obtain ⟨inc, pc', ho, hpc⟩ := s.orchestrator.afterDecision_eq i exec decision
      refine nearer_of_exec (.decide decision) (exec.goto pc') here
        (beq_self_eq_true i) (if_pos hclient) (by simp only [Orchestrator.execStep, pc]; rfl)
        (by rw [ho]; exact getElem?_set_of_some here _) ?_
      obtain ⟨_, _, rfl⟩ | ⟨_, rfl, _⟩ := hpc <;> simp [pc, Exec.goto, ExecPc.rank]
    · obtain ⟨pc', ho, hpc⟩ := s.orchestrator.afterRetryDecision_eq i exec decision
      refine nearer_of_exec (.decide decision) (exec.goto pc') here
        (beq_self_eq_true i) (if_pos hclient) (by simp only [Orchestrator.execStep, pc]; rfl)
        (by rw [ho]; exact getElem?_set_of_some here _) ?_
      obtain ⟨_, _, rfl⟩ | ⟨_, rfl, _⟩ := hpc <;> simp [pc, Exec.goto, ExecPc.rank]

theorem awaited_of_attends {backend : Backend} {client : ClientPc}
    (h : attends config exec backend client = true) (awaits : exec.pc.awaitsLifecycle = true)
    (here : config.backendOf exec = backend) : awaited exec.pc client = true := by
  have present : exec.pc.gone = false := by
    cases hpc : exec.pc with
    | unwound | dropped => simp [hpc, ExecPc.awaitsLifecycle] at awaits
    | _ => rfl
  simpa [attends, present, awaits, here] using h

theorem nearer_awaiting {execs : Nat} {initial : Backend → BackendStatus} {instant : Nat}
    {clock : Timestamp}
    (hs : (proxy serde config timing).Reachable (.new config execs initial instant clock) s)
    (here : s.orchestrator.execs[i]? = some exec) (awaits : exec.pc.awaitsLifecycle = true) :
    ((proxy serde config timing).restrict (OfCall i)).Leads s (Nearer i s) := by
  obtain ⟨client, hclient, _⟩ := attended_reachable hs (config.backendOf exec) i exec here
  obtain ⟨manager, run, client', hclient', settled⟩ :=
    client_can_settle timing hclient
  obtain ⟨t, reach, rfl, execs⟩ := reachable_of_client serde config run
  have there : t.orchestrator.execs[i]? = some exec := by rw [execs]; exact here
  obtain ⟨client'', hclient'', attended⟩ :=
    attended_reachable (hs.trans reach.unrestrict) (config.backendOf exec) i exec there
  obtain rfl : client' = client'' := Option.some.inj (hclient'.symm.trans hclient'')
  refine nearer_via reach ?_
    (nearer_answered there hclient' (awaited_of_attends attended awaits rfl) settled)
  rw [remaining_of_getElem? here, remaining_of_getElem? there]
  cases hpc : exec.pc with
  | scheduled =>
      rw [hpc] at awaits
      cases awaits
  | _ => rfl

theorem nearer_calling {execs : Nat} {initial : Backend → BackendStatus} {instant : Nat}
    {clock : Timestamp} {op : Lifecycle.Op}
    (hs : (proxy serde config timing).Reachable (.new config execs initial instant clock) s)
    (here : s.orchestrator.execs[i]? = some exec) (call : exec.lifecycleCall = some op) :
    ((proxy serde config timing).restrict (OfCall i)).Leads s (Nearer i s) := by
  obtain ⟨client, hclient, attended⟩ := attended_reachable hs (config.backendOf exec) i exec here
  have begins : ∀ {exec' : Exec}, exec.pc.gone = false → exec.pc.awaitsLifecycle = false →
      s.orchestrator.execStep serde config i exec .call = some (s.orchestrator.put i exec') →
      (∀ call, exec'.pc.rank call < exec.pc.rank call) →
      ((proxy serde config timing).restrict (OfCall i)).Leads s (Nearer i s) := by
    intro exec' present apart stepped lower
    have free := free_of_attends attended present (.inl apart)
    refine nearer_of_exec .call _
      (m := { s.lifecycles (config.backendOf exec) with
        clients := (s.lifecycles (config.backendOf exec)).clients.set i op.entry })
      here (beq_self_eq_true i) ?_ stepped (getElem?_set_of_some here _) (lower _)
    refine Option.bind_eq_some_iff.mpr ⟨op, call, ?_⟩
    exact Option.bind_eq_some_iff.mpr ⟨client, hclient, if_pos free⟩
  cases hpc : exec.pc with
  | ensureBackend | degrade _ | markWarming =>
      exact begins (by rw [hpc]; rfl) (by rw [hpc]; rfl)
        (by simp only [Orchestrator.execStep, hpc]; rfl)
        (by simp [hpc, Exec.goto, ExecPc.rank])
  | _ => simp [Exec.lifecycleCall, hpc] at call

/-! ### From wherever it stands -/

def ExecPc.ended : ExecPc → Bool
  | .responded | .dropped => true
  | _ => false

theorem nearer_unwinding {call : Call ForwardPc ForwardResult}
    (here : s.orchestrator.execs[i]? = some exec) (pc : exec.pc = .unwinding)
    (hcall : s.orchestrator.scheduler.calls[i]? = some call) (leaving : call.pc.isLeaving = true) :
    ((proxy serde config timing).restrict (OfCall i)).Leads s (Nearer i s) := by
  have inside : call.pc.outside = false ∧ call.pc.isRunning = false := by
    cases hpc : call.pc with
    | abandoned _ | unwinding _ => exact ⟨rfl, rfl⟩
    | _ => simp [hpc, CallPc.isLeaving] at leaving
  obtain ⟨scheduler, stepped⟩ : ∃ scheduler, s.orchestrator.scheduler.callStep
      config.warmExecution .begun i call .run = some scheduler :=
    callStep_run_enabled inside.1 inside.2
  obtain ⟨call', hcall', move⟩ := callStep_run_moves stepped hcall
  have drive := drive_of_callStep hcall stepped
  refine nearer_of_exec .run (exec.goto .unwound)
    (o := { s.orchestrator with scheduler := scheduler }.put i (exec.goto .unwound)) here
    (beq_self_eq_true i) rfl ?_ (getElem?_set_of_some here _) (by simp [pc, Exec.goto, ExecPc.rank])
  simp only [Orchestrator.execStep, Orchestrator.execRun, pc, drive, Option.bind_eq_bind,
    Option.bind_some, hcall']
  obtain hpc | hpc := move.of_leaving leaving
  · simp only [hpc]
  · simp only [hpc]

/-- A call that has not ended can come nearer to its end. -/
theorem call_nearer {execs : Nat} {initial : Backend → BackendStatus} {instant : Nat}
    {clock : Timestamp}
    (hs : (proxy serde config timing).Reachable (.new config execs initial instant clock) s)
    (here : s.orchestrator.execs[i]? = some exec) (pending : exec.pc.ended = false) :
    ((proxy serde config timing).restrict (OfCall i)).Leads s (Nearer i s) := by
  have paired := paired_reachable (orchestrator_reachable hs)
  cases hpc : exec.pc with
  | responded | dropped => simp [hpc, ExecPc.ended] at pending
  | idle =>
      exact nearer_of_exec (.enter .chat false) _ here (beq_self_eq_true i) rfl
        (by simp only [Orchestrator.execStep, hpc]; rfl) (getElem?_set_of_some here _)
        (by simp [hpc, ExecPc.rank])
  | isCold =>
      refine nearer_of_exec (.status (s.lifecycles (config.backendOf exec)).core.status.value) _ here
        (beq_self_eq_true i) (if_pos rfl) (by simp only [Orchestrator.execStep, hpc]; rfl)
        (getElem?_set_of_some here _) ?_
      split <;> simp [hpc, Exec.goto, ExecPc.rank]
  | coldPermit =>
      cases free : s.orchestrator.coldStartSemaphore.tryAcquire with
      | some semaphore =>
          exact nearer_of_exec .run _ here (beq_self_eq_true i) rfl
            (by simp only [Orchestrator.execStep, Orchestrator.execRun, hpc, free]; rfl)
            (getElem?_set_of_some here _) (by simp [hpc, ExecPc.rank])
      | none =>
          exact nearer_of_exec .run _ here (beq_self_eq_true i) rfl
            (by simp only [Orchestrator.execStep, Orchestrator.execRun, hpc, free]; rfl)
            (getElem?_set_of_some here _) (by simp [hpc, Exec.goto, ExecPc.rank])
  | ensureBackend | degrade _ | markWarming =>
      exact nearer_calling hs here (by simp only [Exec.lifecycleCall, hpc]; rfl)
  | awaitDecision | awaitDegraded _ | awaitRetryDecision =>
      exact nearer_awaiting hs here (by rw [hpc]; rfl)
  | handleReady status =>
      by_cases degraded : exec.kind = .embeddings ∧ status.embeddings = .degraded
      · exact nearer_of_exec .run _ here (beq_self_eq_true i) rfl
          (by simp only [Orchestrator.execStep, Orchestrator.execRun, hpc, if_pos degraded]; rfl)
          (by simp only [Orchestrator.put_execs, Orchestrator.checkTunnelDrop_execs]
              exact getElem?_set_of_some here _)
          (by simp [hpc, Exec.goto, ExecPc.rank])
      · exact nearer_of_exec .run _ here (beq_self_eq_true i) rfl
          (by simp only [Orchestrator.execStep, Orchestrator.execRun, hpc, if_neg degraded]; rfl)
          (by simp only [Orchestrator.put_execs, Orchestrator.checkTunnelDrop_execs]
              exact getElem?_set_of_some here _)
          (by simp [hpc, Exec.goto, ExecPc.rank])
  | execute =>
      obtain ⟨call, hcall, idle⟩ := paired.calls i exec here
      rw [hpc] at idle
      have entered : call.pc = .idle := by
        cases hcallPc : call.pc with
        | idle => rfl
        | _ => simp [hcallPc, pairs, CallPc.isIdle] at idle
      have stepped : s.orchestrator.scheduler.callStep config.warmExecution .begun i call
          .enter = some (s.orchestrator.scheduler.put i (call.goto .tryAcquire)) := by
        simp only [WarmExecutionScheduler.callStep, entered]
      have there : (s.orchestrator.scheduler.put i (call.goto .tryAcquire)).calls[i]? =
          some (call.goto .tryAcquire) := getElem?_set_of_some hcall _
      refine nearer_of_exec .run (exec.goto .scheduled) here
        (beq_self_eq_true i) rfl
        (o := { s.orchestrator with
                scheduler := s.orchestrator.scheduler.put i (call.goto .tryAcquire) }.put i
                  (exec.goto .scheduled)) ?_ (getElem?_set_of_some here _) ?_
      · simp only [Orchestrator.execStep, Orchestrator.execRun, hpc,
          drive_of_callStep hcall stepped]
        rfl
      · simp only [Orchestrator.put_scheduler, there, hpc]
        simp [Exec.goto, Call.goto, ExecPc.rank, CallPc.rank]
  | scheduled =>
      obtain ⟨call, hcall, active⟩ := paired.calls i exec here
      rw [hpc] at active
      exact nearer_scheduled here hpc hcall active
  | retrying forward =>
      obtain ⟨input, result, hforward⟩ := forwardStep_fails serde (exec.request config) false forward
      refine nearer_of_exec (.forward input) (exec.goto (.returning (unwrapOrOpenai result))) here
        (beq_self_eq_true i) rfl
        (o := (s.orchestrator.emit (.forwarded i result)).put i
          (exec.goto (.returning (unwrapOrOpenai result)))) ?_ (getElem?_set_of_some here _)
        (by simp [hpc, Exec.goto, ExecPc.rank])
      simp only [Orchestrator.execStep, hpc, Orchestrator.forwardRetry, hforward, Option.map_some]
  | returning response =>
      refine nearer_of_exec .run _ here (beq_self_eq_true i) rfl
        (by simp only [Orchestrator.execStep, Orchestrator.execRun, hpc]; rfl)
        (getElem?_set_of_some here _) ?_
      cases response.streams <;> simp [hpc, ExecPc.rank]
  | relaying =>
      exact nearer_of_exec .relayed _ here (beq_self_eq_true i) rfl
        (by simp only [Orchestrator.execStep, hpc]; rfl) (getElem?_set_of_some here _)
        (by simp [hpc, Exec.goto, ExecPc.rank])
  | unwinding =>
      obtain ⟨call, hcall, leaving⟩ := paired.calls i exec here
      rw [hpc] at leaving
      exact nearer_unwinding here hpc hcall leaving
  | unwound =>
      exact nearer_of_exec .run _ here (beq_self_eq_true i) rfl
        (by simp only [Orchestrator.execStep, Orchestrator.execRun, hpc]; rfl)
        (getElem?_set_of_some here _) (by simp [hpc, ExecPc.rank])

/-- From every state the proxy can reach, every call can be brought to its end by its
own steps, its client's and the passing of time, without being dropped. -/
theorem every_call_can_end (serde : SerdeJson ν) (config : AppConfig) (timing : LifecycleTiming)
    (execs : Nat) (initial : Backend → BackendStatus) (instant : Nat) (clock : Timestamp) (s : Proxy)
    (h : (proxy serde config timing).Reachable (.new config execs initial instant clock) s)
    (i : Nat) (exec : Exec) (here : s.orchestrator.execs[i]? = some exec) :
    ((proxy serde config timing).restrict (OfCall i)).Leads s fun t =>
      ∃ exec', t.orchestrator.execs[i]? = some exec' ∧ exec'.pc.ended = true := by
  refine System.Leads.of_rank (I := fun t =>
    (proxy serde config timing).Reachable (.new config execs initial instant clock) t ∧
      ∃ exec', t.orchestrator.execs[i]? = some exec') (Proxy.remaining i) ?_ ⟨h, exec, here⟩
  rintro t ⟨reach, exec', there⟩ pending
  have unended : exec'.pc.ended = false :=
    Bool.eq_false_iff.mpr fun ended => pending ⟨exec', there, ended⟩
  obtain ⟨u, onward, near, lower⟩ := call_nearer reach there unended
  exact ⟨u, onward, ⟨reach.trans onward.unrestrict, near⟩, lower⟩

section Joined

/-- The second call has joined the round that the first one leads. -/
theorem every_call_can_end_joined :
    ∃ s, (proxy SerdeJson.mute oneColdStart Lifecycle.exampleTiming).Reachable
        (.new oneColdStart 2 (fun _ => .default) 0 ⟨0⟩) s ∧ s.waiting = 2 ∧
      ((proxy SerdeJson.mute oneColdStart Lifecycle.exampleTiming).restrict (OfCall 1)).Leads s
        fun t => ∃ exec, t.orchestrator.execs[1]? = some exec ∧ exec.pc.ended = true := by
  have joined : ∃ s, (proxy SerdeJson.mute oneColdStart Lifecycle.exampleTiming).Reachable
      (.new oneColdStart 2 (fun _ => .default) 0 ⟨0⟩) s ∧
        (s.waiting = 2 ∧ s.orchestrator.execs[1]?.isSome = true) :=
    System.reachable_of_check (wakeSchedule ++ joinSchedule) (by decide)
  obtain ⟨s, hs, hcount, hsome⟩ := joined
  obtain ⟨exec, here⟩ := Option.isSome_iff_exists.mp hsome
  exact ⟨s, hs, hcount, every_call_can_end SerdeJson.mute oneColdStart Lifecycle.exampleTiming 2
    (fun _ => .default) 0 ⟨0⟩ s hs 1 exec here⟩

end Joined
end LlmWakeProxy.Orchestrate
