import LlmWakeProxy.Scheduler.Calls
import LlmWakeProxy.Orchestrate.Rules

/-!
The stages of one call of `execute`, apart from what it waits for: no forward has
been made, the first is under way or done, the second is, the response is made.
The stage is a function of where the call and its scheduler call stand. Every step
of the call is a step of its stages, and adds to its story what the step records;
the steps of other calls leave both alone. What holds of the stages and the story
of a call therefore holds in every run.
-/

namespace LlmWakeProxy.Orchestrate
open LlmWakeProxy.Library LlmWakeProxy.Scheduler LlmWakeProxy.Forward
open LlmWakeProxy.Lifecycle (LifecycleRequest LifecycleDecision BackendStatus)

universe u
variable {ν : Type u} {serde : SerdeJson ν} {config : AppConfig}
variable {s s' : Orchestrator}

inductive Stage where
  | early
  | first (pc : ForwardPc)
  | firstDone (result : ForwardResult)
  | degrading (reason : String)
  | unreachable
  | second (pc : ForwardPc)
  | replying (response : Response)
  | over

def scheduledStage : CallPc ForwardPc ForwardResult → Stage
  | .running pc => .first pc
  | .finished result | .returned (.ok result) => .firstDone result
  | .unwinding _ | .dropped | .panicked => .over
  | _ => .early

def stageOf (pc : ExecPc) (call : Option (CallPc ForwardPc ForwardResult)) : Stage :=
  match pc with
  | .idle | .isCold | .coldPermit | .ensureBackend | .awaitDecision | .handleReady _ | .execute =>
      .early
  | .scheduled => (call.map scheduledStage).getD .early
  | .degrade reason | .awaitDegraded reason => .degrading reason
  | .markWarming | .awaitRetryDecision => .unreachable
  | .retrying pc => .second pc
  | .returning response => .replying response
  | .relaying | .responded | .unwinding | .unwound | .dropped => .over

def Event.exec : Event → Nat
  | .delivered i | .redelivered i | .forwarded i _ | .degraded i _ | .responded i _ => i

namespace Orchestrator

def stage (s : Orchestrator) (i : Nat) (exec : Exec) : Stage :=
  stageOf exec.pc (s.scheduler.calls[i]?.map Call.pc)

def story (s : Orchestrator) (i : Nat) : List Event :=
  s.log.filter fun event => event.exec = i

end Orchestrator

theorem mem_deliveryOf {i : Nat} {pc : ForwardPc} {input : ForwardInput} {event : Event}
    (h : event ∈ deliveryOf i pc input) : event = .delivered i ∨ event = .redelivered i := by
  unfold deliveryOf at h
  split at h
  next => exact .inl (List.mem_singleton.mp h)
  next => exact .inr (List.mem_singleton.mp h)
  next => cases h

theorem deliveryOf_of_ne {i : Nat} {pc : ForwardPc} {input : ForwardInput} (h : input ≠ .deliver) :
    deliveryOf i pc input = [] := by
  unfold deliveryOf
  split
  next => exact absurd rfl h
  next => exact absurd rfl h
  next => rfl

theorem deliveryOf_exec (i : Nat) (pc : ForwardPc) (input : ForwardInput) :
    ∀ event ∈ deliveryOf i pc input, event.exec = i := by
  intro event h
  obtain rfl | rfl := mem_deliveryOf h <;> rfl

/-- The steps of the stages of call `i`, with what each records. -/
inductive StageRule (serde : SerdeJson ν) (request : ForwardRequest) (i : Nat) :
    Stage → Input → List Event → Stage → Prop
  | stays (stage : Stage) (input : Input) : StageRule serde request i stage input [] stage
  | leaves (stage : Stage) (input : Input) : StageRule serde request i stage input [] .over
  | rejected (input : Input) (response : Response) :
      StageRule serde request i .early input [] (.replying response)
  | begins : StageRule serde request i .early .run [] (.first .begun)
  | firstPending (isCancelled : Bool) (input : ForwardInput) (before after : ForwardPc)
      (forward : forwardStep serde request isCancelled before input = some (.pending after)) :
      StageRule serde request i (.first before) (.forward input) (deliveryOf i before input)
        (.first after)
  | firstDone (isCancelled : Bool) (input : ForwardInput) (before : ForwardPc)
      (result : ForwardResult)
      (forward : forwardStep serde request isCancelled before input = some (.done result)) :
      StageRule serde request i (.first before) (.forward input) [.forwarded i result]
        (.firstDone result)
  | unsupported (reason : String) :
      StageRule serde request i (.firstDone (.error .embeddingsUnsupported)) .run []
        (.degrading reason)
  | unreachable :
      StageRule serde request i (.firstDone (.error .upstreamUnreachable)) .run [] .unreachable
  | answered (result : ForwardResult) (response : Response)
      (supported : result ≠ .error .embeddingsUnsupported)
      (reached : result ≠ .error .upstreamUnreachable) :
      StageRule serde request i (.firstDone result) .run [] (.replying response)
  | degraded (reason : String) (response : Response) :
      StageRule serde request i (.degrading reason) .degraded [.degraded i reason]
        (.replying response)
  | retries (status : BackendStatus) :
      StageRule serde request i .unreachable (.decide (.ready status)) [] (.second .begun)
  | givesUp (input : Input) (response : Response) :
      StageRule serde request i .unreachable input [] (.replying response)
  | secondPending (input : ForwardInput) (before after : ForwardPc)
      (forward : forwardStep serde request false before input = some (.pending after)) :
      StageRule serde request i (.second before) (.forward input) (deliveryOf i before input)
        (.second after)
  | secondDone (input : ForwardInput) (before : ForwardPc) (result : ForwardResult)
      (forward : forwardStep serde request false before input = some (.done result)) :
      StageRule serde request i (.second before) (.forward input) [.forwarded i result]
        (.replying (unwrapOrOpenai result))
  | responded (response : Response) :
      StageRule serde request i (.replying response) .run [.responded i response] .over

@[simp] theorem scheduledStage_assign (pc : CallPc ForwardPc ForwardResult) :
    scheduledStage pc.assign = scheduledStage pc := by
  cases pc <;> rfl

theorem stageOf_assign (pc : ExecPc) (call : Option (Call ForwardPc ForwardResult)) :
    stageOf pc ((call.map Call.assign).map Call.pc) = stageOf pc (call.map Call.pc) := by
  cases pc with
  | scheduled => cases call <;> simp [stageOf]
  | _ => rfl

theorem scheduledStage_ne_second (pc : CallPc ForwardPc ForwardResult) (forward : ForwardPc) :
    scheduledStage pc ≠ .second forward := by
  match pc with
  | .returned (.ok _) | .returned (.error _) | .running _ | .finished _ | .unwinding _ | .dropped
  | .panicked | .idle | .tryAcquire | .reserve | .acquire | .queued .. | .pollTimer .. | .expired _
  | .abandoned _ | .leaveQueue | .starting => simp [scheduledStage]

/-- A call is in its second forward nowhere else. -/
theorem retrying_of_stage {i : Nat} {exec : Exec} {forward : ForwardPc}
    (h : s.stage i exec = .second forward) : exec.pc = .retrying forward := by
  unfold Orchestrator.stage at h
  cases hpc : exec.pc with
  | retrying pc =>
      rw [hpc] at h
      cases h
      rfl
  | scheduled =>
      rw [hpc] at h
      cases hcall : s.scheduler.calls[i]? with
      | none => simp [stageOf, hcall] at h
      | some call =>
          rw [hcall] at h
          exact absurd h (scheduledStage_ne_second call.pc forward)
  | _ =>
      rw [hpc] at h
      cases h

theorem stage_of_kept {j : Nat} {exec : Exec} (kept : Kept s.scheduler s'.scheduler j) :
    s'.stage j exec = s.stage j exec := by
  unfold Orchestrator.stage
  obtain h | h := kept
  · rw [h]
  · rw [h, stageOf_assign]

@[simp] theorem put_log (i : Nat) (exec : Exec) : (s.put i exec).log = s.log := rfl
@[simp] theorem emit_log (event : Event) : (s.emit event).log = [event] ++ s.log := rfl

@[simp] theorem checkTunnelDrop_log (kind : LifecycleRequest) (tunnel : Lifecycle.TunnelState) :
    (s.checkTunnelDrop kind tunnel).log = s.log := by
  cases kind <;> (simp only [Orchestrator.checkTunnelDrop]; split <;> rfl)

@[simp] theorem noteDelivery_log (i : Nat) (pc : ForwardPc) (input : ForwardInput) :
    (s.noteDelivery i pc input).log = deliveryOf i pc input ++ s.log := rfl

/-- A step of call `i`, as the stages see it. -/
structure StageStep (serde : SerdeJson ν) (config : AppConfig) (s s' : Orchestrator) (i : Nat)
    (exec : Exec) (input : Input) : Prop where
  moved : ∃ exec' news, s'.execs[i]? = some exec' ∧ s'.log = news ++ s.log ∧
    (∀ event ∈ news, event.exec = i) ∧
    StageRule serde (exec.request config) i (s.stage i exec) input news (s'.stage i exec')
  others : ∀ j, j ≠ i → s'.execs[j]? = s.execs[j]? ∧ Kept s.scheduler s'.scheduler j

theorem StageStep.put {i : Nat} {exec exec' : Exec} {input : Input} {t : Orchestrator}
    (here : s.execs[i]? = some exec) (execs : t.execs = s.execs)
    (scheduler : t.scheduler = s.scheduler) {news : List Event} (log : t.log = news ++ s.log)
    (own : ∀ event ∈ news, event.exec = i)
    (rule : StageRule serde (exec.request config) i (s.stage i exec) input news
      (stageOf exec'.pc (s.scheduler.calls[i]?.map Call.pc))) :
    StageStep serde config s (t.put i exec') i exec input := by
  refine ⟨⟨exec', news, getElem?_set_of_some (by rw [execs]; exact here) _, log, own, ?_⟩, ?_⟩
  · rw [← scheduler] at rule
    exact rule
  · intro j hj
    refine ⟨?_, .inl (by rw [Orchestrator.put_scheduler, scheduler])⟩
    rw [Orchestrator.put_execs, execs]
    exact List.getElem?_set_ne (Ne.symm hj)

/-! ### Steps of the scheduler's call -/

theorem drive_callStep {i : Nat} {input : Scheduler.Input ForwardPc ForwardResult}
    {t : Orchestrator} (h : s.drive config i input = some t) :
    ∃ call, s.scheduler.calls[i]? = some call ∧
      CallStep .begun s.scheduler t.scheduler i call ∧
      s.scheduler.callStep config.warmExecution .begun i call input = some t.scheduler ∧
      t.execs = s.execs ∧ t.log = s.log := by
  obtain ⟨scheduler, hstep, rfl⟩ := Orchestrator.drive_eq_some h
  obtain ⟨call, here, hcall⟩ := Option.bind_eq_some_iff.mp hstep
  exact ⟨call, here, (callStep_cases hcall).callStep here, hcall, rfl, rfl⟩

theorem StageStep.driven {i : Nat} {exec exec' : Exec} {input : Input} {u t : Orchestrator}
    {input' : Scheduler.Input ForwardPc ForwardResult} (here : s.execs[i]? = some exec)
    (execs : u.execs = s.execs) (scheduler : u.scheduler = s.scheduler) {news : List Event}
    (log : u.log = news ++ s.log) (own : ∀ event ∈ news, event.exec = i)
    (drive : u.drive config i input' = some t)
    (rule : StageRule serde (exec.request config) i (s.stage i exec) input news
      (stageOf exec'.pc (t.scheduler.calls[i]?.map Call.pc))) :
    StageStep serde config s (t.put i exec') i exec input := by
  obtain ⟨call, _, hstep, _, hexecs, hlog⟩ := drive_callStep drive
  refine ⟨⟨exec', news, ?_, by rw [put_log, hlog, log], own, rule⟩, ?_⟩
  · rw [Orchestrator.put_execs, hexecs, execs]
    exact getElem?_set_of_some here _
  · intro j hj
    refine ⟨?_, scheduler ▸ hstep.kept j hj⟩
    rw [Orchestrator.put_execs, hexecs, execs]
    exact List.getElem?_set_ne (Ne.symm hj)

theorem put_self {i : Nat} {exec : Exec} (here : s.execs[i]? = some exec) : s.put i exec = s := by
  unfold Orchestrator.put
  rw [set_of_some here]

theorem callStep_run_not_running {call : Call ForwardPc ForwardResult} {i : Nat}
    {scheduler scheduler' : WarmExecutionScheduler ForwardPc ForwardResult} {pc : ForwardPc}
    (h : scheduler.callStep config.warmExecution .begun i call .run = some scheduler') :
    call.pc ≠ .running pc := by
  intro hpc
  simp [WarmExecutionScheduler.callStep, hpc] at h

theorem scheduledStage_of_unstarted {pc : CallPc ForwardPc ForwardResult}
    (h : pc.unstarted = true) : scheduledStage pc = .early := by
  match pc with
  | .returned (.error _) => rfl
  | .returned (.ok _) | .running _ | .finished _ | .unwinding _ | .dropped | .panicked => cases h
  | .idle | .tryAcquire | .reserve | .acquire | .queued .. | .pollTimer .. | .expired _
  | .abandoned _ | .leaveQueue | .starting => rfl

theorem scheduledStage_run {call call' : Call ForwardPc ForwardResult} {i : Nat}
    {request : ForwardRequest} (move : CallMove .begun call.pc call'.pc)
    (notRunning : ∀ pc, call.pc ≠ .running pc) :
    StageRule serde request i (scheduledStage call.pc) .run [] (scheduledStage call'.pc) := by
  generalize call.pc = before at move notRunning ⊢
  generalize call'.pc = after at move ⊢
  cases move with
  | waits early _ later =>
      rw [scheduledStage_of_unstarted early, scheduledStage_of_unstarted later]
      exact .stays _ _
  | leaves => exact .leaves _ _
  | starts => exact .begins
  | operates operation | finishes operation | unwinds operation =>
      exact absurd rfl (notRunning operation)
  | returns output => exact .stays _ _
  | ends panicked =>
      cases panicked with
      | true | false => exact .stays _ _

theorem stage_afterExecute (serde : SerdeJson ν) (request : ForwardRequest) (i : Nat) (exec : Exec)
    (t : Orchestrator) {before : CallPc ForwardPc ForwardResult}
    {outcome : Except WarmExecutionError ForwardResult}
    (move : CallMove .begun before (.returned outcome)) :
    ∃ inc pc, t.afterExecute i exec outcome = (t.count inc).put i (exec.goto pc) ∧
      ∀ call, StageRule serde request i (scheduledStage before) .run [] (stageOf pc call) := by
  generalize hafter : CallPc.returned outcome = after at move
  cases move with
  | waits early _ later =>
      subst hafter
      rw [scheduledStage_of_unstarted early]
      match outcome with
      | .ok _ => cases later
      | .error .queueFull | .error .queueTimeout => exact ⟨_, _, rfl, fun _ => .rejected _ _⟩
  | returns result =>
      cases hafter
      match result with
      | .ok response => exact ⟨_, _, rfl, fun _ => .answered _ _ (by simp) (by simp)⟩
      | .error .embeddingsUnsupported => exact ⟨_, _, rfl, fun _ => .unsupported _⟩
      | .error .upstreamUnreachable => exact ⟨_, _, rfl, fun _ => .unreachable⟩
      | .error (.upstreamError _ _) | .error .cancelled =>
          exact ⟨_, _, rfl, fun _ => .answered _ _ (by simp) (by simp)⟩
  | ends panicked => cases panicked <;> cases hafter
  | leaves | starts | operates | finishes | unwinds => cases hafter

/-! ### Every step of a call is a step of its stages -/

theorem drive_put {i : Nat} {call call' : Call ForwardPc ForwardResult}
    {input : Scheduler.Input ForwardPc ForwardResult} {t : Orchestrator}
    (here : s.scheduler.calls[i]? = some call)
    (step : s.scheduler.callStep config.warmExecution .begun i call input =
      some (s.scheduler.put i call'))
    (drive : s.drive config i input = some t) : t.scheduler.calls[i]? = some call' := by
  obtain ⟨other, here', _, hstep, _⟩ := drive_callStep drive
  obtain rfl : call = other := Option.some.inj (here.symm.trans here')
  rw [← Option.some.inj (step.symm.trans hstep)]
  exact getElem?_set_of_some here _

theorem drive_count {i : Nat} {input : Scheduler.Input ForwardPc ForwardResult} {t : Orchestrator}
    (inc : Metrics → Metrics) (drive : s.drive config i input = some t) :
    (s.count inc).drive config i input = some (t.count inc) := by
  obtain ⟨scheduler, hstep, rfl⟩ := Orchestrator.drive_eq_some drive
  exact Option.map_eq_some_iff.mpr ⟨scheduler, hstep, rfl⟩

/-- The scheduler admits no call but one that has not been made. -/
theorem drive_enter {i : Nat} {t : Orchestrator} (drive : s.drive config i .enter = some t) :
    ∃ call, t.scheduler.calls[i]? = some call ∧ call.pc = .tryAcquire := by
  obtain ⟨call, here, _, hstep, _⟩ := drive_callStep drive
  simp only [WarmExecutionScheduler.callStep] at hstep
  split at hstep
  next hidle =>
    refine ⟨call.goto .tryAcquire, drive_put here ?_ drive, rfl⟩
    simp [WarmExecutionScheduler.callStep, hidle]
  next => cases hstep

theorem ExecRule.stageStep {i : Nat} {exec : Exec} {input : Input}
    (rule : ExecRule serde config s i exec input s') (here : s.execs[i]? = some exec) :
    StageStep serde config s s' i exec input := by
  have none : ∀ event ∈ ([] : List Event), event.exec = i := by simp
  have nothing : s.log = [] ++ s.log := rfl
  cases rule with
  | enter _ _ pc | cold _ pc _ | notCold _ pc _ | admitted _ pc _ | callEnsure pc
  | callDegrade _ pc | callMark pc | relayed pc =>
      exact .put here rfl rfl nothing none (by rw [Orchestrator.stage, pc]; exact .stays _ _)
  | refused pc _ =>
      exact .put here rfl rfl nothing none (by rw [Orchestrator.stage, pc]; exact .rejected _ _)
  | decided decision pc =>
      cases decision with
      | ready status =>
          exact .put here rfl rfl nothing none (by rw [Orchestrator.stage, pc]; exact .stays _ _)
      | warming _ _ | failed _ _ =>
          exact .put here rfl rfl nothing none (by rw [Orchestrator.stage, pc]; exact .rejected _ _)
  | retryDecided decision pc =>
      cases decision with
      | ready status =>
          exact .put here rfl rfl nothing none (by rw [Orchestrator.stage, pc]; exact .retries _)
      | warming _ _ | failed _ _ =>
          exact .put here rfl rfl nothing none (by rw [Orchestrator.stage, pc]; exact .givesUp _ _)
  | degraded reason pc =>
      exact .put here rfl rfl (emit_log _) (List.forall_mem_singleton.mpr rfl)
        (by rw [Orchestrator.stage, pc]; exact .degraded _ _)
  | embeddingsDegraded _ pc _ _ =>
      exact .put here (by simp) (by simp) (by simp) none
        (by rw [Orchestrator.stage, pc]; exact .rejected _ _)
  | handled _ pc _ =>
      exact .put here (by simp) (by simp) (by simp) none
        (by rw [Orchestrator.stage, pc]; exact .stays _ _)
  | execute t pc drive =>
      obtain ⟨call, hcall, entered⟩ := drive_enter drive
      refine .driven here rfl rfl nothing none drive ?_
      rw [Orchestrator.stage, pc, hcall]
      simp only [Option.map_some, Exec.goto, entered]
      exact .stays _ _
  | scheduled t call pc drive hcall pending =>
      have here' : s'.execs[i]? = some exec := by rwa [(Orchestrator.drive_frame drive).1]
      obtain ⟨before, hbefore, ⟨⟨after, hafter, move⟩, _, _⟩, hstep, _⟩ := drive_callStep drive
      rw [← put_self here']
      refine .driven here rfl rfl nothing none drive ?_
      rw [Orchestrator.stage, pc, hbefore, hafter]
      exact scheduledStage_run move fun _ => callStep_run_not_running hstep
  | executed t call outcome pc drive hcall returned =>
      obtain ⟨before, hbefore, ⟨⟨after, hafter, move⟩, _, _⟩, _⟩ := drive_callStep drive
      obtain rfl : call = after := Option.some.inj (hcall.symm.trans hafter)
      rw [returned] at move
      obtain ⟨inc, pc', hs', rule⟩ :=
        stage_afterExecute serde (exec.request config) i exec t move
      rw [hs']
      refine .driven (u := s.count inc) here rfl rfl nothing none (drive_count inc drive) ?_
      rw [Orchestrator.stage, pc, hbefore]
      exact rule _
  | operate t _ call before after pc hcall running forward drive =>
      have here' : s'.execs[i]? = some exec := by
        rwa [(Orchestrator.drive_frame drive).1, Orchestrator.noteDelivery_execs]
      have hafter : s'.scheduler.calls[i]? = some (call.goto (.running after)) := by
        refine drive_put (by simpa using hcall) ?_ drive
        simp [WarmExecutionScheduler.callStep, running]
      rw [← put_self here']
      refine .driven here (by simp) (by simp) (noteDelivery_log _ _ _) (deliveryOf_exec _ _ _) drive ?_
      rw [Orchestrator.stage, pc, hcall, hafter]
      simp only [Option.map_some, stageOf, Option.getD_some, running]
      exact .firstPending _ _ _ _ forward
  | complete t _ call before result pc hcall running forward drive =>
      have here' : s'.execs[i]? = some exec := by rwa [(Orchestrator.drive_frame drive).1]
      have hafter : s'.scheduler.calls[i]? = some (call.goto (.finished result)) := by
        refine drive_put (s := s.emit _) hcall ?_ drive
        simp [WarmExecutionScheduler.callStep, running]
      rw [← put_self here']
      refine .driven (u := s.emit (.forwarded i result)) here rfl rfl (emit_log _)
        (List.forall_mem_singleton.mpr rfl) drive ?_
      rw [Orchestrator.stage, pc, hcall, hafter]
      simp only [Option.map_some, stageOf, Option.getD_some, running]
      exact .firstDone _ _ _ _ forward
  | retryPending _ before after pc forward =>
      exact .put here (by simp) (by simp) (noteDelivery_log _ _ _) (deliveryOf_exec _ _ _)
        (by rw [Orchestrator.stage, pc]; exact .secondPending _ _ _ forward)
  | retryDone _ before result pc forward =>
      exact .put here rfl rfl (emit_log _) (List.forall_mem_singleton.mpr rfl)
        (by rw [Orchestrator.stage, pc]; exact .secondDone _ _ _ forward)
  | returned response pc =>
      refine .put here rfl rfl (emit_log _) (List.forall_mem_singleton.mpr rfl) ?_
      rw [Orchestrator.stage, pc]
      cases response.streams with
      | true | false => exact .responded response
  | unwoundAwaiting _ _ => exact .put here rfl rfl nothing none (.leaves _ _)
  | dropped pc => exact .put here rfl rfl nothing none (.leaves _ _)
  | unwoundScheduled t _ _ drive => exact .driven here rfl rfl nothing none drive (.leaves _ _)
  | unwinding t call pc drive _ _ =>
      have here' : s'.execs[i]? = some exec := by rwa [(Orchestrator.drive_frame drive).1]
      rw [← put_self here']
      refine .driven here rfl rfl nothing none drive ?_
      rw [pc]
      exact .leaves _ _
  | unwoundCall t _ _ drive _ _ => exact .driven here rfl rfl nothing none drive (.leaves _ _)

/-! ### What holds of the stages holds in every run -/

/-- Every call's stage and story are as `P` says. -/
def Orchestrator.StagesHold (s : Orchestrator) (P : Nat → Stage → List Event → Prop) : Prop :=
  ∀ i exec, s.execs[i]? = some exec → P i (s.stage i exec) (s.story i)

theorem stagesHold_new {P : Nat → Stage → List Event → Prop} (execs instant : Nat)
    (early : ∀ i, P i .early []) : (Orchestrator.new config execs instant).StagesHold P := by
  intro i exec here
  obtain rfl := (List.mem_replicate.mp (List.mem_of_getElem? here)).2
  exact early i

theorem story_of_own {i : Nat} {news : List Event} (log : s'.log = news ++ s.log)
    (own : ∀ event ∈ news, event.exec = i) : s'.story i = news ++ s.story i := by
  have hnews : (news.filter fun event => event.exec = i) = news :=
    List.filter_eq_self.mpr fun event hevent => by simpa using own event hevent
  simp only [Orchestrator.story, log, List.filter_append, hnews]

theorem story_of_other {i j : Nat} {news : List Event} (log : s'.log = news ++ s.log)
    (own : ∀ event ∈ news, event.exec = i) (hj : j ≠ i) : s'.story j = s.story j := by
  have hnews : (news.filter fun event => event.exec = j) = [] :=
    List.filter_eq_nil_iff.mpr fun event hevent => by simpa [own event hevent] using Ne.symm hj
  simp only [Orchestrator.story, log, List.filter_append, hnews, List.nil_append]

/-- A step keeps what its own call's stages keep and no other call loses. -/
theorem stagesHold_step {P Q : Nat → Stage → List Event → Prop} {a : Action}
    (hs : s.StagesHold P) (h : (orchestrator serde config).step s a = some s')
    (own : ∀ i input exec news after, a = .exec i input → s.execs[i]? = some exec →
      StageRule serde (exec.request config) i (s.stage i exec) input news after →
      P i (s.stage i exec) (s.story i) → Q i after (news ++ s.story i))
    (others : ∀ j stage story, (∀ i input, a = .exec i input → j ≠ i) → P j stage story →
      Q j stage story) : s'.StagesHold Q := by
  cases step_cases h with
  | elapse span scheduler drive =>
      intro j exec here
      have hcalls : scheduler.calls = s.scheduler.calls := by
        cases drive
        rfl
      have hstage : Orchestrator.stage { s with scheduler := scheduler } j exec = s.stage j exec := by
        simp only [Orchestrator.stage, hcalls]
      rw [hstage]
      exact others j _ _ (by simp) (hs j exec here)
  | exec i input exec here _ rule =>
      obtain ⟨⟨exec', news, here', log, news_own, moved⟩, rest⟩ := rule.stageStep here
      intro j other hother
      by_cases hj : j = i
      · subst hj
        obtain rfl : exec' = other := Option.some.inj (here'.symm.trans hother)
        rw [story_of_own log news_own]
        exact own j input exec news _ rfl here moved (hs j exec here)
      · obtain ⟨hexecs, kept⟩ := rest j hj
        rw [stage_of_kept kept, story_of_other log news_own hj]
        refine others j _ _ ?_ (hs j other (hexecs.symm.trans hother))
        rintro _ _ hact
        cases hact
        exact hj

end LlmWakeProxy.Orchestrate
