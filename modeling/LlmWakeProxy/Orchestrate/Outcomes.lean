import LlmWakeProxy.Orchestrate.InFlight
import LlmWakeProxy.Orchestrate.Stages

/-!
The outcome counters and the responses they are about. `execute` and the first
forward increment a counter with every response that it covers. The block that
follows an unreachable upstream answers with the same responses and increments
none: neither for a backend that failed nor for the outcome of the second forward.
-/

namespace LlmWakeProxy.Orchestrate
open LlmWakeProxy.Library LlmWakeProxy.Scheduler LlmWakeProxy.Forward
open LlmWakeProxy.Lifecycle (LifecycleRequest LifecycleDecision TunnelState)

universe u
variable {ν : Type u} {serde : SerdeJson ν} {config : AppConfig}
variable {s s' : Orchestrator}

inductive Counter where
  | warmRequests
  | queueFullRejections
  | queueTimeouts
  | wakeFailures
  | forwardingErrors
  deriving DecidableEq, Repr

def Metrics.get (metrics : Metrics) : Counter → Nat
  | .warmRequests => metrics.warmRequests
  | .queueFullRejections => metrics.queueFullRejections
  | .queueTimeouts => metrics.queueTimeouts
  | .wakeFailures => metrics.wakeFailures
  | .forwardingErrors => metrics.forwardingErrors

def Response.hasCode (response : Response) (codes : List String) : Bool :=
  match response.body with
  | .error code _ => codes.contains code
  | _ => false

def Response.hasMessage (response : Response) (text : String) : Bool :=
  match response.body with
  | .error _ message => message == text
  | _ => false

/-- The responses a counter is about. -/
def Counter.covers : Counter → Response → Bool
  | .warmRequests, response => response.status == 200
  | .queueFullRejections, response =>
      response.status == 429 && Response.hasMessage response WarmExecutionError.queueFull.message
  | .queueTimeouts, response =>
      response.status == 429 && Response.hasMessage response WarmExecutionError.queueTimeout.message
  | .wakeFailures, response => Response.hasCode response ["backend_error"]
  | .forwardingErrors, response =>
      Response.hasCode response ["upstream_error", "backend_unavailable", "request_cancelled"]

def ExecPc.answers (counter : Counter) : ExecPc → Bool
  | .returning response => counter.covers response
  | _ => false

def Event.answers (counter : Counter) : Event → Bool
  | .responded _ response => counter.covers response
  | _ => false

namespace Orchestrator

def sent (s : Orchestrator) (counter : Counter) : Nat :=
  s.log.countP (Event.answers counter)

/-- The number of responses that the counter is about: those sent, and those of
calls that have made their response. -/
def responses (s : Orchestrator) (counter : Counter) : Nat :=
  s.sent counter + s.execs.countP fun exec => exec.pc.answers counter

def Agrees (s : Orchestrator) : Prop :=
  ∀ counter, s.metrics.get counter = s.responses counter

end Orchestrator

/-- The step answers a call after its upstream was unreachable, with a backend that
failed or the outcome of the second forward; one that finds the embeddings
unsupported is none of the counters' business. -/
def uncounted (serde : SerdeJson ν) (config : AppConfig) (s : Orchestrator) : Action → Bool
  | .exec i (.decide (.failed _ _)) =>
      match s.execs[i]?.map Exec.pc with
      | some .awaitRetryDecision => true
      | _ => false
  | .exec i (.forward input) =>
      match s.execs[i]? with
      | some exec =>
          match exec.pc with
          | .retrying pc =>
              match forwardStep serde (exec.request config) false pc input with
              | some (.done (.error .embeddingsUnsupported)) => false
              | some (.done _) => true
              | _ => false
          | _ => false
      | none => false
  | _ => false

def Counted (serde : SerdeJson ν) (config : AppConfig) (s : Orchestrator) (a : Action) : Prop :=
  uncounted serde config s a = false

instance (s : Orchestrator) (a : Action) : Decidable (Counted serde config s a) :=
  inferInstanceAs (Decidable (uncounted serde config s a = false))

/-! ### Which responses are covered -/

section Covers

variable (counter : Counter)

theorem covers_stillStarting (retryAfterSecs : UInt64) :
    counter.covers (stillStarting retryAfterSecs) = false := by
  cases counter <;> simp [Counter.covers, stillStarting, openaiError, Response.hasCode]

theorem covers_queueIsFull : counter.covers queueIsFull = false := by
  cases counter <;> simp [Counter.covers, queueIsFull, openaiError, Response.hasCode]

theorem covers_embeddingsAreDegraded (reason : Option String) :
    counter.covers (embeddingsAreDegraded reason) = false := by
  cases counter <;> simp [Counter.covers, embeddingsAreDegraded, openaiError, Response.hasCode]

theorem covers_embeddingDegradationResponse (reason : String) :
    counter.covers (embeddingDegradationResponse reason) = false := by
  cases counter <;>
    simp [Counter.covers, embeddingDegradationResponse, openaiError, Response.hasCode]

theorem covers_embeddingsUnsupported :
    counter.covers ForwardError.embeddingsUnsupported.toOpenai = false := by
  cases counter <;> simp [Counter.covers, ForwardError.toOpenai, openaiError, Response.hasCode]

theorem covers_backendError (message : String) :
    counter.covers (backendError message) = decide (counter = .wakeFailures) := by
  cases counter <;> simp [Counter.covers, backendError, openaiError, Response.hasCode]

theorem covers_toOpenai {error : ForwardError} (supported : error ≠ .embeddingsUnsupported) :
    counter.covers error.toOpenai = decide (counter = .forwardingErrors) := by
  cases error with
  | embeddingsUnsupported => exact absurd rfl supported
  | upstreamUnreachable | upstreamError _ _ | cancelled =>
      cases counter <;> simp [Counter.covers, ForwardError.toOpenai, openaiError, Response.hasCode]

theorem covers_warmExecutionErrorResponse (error : WarmExecutionError) :
    counter.covers (warmExecutionErrorResponse error) =
      decide (counter = match error with
        | .queueFull => .queueFullRejections
        | .queueTimeout => .queueTimeouts) := by
  cases error <;> cases counter <;>
    simp [Counter.covers, warmExecutionErrorResponse, openaiError, Response.hasCode,
      Response.hasMessage, WarmExecutionError.message]

/-- What a forward makes of a good answer is a response of status 200. -/
theorem covers_of_forwardStep {request : ForwardRequest} {isCancelled : Bool} {pc : ForwardPc}
    {input : ForwardInput} {response : Response}
    (h : forwardStep serde request isCancelled pc input = some (.done (.ok response))) :
    counter.covers response = decide (counter = .warmRequests) := by
  generalize hprogress : ForwardProgress.done (.ok response) = progress at h
  cases forwardStep_cases h with
  | streamed _ _ _ _ _ =>
      cases hprogress
      cases counter <;> rfl
  | read status text =>
      have reading := readAnswer_cases serde request status (text.getD [])
      rw [← ForwardProgress.done.inj hprogress] at reading
      cases reading
      cases counter <;> rfl
  | delivered _ _ | failed _ _ _ _ _ | redirected _ _ _ _ _ _ | answered _ _ _ _
  | cancelled _ _ _ _ => cases hprogress

end Covers

/-! ### A forward that succeeded -/

/-- The scheduler holds no good result but a response of status 200. -/
def GoodResult (_ : Nat) (stage : Stage) (_ : List Event) : Prop :=
  ∀ response, stage = .firstDone (.ok response) →
    ∀ counter : Counter, counter.covers response = decide (counter = .warmRequests)

theorem goodResult_step {a : Action} (hs : s.StagesHold GoodResult)
    (h : (orchestrator serde config).step s a = some s') : s'.StagesHold GoodResult := by
  refine stagesHold_step hs h ?_ fun _ _ _ _ held => held
  intro i input exec news after _ _ rule held response hafter counter
  generalize s.stage i exec = stage at rule held
  cases rule with
  | firstDone isCancelled forwardInput before result forward =>
      cases hafter
      exact covers_of_forwardStep counter forward
  | stays _ _ => exact held response hafter counter
  | leaves _ _ | rejected _ _ | begins | firstPending _ _ _ _ _ | unsupported _ | unreachable
  | answered _ _ _ _ | degraded _ _ | retries _ | givesUp _ _ | secondPending _ _ _ _
  | secondDone _ _ _ _ | responded _ => cases hafter

theorem goodResult_new (execs instant : Nat) :
    (Orchestrator.new config execs instant).StagesHold GoodResult :=
  stagesHold_new execs instant fun _ _ hearly => by cases hearly

/-- The scheduler returns no response but one of status 200. -/
theorem covers_executed {i : Nat} {t : Orchestrator} {exec : Exec}
    {call : Call ForwardPc ForwardResult} {response : Response} (hs : s.StagesHold GoodResult)
    (here : s.execs[i]? = some exec) (pc : exec.pc = .scheduled)
    (drive : s.drive config i .run = some t) (hcall : t.scheduler.calls[i]? = some call)
    (returned : call.pc = .returned (.ok (.ok response))) (counter : Counter) :
    counter.covers response = decide (counter = .warmRequests) := by
  obtain ⟨scheduler, hstep, rfl⟩ := Orchestrator.drive_eq_some drive
  obtain ⟨before, hbefore, hrun⟩ := Option.bind_eq_some_iff.mp hstep
  have finished := (callStep_cases hrun).finished_of_returned hbefore hcall returned
  refine hs i exec here response ?_ counter
  simp [Orchestrator.stage, pc, hbefore, finished, stageOf, scheduledStage]

/-! ### Every step keeps the counters in agreement, or is uncounted -/

theorem drive_sent {i : Nat} {input : Scheduler.Input ForwardPc ForwardResult} {t : Orchestrator}
    (h : s.drive config i input = some t) (counter : Counter) :
    t.sent counter = s.sent counter := by
  obtain ⟨_, _, rfl⟩ := Orchestrator.drive_eq_some h
  rfl

theorem noteDelivery_sent (i : Nat) (pc : ForwardPc) (input : ForwardInput)
    (counter : Counter) : (s.noteDelivery i pc input).sent counter = s.sent counter := by
  unfold Orchestrator.noteDelivery deliveryOf
  split <;> rfl

theorem checkTunnelDrop_get (kind : LifecycleRequest) (tunnel : TunnelState) (counter : Counter) :
    (s.checkTunnelDrop kind tunnel).metrics.get counter = s.metrics.get counter := by
  cases kind <;> simp only [Orchestrator.checkTunnelDrop] <;> split <;> cases counter <;> rfl

/-- What a counter gains and loses by a change of call `i`, `t` being the state before
the call is replaced: the books balance when the counter moves with the answer. -/
theorem responses_put {i : Nat} {exec : Exec} {t : Orchestrator} (exec' : Exec)
    (counter : Counter) (here : t.execs[i]? = some exec) :
    (t.put i exec').responses counter + (exec.pc.answers counter).toNat =
      t.responses counter + (exec'.pc.answers counter).toNat := by
  have balance :=
    countP_set_balance (fun exec : Exec => exec.pc.answers counter) (b := exec') here
  simp only [Orchestrator.responses, Orchestrator.put, Orchestrator.sent]
  omega

theorem Orchestrator.Agrees.put {i : Nat} {exec exec' : Exec} {t : Orchestrator} (h : s.Agrees)
    (here : s.execs[i]? = some exec) (execs : t.execs = s.execs)
    (sent : ∀ counter, t.sent counter = s.sent counter)
    (silent : ∀ counter, exec.pc.answers counter = false)
    (moved : ∀ counter, t.metrics.get counter =
      s.metrics.get counter + (exec'.pc.answers counter).toNat) : (t.put i exec').Agrees := by
  intro counter
  have balance := responses_put exec' counter (execs ▸ here)
  have same : t.responses counter = s.responses counter := by
    simp only [Orchestrator.responses, sent counter, execs]
  have agreed := h counter
  have hmoved := moved counter
  rw [silent counter, same, Bool.toNat_false] at balance
  change t.metrics.get counter = _
  omega

theorem Orchestrator.Agrees.silent {i : Nat} {exec exec' : Exec} {t : Orchestrator} (h : s.Agrees)
    (here : s.execs[i]? = some exec) (execs : t.execs = s.execs)
    (sent : ∀ counter, t.sent counter = s.sent counter)
    (metrics : ∀ counter, t.metrics.get counter = s.metrics.get counter)
    (before : ∀ counter, exec.pc.answers counter = false)
    (after : ∀ counter, exec'.pc.answers counter = false) : (t.put i exec').Agrees :=
  h.put here execs sent before fun counter => by simp [metrics counter, after counter]

theorem Orchestrator.Agrees.congr {t : Orchestrator} (h : s.Agrees) (execs : t.execs = s.execs)
    (sent : ∀ counter, t.sent counter = s.sent counter) (metrics : t.metrics = s.metrics) :
    t.Agrees := by
  intro counter
  simp only [Orchestrator.responses, sent counter, execs, metrics]
  exact h counter

theorem Orchestrator.Agrees.counted {i : Nat} {exec : Exec} {inc : Metrics → Metrics}
    {response : Response} {counted : Counter} (h : s.Agrees) (here : s.execs[i]? = some exec)
    (silent : ∀ counter, exec.pc.answers counter = false)
    (covers : ∀ counter : Counter, counter.covers response = decide (counter = counted))
    (incs : ∀ (metrics : Metrics) (counter : Counter),
      (inc metrics).get counter = metrics.get counter + (decide (counter = counted)).toNat) :
    ((s.count inc).put i (exec.goto (.returning response))).Agrees := by
  refine h.put here rfl (fun _ => rfl) silent fun counter => ?_
  change (inc s.metrics).get counter = s.metrics.get counter + (counter.covers response).toNat
  rw [incs, covers]

theorem agrees_executed {i : Nat} {exec : Exec} {outcome : Except WarmExecutionError ForwardResult}
    (h : s.Agrees) (here : s.execs[i]? = some exec)
    (silent : ∀ counter, exec.pc.answers counter = false)
    (good : ∀ response, outcome = .ok (.ok response) → ∀ counter : Counter,
      counter.covers response = decide (counter = .warmRequests)) :
    (s.afterExecute i exec outcome).Agrees := by
  match outcome with
  | .ok (.ok response) =>
      exact h.counted here silent (good response rfl) fun _ counter => by cases counter <;> rfl
  | .ok (.error .embeddingsUnsupported) | .ok (.error .upstreamUnreachable) =>
      exact h.put here rfl (fun _ => rfl) silent fun counter => by cases counter <;> rfl
  | .ok (.error (.upstreamError _ _)) | .ok (.error .cancelled) =>
      exact h.counted here silent (covers_toOpenai · (by simp)) fun _ counter => by
        cases counter <;> rfl
  | .error .queueFull | .error .queueTimeout =>
      exact h.counted here silent (covers_warmExecutionErrorResponse · _) fun _ counter => by
        cases counter <;> rfl

theorem counted_failed {i : Nat} {exec : Exec} {status : Lifecycle.BackendStatus}
    {error : Lifecycle.LifecycleError}
    (ok : Counted serde config s (.exec i (.decide (.failed status error))))
    (here : s.execs[i]? = some exec) : exec.pc ≠ .awaitRetryDecision := by
  intro hpc
  simp [Counted, uncounted, here, hpc] at ok

theorem counted_retried {i : Nat} {exec : Exec} {input : ForwardInput} {before : ForwardPc}
    {result : ForwardResult} (ok : Counted serde config s (.exec i (.forward input)))
    (here : s.execs[i]? = some exec) (pc : exec.pc = .retrying before)
    (forward : forwardStep serde (exec.request config) false before input = some (.done result)) :
    result = .error .embeddingsUnsupported := by
  match result with
  | .error .embeddingsUnsupported => rfl
  | .ok _ | .error .upstreamUnreachable | .error (.upstreamError _ _) | .error .cancelled =>
      simp [Counted, uncounted, here, pc, forward] at ok

theorem agrees_returned {i : Nat} {exec : Exec} {response : Response} (h : s.Agrees)
    (here : s.execs[i]? = some exec) (pc : exec.pc = .returning response) :
    ((s.emit (.responded i response)).dropColdPermit i exec
      (if response.streams then .relaying else .responded)).Agrees := by
  intro counter
  have balance := responses_put (t := s) { exec with
    holdsColdPermit := false
    pc := if response.streams then .relaying else .responded } counter here
  have silent : (if response.streams then ExecPc.relaying else .responded).answers counter =
      false := by
    split <;> rfl
  rw [pc, silent, Bool.toNat_false] at balance
  have sent : (s.emit (.responded i response)).sent counter =
      s.sent counter + (counter.covers response).toNat := by
    simp only [Orchestrator.sent, Orchestrator.emit, List.countP_cons, Event.answers]
    by_cases covers : counter.covers response = true <;> simp [covers]
  have agreed := h counter
  simp only [Orchestrator.responses, Orchestrator.dropColdPermit, Orchestrator.put, ExecPc.answers,
    Orchestrator.sent, Orchestrator.emit] at *
  omega

theorem agrees_step {a : Action} (hs : s.Agrees) (good : s.StagesHold GoodResult)
    (ok : Counted serde config s a) (h : (orchestrator serde config).step s a = some s') :
    s'.Agrees := by
  cases step_cases h with
  | elapse _ _ _ => exact hs
  | exec i input exec here _ rule =>
      have quiet : ∀ {pc : ExecPc}, exec.pc = pc → (∀ counter, pc.answers counter = false) →
          ∀ counter, exec.pc.answers counter = false := fun hpc silent => hpc ▸ silent
      cases rule with
      | enter _ _ pc | cold _ pc _ | notCold _ pc _ | admitted _ pc _ | callEnsure pc
      | callDegrade _ pc | callMark pc | relayed pc | dropped pc =>
          exact hs.silent here rfl (fun _ => rfl) (fun _ => rfl) (quiet pc fun _ => rfl)
            fun _ => rfl
      | refused pc _ =>
          exact hs.silent here rfl (fun _ => rfl) (fun _ => rfl) (quiet pc fun _ => rfl)
            covers_queueIsFull
      | decided decision pc =>
          have silent := quiet pc fun _ => rfl
          cases decision with
          | ready status =>
              exact hs.silent here rfl (fun _ => rfl) (fun _ => rfl) silent fun _ => rfl
          | warming _ retryAfterSecs =>
              exact hs.silent here rfl (fun _ => rfl) (fun counter => by cases counter <;> rfl)
                silent (covers_stillStarting · retryAfterSecs)
          | failed _ error =>
              exact hs.counted here silent (covers_backendError · error.message) fun _ counter => by
                cases counter <;> rfl
      | retryDecided decision pc =>
          have silent := quiet pc fun _ => rfl
          cases decision with
          | ready status =>
              exact hs.silent here rfl (fun _ => rfl) (fun _ => rfl) silent fun _ => rfl
          | warming _ retryAfterSecs =>
              exact hs.silent here rfl (fun _ => rfl) (fun _ => rfl) silent
                (covers_stillStarting · retryAfterSecs)
          | failed _ _ => exact absurd pc (counted_failed ok here)
      | degraded reason pc =>
          exact hs.silent here rfl (fun _ => rfl) (fun _ => rfl) (quiet pc fun _ => rfl)
            (covers_embeddingDegradationResponse · reason)
      | embeddingsDegraded status pc _ _ =>
          exact hs.silent here (Orchestrator.checkTunnelDrop_execs _ _)
            (fun counter => by simp [Orchestrator.sent]) (checkTunnelDrop_get _ _)
            (quiet pc fun _ => rfl) (covers_embeddingsAreDegraded · status.embeddingsReason)
      | handled status pc _ =>
          exact hs.silent here (Orchestrator.checkTunnelDrop_execs _ _)
            (fun counter => by simp [Orchestrator.sent]) (checkTunnelDrop_get _ _)
            (quiet pc fun _ => rfl) fun _ => rfl
      | execute t pc drive | unwoundScheduled t _ pc drive | unwoundCall t _ pc drive _ _ =>
          exact hs.silent here (Orchestrator.drive_frame drive).1 (drive_sent drive)
            (fun _ => by rw [drive_metrics drive]) (quiet pc fun _ => rfl) fun _ => rfl
      | scheduled _ _ _ drive _ _ | unwinding _ _ _ drive _ _ =>
          exact hs.congr (Orchestrator.drive_frame drive).1 (drive_sent drive) (drive_metrics drive)
      | executed t call outcome pc drive hcall returned =>
          have hexecs := (Orchestrator.drive_frame drive).1
          refine agrees_executed ?_ (hexecs.symm ▸ here) (quiet pc fun _ => rfl) ?_
          · exact hs.congr hexecs (drive_sent drive) (drive_metrics drive)
          · rintro response rfl
            exact covers_executed good here pc drive hcall returned
      | operate t input _ _ _ _ _ _ _ drive =>
          refine hs.congr ?_ (fun counter => ?_) ?_
          · rw [(Orchestrator.drive_frame drive).1, Orchestrator.noteDelivery_execs]
          · rw [drive_sent drive, noteDelivery_sent]
          · rw [drive_metrics drive, noteDelivery_metrics]
      | complete t _ _ _ _ _ _ _ _ drive =>
          refine hs.congr (Orchestrator.drive_frame drive).1 (fun counter => ?_) ?_
          · rw [drive_sent drive]
            rfl
          · rw [drive_metrics drive]
            rfl
      | retryPending input before after pc _ =>
          exact hs.silent here (Orchestrator.noteDelivery_execs _ _ _) (noteDelivery_sent _ _ _)
            (fun _ => by rw [noteDelivery_metrics]) (quiet pc fun _ => rfl) fun _ => rfl
      | retryDone input before result pc forward =>
          obtain rfl := counted_retried ok here pc forward
          exact hs.silent here rfl (fun _ => rfl) (fun _ => rfl) (quiet pc fun _ => rfl)
            covers_embeddingsUnsupported
      | returned response pc => exact agrees_returned hs here pc
      | unwoundAwaiting _ pc =>
          refine hs.silent here rfl (fun _ => rfl) (fun _ => rfl) (fun counter => ?_) fun _ => rfl
          cases hpc : exec.pc with
          | returning _ => simp [hpc, ExecPc.awaitsLifecycle, ExecPc.retries] at pc
          | _ => rfl

theorem uncounted_cases {a : Action} (h : uncounted serde config s a = true) :
    ∃ i exec, s.execs[i]? = some exec ∧
      ((exec.pc = .awaitRetryDecision ∧
          ∃ status error, a = .exec i (.decide (.failed status error))) ∨
        ∃ before input result, exec.pc = .retrying before ∧ a = .exec i (.forward input) ∧
          forwardStep serde (exec.request config) false before input = some (.done result) ∧
          result ≠ .error .embeddingsUnsupported) := by
  unfold uncounted at h
  split at h
  next i status error =>
    split at h
    next hpc =>
      obtain ⟨exec, here, pc⟩ := Option.map_eq_some_iff.mp hpc
      exact ⟨i, exec, here, .inl ⟨pc, status, error, rfl⟩⟩
    next => cases h
  next i input =>
    split at h
    next exec here =>
      split at h
      next before pc =>
        split at h
        next => cases h
        next result supported forward =>
          refine ⟨i, exec, here, .inr ⟨before, input, result, pc, rfl, forward, ?_⟩⟩
          rintro rfl
          exact supported rfl
        next => cases h
      next => cases h
    next => cases h
  next => cases h

theorem not_agrees_put {i : Nat} {exec : Exec} {t : Orchestrator} {response : Response}
    (h : s.Agrees) (here : s.execs[i]? = some exec) (execs : t.execs = s.execs) (counter : Counter)
    (sent : t.sent counter = s.sent counter) (metrics : t.metrics = s.metrics)
    (silent : exec.pc.answers counter = false) (covers : counter.covers response = true) :
    ¬ (t.put i (exec.goto (.returning response))).Agrees := by
  intro agrees
  have balance := responses_put (exec.goto (.returning response)) counter (execs ▸ here)
  have same : t.responses counter = s.responses counter := by
    simp only [Orchestrator.responses, sent, execs]
  have after : (exec.goto (.returning response)).pc.answers counter = true := covers
  have before := h counter
  have agreed : t.metrics.get counter = _ := agrees counter
  rw [silent, after, same, Bool.toNat_false, Bool.toNat_true] at balance
  rw [metrics] at agreed
  omega

theorem uncounted_step {a : Action} (hs : s.Agrees) (bad : uncounted serde config s a = true)
    (h : (orchestrator serde config).step s a = some s') : ¬ s'.Agrees := by
  obtain ⟨i, exec, here, hcase⟩ := uncounted_cases bad
  obtain ⟨pc, status, error, rfl⟩ | ⟨before, input, result, pc, rfl, forward, supported⟩ := hcase
  · obtain ⟨other, hother, hexec⟩ := Option.bind_eq_some_iff.mp h
    obtain rfl : exec = other := Option.some.inj (here.symm.trans hother)
    simp only [Orchestrator.execStep, pc, Orchestrator.afterRetryDecision] at hexec
    cases hexec
    exact not_agrees_put hs here rfl .wakeFailures rfl rfl (by rw [pc]; rfl)
      (by simp [covers_backendError])
  · obtain ⟨other, hother, hexec⟩ := Option.bind_eq_some_iff.mp h
    obtain rfl : exec = other := Option.some.inj (here.symm.trans hother)
    simp only [Orchestrator.execStep, pc, Orchestrator.forwardRetry, forward,
      Option.map_some, Option.some.injEq] at hexec
    subst hexec
    cases result with
    | ok response =>
        exact not_agrees_put hs here rfl .warmRequests rfl rfl (by rw [pc]; rfl)
          (by simp [unwrapOrOpenai, covers_of_forwardStep _ forward])
    | error error =>
        have unlike : error ≠ .embeddingsUnsupported := fun h => supported (h ▸ rfl)
        exact not_agrees_put hs here rfl .forwardingErrors rfl rfl (by rw [pc]; rfl)
          (by simp [unwrapOrOpenai, covers_toOpenai _ unlike])

theorem agrees_new (execs instant : Nat) : (Orchestrator.new config execs instant).Agrees := by
  intro counter
  have none : (List.replicate execs { kind := .chat, stream := false, holdsColdPermit := false
                                      pc := .idle : Exec }).countP
      (fun exec => exec.pc.answers counter) = 0 := by
    refine List.countP_eq_zero.mpr fun exec hexec => ?_
    obtain rfl := (List.mem_replicate.mp hexec).2
    simp [ExecPc.answers]
  simp only [Orchestrator.responses, Orchestrator.sent, Orchestrator.new, none, List.countP_nil]
  cases counter <;> rfl

/-- In a run that answers no call after an unreachable upstream with a failed backend or
the outcome of a second forward, every counter agrees with the responses, at every
moment; a step that does answer so leaves some counter behind. -/
theorem counters_agree (serde : SerdeJson ν) (config : AppConfig) (execs instant : Nat) :
    (∀ s, ((orchestrator serde config).restrict (Counted serde config)).Reachable
        (.new config execs instant) s → s.Agrees) ∧
    ∀ s a s', ((orchestrator serde config).restrict (Counted serde config)).Reachable
        (.new config execs instant) s →
      (orchestrator serde config).step s a = some s' → ¬ Counted serde config s a →
      ¬ s'.Agrees := by
  have agree : ∀ s, ((orchestrator serde config).restrict (Counted serde config)).Reachable
      (.new config execs instant) s → s.Agrees := by
    intro s h
    refine (h.invariant_restrict (I := fun s => s.Agrees ∧ s.StagesHold GoodResult)
      ⟨agrees_new execs instant, goodResult_new execs instant⟩ ?_).1
    intro t a t' ht ok hstep
    exact ⟨agrees_step ht.1 ht.2 ok hstep, goodResult_step ht.2 hstep⟩
  refine ⟨agree, ?_⟩
  intro s a s' hs hstep hbad
  refine uncounted_step (agree s hs) ?_ hstep
  simpa [Counted] using hbad

section Answered

/-- The upstream answers call `i`, which is returned. -/
def answerSchedule (i : Nat) : List Action :=
  [.exec i (.forward .deliver), .exec i (.forward (.answered 200)),
   .exec i (.forward (.body (some ['x']))), .exec i .run]

/-- A request is served warm, and counted. -/
theorem counters_agree_served :
    ∃ s, ((orchestrator SerdeJson.mute oneAtATime).restrict
        (Counted SerdeJson.mute oneAtATime)).Reachable (.new oneAtATime 1 0) s ∧
      s.responses .warmRequests = 1 ∧ s.metrics.get .warmRequests = 1 := by
  have served : ∃ s, ((orchestrator SerdeJson.mute oneAtATime).restrict
      (Counted SerdeJson.mute oneAtATime)).Reachable (.new oneAtATime 1 0) s ∧
        s.responses .warmRequests = 1 :=
    System.reachable_of_check (sendSchedule 0 true ++ streamSchedule 0) (by decide)
  obtain ⟨s, hs, hcount⟩ := served
  have agrees := (counters_agree SerdeJson.mute oneAtATime 1 0).1 s hs
  exact ⟨s, hs, hcount, (agrees .warmRequests).trans hcount⟩

/-- After an unreachable upstream a response of status 200 is sent, or an error, or
the failure of the backend is reported, and no counter tells. -/
theorem retried_answers_are_not_counted :
    (∃ s, (orchestrator SerdeJson.mute oneAtATime).Reachable (.new oneAtATime 1 0) s ∧
      s.sent .warmRequests = 1 ∧ s.metrics.warmRequests = 0) ∧
    (∃ s, (orchestrator SerdeJson.mute oneAtATime).Reachable (.new oneAtATime 1 0) s ∧
      s.sent .forwardingErrors = 1 ∧ s.metrics.forwardingErrors = 0) ∧
    ∃ s, (orchestrator SerdeJson.mute oneAtATime).Reachable (.new oneAtATime 1 0) s ∧
      s.sent .wakeFailures = 1 ∧ s.metrics.wakeFailures = 0 :=
  ⟨System.reachable_of_check
      (sendSchedule 0 false ++ retrySchedule 0 ++ answerSchedule 0) (by decide),
    System.reachable_of_check
      (sendSchedule 0 false ++ retrySchedule 0 ++
        [.exec 0 (.forward (.failed { isConnect := true, isTimeout := false, status := none,
                                      message := "" })), .exec 0 .run])
      (by decide),
    System.reachable_of_check
      (sendSchedule 0 false ++
        [.exec 0 (.forward (.failed { isConnect := false, isTimeout := true, status := none,
                                      message := "" })), .exec 0 .run, .exec 0 .call,
         .exec 0 (.decide (.failed servingStatus { message := "ssh unreachable" })), .exec 0 .run])
      (by decide)⟩

end Answered
end LlmWakeProxy.Orchestrate
