import LlmWakeProxy.Orchestrate.Course

/-!
The answers. A call learns that the cold-start queue is full, what became of its
backend, and what the scheduler made of its forward, in the order of its course. Its
answer is what these findings make it: the outcome of the last forward, the degradation
that follows it, or the reason why there was none. It is given once, and nothing comes
after it.
-/

namespace LlmWakeProxy.Orchestrate
open LlmWakeProxy.Library LlmWakeProxy.Scheduler LlmWakeProxy.Forward
open LlmWakeProxy.Lifecycle (LifecycleRequest LifecycleDecision LifecycleError BackendStatus)

universe u
variable {ν : Type u} {serde : SerdeJson ν} {config : AppConfig}
variable {s s' : Orchestrator} {i : Nat} {stage after : Stage} {story news : List Event}

/-- What a call finds out. -/
inductive Finding where
  | coldQueueFull
  | decision (decision : LifecycleDecision)
  | outcome (outcome : Except WarmExecutionError ForwardResult)

variable {kind : LifecycleRequest} {found : List Finding}

def findings (s s' : Orchestrator) (i : Nat) (exec : Exec) : Input → List Finding
  | .run =>
      match exec.pc with
      | .coldPermit => if s.coldStartSemaphore.tryAcquire.isNone then [.coldQueueFull] else []
      | .scheduled =>
          match s'.scheduler.calls[i]?.map Call.pc with
          | some (.returned outcome) => [.outcome outcome]
          | _ => []
      | _ => []
  | .decide decision => [.decision decision]
  | _ => []

/-- Takes note of what each call finds out, latest first. -/
def noteFindings (s : Orchestrator) (a : Action) (s' : Orchestrator)
    (found : Nat → List Finding) (j : Nat) : List Finding :=
  match a with
  | .exec i input =>
      match s.execs[i]? with
      | some exec => if j = i then findings s s' i exec input ++ found j else found j
      | none => found j
  | .elapse _ => found j

/-- The backend was found ready for a call of this kind, and can serve it. -/
def FoundReady (kind : LifecycleRequest) (found : List Finding) : Prop :=
  ∃ status, found = [.decision (.ready status)] ∧
    ¬ (kind = .embeddings ∧ status.embeddings = .degraded)

/-- The reason for which `forward_via_scheduler` degrades the embeddings. -/
def degradeReason : String := "upstream returned 404"

/-- The answers to a call of this kind, each with what the call found out and with what
happened to it, latest first. -/
inductive Reply (i : Nat) (kind : LifecycleRequest) :
    Response → List Finding → List Event → Prop
  | coldQueueFull : Reply i kind queueIsFull [.coldQueueFull] []
  | warming (status : BackendStatus) (retryAfterSecs : UInt64) :
      Reply i kind (stillStarting retryAfterSecs) [.decision (.warming status retryAfterSecs)] []
  | failed (status : BackendStatus) (error : LifecycleError) :
      Reply i kind (backendError error.message) [.decision (.failed status error)] []
  | knownDegraded (status : BackendStatus) (embeddings : kind = .embeddings)
      (isDegraded : status.embeddings = .degraded) :
      Reply i kind (embeddingsAreDegraded status.embeddingsReason) [.decision (.ready status)] []
  | overloaded {found : List Finding} (error : WarmExecutionError)
      (served : FoundReady kind found) :
      Reply i kind (warmExecutionErrorResponse error) (.outcome (.error error) :: found) []
  | answered {found : List Finding} (result : ForwardResult) (sent : List Event)
      (served : FoundReady kind found) (supported : result ≠ .error .embeddingsUnsupported)
      (reached : result ≠ .error .upstreamUnreachable) :
      Reply i kind (unwrapOrOpenai result) (.outcome (.ok result) :: found)
        (.forwarded i result :: sent)
  | degraded {found : List Finding} (sent : List Event) (served : FoundReady kind found) :
      Reply i kind (embeddingDegradationResponse degradeReason)
        (.outcome (.ok (.error .embeddingsUnsupported)) :: found)
        (.degraded i degradeReason :: .forwarded i (.error .embeddingsUnsupported) :: sent)
  | stillWarming {found : List Finding} (status : BackendStatus) (retryAfterSecs : UInt64)
      (sent : List Event) (served : FoundReady kind found) :
      Reply i kind (stillStarting retryAfterSecs)
        (.decision (.warming status retryAfterSecs) ::
          .outcome (.ok (.error .upstreamUnreachable)) :: found)
        (.forwarded i (.error .upstreamUnreachable) :: sent)
  | wakeFailed {found : List Finding} (status : BackendStatus) (error : LifecycleError)
      (sent : List Event) (served : FoundReady kind found) :
      Reply i kind (backendError error.message)
        (.decision (.failed status error) :: .outcome (.ok (.error .upstreamUnreachable)) :: found)
        (.forwarded i (.error .upstreamUnreachable) :: sent)
  | answeredAgain {found : List Finding} (status : BackendStatus) (result : ForwardResult)
      (again sent : List Event) (served : FoundReady kind found) :
      Reply i kind (unwrapOrOpenai result)
        (.decision (.ready status) :: .outcome (.ok (.error .upstreamUnreachable)) :: found)
        (.forwarded i result :: (again ++ .forwarded i (.error .upstreamUnreachable) :: sent))

/-- What a call that has come this far, and is not answered yet, has found out. -/
def Learnt (kind : LifecycleRequest) (found : List Finding) : ExecPc → Prop
  | .idle | .isCold | .coldPermit | .ensureBackend | .awaitDecision => found = []
  | .handleReady status => found = [.decision (.ready status)]
  | .execute | .scheduled => FoundReady kind found
  | .degrade reason | .awaitDegraded reason => reason = degradeReason ∧
      ∃ before, FoundReady kind before ∧
        found = .outcome (.ok (.error .embeddingsUnsupported)) :: before
  | .markWarming | .awaitRetryDecision =>
      ∃ before, FoundReady kind before ∧
        found = .outcome (.ok (.error .upstreamUnreachable)) :: before
  | .retrying _ => ∃ status before, FoundReady kind before ∧
      found = .decision (.ready status) :: .outcome (.ok (.error .upstreamUnreachable)) :: before
  | _ => True

/-! ### The answer that is made -/

/-- A call that has come to its response answers what it found out, and what happened
to it. -/
structure Concluded (i : Nat) (exec : Exec) (found : List Finding) (story : List Event) :
    Prop where
  learnt : Learnt exec.kind found exec.pc
  making : ∀ response, exec.pc = .returning response → Reply i exec.kind response found story

theorem Concluded.onward {exec : Exec} (learnt : Learnt exec.kind found exec.pc)
    (unmade : ∀ response, exec.pc ≠ .returning response) : Concluded i exec found story :=
  ⟨learnt, fun response made => absurd made (unmade response)⟩

theorem Concluded.made {exec : Exec} {response : Response} (pc : exec.pc = .returning response)
    (reply : Reply i exec.kind response found story) : Concluded i exec found story := by
  refine ⟨by rw [pc]; trivial, fun other made => ?_⟩
  cases pc.symm.trans made
  exact reply

theorem put_own {t : Orchestrator} {exec exec' made : Exec} (here : s.execs[i]? = some exec)
    (execs : t.execs = s.execs) (there : (t.put i made).execs[i]? = some exec') : exec' = made := by
  rw [Orchestrator.put_execs, execs] at there
  exact Option.some.inj (there.symm.trans (getElem?_set_of_some here made))

theorem kept_own {t : Orchestrator} {exec exec' : Exec} (here : s.execs[i]? = some exec)
    (execs : t.execs = s.execs) (there : t.execs[i]? = some exec') : exec = exec' := by
  rw [execs] at there
  exact Option.some.inj (here.symm.trans there)

@[simp] theorem story_put (i j : Nat) (made : Exec) : (s.put i made).story j = s.story j := rfl

theorem story_emit (event : Event) (made : Exec) (own : event.exec = i) :
    ((s.emit event).put i made).story i = event :: s.story i :=
  story_of_own (emit_log event) (List.forall_mem_singleton.mpr own)

theorem stage_of_returned {before : CallPc ForwardPc ForwardResult}
    {outcome : Except WarmExecutionError ForwardResult}
    (move : CallMove .begun before (.returned outcome)) :
    (∃ result, outcome = .ok result ∧ scheduledStage before = .firstDone result) ∨
      ∃ error, outcome = .error error ∧ scheduledStage before = .early := by
  generalize hafter : CallPc.returned outcome = after at move
  cases move with
  | waits early _ later =>
      subst hafter
      match outcome with
      | .ok _ => cases later
      | .error error => exact .inr ⟨error, rfl, scheduledStage_of_unstarted early⟩
  | returns result =>
      cases hafter
      exact .inl ⟨result, rfl, rfl⟩
  | ends panicked => cases panicked <;> cases hafter
  | leaves | starts | operates | finishes | unwinds => cases hafter

theorem concluded_executed {t : Orchestrator} {exec exec' : Exec}
    {outcome : Except WarmExecutionError ForwardResult} {before : CallPc ForwardPc ForwardResult}
    (move : CallMove .begun before (.returned outcome))
    (told : OnCourse i (scheduledStage before) story) (served : FoundReady exec.kind found)
    (here : t.execs[i]? = some exec)
    (there : (t.afterExecute i exec outcome).execs[i]? = some exec') :
    Concluded i exec' (.outcome outcome :: found) story := by
  obtain ⟨result, rfl, hstage⟩ | ⟨error, rfl, hstage⟩ := stage_of_returned move
  · rw [hstage] at told
    cases told with
    | firstDone _ attempt =>
        match result with
        | .ok response =>
            obtain rfl := put_own here rfl there
            exact .made rfl (.answered (.ok response) _ served (by simp) (by simp))
        | .error (.upstreamError status message) =>
            obtain rfl := put_own here rfl there
            exact .made rfl
              (.answered (.error (.upstreamError status message)) _ served (by simp) (by simp))
        | .error .cancelled =>
            obtain rfl := put_own here rfl there
            exact .made rfl (.answered (.error .cancelled) _ served (by simp) (by simp))
        | .error .embeddingsUnsupported =>
            obtain rfl := put_own here rfl there
            exact .onward ⟨rfl, found, served, rfl⟩ (by simp)
        | .error .upstreamUnreachable =>
            obtain rfl := put_own here rfl there
            exact .onward ⟨found, served, rfl⟩ (by simp)
  · rw [hstage] at told
    cases told
    cases error with
    | queueFull | queueTimeout =>
        obtain rfl := put_own here rfl there
        exact .made rfl (.overloaded _ served)

/-- What is made of the first decision. -/
theorem concluded_decided {exec exec' : Exec} {decision : LifecycleDecision}
    (here : s.execs[i]? = some exec) (fresh : s.story i = [])
    (there : (s.afterDecision i exec decision).execs[i]? = some exec') :
    Concluded i exec' [.decision decision] ((s.afterDecision i exec decision).story i) := by
  have same : (s.afterDecision i exec decision).story i = s.story i := by
    obtain ⟨inc, pc', heq, _⟩ := s.afterDecision_eq i exec decision
    rw [heq]
    rfl
  rw [same, fresh]
  cases decision with
  | ready status =>
      obtain rfl := put_own here rfl there
      exact .onward rfl (by simp)
  | warming status retryAfterSecs =>
      obtain rfl := put_own here rfl there
      exact .made rfl (.warming status retryAfterSecs)
  | failed status error =>
      obtain rfl := put_own here rfl there
      exact .made rfl (.failed status error)

/-- What is made of the decision that follows an unreachable upstream. -/
theorem concluded_retryDecided {exec exec' : Exec} {decision : LifecycleDecision}
    {before : List Finding} {sent : List Event} (served : FoundReady exec.kind before)
    (here : s.execs[i]? = some exec)
    (lost : s.story i = .forwarded i (.error .upstreamUnreachable) :: sent)
    (there : (s.afterRetryDecision i exec decision).execs[i]? = some exec') :
    Concluded i exec'
      (.decision decision :: .outcome (.ok (.error .upstreamUnreachable)) :: before)
      ((s.afterRetryDecision i exec decision).story i) := by
  have same : (s.afterRetryDecision i exec decision).story i = s.story i := by
    obtain ⟨pc', heq, _⟩ := s.afterRetryDecision_eq i exec decision
    rw [heq]
    rfl
  rw [same, lost]
  cases decision with
  | ready status =>
      obtain rfl := put_own here rfl there
      exact .onward ⟨status, before, served, rfl⟩ (by simp)
  | warming status retryAfterSecs =>
      obtain rfl := put_own here rfl there
      exact .made rfl (.stillWarming status retryAfterSecs sent served)
  | failed status error =>
      obtain rfl := put_own here rfl there
      exact .made rfl (.wakeFailed status error sent served)

theorem findings_scheduled {exec : Exec} {call : Call ForwardPc ForwardResult}
    (pc : exec.pc = .scheduled) (here : s'.scheduler.calls[i]? = some call)
    (pending : ∀ outcome, call.pc ≠ .returned outcome) : findings s s' i exec .run = [] := by
  simp only [findings, pc, here, Option.map_some]
  split
  next outcome heq => exact absurd (Option.some.inj heq) (pending outcome)
  next => rfl

theorem findings_executed {t : Orchestrator} {exec : Exec} {call : Call ForwardPc ForwardResult}
    {outcome : Except WarmExecutionError ForwardResult} (pc : exec.pc = .scheduled)
    (here : t.scheduler.calls[i]? = some call) (returned : call.pc = .returned outcome) :
    findings s (t.afterExecute i exec outcome) i exec .run = [.outcome outcome] := by
  obtain ⟨inc, pc', heq, _⟩ := t.afterExecute_eq i exec outcome
  rw [heq]
  simp [findings, pc, Orchestrator.count, here, returned]

theorem ExecRule.concluded {exec exec' : Exec} {input : Input}
    (rule : ExecRule serde config s i exec input s') (here : s.execs[i]? = some exec)
    (told : OnCourse i (s.stage i exec) (s.story i)) (learnt : Learnt exec.kind found exec.pc)
    (there : s'.execs[i]? = some exec') :
    Concluded i exec' (findings s s' i exec input ++ found) (s'.story i) := by
  have kept : ∀ {t : Orchestrator}, t.log = s.log → t.story i = s.story i :=
    fun log => by rw [Orchestrator.story, log]; rfl
  rw [Orchestrator.stage] at told
  cases rule with
  | enter _ _ pc | cold _ pc _ | notCold _ pc _ | callEnsure pc | callDegrade _ pc | callMark pc =>
      obtain rfl := put_own here rfl there
      rw [pc] at learnt
      exact .onward learnt (by simp)
  | relayed _ | unwoundAwaiting _ _ =>
      obtain rfl := put_own here rfl there
      exact .onward trivial (by simp)
  | admitted semaphore pc free =>
      obtain rfl := put_own here rfl there
      rw [pc] at learnt
      simp only [findings, pc, free, Option.isNone_some, Bool.false_eq_true, if_false,
        List.nil_append]
      exact .onward learnt (by simp)
  | refused pc exhausted =>
      obtain rfl := put_own here rfl there
      rw [pc] at told learnt
      cases learnt
      rw [story_put, told.story_eq_nil]
      simp only [findings, pc, exhausted, Option.isNone_none, if_true]
      exact .made rfl .coldQueueFull
  | decided decision pc =>
      rw [pc] at told learnt
      cases learnt
      exact concluded_decided here told.story_eq_nil there
  | retryDecided decision pc =>
      rw [pc] at told learnt
      obtain ⟨before, served, rfl⟩ := learnt
      obtain ⟨sent, heq⟩ := told.unreachable_story
      exact concluded_retryDecided served here heq there
  | degraded reason pc =>
      obtain rfl := put_own here rfl there
      rw [pc] at told learnt
      obtain ⟨rfl, before, served, rfl⟩ := learnt
      obtain ⟨sent, heq⟩ := told.degrading_story
      refine .made rfl ?_
      rw [story_emit (i := i) (.degraded i degradeReason) _ rfl, heq]
      exact .degraded sent served
  | embeddingsDegraded status pc kind isDegraded =>
      obtain rfl := put_own here (Orchestrator.checkTunnelDrop_execs _ _) there
      rw [pc] at told learnt
      cases learnt
      rw [story_put, kept (checkTunnelDrop_log _ _), told.story_eq_nil]
      simp only [findings, pc, List.nil_append]
      exact .made rfl (.knownDegraded status kind isDegraded)
  | handled status pc able =>
      obtain rfl := put_own here (Orchestrator.checkTunnelDrop_execs _ _) there
      rw [pc] at learnt
      simp only [findings, pc, List.nil_append]
      exact .onward ⟨status, learnt, able⟩ (by simp)
  | execute _ pc drive =>
      obtain rfl := put_own here (Orchestrator.drive_frame drive).1 there
      rw [pc] at learnt
      simp only [findings, pc, List.nil_append]
      exact .onward learnt (by simp)
  | unwoundScheduled _ _ _ drive =>
      obtain rfl := put_own here (Orchestrator.drive_frame drive).1 there
      exact .onward trivial (by simp)
  | unwoundCall _ _ pc drive _ _ =>
      obtain rfl := put_own here (Orchestrator.drive_frame drive).1 there
      exact .onward trivial (by simp)
  | unwinding _ _ pc drive _ _ =>
      obtain rfl := kept_own here (Orchestrator.drive_frame drive).1 there
      exact .onward (by rw [pc]; trivial) (by simp [pc])
  | scheduled t call pc drive hcall pending =>
      obtain rfl := kept_own here (Orchestrator.drive_frame drive).1 there
      rw [findings_scheduled pc hcall pending]
      exact .onward learnt (by simp [pc])
  | executed t call outcome pc drive hcall returned =>
      obtain ⟨before, hbefore, ⟨⟨_, hafter, move⟩, _, _⟩, _, execs, log⟩ := drive_callStep drive
      obtain rfl := Option.some.inj (hcall.symm.trans hafter)
      rw [returned] at move
      rw [pc] at learnt
      rw [pc, hbefore] at told
      obtain ⟨inc, pc', hs', _⟩ := t.afterExecute_eq i exec outcome
      have story : (t.afterExecute i exec outcome).story i = s.story i :=
        kept (by rw [hs']; exact log)
      rw [findings_executed pc hcall returned, story]
      exact concluded_executed move told learnt (by rw [execs]; exact here) there
  | operate _ _ _ _ _ pc _ _ _ drive =>
      obtain rfl := kept_own (t := s') here (Orchestrator.drive_frame drive).1 there
      exact .onward learnt (by simp [pc])
  | complete _ _ _ _ _ pc _ _ _ drive =>
      obtain rfl := kept_own here (Orchestrator.drive_frame drive).1 there
      exact .onward learnt (by simp [pc])
  | retryPending _ _ _ pc _ =>
      obtain rfl := put_own here (Orchestrator.noteDelivery_execs _ _ _) there
      rw [pc] at learnt
      exact .onward learnt (by simp)
  | retryDone _ before result pc _ =>
      obtain rfl := put_own here rfl there
      rw [pc] at told learnt
      obtain ⟨status, earlier, served, rfl⟩ := learnt
      obtain ⟨again, sent, heq⟩ := told.second_story
      refine .made rfl ?_
      rw [story_emit (i := i) (.forwarded i result) _ rfl, heq]
      exact .answeredAgain status result again sent served
  | returned answer _ =>
      obtain rfl := put_own (t := s.emit (.responded i answer)) here rfl there
      cases hstreams : answer.streams with
      | true | false => exact .onward (by simp [Learnt]) (by simp)
  | dropped _ =>
      obtain rfl := put_own here rfl there
      exact .onward trivial (by simp)

/-! ### Where the answer is given -/

def ExecPc.answered : ExecPc → Bool
  | .relaying | .responded => true
  | _ => false

/-- A call is answered where its response is sent, and nowhere else. -/
theorem ExecRule.answers {exec exec' : Exec} {input : Input}
    (rule : ExecRule serde config s i exec input s') (here : s.execs[i]? = some exec)
    (there : s'.execs[i]? = some exec') :
    (∃ response, exec.pc = .returning response ∧ s'.log = [.responded i response] ++ s.log ∧
      exec'.pc.answered = true) ∨
    (∀ response, exec.pc ≠ .returning response) ∧ exec'.pc.answered = exec.pc.answered := by
  have apart : ∀ {pc : ExecPc}, exec.pc = pc → pc.answered = false →
      (∀ response, pc ≠ .returning response) → exec'.pc.answered = false →
      (∀ response, exec.pc ≠ .returning response) ∧ exec'.pc.answered = exec.pc.answered := by
    intro pc hpc unanswered other after
    rw [hpc, after, unanswered]
    exact ⟨other, rfl⟩
  cases rule with
  | returned response pc =>
      obtain rfl := put_own (t := s.emit (.responded i response)) here rfl there
      refine .inl ⟨response, pc, rfl, ?_⟩
      cases hstreams : response.streams <;> simp [ExecPc.answered]
  | relayed pc =>
      obtain rfl := put_own here rfl there
      rw [pc]
      exact .inr ⟨by simp, rfl⟩
  | enter _ _ pc | cold _ pc _ | notCold _ pc _ | admitted _ pc _ | refused pc _ | callEnsure pc
  | callDegrade _ pc | callMark pc | degraded _ pc | retryDone _ _ _ pc _ | dropped pc =>
      obtain rfl := put_own here rfl there
      exact .inr (apart pc rfl (by simp) rfl)
  | embeddingsDegraded _ pc _ _ | handled _ pc _ =>
      obtain rfl := put_own here (Orchestrator.checkTunnelDrop_execs _ _) there
      exact .inr (apart pc rfl (by simp) rfl)
  | decided decision pc =>
      obtain ⟨inc, pc', hs', hpc'⟩ := s.afterDecision_eq i exec decision
      rw [hs'] at there
      obtain rfl := put_own here rfl there
      refine .inr (apart pc rfl (by simp) ?_)
      obtain ⟨_, _, rfl⟩ | ⟨_, rfl, _⟩ := hpc' <;> rfl
  | retryDecided decision pc =>
      obtain ⟨pc', hs', hpc'⟩ := s.afterRetryDecision_eq i exec decision
      rw [hs'] at there
      obtain rfl := put_own here rfl there
      refine .inr (apart pc rfl (by simp) ?_)
      obtain ⟨_, _, rfl⟩ | ⟨_, rfl, _⟩ := hpc' <;> rfl
  | executed t _ outcome pc drive _ _ =>
      obtain ⟨inc, pc', hs', hpc'⟩ := t.afterExecute_eq i exec outcome
      rw [hs'] at there
      obtain rfl := put_own here (Orchestrator.drive_frame drive).1 there
      refine .inr (apart pc rfl (by simp) ?_)
      obtain ⟨_, rfl⟩ | rfl | ⟨_, rfl, _⟩ := hpc' <;> rfl
  | retryPending _ _ _ pc _ =>
      obtain rfl := put_own here (Orchestrator.noteDelivery_execs _ _ _) there
      exact .inr (apart pc rfl (by simp) rfl)
  | execute _ pc drive | unwoundScheduled _ _ pc drive | unwoundCall _ _ pc drive _ _ =>
      obtain rfl := put_own here (Orchestrator.drive_frame drive).1 there
      exact .inr (apart pc rfl (by simp) rfl)
  | unwoundAwaiting _ pc =>
      obtain rfl := put_own here rfl there
      cases hpc : exec.pc with
      | awaitDecision | awaitDegraded _ | awaitRetryDecision | retrying _ =>
          exact .inr ⟨by simp, rfl⟩
      | _ => simp [hpc, ExecPc.awaitsLifecycle, ExecPc.retries] at pc
  | scheduled _ _ pc drive _ _ | unwinding _ _ pc drive _ _ =>
      obtain rfl := kept_own here (Orchestrator.drive_frame drive).1 there
      rw [pc]
      exact .inr ⟨by simp, rfl⟩
  | operate _ _ _ _ _ pc _ _ _ drive =>
      obtain rfl := kept_own (t := s') here (Orchestrator.drive_frame drive).1 there
      rw [pc]
      exact .inr ⟨by simp, rfl⟩
  | complete _ _ _ _ _ pc _ _ _ drive =>
      obtain rfl := kept_own here (Orchestrator.drive_frame drive).1 there
      rw [pc]
      exact .inr ⟨by simp, rfl⟩

theorem returning_of_stage {exec : Exec} {response : Response}
    (h : s.stage i exec = .replying response) : exec.pc = .returning response := by
  rw [Orchestrator.stage] at h
  cases hpc : exec.pc with
  | returning other =>
      rw [hpc] at h
      cases h
      rfl
  | scheduled =>
      rw [hpc] at h
      cases hcall : s.scheduler.calls[i]? with
      | none => simp [stageOf, hcall] at h
      | some call =>
          rw [hcall] at h
          simp only [stageOf, Option.map_some, Option.getD_some] at h
          cases hcallPc : call.pc with
          | returned result =>
              cases result with
              | ok _ | error _ => simp [hcallPc, scheduledStage] at h
          | _ => simp [hcallPc, scheduledStage] at h
  | _ =>
      rw [hpc] at h
      cases h

theorem StageRule.stage_of_responded {request : ForwardRequest} {input : Input}
    {response : Response} (rule : StageRule serde request i stage input news after)
    (told : .responded i response ∈ news) : stage = .replying response := by
  cases rule with
  | responded _ =>
      cases List.mem_singleton.mp told
      rfl
  | firstPending _ _ _ _ _ | secondPending _ _ _ _ =>
      obtain heq | heq := mem_deliveryOf told <;> cases heq
  | stays _ _ | leaves _ _ | rejected _ _ | begins | unsupported _ | unreachable
  | answered _ _ _ _ | retries _ | givesUp _ _ => cases told
  | firstDone _ _ _ _ _ | degraded _ _ | secondDone _ _ _ _ => simp at told

theorem StageRule.news_of_over {request : ForwardRequest} {input : Input}
    (rule : StageRule serde request i .over input news after) : news = [] := by
  cases rule with
  | stays _ _ | leaves _ _ => rfl

/-! ### In every run -/

/-- What happened to a call, what it found out and where it stands agree. -/
structure Replied (i : Nat) (exec : Exec) (found : List Finding) (stage : Stage)
    (story : List Event) : Prop where
  told : OnCourse i stage story
  concluded : Concluded i exec found story
  given : ∀ response course, story = .responded i response :: course →
    Reply i exec.kind response found course ∧ exec.pc.answered = true
  answered : exec.pc.answered = true → ∃ response course, story = .responded i response :: course

def Orchestrator.Replied (s : Orchestrator) (found : Nat → List Finding) : Prop :=
  ∀ i exec, s.execs[i]? = some exec →
    Orchestrate.Replied i exec (found i) (s.stage i exec) (s.story i)

theorem ExecRule.findings_of_answered {exec exec' : Exec} {input : Input}
    (rule : ExecRule serde config s i exec input s') (here : s.execs[i]? = some exec)
    (there : s'.execs[i]? = some exec')
    (answered : exec.pc.answered = true ∨ ∃ response, exec.pc = .returning response) :
    findings s s' i exec input = [] ∧ exec'.kind = exec.kind := by
  have late : ∀ {pc : ExecPc}, exec.pc = pc → pc.answered = false →
      (∀ response, pc ≠ .returning response) → False := by
    intro pc hpc early other
    obtain answered | ⟨response, hreturning⟩ := answered
    · rw [hpc, early] at answered
      cases answered
    · exact other response (hpc.symm.trans hreturning)
  cases rule with
  | returned response pc =>
      obtain rfl := put_own (t := s.emit (.responded i response)) here rfl there
      exact ⟨by simp [findings, pc], rfl⟩
  | relayed pc =>
      obtain rfl := put_own here rfl there
      exact ⟨rfl, rfl⟩
  | enter _ _ pc | cold _ pc _ | notCold _ pc _ | admitted _ pc _ | refused pc _ | callEnsure pc
  | callDegrade _ pc | callMark pc | degraded _ pc | retryDone _ _ _ pc _ | dropped pc
  | embeddingsDegraded _ pc _ _ | handled _ pc _ | decided _ pc | retryDecided _ pc
  | executed _ _ _ pc _ _ _ | retryPending _ _ _ pc _ | execute _ pc _
  | unwoundScheduled _ _ pc _ | unwoundCall _ _ pc _ _ _ | scheduled _ _ pc _ _ _
  | unwinding _ _ pc _ _ _ | operate _ _ _ _ _ pc _ _ _ _ | complete _ _ _ _ _ pc _ _ _ _ =>
      exact (late pc rfl (by simp)).elim
  | unwoundAwaiting _ pc =>
      refine (late rfl ?_ ?_).elim
      · cases hpc : exec.pc <;> simp_all [ExecPc.awaitsLifecycle, ExecPc.retries, ExecPc.answered]
      · rintro response hpc
        simp [hpc, ExecPc.awaitsLifecycle, ExecPc.retries] at pc

theorem replied_own {exec exec' : Exec} {input : Input}
    (h : Replied i exec found (s.stage i exec) (s.story i))
    (rule : ExecRule serde config s i exec input s') (here : s.execs[i]? = some exec)
    (there : s'.execs[i]? = some exec') :
    Replied i exec' (findings s s' i exec input ++ found) (s'.stage i exec') (s'.story i) := by
  obtain ⟨⟨other, news, hother, log, own, moved⟩, _⟩ := rule.stageStep here
  obtain rfl : exec' = other := Option.some.inj (there.symm.trans hother)
  have hstory := story_of_own log own
  have told : OnCourse i (s'.stage i exec') (s'.story i) := by
    rw [hstory]
    exact h.told.step moved
  refine ⟨told, rule.concluded here h.told h.concluded.learnt there, ?_, ?_⟩
  · intro response course heq
    obtain ⟨answer, before, log', after⟩ | ⟨apart, same⟩ := rule.answers here there
    · rw [story_of_own (i := i) log' (List.forall_mem_singleton.mpr rfl)] at heq
      cases heq
      obtain ⟨nothing, kind⟩ := rule.findings_of_answered here there (.inr ⟨response, before⟩)
      rw [nothing, kind]
      exact ⟨h.concluded.making response before, after⟩
    · rw [hstory] at heq
      cases news with
      | nil =>
          obtain ⟨reply, answered⟩ := h.given response course heq
          obtain ⟨nothing, kind⟩ := rule.findings_of_answered here there (.inl answered)
          rw [nothing, kind, same]
          exact ⟨reply, answered⟩
      | cons event rest =>
          obtain ⟨rfl, _⟩ := List.cons.inj heq
          exact absurd (returning_of_stage (moved.stage_of_responded List.mem_cons_self))
            (apart response)
  · intro after
    obtain ⟨answer, before, log', _⟩ | ⟨apart, same⟩ := rule.answers here there
    · exact ⟨answer, s.story i, story_of_own (i := i) log' (List.forall_mem_singleton.mpr rfl)⟩
    · rw [same] at after
      have gone : s.stage i exec = .over := by
        rw [Orchestrator.stage]
        cases hpc : exec.pc with
        | relaying | responded => rfl
        | _ => simp [hpc, ExecPc.answered] at after
      rw [gone] at moved
      rw [hstory, moved.news_of_over]
      exact h.answered after

theorem replied_reachable {execs instant : Nat} {t : Orchestrator × (Nat → List Finding)}
    (h : ((orchestrator serde config).monitor noteFindings).Reachable
      (.new config execs instant, fun _ => []) t) : t.1.Replied t.2 := by
  refine h.invariant (I := fun t => t.1.Replied t.2) ?_ ?_
  · intro i exec here
    obtain rfl := (List.mem_replicate.mp (List.mem_of_getElem? here)).2
    refine ⟨.early, .onward rfl (by simp), ?_, ?_⟩
    · intro response course heq
      cases heq
    · intro answered
      cases answered
  · rintro ⟨s, found⟩ a ⟨s', found'⟩ hs h
    obtain ⟨hstep, hnote⟩ := System.monitor_step_iff.mp h
    dsimp only at hs hstep hnote ⊢
    subst hnote
    cases step_cases hstep with
    | elapse span scheduler drive =>
        intro i exec here
        have hcalls : scheduler.calls = s.scheduler.calls := by
          cases drive
          rfl
        have hstage : Orchestrator.stage { s with scheduler := scheduler } i exec =
            s.stage i exec := by
          simp only [Orchestrator.stage, hcalls]
        rw [hstage]
        exact hs i exec here
    | exec i input exec here _ rule =>
        intro j other hother
        by_cases hj : j = i
        · subst hj
          simp only [noteFindings, here, if_true]
          exact replied_own (hs j exec here) rule here hother
        · obtain ⟨⟨_, _, _, log, own, _⟩, rest⟩ := rule.stageStep here
          obtain ⟨hexecs, kept⟩ := rest j hj
          simp only [noteFindings, here, hj, if_false]
          rw [stage_of_kept kept, story_of_other log own hj]
          exact hs j other (hexecs.symm.trans hother)

end LlmWakeProxy.Orchestrate
