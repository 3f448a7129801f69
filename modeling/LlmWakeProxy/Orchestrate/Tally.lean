import LlmWakeProxy.Library.Population
import LlmWakeProxy.Orchestrate.Answers
import LlmWakeProxy.Orchestrate.Outcomes

/-!
The outcome counters together. A call comes to its outcome when its backend turns out not
to be ready, or when the scheduler returns. There it is counted, and it never goes back
to where it had none: so no call is counted twice, under one name or under two, and none
is counted that was dropped before. And an answer that is sent was counted before, unless
the cold-start queue was full or the embeddings were known to be degraded.
-/

namespace LlmWakeProxy.Orchestrate
open LlmWakeProxy.Library LlmWakeProxy.Scheduler LlmWakeProxy.Forward

universe u
variable {ν : Type u} {serde : SerdeJson ν} {config : AppConfig}
variable {o o' : Orchestrator} {i : Nat} {exec : Exec} {input : Input}

def Metrics.outcomes (metrics : Metrics) : Nat :=
  metrics.coldStarts + metrics.wakeFailures + metrics.warmRequests + metrics.queueFullRejections +
    metrics.queueTimeouts + metrics.embeddingsDegraded + metrics.forwardingErrors

def ExecPc.undecided : ExecPc → Bool
  | .idle | .isCold | .coldPermit | .ensureBackend | .awaitDecision | .handleReady _ | .execute
  | .scheduled => true
  | _ => false

/-- The finding is an outcome, as the first of its call. -/
def Finding.isOutcome : Finding → Bool
  | .decision (.warming _ _) | .decision (.failed _ _) | .outcome _ => true
  | .decision (.ready _) | .coldQueueFull => false

/-- What each call has found out, and the call of each increment of an outcome counter,
latest first. -/
structure Tally where
  found : Nat → List Finding
  counted : List Nat

def Tally.none : Tally where
  found _ := []
  counted := []

/-- The increments that the step makes, of whichever counters. -/
def countedIn (o : Orchestrator) (a : Action) (o' : Orchestrator) : List Nat :=
  match a with
  | .exec i _ => List.replicate (o'.metrics.outcomes - o.metrics.outcomes) i
  | .elapse _ => []

def noteTally (o : Orchestrator) (a : Action) (o' : Orchestrator) (tally : Tally) : Tally where
  found := noteFindings o a o' tally.found
  counted := countedIn o a o' ++ tally.counted

def Tally.decided (tally : Tally) (i : Nat) : Bool :=
  (tally.found i).any Finding.isOutcome

def Tally.decidedCalls (tally : Tally) (execs : Nat) : Nat :=
  (List.range execs).countP tally.decided

/-- No counter stands for the answer: the cold-start queue was full, or there are no
embeddings. -/
def Response.uncounted (response : Response) : Bool :=
  response = queueIsFull || Response.hasCode response ["unsupported_embeddings"]

/-- An answer that was counted. Those that follow a degradation are told by it. -/
def Event.counted : Event → Bool
  | .degraded _ _ => true
  | .responded _ response => !Response.uncounted response
  | _ => false

/-- The call was counted, and its answer is to come. -/
def ExecPc.owes : ExecPc → Bool
  | .degrade _ | .awaitDegraded _ | .markWarming | .awaitRetryDecision | .retrying _ => true
  | .returning response => !Response.uncounted response
  | _ => false

theorem owes_queueIsFull : (ExecPc.returning queueIsFull).owes = false := by
  simp [ExecPc.owes, Response.uncounted]

theorem owes_unsupported (message : String) :
    (ExecPc.returning (openaiError 400 "unsupported_embeddings" message none)).owes = false := by
  simp [ExecPc.owes, Response.uncounted, Response.hasCode, openaiError]

/-- The answers that were counted: those given, and those to come. -/
def Orchestrator.countedAnswers (o : Orchestrator) : Nat :=
  o.log.countP Event.counted + o.execs.countP fun exec => exec.pc.owes

/-- A step counts its call when the call comes to its outcome, and only then, and gives no
answer that was not counted. -/
inductive TallyStep (o o' : Orchestrator) (i : Nat) (exec : Exec) (input : Input) : Prop
  | silent (exec' : Exec) (news : List Event) (execs : o'.execs = o.execs.set i exec')
      (outcomes : o'.metrics.outcomes = o.metrics.outcomes) (log : o'.log = news ++ o.log)
      (own : ∀ event ∈ news, event.exec = i)
      (onward : exec.pc.undecided = false → exec'.pc.undecided = false)
      (answers : news.countP Event.counted + exec'.pc.owes.toNat ≤ exec.pc.owes.toNat)
      (quiet : (findings o o' i exec input).any Finding.isOutcome = true → exec.pc.owes = true)
  | counts (exec' : Exec) (execs : o'.execs = o.execs.set i exec')
      (outcomes : o'.metrics.outcomes = o.metrics.outcomes + 1) (log : o'.log = o.log)
      (before : exec.pc.undecided = true) (after : exec'.pc.undecided = false)
      (decides : (findings o o' i exec input).any Finding.isOutcome = true)

theorem checkTunnelDrop_outcomes (kind : Lifecycle.LifecycleRequest)
    (tunnel : Lifecycle.TunnelState) :
    (o.checkTunnelDrop kind tunnel).metrics.outcomes = o.metrics.outcomes := by
  cases kind <;> (simp only [Orchestrator.checkTunnelDrop]; split <;> rfl)

theorem countP_deliveryOf (i : Nat) (pc : ForwardPc) (input : ForwardInput) :
    (deliveryOf i pc input).countP Event.counted = 0 := by
  unfold deliveryOf
  split <;> rfl

theorem TallyStep.put {t : Orchestrator} (exec' : Exec) (news : List Event)
    (execs : t.execs = o.execs) (metrics : t.metrics = o.metrics) (log : t.log = news ++ o.log)
    (own : ∀ event ∈ news, event.exec = i) (told : news.countP Event.counted = 0)
    (onward : exec.pc.undecided = false → exec'.pc.undecided = false)
    (owes : exec'.pc.owes = true → exec.pc.owes = true)
    (quiet : (findings o (t.put i exec') i exec input).any Finding.isOutcome = true →
      exec.pc.owes = true) : TallyStep o (t.put i exec') i exec input := by
  refine .silent exec' news (by rw [Orchestrator.put_execs, execs])
    (congrArg Metrics.outcomes metrics) log own onward ?_ quiet
  rw [told, Nat.zero_add]
  exact Bool.toNat_le_toNat owes

theorem TallyStep.same (here : o.execs[i]? = some exec) (news : List Event)
    (execs : o'.execs = o.execs) (metrics : o'.metrics = o.metrics) (log : o'.log = news ++ o.log)
    (own : ∀ event ∈ news, event.exec = i) (told : news.countP Event.counted = 0)
    (quiet : findings o o' i exec input = []) : TallyStep o o' i exec input := by
  refine .silent exec news (by rw [execs, set_of_some here]) (congrArg Metrics.outcomes metrics) log
    own id (by rw [told, Nat.zero_add]) ?_
  rw [quiet]
  exact fun outcome => absurd outcome Bool.false_ne_true

/-- A step that records nothing. -/
theorem TallyStep.goto {t : Orchestrator} (exec' : Exec) (execs : t.execs = o.execs)
    (metrics : t.metrics = o.metrics) (log : t.log = o.log)
    (onward : exec.pc.undecided = false → exec'.pc.undecided = false)
    (owes : exec'.pc.owes = true → exec.pc.owes = true)
    (quiet : (findings o (t.put i exec') i exec input).any Finding.isOutcome = true →
      exec.pc.owes = true) : TallyStep o (t.put i exec') i exec input :=
  .put exec' [] execs metrics log (fun _ told => absurd told List.not_mem_nil) rfl onward owes quiet

theorem tally_executed {t : Orchestrator} {call : Call ForwardPc ForwardResult}
    {outcome : Except WarmExecutionError ForwardResult} (pc : exec.pc = .scheduled)
    (drive : o.drive config i .run = some t) (here : t.scheduler.calls[i]? = some call)
    (returned : call.pc = .returned outcome) :
    TallyStep o (t.afterExecute i exec outcome) i exec .run := by
  have decides : (findings o (t.afterExecute i exec outcome) i exec .run).any Finding.isOutcome =
      true := by
    rw [findings_executed pc here returned]
    rfl
  have before : exec.pc.undecided = true := by rw [pc]; rfl
  have counted : ∀ (inc : Metrics → Metrics) (after : ExecPc),
      t.afterExecute i exec outcome = (t.count inc).put i (exec.goto after) →
      (inc t.metrics).outcomes = t.metrics.outcomes + 1 → after.undecided = false →
      TallyStep o (t.afterExecute i exec outcome) i exec .run := by
    intro inc after same more late
    refine .counts (exec.goto after) ?_ ?_ ?_ before late decides
    · rw [same, Orchestrator.put_execs, Orchestrator.count_execs, (Orchestrator.drive_frame drive).1]
    · rw [same, ← drive_metrics drive]
      exact more
    · rw [same, put_log, ← Orchestrator.drive_log drive]
      rfl
  match outcome with
  | .ok (.ok _) | .ok (.error .embeddingsUnsupported) | .ok (.error .upstreamUnreachable)
  | .ok (.error (.upstreamError _ _)) | .ok (.error .cancelled) | .error .queueFull
  | .error .queueTimeout =>
      refine counted _ _ rfl ?_ rfl
      simp only [Metrics.outcomes, Metrics.incWarmRequests, Metrics.incEmbeddingsDegraded,
        Metrics.incColdStarts, Metrics.incForwardingErrors, Metrics.incQueueFull,
        Metrics.incQueueTimeouts]
      omega

theorem ExecRule.tallyStep (rule : ExecRule serde config o i exec input o')
    (here : o.execs[i]? = some exec) : TallyStep o o' i exec input := by
  have early : ∀ {pc : ExecPc} {exec' : Exec}, exec.pc = pc → pc.undecided = true →
      exec.pc.undecided = false → exec'.pc.undecided = false := by
    intro pc exec' hpc before late
    rw [hpc, before] at late
    cases late
  have never : ∀ {owed : Bool}, false = true → owed = true :=
    fun owes => absurd owes Bool.false_ne_true
  have none : ∀ event ∈ ([] : List Event), event.exec = i :=
    fun event told => absurd told List.not_mem_nil
  cases rule with
  | enter _ _ pc | cold _ pc _ | notCold _ pc _ | callEnsure pc =>
      exact .goto _ rfl rfl rfl (early pc rfl) never never
  | admitted _ pc free =>
      refine .goto _ rfl rfl rfl (early pc rfl) never ?_
      simp [findings, pc, free]
  | refused pc exhausted =>
      refine .goto _ rfl rfl rfl (early pc rfl) (fun owes => ?_) ?_
      · rw [show (exec.goto (.returning queueIsFull)).pc.owes = false from owes_queueIsFull] at owes
        cases owes
      · simp [findings, pc, exhausted, Finding.isOutcome]
  | callDegrade _ pc | callMark pc =>
      exact .goto _ rfl rfl rfl (fun _ => rfl) (fun _ => by rw [pc]; rfl) never
  | relayed _ | unwoundAwaiting _ _ =>
      exact .goto _ rfl rfl rfl (fun _ => rfl) never never
  | dropped pc =>
      exact .goto _ rfl rfl rfl (fun _ => rfl) never (by simp [findings, pc])
  | degraded reason pc =>
      -- the degradation is the answer, the response only says so
      refine .silent _ [.degraded i reason] rfl rfl rfl (by simp [Event.exec]) (fun _ => rfl) ?_
        never
      rw [pc, embeddingDegradationResponse,
        show (exec.goto (.returning _)).pc.owes = false from owes_unsupported _]
      exact Nat.le_refl 1
  | retryDone input _ result pc _ =>
      exact .put _ [.forwarded i result] rfl rfl rfl (by simp [Event.exec]) rfl (fun _ => rfl)
        (fun _ => by rw [pc]; rfl) never
  | decided decision pc =>
      cases decision with
      | ready status => exact .goto _ rfl rfl rfl (early pc rfl) never never
      | warming _ _ | failed _ _ =>
          refine .counts _ rfl ?_ rfl (by rw [pc]; rfl) rfl rfl
          simp only [Orchestrator.afterDecision, Orchestrator.put, Orchestrator.count,
            Metrics.outcomes, Metrics.incColdStarts, Metrics.incWakeFailures]
          omega
  | retryDecided decision pc =>
      cases decision with
      | ready _ | warming _ _ | failed _ _ =>
          exact .goto _ rfl rfl rfl (fun _ => rfl) (fun _ => by rw [pc]; rfl)
            fun _ => by rw [pc]; rfl
  | embeddingsDegraded status pc _ _ =>
      refine .silent _ [] (congrArg (List.set · i _) (Orchestrator.checkTunnelDrop_execs _ _))
        (checkTunnelDrop_outcomes _ _) (checkTunnelDrop_log _ _) none (early pc rfl) ?_
        (by simp [findings, pc])
      rw [embeddingsAreDegraded,
        show (exec.goto (.returning _)).pc.owes = false from owes_unsupported _]
      exact Nat.zero_le _
  | handled status pc _ =>
      refine .silent _ [] (congrArg (List.set · i _) (Orchestrator.checkTunnelDrop_execs _ _))
        (checkTunnelDrop_outcomes _ _) (checkTunnelDrop_log _ _) none (early pc rfl) ?_
        (by simp [findings, pc])
      exact Nat.zero_le _
  | execute t pc drive =>
      exact .goto _ (Orchestrator.drive_frame drive).1 (drive_metrics drive)
        (Orchestrator.drive_log drive) (early pc rfl) never (by simp [findings, pc])
  | scheduled _ _ pc drive hcall pending =>
      exact .same here [] (Orchestrator.drive_frame drive).1 (drive_metrics drive)
        (Orchestrator.drive_log drive) none rfl (findings_scheduled pc hcall pending)
  | unwinding _ _ pc drive _ _ =>
      exact .same here [] (Orchestrator.drive_frame drive).1 (drive_metrics drive)
        (Orchestrator.drive_log drive) none rfl (by simp [findings, pc])
  | executed t _ outcome pc drive hcall returned => exact tally_executed pc drive hcall returned
  | operate t _ _ _ _ _ _ _ _ drive =>
      refine .same here _ ?_ (by rw [drive_metrics drive, noteDelivery_metrics])
        ((Orchestrator.drive_log drive).trans (noteDelivery_log _ _ _)) (deliveryOf_exec _ _ _)
        (countP_deliveryOf _ _ _) rfl
      rw [(Orchestrator.drive_frame drive).1, Orchestrator.noteDelivery_execs]
  | complete _ _ _ _ result _ _ _ _ drive =>
      exact .same here [.forwarded i result] (Orchestrator.drive_frame drive).1
        (by rw [drive_metrics drive]; rfl) (Orchestrator.drive_log drive) (by simp [Event.exec]) rfl
        rfl
  | retryPending _ _ _ pc _ =>
      exact .put _ _ (by simp) (by simp) (noteDelivery_log _ _ _) (deliveryOf_exec _ _ _)
        (countP_deliveryOf _ _ _) (fun _ => rfl) (fun _ => by rw [pc]; rfl) never
  | returned response pc =>
      refine .silent { exec with holdsColdPermit := false, pc := _ } [.responded i response] rfl rfl
        rfl (by simp [Event.exec]) (fun _ => ?_) ?_ (by simp [findings, pc])
      · cases response.streams <;> rfl
      · have quits : ∀ streams : Bool,
            (if streams then ExecPc.relaying else ExecPc.responded).owes = false := by decide
        rw [pc, quits]
        cases told : Response.uncounted response <;> simp [Event.counted, ExecPc.owes, told]
  | unwoundScheduled t _ _ drive =>
      exact .goto _ (Orchestrator.drive_frame drive).1 (drive_metrics drive)
        (Orchestrator.drive_log drive) (fun _ => rfl) never never
  | unwoundCall t _ pc drive _ _ =>
      exact .goto _ (Orchestrator.drive_frame drive).1 (drive_metrics drive)
        (Orchestrator.drive_log drive) (fun _ => rfl) never (by simp [findings, pc])

/-- The calls that are past the part of `execute` in which they have no outcome. -/
def Orchestrator.lateCalls (o : Orchestrator) : Nat :=
  o.execs.countP fun exec => !exec.pc.undecided

/-- The counters lie between the answers that were counted and the calls that can have been. -/
def Orchestrator.Tallied (o : Orchestrator) : Prop :=
  o.countedAnswers ≤ o.metrics.outcomes ∧ o.metrics.outcomes ≤ o.lateCalls

theorem tallied_step (h : o.Tallied) (here : o.execs[i]? = some exec)
    (step : TallyStep o o' i exec input) : o'.Tallied := by
  obtain ⟨answered, decided⟩ := h
  simp only [Orchestrator.Tallied, Orchestrator.countedAnswers, Orchestrator.lateCalls]
    at answered decided ⊢
  cases step with
  | silent exec' news execs outcomes log own onward answers quiet =>
      have balance :=
        countP_set_balance (fun exec : Exec => !exec.pc.undecided) (b := exec') here
      have owed := countP_set_balance (fun exec : Exec => exec.pc.owes) (b := exec') here
      rw [execs, outcomes, log, List.countP_append]
      refine ⟨by omega, ?_⟩
      cases before : exec.pc.undecided with
      | true =>
          simp only [before, Bool.not_true, Bool.toNat_false] at balance
          omega
      | false =>
          simp only [before, onward before, Bool.not_false, Bool.toNat_true] at balance
          omega
  | counts exec' execs outcomes log before after decides =>
      have balance :=
        countP_set_balance (fun exec : Exec => !exec.pc.undecided) (b := exec') here
      have owed := countP_set_balance (fun exec : Exec => exec.pc.owes) (b := exec') here
      have atMostOne := Bool.toNat_le exec'.pc.owes
      simp only [before, after, Bool.not_true, Bool.not_false, Bool.toNat_true, Bool.toNat_false]
        at balance
      rw [execs, outcomes, log]
      exact ⟨by omega, by omega⟩

theorem tallied_reachable {execs instant : Nat} {s : Orchestrator}
    (h : (orchestrator serde config).Reachable (.new config execs instant) s) : s.Tallied := by
  refine h.invariant ⟨?_, Nat.zero_le _⟩ ?_
  · refine Nat.le_of_eq ?_
    rw [Orchestrator.countedAnswers, Orchestrator.new, List.countP_replicate]
    rfl
  · intro t a t' ht hstep
    cases step_cases hstep with
    | elapse _ _ _ => exact ht
    | exec i _ exec here _ rule => exact tallied_step ht here (rule.tallyStep here)

/-! ### Call by call -/

/-- Each increment is of a call that has come to its outcome, and of one such call each. -/
structure CountedOnce (o : Orchestrator) (tally : Tally) : Prop where
  length : tally.counted.length = o.metrics.outcomes
  nodup : tally.counted.Nodup
  decided : ∀ i, i ∈ tally.counted ↔ tally.decided i = true
  inside : ∀ i ∈ tally.counted, i < o.execs.length
  undecided : ∀ (i : Nat) exec, o.execs[i]? = some exec → exec.pc.undecided = true →
    i ∉ tally.counted
  owes : ∀ (i : Nat) exec, o.execs[i]? = some exec → exec.pc.owes = true → i ∈ tally.counted
  told : ∀ event ∈ o.log, event.counted = true → event.exec ∈ tally.counted

section Note
variable {tally : Tally}

theorem decided_noteTally (here : o.execs[i]? = some exec) (j : Nat) :
    (noteTally o (.exec i input) o' tally).decided j =
      ((decide (j = i) && (findings o o' i exec input).any Finding.isOutcome) ||
        tally.decided j) := by
  simp only [Tally.decided, noteTally, noteFindings, here]
  by_cases hj : j = i
  · simp only [hj, if_true, List.any_append, decide_true, Bool.true_and]
  · simp only [hj, if_false, decide_false, Bool.false_and, Bool.false_or]

theorem counted_noteTally (more : Nat) (outcomes : o'.metrics.outcomes = o.metrics.outcomes + more) :
    (noteTally o (.exec i input) o' tally).counted = List.replicate more i ++ tally.counted := by
  simp [noteTally, countedIn, outcomes]

/-- A step that counts nothing adds no increment, and no outcome to a call without one. -/
theorem CountedOnce.silent {exec' : Exec} {news : List Event} (h : CountedOnce o tally)
    (here : o.execs[i]? = some exec) (execs : o'.execs = o.execs.set i exec')
    (outcomes : o'.metrics.outcomes = o.metrics.outcomes) (log : o'.log = news ++ o.log)
    (own : ∀ event ∈ news, event.exec = i)
    (onward : exec.pc.undecided = false → exec'.pc.undecided = false)
    (answers : news.countP Event.counted + exec'.pc.owes.toNat ≤ exec.pc.owes.toNat)
    (quiet : (findings o o' i exec input).any Finding.isOutcome = true → exec.pc.owes = true) :
    CountedOnce o' (noteTally o (.exec i input) o' tally) := by
  have counted : (noteTally o (.exec i input) o' tally).counted = tally.counted :=
    counted_noteTally 0 outcomes
  have owed : exec.pc.owes = true → i ∈ tally.counted := h.owes i exec here
  refine ⟨?_, ?_, ?_, ?_, ?_, ?_, ?_⟩ <;> rw [counted]
  · rw [outcomes, h.length]
  · exact h.nodup
  · intro j
    rw [decided_noteTally here, h.decided j]
    by_cases hj : j = i
    · subst hj
      simp only [decide_true, Bool.true_and, Bool.or_eq_true]
      exact ⟨.inr, fun learnt => learnt.elim (fun news => (h.decided j).mp (owed (quiet news))) id⟩
    · simp [hj]
  · rw [execs, List.length_set]
    exact h.inside
  · intro j other hother undecided
    rw [execs] at hother
    obtain ⟨rfl, rfl⟩ | ⟨_, hkept⟩ := getElem?_set_cases here hother
    · refine h.undecided j exec here (Bool.eq_true_of_not_eq_false fun late => ?_)
      rw [onward late] at undecided
      cases undecided
    · exact h.undecided j other hkept undecided
  · intro j other hother owes
    rw [execs] at hother
    obtain ⟨rfl, rfl⟩ | ⟨_, hkept⟩ := getElem?_set_cases here hother
    · refine owed (Bool.eq_true_of_not_eq_false fun free => ?_)
      simp [owes, free] at answers
    · exact h.owes j other hkept owes
  · intro event told isCounted
    rw [log] at told
    obtain said | before := List.mem_append.mp told
    · rw [own event said]
      refine owed (Bool.eq_true_of_not_eq_false fun free => ?_)
      have some := List.countP_pos_iff.mpr ⟨event, said, isCounted⟩
      rw [free, Bool.toNat_false] at answers
      omega
    · exact h.told event before isCounted

/-- A call that comes to its outcome has not been counted before. -/
theorem CountedOnce.counts {exec' : Exec} (h : CountedOnce o tally)
    (here : o.execs[i]? = some exec) (execs : o'.execs = o.execs.set i exec')
    (outcomes : o'.metrics.outcomes = o.metrics.outcomes + 1) (log : o'.log = o.log)
    (before : exec.pc.undecided = true) (after : exec'.pc.undecided = false)
    (decides : (findings o o' i exec input).any Finding.isOutcome = true) :
    CountedOnce o' (noteTally o (.exec i input) o' tally) := by
  have counted : (noteTally o (.exec i input) o' tally).counted = i :: tally.counted :=
    counted_noteTally 1 outcomes
  have fresh : i ∉ tally.counted := h.undecided i exec here before
  refine ⟨?_, ?_, ?_, ?_, ?_, ?_, ?_⟩ <;> rw [counted]
  · rw [outcomes, List.length_cons, h.length]
  · exact List.nodup_cons.mpr ⟨fresh, h.nodup⟩
  · intro j
    rw [decided_noteTally here, List.mem_cons, h.decided j, decides]
    simp
  · rw [execs, List.length_set]
    exact List.forall_mem_cons.mpr ⟨(List.getElem?_eq_some_iff.mp here).1, h.inside⟩
  · intro j other hother undecided
    rw [execs] at hother
    obtain ⟨rfl, rfl⟩ | ⟨hj, hkept⟩ := getElem?_set_cases here hother
    · rw [after] at undecided
      cases undecided
    · exact fun counted => (List.mem_cons.mp counted).elim hj
        (h.undecided j other hkept undecided)
  · intro j other hother owes
    rw [execs] at hother
    obtain ⟨rfl, rfl⟩ | ⟨_, hkept⟩ := getElem?_set_cases here hother
    · exact List.mem_cons_self
    · exact List.mem_cons_of_mem i (h.owes j other hkept owes)
  · rw [log]
    exact fun event told isCounted => List.mem_cons_of_mem i (h.told event told isCounted)

theorem countedOnce_step (h : CountedOnce o tally) (here : o.execs[i]? = some exec)
    (step : TallyStep o o' i exec input) :
    CountedOnce o' (noteTally o (.exec i input) o' tally) := by
  cases step with
  | silent exec' news execs outcomes log own onward answers quiet =>
      exact h.silent here execs outcomes log own onward answers quiet
  | counts exec' execs outcomes log before after decides =>
      exact h.counts here execs outcomes log before after decides

end Note

theorem countedOnce_reachable {execs instant : Nat} {t : Orchestrator × Tally}
    (h : ((orchestrator serde config).monitor noteTally).Reachable
      (.new config execs instant, .none) t) : CountedOnce t.1 t.2 := by
  refine h.invariant (I := fun t => CountedOnce t.1 t.2) ?_ ?_
  · refine ⟨rfl, List.nodup_nil, fun i => ⟨fun counted => ?_, fun decided => ?_⟩, ?_, ?_, ?_, ?_⟩
    · cases counted
    · cases decided
    · exact fun i counted => absurd counted List.not_mem_nil
    · exact fun _ _ _ _ => List.not_mem_nil
    · intro i exec here owes
      obtain rfl := (List.mem_replicate.mp (List.mem_of_getElem? here)).2
      cases owes
    · exact fun event told => absurd told List.not_mem_nil
  · rintro ⟨o, tally⟩ a ⟨o', tally'⟩ ht monitored
    obtain ⟨hstep, hnote⟩ := System.monitor_step_iff.mp monitored
    dsimp only at ht hstep hnote ⊢
    subst hnote
    cases step_cases hstep with
    | elapse _ _ _ =>
        exact ⟨ht.length, ht.nodup, ht.decided, ht.inside, ht.undecided, ht.owes, ht.told⟩
    | exec i _ exec here _ rule => exact countedOnce_step ht here (rule.tallyStep here)

/-- The calls that were counted are those that have come to an outcome. -/
theorem CountedOnce.decidedCalls {tally : Tally} (h : CountedOnce o tally) :
    o.metrics.outcomes = tally.decidedCalls o.execs.length := by
  have same : tally.counted.Perm ((List.range o.execs.length).filter tally.decided) := by
    refine (List.perm_ext_iff_of_nodup h.nodup (List.nodup_range.filter _)).mpr fun i => ?_
    rw [List.mem_filter, List.mem_range, h.decided i]
    exact ⟨fun decided => ⟨h.inside i ((h.decided i).mpr decided), decided⟩, And.right⟩
  rw [← h.length, same.length_eq, Tally.decidedCalls, List.countP_eq_length_filter]

/-- In every run the outcome counters together count the calls that have come to an
outcome, each of them once, and no others, not even one that was dropped: no call is
counted twice, and none is answered before it is counted but one that was refused for a
full cold-start queue or answered that there are no embeddings. -/
theorem each_call_counted_once (serde : SerdeJson ν) (config : AppConfig) (execs instant : Nat)
    (t : Orchestrator × Tally)
    (h : ((orchestrator serde config).monitor noteTally).Reachable
      (.new config execs instant, .none) t) :
    t.1.log.countP Event.counted ≤ t.1.metrics.outcomes ∧
      t.1.metrics.outcomes = t.2.decidedCalls t.1.execs.length ∧
      t.2.decidedCalls t.1.execs.length ≤ t.1.execs.length ∧
      t.2.counted.length = t.1.metrics.outcomes ∧ t.2.counted.Nodup ∧
      (∀ i, i ∈ t.2.counted ↔ t.2.decided i = true) ∧
      ∀ event ∈ t.1.log, event.counted = true → event.exec ∈ t.2.counted := by
  obtain ⟨answered, _⟩ := tallied_reachable h.unmonitor
  have counted := countedOnce_reachable h
  have bounded : t.2.decidedCalls t.1.execs.length ≤ t.1.execs.length := by
    refine List.countP_le_length.trans ?_
    rw [List.length_range]
  exact ⟨Nat.le_trans (Nat.le_add_right _ _) answered, counted.decidedCalls, bounded,
    counted.length, counted.nodup, counted.decided, counted.told⟩

/-- A call is served and counted, and one that is dropped in its forward is not. -/
theorem each_call_counted_once_answered :
    ∃ t, ((orchestrator SerdeJson.mute oneAtATime).monitor noteTally).Reachable
        (.new oneAtATime 2 0, .none) t ∧
      t.1.log.countP Event.counted = 1 ∧ t.2.counted = [0] ∧ t.1.metrics.outcomes = 1 ∧
      t.2.decided 0 = true ∧ t.2.decided 1 = false := by
  have answered : ∃ t, ((orchestrator SerdeJson.mute oneAtATime).monitor noteTally).Reachable
      (.new oneAtATime 2 0, .none) t ∧
        (t.1.log.countP Event.counted = 1 ∧ t.2.counted = [0]) :=
    System.reachable_of_check
      (sendSchedule 0 true ++ streamSchedule 0 ++ sendSchedule 1 true ++ [.exec 1 (.unwind false)])
      (by decide)
  obtain ⟨t, ht, told, alone⟩ := answered
  obtain ⟨_, _, _, length, _, decided, _⟩ := each_call_counted_once SerdeJson.mute oneAtATime 2 0 t ht
  rw [alone] at length decided
  exact ⟨t, ht, told, alone, length.symm, (decided 0).mp (by simp),
    Bool.eq_false_iff.mpr fun second => by simpa using (decided 1).mpr second⟩

end LlmWakeProxy.Orchestrate
