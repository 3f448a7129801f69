import LlmWakeProxy.Orchestrate.InFlight
import LlmWakeProxy.Orchestrate.Stages

/-!
How often the request of a call reaches the upstream server. A call forwards a
second time when the first forward ended with an upstream that counts as
unreachable. A failure to connect comes before the request is sent, but a timeout
counts as well, and may come when the server has had the request for long; and so does
a failure to connect to where the server redirects. A forward by itself has its request
posted again when the server redirects it with 307 or 308.
-/

namespace LlmWakeProxy.Orchestrate
open LlmWakeProxy.Library LlmWakeProxy.Scheduler LlmWakeProxy.Forward

universe u
variable {ν : Type u} {serde : SerdeJson ν} {config : AppConfig}
variable {s s' : Orchestrator}

def Event.isDelivered : Event → Bool
  | .delivered _ | .redelivered _ => true
  | _ => false

def Orchestrator.deliveries (s : Orchestrator) (i : Nat) : Nat :=
  (s.story i).countP Event.isDelivered

def Stage.forward : Stage → Option ForwardPc
  | .first pc | .second pc => some pc
  | _ => none

/-- No request reaches a server twice, and it is posted only when it has not reached
one. -/
def DeliversOnce (s : Orchestrator) : Prop :=
  ∀ i exec, s.execs[i]? = some exec → s.deliveries i ≤ 1 ∧
    ∀ pc, (s.stage i exec).forward = some pc → pc.sends = true → s.deliveries i = 0

def Stage.reached : Stage → Bool
  | .first pc => pc.reached
  | _ => false

/-- Takes note of the calls whose first forward finds the upstream unreachable after a
server has had the request. -/
def noteLost (s : Orchestrator) (a : Action) (_ : Orchestrator) (lost : List Nat) : List Nat :=
  match a with
  | .exec i (.forward (.failed error)) =>
      if (error.isConnect || error.isTimeout) &&
          s.execs[i]?.any fun exec => (s.stage i exec).reached then
        i :: lost
      else
        lost
  | _ => lost

/-- The step has a request posted again that a server has had: it finds the backend
ready for a call whose first forward was lost, or redirects a request that is posted
without making a GET of it. -/
def repeats (s : Orchestrator × List Nat) : Action → Bool
  | .exec i (.decide (.ready _)) =>
      match s.1.execs[i]?.map Exec.pc with
      | some .awaitRetryDecision => decide (i ∈ s.2)
      | _ => false
  | .exec i (.forward (.redirected status)) =>
      decide (redirectPosts status = some true) &&
        s.1.execs[i]?.any fun exec => (s.1.stage i exec).forward.any ForwardPc.posts
  | _ => false

def Unrepeated (s : Orchestrator × List Nat) (a : Action) : Prop := repeats s a = false

instance (s : Orchestrator × List Nat) (a : Action) : Decidable (Unrepeated s a) :=
  inferInstanceAs (Decidable (repeats s a = false))

/-! ### Deliveries along the stages -/

def Stage.isUnreachable : Stage → Bool
  | .firstDone (.error .upstreamUnreachable) | .unreachable => true
  | _ => false

/-- What the story of call `i` has of deliveries, and what the notes tell of it. -/
structure Delivering (lost : List Nat) (i : Nat) (stage : Stage) (story : List Event) : Prop where
  once : story.countP Event.isDelivered ≤ 1
  early : stage = .early → story.countP Event.isDelivered = 0
  counted : ∀ pc, stage.forward = some pc →
    story.countP Event.isDelivered = pc.reached.toNat ∧ pc.repeating = false
  excused : stage.isUnreachable = true → i ∈ lost ∨ story.countP Event.isDelivered = 0
  noted : i ∈ lost → story.countP Event.isDelivered ≠ 0

/-- A forward that goes on records its delivery, and repeats nothing unless it is
redirected so. -/
theorem deliveries_of_pending {request : ForwardRequest} {isCancelled : Bool}
    {input : ForwardInput} {before after : ForwardPc}
    (h : forwardStep serde request isCancelled before input = some (.pending after))
    (single : before.repeating = false)
    (once : ∀ status, input = .redirected status → redirectPosts status = some true →
      before.posts = false) (i : Nat) :
    (deliveryOf i before input).countP Event.isDelivered + before.reached.toNat =
        after.reached.toNat ∧ after.repeating = false := by
  generalize hprogress : ForwardProgress.pending after = progress at h
  cases forwardStep_cases h with
  | delivered redirects posts =>
      cases hprogress
      cases redirects with
      | zero => exact ⟨rfl, rfl⟩
      | succ redirects =>
          cases (show posts = false from single)
          exact ⟨rfl, rfl⟩
  | redirected redirects posts again status _ redirect =>
      cases hprogress
      rw [deliveryOf_of_ne (by simp)]
      refine ⟨by cases redirects <;> rfl, ?_⟩
      cases again with
      | true =>
          cases (show posts = false from once status rfl redirect)
          rfl
      | false => exact Bool.and_false posts
  | answered redirects posts status _ =>
      cases hprogress
      rw [deliveryOf_of_ne (by simp)]
      exact ⟨by cases redirects <;> rfl, rfl⟩
  | failed _ _ _ _ _ | streamed _ _ _ _ _ | cancelled _ _ _ _ | read _ _ => cases hprogress

section Step

variable {lost lost' : List Nat} {i : Nat} {stage after : Stage} {story news : List Event}

theorem Delivering.past (hs : Delivering lost i stage story)
    (silent : news.countP Event.isDelivered = 0) (late : after ≠ .early)
    (ended : after.forward = none)
    (excused : after.isUnreachable = true → i ∈ lost' ∨ story.countP Event.isDelivered = 0)
    (sent : i ∈ lost' → story.countP Event.isDelivered ≠ 0) :
    Delivering lost' i after (news ++ story) := by
  have hcount : (news ++ story).countP Event.isDelivered = story.countP Event.isDelivered := by
    rw [List.countP_append, silent, Nat.zero_add]
  refine ⟨by rw [hcount]; exact hs.once, fun h => absurd h late, ?_, by rwa [hcount],
    by rwa [hcount]⟩
  intro pc hpc
  rw [ended] at hpc
  cases hpc

theorem Delivering.pending {request : ForwardRequest} {isCancelled : Bool}
    {input : ForwardInput} {before next : ForwardPc} (hs : Delivering lost i stage story)
    (here : stage.forward = some before) (there : after.forward = some next)
    (late : after ≠ .early) (reached : after.isUnreachable = false)
    (forward : forwardStep serde request isCancelled before input = some (.pending next))
    (single : ∀ status, input = .redirected status → redirectPosts status = some true →
      before.posts = false) (sent : i ∈ lost' → story.countP Event.isDelivered ≠ 0) :
    Delivering lost' i after (deliveryOf i before input ++ story) := by
  obtain ⟨hbefore, hsingle⟩ := hs.counted before here
  obtain ⟨hafter, hstill⟩ := deliveries_of_pending forward hsingle single i
  have hcount : (deliveryOf i before input ++ story).countP Event.isDelivered =
      next.reached.toNat := by
    rw [List.countP_append, hbefore]
    exact hafter
  refine ⟨by rw [hcount]; exact Bool.toNat_le _, fun h => absurd h late, ?_, ?_, ?_⟩
  · intro pc hpc
    cases there.symm.trans hpc
    exact ⟨hcount, hstill⟩
  · intro h
    rw [reached] at h
    cases h
  · intro h
    rw [List.countP_append]
    have := sent h
    omega

/-- Every step of the stages keeps the account, if what the step notes is noted, the
call is not answered against what was noted, and no redirect has it posted again. -/
theorem Delivering.step {request : ForwardRequest} {input : Input}
    (hs : Delivering lost i stage story)
    (rule : StageRule serde request i stage input news after)
    (kept : i ∈ lost → i ∈ lost') (fresh : i ∈ lost' → i ∈ lost ∨ stage.reached = true)
    (late : stage.reached = true → ∀ error : ReqwestError, input = .forward (.failed error) →
      error.isConnect = true ∨ error.isTimeout = true → i ∈ lost')
    (ok : stage = .unreachable → ∀ status, input = .decide (.ready status) → i ∉ lost)
    (single : ∀ pc status, stage.forward = some pc → input = .forward (.redirected status) →
      redirectPosts status = some true → pc.posts = false) :
    Delivering lost' i after (news ++ story) := by
  have sent : i ∈ lost' → story.countP Event.isDelivered ≠ 0 := by
    intro hnoted
    obtain hold | hreached := fresh hnoted
    · exact hs.noted hold
    · match stage, hreached with
      | .first pc, hreached =>
          rw [(hs.counted pc rfl).1, show pc.reached = true from hreached]
          decide
  cases rule with
  | stays _ _ => exact ⟨hs.once, hs.early, hs.counted, fun h => (hs.excused h).imp_left kept, sent⟩
  | leaves _ _ | answered _ _ _ _ | unsupported _ | degraded _ _ | givesUp _ _ | responded _
  | rejected _ _ | secondDone _ _ _ _ =>
      exact hs.past rfl (by simp) rfl (by simp [Stage.isUnreachable]) sent
  | unreachable =>
      exact hs.past rfl (by simp) rfl (fun _ => (hs.excused rfl).imp_left kept) sent
  | begins =>
      have hzero := hs.early rfl
      refine ⟨hs.once, by simp, ?_, by simp [Stage.isUnreachable], sent⟩
      rintro pc ⟨rfl⟩
      exact ⟨hzero, rfl⟩
  | firstDone isCancelled forwardInput before result forward =>
      refine hs.past rfl (by simp) rfl ?_ sent
      intro hunreachable
      have hresult : result = .error .upstreamUnreachable := by
        match result with
        | .error .upstreamUnreachable => rfl
        | .ok _ | .error (.upstreamError _ _) | .error .cancelled
        | .error .embeddingsUnsupported => cases hunreachable
      subst hresult
      obtain ⟨redirects, posts, delivered, error, rfl, rfl, failed⟩ :=
        unreachable_of_forwardStep forward
      cases hreached : (ForwardPc.sending redirects posts delivered).reached with
      | true => exact .inl (late hreached error rfl (failed.imp_left And.left))
      | false =>
          have hcount := (hs.counted _ rfl).1
          rw [hreached] at hcount
          exact .inr hcount
  | firstPending isCancelled forwardInput before next forward =>
      exact hs.pending rfl rfl (by simp) rfl forward
        (fun status hinput => single before status rfl (congrArg Input.forward hinput)) sent
  | retries status =>
      have hzero := (hs.excused rfl).resolve_left (ok rfl status rfl)
      refine ⟨hs.once, by simp, ?_, by simp [Stage.isUnreachable], sent⟩
      rintro pc ⟨rfl⟩
      exact ⟨hzero, rfl⟩
  | secondPending forwardInput before next forward =>
      exact hs.pending rfl rfl (by simp) rfl forward
        (fun status hinput => single before status rfl (congrArg Input.forward hinput)) sent

end Step

/-! ### Runs -/

theorem noteLost_cases (s s' : Orchestrator) (a : Action) (lost : List Nat) :
    noteLost s a s' lost = lost ∨ ∃ i input exec, a = .exec i input ∧
      s.execs[i]? = some exec ∧ (s.stage i exec).reached = true ∧
      noteLost s a s' lost = i :: lost := by
  unfold noteLost
  split
  next i error =>
    split
    next hnoted =>
      obtain ⟨exec, here, reached⟩ :=
        (Option.any_eq_true _ _).mp (Bool.and_eq_true_iff.mp hnoted).2
      exact .inr ⟨i, _, exec, rfl, here, reached, rfl⟩
    next => exact .inl rfl
  next => exact .inl rfl

theorem noteLost_late {i : Nat} {exec : Exec} {error : ReqwestError} (lost : List Nat)
    (here : s.execs[i]? = some exec) (reached : (s.stage i exec).reached = true)
    (failed : error.isConnect = true ∨ error.isTimeout = true) :
    noteLost s (.exec i (.forward (.failed error))) s' lost = i :: lost := by
  simp [noteLost, failed, here, reached]

theorem Delivering.congr {lost lost' : List Nat} {i : Nat} {stage : Stage}
    {story : List Event} (hs : Delivering lost i stage story)
    (h : i ∈ lost' ↔ i ∈ lost) : Delivering lost' i stage story :=
  ⟨hs.once, hs.early, hs.counted, fun hu => (hs.excused hu).imp_left h.mpr,
    fun hn => hs.noted (h.mp hn)⟩

theorem awaitRetryDecision_of_unreachable {i : Nat} {exec : Exec} {input : Input}
    {t' : Orchestrator}
    {status : Lifecycle.BackendStatus} (hinput : input = .decide (.ready status))
    (unreachable : s.stage i exec = .unreachable)
    (rule : ExecRule serde config s i exec input t') : exec.pc = .awaitRetryDecision := by
  subst hinput
  cases rule with
  | decided _ pc =>
      rw [Orchestrator.stage, pc] at unreachable
      cases unreachable
  | retryDecided _ pc => exact pc

theorem delivering_step {t t' : Orchestrator × List Nat} {a : Action}
    (hs : t.1.StagesHold (Delivering t.2)) (ok : Unrepeated t a)
    (h : ((orchestrator serde config).monitor noteLost).step t a = some t') :
    t'.1.StagesHold (Delivering t'.2) := by
  obtain ⟨hstep, hnote⟩ := System.monitor_step_iff.mp h
  refine stagesHold_step hs hstep ?_ ?_
  · rintro i input exec news after rfl here rule held
    refine held.step rule ?_ ?_ ?_ ?_ ?_
    · intro hold
      obtain hsame | ⟨j, _, _, _, _, _, hmore⟩ := noteLost_cases t.1 t'.1 (.exec i input) t.2
      · rwa [hnote, hsame]
      · rw [hnote, hmore]
        exact List.mem_cons_of_mem _ hold
    · intro hnew
      obtain hsame | ⟨j, _, other, hact, hother, reached, hmore⟩ :=
        noteLost_cases t.1 t'.1 (.exec i input) t.2
      · exact .inl (by rwa [hnote, hsame] at hnew)
      · cases hact
        obtain rfl : exec = other := Option.some.inj (here.symm.trans hother)
        exact .inr reached
    · rintro reached error rfl failed
      rw [hnote, noteLost_late t.2 here reached failed]
      exact List.mem_cons_self
    · rintro unreachable status rfl
      have hrule : ExecRule serde config t.1 i exec (.decide (.ready status)) t'.1 := by
        obtain ⟨other, hother, hexec⟩ := Option.bind_eq_some_iff.mp hstep
        obtain rfl : exec = other := Option.some.inj (here.symm.trans hother)
        exact execStep_cases hexec
      have hpc := awaitRetryDecision_of_unreachable rfl unreachable hrule
      simpa [Unrepeated, repeats, here, hpc] using ok
    · rintro pc status hpc rfl redirect
      simpa [Unrepeated, repeats, redirect, here, hpc] using ok
  · intro j stage story other held
    refine held.congr ?_
    obtain hsame | ⟨i, input, _, hact, _, _, hmore⟩ := noteLost_cases t.1 t'.1 a t.2
    · rw [hnote, hsame]
    · rw [hnote, hmore, List.mem_cons, or_iff_right (other i input hact)]

theorem delivering_reachable {execs instant : Nat} {t : Orchestrator × List Nat}
    (h : (((orchestrator serde config).monitor noteLost).restrict Unrepeated).Reachable
      (.new config execs instant, []) t) : t.1.StagesHold (Delivering t.2) := by
  refine h.invariant_restrict ?_ fun _ _ _ hs ok hstep => delivering_step hs ok hstep
  exact stagesHold_new execs instant fun i =>
    ⟨Nat.zero_le _, fun _ => rfl, by simp [Stage.forward], by simp [Stage.isUnreachable], by simp⟩

inductive Repeating (t : Orchestrator × List Nat) (i : Nat) (exec : Exec) : Input → Prop
  | decided (status : Lifecycle.BackendStatus) (pc : exec.pc = .awaitRetryDecision)
      (lost : i ∈ t.2) : Repeating t i exec (.decide (.ready status))
  | redirected (status : Nat) (pc : ForwardPc) (redirect : redirectPosts status = some true)
      (under : (t.1.stage i exec).forward = some pc) (posts : pc.posts = true) :
      Repeating t i exec (.forward (.redirected status))

theorem of_repeats {t : Orchestrator × List Nat} {a : Action} (h : ¬ Unrepeated t a) :
    ∃ i input exec, a = .exec i input ∧ t.1.execs[i]? = some exec ∧ Repeating t i exec input := by
  have hrepeats : repeats t a = true := by simpa [Unrepeated] using h
  unfold repeats at hrepeats
  split at hrepeats
  next i status =>
    split at hrepeats
    next hpc =>
      obtain ⟨exec, here, pc⟩ := Option.map_eq_some_iff.mp hpc
      exact ⟨i, _, exec, rfl, here, .decided status pc (of_decide_eq_true hrepeats)⟩
    next => cases hrepeats
  next i status =>
    obtain ⟨redirect, hany⟩ := Bool.and_eq_true_iff.mp hrepeats
    obtain ⟨exec, here, hforward⟩ := (Option.any_eq_true _ _).mp hany
    obtain ⟨pc, under, posts⟩ := (Option.any_eq_true _ _).mp hforward
    exact ⟨i, _, exec, rfl, here,
      .redirected status pc (of_decide_eq_true redirect) under posts⟩
  next => cases hrepeats

theorem ExecRule.redirected {i status : Nat} {exec : Exec}
    (rule : ExecRule serde config s i exec (.forward (.redirected status)) s')
    (here : s.execs[i]? = some exec) :
    ∃ isCancelled before next exec', (s.stage i exec).forward = some before ∧
      forwardStep serde (exec.request config) isCancelled before (.redirected status) =
        some (.pending next) ∧
      s'.execs[i]? = some exec' ∧ (s'.stage i exec').forward = some next ∧
      s'.story i = s.story i := by
  have unended : ∀ {isCancelled : Bool} {before : ForwardPc} {result : ForwardResult},
      forwardStep serde (exec.request config) isCancelled before (.redirected status) ≠
        some (.done result) := by
    intro isCancelled before result forward
    generalize hprogress : ForwardProgress.done result = progress at forward
    cases forwardStep_cases forward with
    | redirected _ _ _ _ _ _ => cases hprogress
  cases rule with
  | operate t _ call before next pc hcall running forward drive =>
      have hexecs : s'.execs[i]? = some exec := by
        rwa [(Orchestrator.drive_frame drive).1, Orchestrator.noteDelivery_execs]
      have hafter : s'.scheduler.calls[i]? = some (call.goto (.running next)) := by
        refine drive_put (by simpa using hcall) ?_ drive
        simp [WarmExecutionScheduler.callStep, running]
      refine ⟨_, before, next, exec, ?_, forward, hexecs, ?_, ?_⟩
      · simp [Orchestrator.stage, pc, hcall, running, stageOf, scheduledStage, Stage.forward]
      · rw [Orchestrator.stage, pc, hafter]
        rfl
      · rw [Orchestrator.story, Orchestrator.drive_log drive, noteDelivery_log,
          deliveryOf_of_ne (by simp)]
        rfl
  | retryPending _ before next pc forward =>
      refine ⟨_, before, next, _, by rw [Orchestrator.stage, pc]; rfl, forward,
        getElem?_set_of_some here _, rfl, ?_⟩
      rw [Orchestrator.story, put_log, noteDelivery_log, deliveryOf_of_ne (by simp)]
      rfl
  | complete _ _ _ _ _ _ _ _ forward _ | retryDone _ _ _ _ forward => exact absurd forward unended

/-- Who follows a redirect to post has had the request delivered, and sends it again. -/
theorem sends_of_redirected {request : ForwardRequest} {isCancelled : Bool} {status : Nat}
    {before next : ForwardPc}
    (h : forwardStep serde request isCancelled before (.redirected status) = some (.pending next))
    (redirect : redirectPosts status = some true) (posts : before.posts = true) :
    before.reached = true ∧ next.sends = true := by
  generalize hprogress : ForwardProgress.pending next = progress at h
  cases forwardStep_cases h with
  | redirected redirects posts' again _ _ redirect' =>
      cases hprogress
      cases (show posts' = true from posts)
      cases redirect.symm.trans redirect'
      exact ⟨by cases redirects <;> rfl, rfl⟩

/-- In a run that finds the backend ready for no call whose first forward found the
upstream unreachable after a server had had its request, and in which no server
redirects a request so that it is posted again, no request reaches a server twice, nor
is it posted when it has reached one. A step that does either posts again what a server
has had. -/
theorem delivered_at_most_once (serde : SerdeJson ν) (config : AppConfig) (execs instant : Nat) :
    (∀ t, (((orchestrator serde config).monitor noteLost).restrict Unrepeated).Reachable
        (.new config execs instant, []) t → DeliversOnce t.1) ∧
    ∀ t a t', (((orchestrator serde config).monitor noteLost).restrict Unrepeated).Reachable
        (.new config execs instant, []) t →
      ((orchestrator serde config).monitor noteLost).step t a = some t' →
      ¬ Unrepeated t a → ¬ DeliversOnce t'.1 := by
  constructor
  · intro t ht i exec here
    have held := delivering_reachable ht i exec here
    refine ⟨held.once, fun pc hpc sends => ?_⟩
    obtain ⟨hcount, single⟩ := held.counted pc hpc
    rw [Orchestrator.deliveries, hcount]
    match pc with
    | .sending 0 _ false => rfl
    | .sending (_ + 1) true false => cases single
    | .sending _ _ true | .sending _ false false | .reading _ => cases sends
  · intro t a t' ht h hrepeats honce
    obtain ⟨hstep, _⟩ := System.monitor_step_iff.mp h
    obtain ⟨i, input, exec, rfl, here, repeating⟩ := of_repeats hrepeats
    have held := delivering_reachable ht i exec here
    obtain ⟨other, hother, hexec⟩ := Option.bind_eq_some_iff.mp hstep
    obtain rfl : exec = other := Option.some.inj (here.symm.trans hother)
    cases repeating with
    | decided status hpc lost =>
        have hstate : t'.1 = t.1.put i (exec.goto (.retrying .begun)) := by
          simp only [Orchestrator.execStep, hpc, Orchestrator.afterRetryDecision] at hexec
          exact (Option.some.inj hexec).symm
        refine held.noted lost ?_
        have hzero := (honce i (exec.goto (.retrying .begun)) ?_).2 .begun ?_ rfl
        · rwa [hstate] at hzero
        · rw [hstate]
          exact getElem?_set_of_some here _
        · rfl
    | redirected status pc redirect under posts =>
        obtain ⟨isCancelled, before, next, exec', hbefore, forward, here', hnext, story⟩ :=
          (execStep_cases hexec).redirected here
        obtain rfl : pc = before := Option.some.inj (under.symm.trans hbefore)
        obtain ⟨reached, sends⟩ := sends_of_redirected forward redirect posts
        have hzero := (honce i exec' here').2 next hnext sends
        rw [Orchestrator.deliveries, story, (held.counted pc under).1, reached] at hzero
        cases hzero

section TimedOut

/-- The backend is found ready for a call that could not connect. -/
def reconnectSchedule : List Action :=
  [.exec 0 (.enter .chat false), .exec 0 (.status servingStatus), .exec 0 .call,
   .exec 0 (.decide (.ready servingStatus)), .exec 0 .run, .exec 0 .run, .exec 0 .run, .exec 0 .run,
   .exec 0 (.forward (.failed { isConnect := true, isTimeout := false, status := none,
                                message := "" })),
   .exec 0 .run, .exec 0 .call, .exec 0 (.decide (.ready servingStatus)),
   .exec 0 (.forward .deliver)]

theorem delivered_at_most_once_reconnected :
    ∃ t, (((orchestrator SerdeJson.mute oneAtATime).monitor noteLost).restrict Unrepeated).Reachable
        (.new oneAtATime 1 0, []) t ∧ t.1.deliveries 0 = 1 ∧ DeliversOnce t.1 := by
  have sent : ∃ t, (((orchestrator SerdeJson.mute oneAtATime).monitor noteLost).restrict
      Unrepeated).Reachable (.new oneAtATime 1 0, []) t ∧ t.1.deliveries 0 = 1 :=
    System.reachable_of_check reconnectSchedule (by decide)
  obtain ⟨t, ht, hcount⟩ := sent
  exact ⟨t, ht, hcount, (delivered_at_most_once SerdeJson.mute oneAtATime 1 0).1 t ht⟩

def Event.isRedelivered : Event → Bool
  | .redelivered _ => true
  | _ => false

/-- A request that timed out upstream is delivered there again, and one that the upstream
redirects is delivered again within its first forward. -/
theorem request_is_delivered_twice :
    (∃ s, (orchestrator SerdeJson.mute oneAtATime).Reachable (.new oneAtATime 1 0) s ∧
      s.deliveries 0 = 2 ∧ (s.story 0).countP Event.isRedelivered = 0) ∧
    ∃ s, (orchestrator SerdeJson.mute oneAtATime).Reachable (.new oneAtATime 1 0) s ∧
      s.deliveries 0 = 2 ∧ (s.story 0).countP Event.isRedelivered = 1 :=
  ⟨System.reachable_of_check
      (sendSchedule 0 false ++ retrySchedule 0 ++ [.exec 0 (.forward .deliver)]) (by decide),
    System.reachable_of_check
      (sendSchedule 0 false ++ [.exec 0 (.forward (.redirected 307)), .exec 0 (.forward .deliver)])
      (by decide)⟩

end TimedOut
end LlmWakeProxy.Orchestrate
