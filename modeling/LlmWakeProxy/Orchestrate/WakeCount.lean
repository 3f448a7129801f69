import LlmWakeProxy.Lifecycle.Wakes
import LlmWakeProxy.Orchestrate.ColdStart

/-!
`wake_attempts` and the wake requests that are sent. A wake is sent by the call
that leads a round and finds the host asleep; the counter is incremented for every
call that is answered "still starting", and for every call that finds its upstream
unreachable. The two agree over the calls for which one comes with the other: a call
that sends a wake waits its time and is told that the backend is still starting, or
is served and loses its upstream. They do not when a call joins a round, when the
wait is long enough, when the wake fails, and when the client goes away.
-/

namespace LlmWakeProxy.Orchestrate
open LlmWakeProxy.Library LlmWakeProxy.Forward
open LlmWakeProxy.Lifecycle (LifecycleTiming LifecycleDecision BackendStatus Timestamp ClientPc
  ClientRule Manager)

universe u
variable {ν : Type u} {serde : SerdeJson ν} {config : AppConfig} {timing : LifecycleTiming}
variable {s s' : Proxy}

def Proxy.wakes (s : Proxy) : Nat :=
  (s.lifecycles .chat).core.wakes + (s.lifecycles .embeddings).core.wakes

def ExecPc.over : ExecPc → Bool
  | .idle | .relaying | .responded | .dropped => true
  | _ => false

/-- What can happen to a call that bears on wakes: its client leads a round, and SSH says that
the host is asleep; its first `ensure_backend` is answered "still starting"; its first
forward finds the upstream unreachable. -/
inductive Mark where
  | asleep
  | stillStarting
  | unreachable
  deriving DecidableEq

/-- The mark that a call's own step leaves. -/
def ExecPc.mark : ExecPc → Input → ExecPc → Option Mark
  | .awaitDecision, .decide (.warming _ _), _ => some .stillStarting
  | .scheduled, .run, .markWarming => some .unreachable
  | _, _, _ => none

def markOf (s : Proxy) (a : Proxy.Action) (s' : Proxy) : Option (Nat × Mark) :=
  match a with
  | .lifecycle backend (.client i input) => do
      let pc ← (s.lifecycles backend).clients[i]?
      if pc.findsAsleep input then some (i, .asleep) else none
  | .exec i input => do
      let exec ← s.orchestrator.execs[i]?
      let exec' ← s'.orchestrator.execs[i]?
      (exec.pc.mark input exec'.pc).map fun mark => (i, mark)
  | _ => none

/-- The marks of a run, latest first. -/
def noteMarks (s : Proxy) (a : Proxy.Action) (s' : Proxy) (marks : List (Nat × Mark)) :
    List (Nat × Mark) :=
  (markOf s a s').toList ++ marks

def marksOf (i : Nat) (marks : List (Nat × Mark)) : List Mark :=
  (marks.filter fun mark => mark.1 = i).map Prod.snd

/-- The call found nobody asleep, was not told to wait and reached its upstream. Or it found
the host asleep once, and was then told to wait, or found its upstream unreachable
before or after. -/
def plain : List Mark → Bool
  | [] | [.stillStarting, .asleep] | [.unreachable, .asleep] | [.asleep, .unreachable] => true
  | _ => false

def ExecPc.ends : ExecPc → Bool
  | .returning _ | .unwound => true
  | _ => false

def endsPlainly (t : Proxy × List (Nat × Mark)) : Proxy.Action → Bool
  | .exec i _ =>
      match t.1.orchestrator.execs[i]? with
      | some exec => !exec.pc.ends || plain (marksOf i t.2)
      | none => true
  | _ => true

/-- A call that ends in this step has been a plain one. -/
def EndsPlainly (t : Proxy × List (Nat × Mark)) (a : Proxy.Action) : Prop :=
  endsPlainly t a = true

instance (t : Proxy × List (Nat × Mark)) (a : Proxy.Action) : Decidable (EndsPlainly t a) :=
  inferInstanceAs (Decidable (endsPlainly t a = true))

def Mark.isAsleep : Mark → Bool
  | .asleep => true
  | .stillStarting | .unreachable => false

theorem mark_isAsleep {pc pc' : ExecPc} {input : Input} {mark : Mark}
    (h : pc.mark input pc' = some mark) : mark.isAsleep = false := by
  unfold ExecPc.mark at h
  split at h
  · cases h
    rfl
  · cases h
    rfl
  · cases h

theorem awaits_of_mark {pc pc' : ExecPc} {input : Input} {mark : Mark}
    (h : pc.mark input pc' = some mark) : pc = .awaitDecision ∨ pc = .scheduled := by
  unfold ExecPc.mark at h
  split at h
  · exact .inl rfl
  · exact .inr rfl
  · cases h

/-! ### The marks of a call -/

/-- A step of call `i`: it is counted exactly when it leaves a mark, and is over only if it
has made its last step. -/
def MarkStep (s s' : Orchestrator) (i : Nat) (exec : Exec) (input : Input) : Prop :=
  ∃ exec', s'.execs = s.execs.set i exec' ∧
    s'.metrics.wakeAttempts =
      s.metrics.wakeAttempts + (exec.pc.mark input exec'.pc).toList.length ∧
    (exec'.pc.over = true → exec.pc.over = true ∨ exec.pc.ends = true)

@[simp] theorem checkTunnelDrop_wakeAttempts (o : Orchestrator) (kind : Lifecycle.LifecycleRequest)
    (tunnel : Lifecycle.TunnelState) :
    (o.checkTunnelDrop kind tunnel).metrics.wakeAttempts = o.metrics.wakeAttempts := by
  cases kind <;> (simp only [Orchestrator.checkTunnelDrop]; split <;> rfl)

section Step

variable {o o' : Orchestrator} {i : Nat} {exec exec' : Exec} {input : Input}

theorem MarkStep.put {t : Orchestrator} (execs : t.execs = o.execs)
    (metrics : t.metrics.wakeAttempts = o.metrics.wakeAttempts)
    (quiet : exec.pc.mark input exec'.pc = none) (going : exec'.pc.over = false) :
    MarkStep o (t.put i exec') i exec input := by
  refine ⟨exec', by rw [Orchestrator.put_execs, execs], ?_, ?_⟩
  · rw [quiet]
    exact metrics
  · intro isOver
    rw [going] at isOver
    cases isOver

theorem MarkStep.same (here : o.execs[i]? = some exec) (execs : o'.execs = o.execs)
    (metrics : o'.metrics.wakeAttempts = o.metrics.wakeAttempts)
    (quiet : exec.pc.mark input exec.pc = none) : MarkStep o o' i exec input := by
  refine ⟨exec, by rw [execs, set_of_some here], ?_, .inl⟩
  rw [quiet]
  exact metrics

theorem afterExecute_marks (t : Orchestrator) (exec : Exec)
    (outcome : Except Scheduler.WarmExecutionError ForwardResult) :
    ∃ exec', (t.afterExecute i exec outcome).execs = t.execs.set i exec' ∧
      (t.afterExecute i exec outcome).metrics.wakeAttempts =
        t.metrics.wakeAttempts + (ExecPc.scheduled.mark .run exec'.pc).toList.length ∧
      exec'.pc.over = false := by
  match outcome with
  | .ok (.ok _) | .ok (.error .embeddingsUnsupported) | .ok (.error .upstreamUnreachable)
  | .ok (.error (.upstreamError _ _)) | .ok (.error .cancelled) | .error .queueFull
  | .error .queueTimeout => exact ⟨_, rfl, rfl, rfl⟩

theorem ExecRule.marks (rule : ExecRule serde config o i exec input o')
    (here : o.execs[i]? = some exec) : MarkStep o o' i exec input := by
  cases rule with
  | enter _ _ pc | cold _ pc _ | notCold _ pc _ | admitted _ pc _ | refused pc _ | callEnsure pc
  | callDegrade _ pc | callMark pc | degraded _ pc | retryDone _ _ _ pc _ =>
      exact .put rfl rfl (by rw [pc]; rfl) rfl
  | decided decision pc =>
      cases decision with
      | ready _ | failed _ _ => exact .put rfl rfl (by rw [pc]; rfl) rfl
      | warming _ _ =>
          refine ⟨_, rfl, ?_, by simp [ExecPc.over]⟩
          rw [pc]
          rfl
  | retryDecided decision pc =>
      cases decision with
      | ready _ | warming _ _ | failed _ _ => exact .put rfl rfl (by rw [pc]; rfl) rfl
  | embeddingsDegraded _ pc _ _ | handled _ pc _ =>
      exact .put (by simp) (by simp) (by rw [pc]; rfl) rfl
  | execute t pc drive =>
      exact .put (Orchestrator.drive_frame drive).1 (by rw [drive_metrics drive]) (by rw [pc]; rfl)
        rfl
  | scheduled _ _ pc drive _ _ | unwinding _ _ pc drive _ _ =>
      refine .same here (Orchestrator.drive_frame drive).1 (by rw [drive_metrics drive]) ?_
      rw [pc]
      rfl
  | complete _ _ _ _ _ pc _ _ _ drive =>
      refine .same here (Orchestrator.drive_frame drive).1 (by rw [drive_metrics drive]; rfl) ?_
      rw [pc]
      rfl
  | operate _ _ _ _ _ pc _ _ _ drive =>
      refine .same here ?_ (by rw [drive_metrics drive, noteDelivery_metrics]) (by rw [pc]; rfl)
      rw [(Orchestrator.drive_frame drive).1, Orchestrator.noteDelivery_execs]
  | executed t _ outcome pc drive _ _ =>
      obtain ⟨exec', hexecs, hmetrics, going⟩ := afterExecute_marks t exec outcome
      refine ⟨exec', ?_, ?_, ?_⟩
      · rw [hexecs, (Orchestrator.drive_frame drive).1]
      · rw [hmetrics, drive_metrics drive, pc]
      · intro isOver
        rw [going] at isOver
        cases isOver
  | retryPending _ _ _ pc _ => exact .put (by simp) (by simp) (by rw [pc]; rfl) rfl
  | returned response pc => exact ⟨_, rfl, by rw [pc]; rfl, fun _ => .inr (by rw [pc]; rfl)⟩
  | relayed pc => exact ⟨_, rfl, by rw [pc]; rfl, fun _ => .inl (by rw [pc]; rfl)⟩
  | unwoundAwaiting _ pc =>
      refine .put rfl rfl ?_ rfl
      cases exec.pc <;> rfl
  | unwoundScheduled t _ pc drive | unwoundCall t _ pc drive _ _ =>
      exact .put (Orchestrator.drive_frame drive).1 (by rw [drive_metrics drive]) (by rw [pc]; rfl)
        rfl
  | dropped pc => exact ⟨_, rfl, by rw [pc]; rfl, fun _ => .inr (by rw [pc]; rfl)⟩

end Step

/-! ### Who sends wakes -/

def degrades : ClientPc → Bool
  | .degradeBorrow _ | .degradePublish _ => true
  | _ => false

theorem degrades_of_leads {pc : ClientPc} (h : pc.leads = true) : degrades pc = false := by
  cases pc <;> first | rfl | cases h

/-- The client of a call that awaits `degrade_embeddings` is in that call. -/
def DegradesIfAsked (pc : ClientPc) (exec : Exec) : Prop :=
  ∀ reason, exec.pc = .awaitDegraded reason → degrades pc = true

theorem degradesIfAsked_begun {exec : Exec} {op : Lifecycle.Op} {pc : ExecPc}
    (call : exec.lifecycleCall = some op)
    (asked : ∀ reason, pc = .awaitDegraded reason → exec.pc = .degrade reason) :
    DegradesIfAsked op.entry (exec.goto pc) := by
  intro reason hpc
  rw [Exec.lifecycleCall, asked reason hpc] at call
  cases call
  rfl

theorem degradesIfAsked_moved {core core' : Lifecycle.Core} {pc pc' : ClientPc} {exec : Exec}
    (rule : ClientRule timing core pc core' pc') (busy : clientBusy pc' = true)
    (h : DegradesIfAsked pc exec) : DegradesIfAsked pc' exec := by
  intro reason hpc
  have hdegrades := h reason hpc
  cases rule with
  | degradeBorrow _ => rfl
  | degradePublish _ => cases busy
  | _ => cases hdegrades

theorem degradesIfAsked_reachable {execs : Nat} {initial : Backend → BackendStatus} {instant : Nat}
    {clock : Timestamp}
    (h : (proxy serde config timing).Reachable (.new config execs initial instant clock) s) :
    LinkedWith config DegradesIfAsked s := by
  refine h.invariant (linkedWith_new execs initial instant clock) fun _ _ _ ht hstep => ?_
  refine linkedWith_step ht hstep ?_ ?_
  · exact fun _ _ _ call asked => degradesIfAsked_begun call asked
  · exact fun _ _ _ _ _ _ _ _ _ _ rule busy held => degradesIfAsked_moved rule busy held

theorem awaits_of_leads (h : LinkedWith config DegradesIfAsked s) {backend : Backend} {i : Nat}
    {pc : ClientPc} (client : (s.lifecycles backend).clients[i]? = some pc)
    (leads : pc.leads = true) :
    ∃ exec, s.orchestrator.execs[i]? = some exec ∧
      (exec.pc = .awaitDecision ∨ exec.pc = .awaitRetryDecision) := by
  have busy : clientBusy pc = true := by
    cases pc <;> first | rfl | cases leads
  obtain ⟨exec, here, awaits, _, asked⟩ := h backend i pc client busy
  refine ⟨exec, here, ?_⟩
  cases hpc : exec.pc with
  | awaitDecision => exact .inl rfl
  | awaitRetryDecision => exact .inr rfl
  | awaitDegraded reason =>
      have hdegrades := asked reason hpc
      rw [degrades_of_leads leads] at hdegrades
      cases hdegrades
  | _ =>
      rw [hpc] at awaits
      cases awaits

/-! ### The books -/

/-- The marks of a run account for its wakes and for the counter, and every call that is
over has been a plain one. -/
structure Booked (t : Proxy × List (Nat × Mark)) : Prop where
  wakes : t.2.countP (fun mark => mark.2.isAsleep) = t.1.wakes
  counted : t.2.countP (fun mark => !mark.2.isAsleep) = t.1.orchestrator.metrics.wakeAttempts
  calls : ∀ (i : Nat) (exec : Exec), t.1.orchestrator.execs[i]? = some exec →
    exec.pc.over = true → plain (marksOf i t.2) = true
  nobody : ∀ i, t.1.orchestrator.execs[i]? = none → marksOf i t.2 = []

/-- Replacing one manager moves a total over both by exactly that manager's change. -/
theorem total_update (f : Manager → Nat) (lifecycles : Backend → Manager) (backend : Backend)
    (manager : Manager) :
    f (Function.update lifecycles backend manager .chat) +
        f (Function.update lifecycles backend manager .embeddings) + f (lifecycles backend) =
      f (lifecycles .chat) + f (lifecycles .embeddings) + f manager := by
  cases backend with
  | chat =>
      rw [Function.update_self, Function.update_of_ne (by decide)]
      omega
  | embeddings =>
      rw [Function.update_self, Function.update_of_ne (by decide)]
      omega

theorem wakes_update (o : Orchestrator) (sent : Nat) {backend : Backend} {manager : Manager}
    (h : manager.core.wakes = (s.lifecycles backend).core.wakes + sent) :
    Proxy.wakes { orchestrator := o, lifecycles := Function.update s.lifecycles backend manager } =
      s.wakes + sent := by
  have balance := total_update (fun m => m.core.wakes) s.lifecycles backend manager
  simp only [Proxy.wakes]
  omega

theorem AnswerRule.core {manager manager' : Manager} {i : Nat} {exec : Exec} {input : Input}
    (rule : AnswerRule manager i exec input manager') : manager'.core = manager.core := by
  cases rule <;> rfl

theorem elapse_keeps {span : Lifecycle.Duration} {clock : Timestamp}
    (h : (proxy serde config timing).step s (.elapse span clock) = some s') :
    s'.orchestrator.execs = s.orchestrator.execs ∧
      s'.orchestrator.metrics = s.orchestrator.metrics ∧ s'.wakes = s.wakes := by
  cases h
  exact ⟨rfl, rfl, rfl⟩

@[simp] theorem marksOf_cons_self (i : Nat) (mark : Mark) (marks : List (Nat × Mark)) :
    marksOf i ((i, mark) :: marks) = mark :: marksOf i marks := by
  simp [marksOf]

theorem marksOf_cons_of_ne {i j : Nat} (h : j ≠ i) (mark : Mark) (marks : List (Nat × Mark)) :
    marksOf i ((j, mark) :: marks) = marksOf i marks := by
  simp [marksOf, h]

theorem Booked.mark {marks : List (Nat × Mark)} {t : Proxy} {i : Nat} {exec : Exec} {mark : Mark}
    (hs : Booked (s, marks)) (here : t.orchestrator.execs[i]? = some exec)
    (going : exec.pc.over = false)
    (others : ∀ j, j ≠ i → t.orchestrator.execs[j]? = s.orchestrator.execs[j]?)
    (sent : t.wakes = s.wakes + mark.isAsleep.toNat)
    (counted : t.orchestrator.metrics.wakeAttempts =
      s.orchestrator.metrics.wakeAttempts + (!mark.isAsleep).toNat) :
    Booked (t, (i, mark) :: marks) := by
  refine ⟨?_, ?_, ?_, ?_⟩
  · rw [sent, ← hs.wakes, List.countP_cons]
    cases mark <;> rfl
  · rw [counted, ← hs.counted, List.countP_cons]
    cases mark <;> rfl
  · intro j other hother isOver
    have hj : j ≠ i := by
      rintro rfl
      obtain rfl : exec = other := Option.some.inj (here.symm.trans hother)
      rw [going] at isOver
      cases isOver
    rw [marksOf_cons_of_ne (Ne.symm hj)]
    exact hs.calls j other (others j hj ▸ hother) isOver
  · intro j hnone
    have hj : j ≠ i := by
      rintro rfl
      rw [here] at hnone
      cases hnone
    rw [marksOf_cons_of_ne (Ne.symm hj)]
    exact hs.nobody j (others j hj ▸ hnone)

theorem Booked.unmarked {marks : List (Nat × Mark)} {t : Proxy} (hs : Booked (s, marks))
    (calls : ∀ (i : Nat) (exec : Exec), t.orchestrator.execs[i]? = some exec →
      exec.pc.over = true → plain (marksOf i marks) = true)
    (length : t.orchestrator.execs.length = s.orchestrator.execs.length)
    (metrics : t.orchestrator.metrics.wakeAttempts = s.orchestrator.metrics.wakeAttempts)
    (sent : t.wakes = s.wakes) : Booked (t, marks) := by
  refine ⟨hs.wakes.trans sent.symm, hs.counted.trans metrics.symm, calls, ?_⟩
  intro i hnone
  refine hs.nobody i (List.getElem?_eq_none_iff.mpr ?_)
  exact length ▸ List.getElem?_eq_none_iff.mp hnone

theorem Booked.same {marks : List (Nat × Mark)} {t : Proxy} (hs : Booked (s, marks))
    (execs : t.orchestrator.execs = s.orchestrator.execs)
    (metrics : t.orchestrator.metrics = s.orchestrator.metrics) (sent : t.wakes = s.wakes) :
    Booked (t, marks) :=
  hs.unmarked (execs ▸ hs.calls) (by rw [execs]) (by rw [metrics]) sent

theorem booked_exec {marks : List (Nat × Mark)} {i : Nat} {exec : Exec} {input : Input}
    {t : Proxy} (hs : Booked (s, marks)) (here : s.orchestrator.execs[i]? = some exec)
    (sent : t.wakes = s.wakes) (step : MarkStep s.orchestrator t.orchestrator i exec input)
    (ok : EndsPlainly (s, marks) (.exec i input)) :
    Booked (t, noteMarks s (.exec i input) t marks) := by
  obtain ⟨exec', hexecs, hmetrics, hover⟩ := step
  have here' : t.orchestrator.execs[i]? = some exec' := by
    rw [hexecs, getElem?_set_of_some here]
  have noted : noteMarks s (.exec i input) t marks =
      ((exec.pc.mark input exec'.pc).map fun mark => (i, mark)).toList ++ marks := by
    simp [noteMarks, markOf, here, here']
  rw [noted]
  cases hmark : exec.pc.mark input exec'.pc with
  | some mark =>
      rw [hmark] at hmetrics
      have awake := mark_isAsleep hmark
      refine hs.mark here' ?_ ?_ (by rw [sent, awake]; rfl) (by rw [hmetrics, awake]; rfl)
      · -- only a call that awaits its first decision or its first forward leaves a mark
        obtain hpc | hpc := awaits_of_mark hmark <;>
          simpa [hpc, ExecPc.over, ExecPc.ends] using hover
      · intro j hj
        rw [hexecs, List.getElem?_set_ne (Ne.symm hj)]
  | none =>
      rw [hmark] at hmetrics
      refine hs.unmarked ?_ (by rw [hexecs, List.length_set]) hmetrics sent
      intro j other hother isOver
      rw [hexecs] at hother
      obtain ⟨rfl, rfl⟩ | ⟨_, hother⟩ := getElem?_set_cases here hother
      · obtain was | ends := hover isOver
        · exact hs.calls j exec here was
        · simpa [EndsPlainly, endsPlainly, here, ends] using ok
      · exact hs.calls j other hother isOver

theorem booked_lifecycle {marks : List (Nat × Mark)} {backend : Backend}
    {action : Lifecycle.Action} (hs : Booked (s, marks))
    (linked : LinkedWith config DegradesIfAsked s)
    (h : (proxy serde config timing).step s (.lifecycle backend action) = some s') :
    Booked (s', noteMarks s (.lifecycle backend action) s' marks) := by
  obtain ⟨own, hrest⟩ := Option.ite_none_right_eq_some.mp h
  obtain ⟨manager, hmanager, rfl⟩ := Option.map_eq_some_iff.mp hrest
  cases action with
  | begin _ _ | drop _ | elapse _ _ => cases own
  | task k input =>
      refine hs.same rfl rfl (wakes_update _ 0 ?_)
      have rule : Lifecycle.ManagerRule timing _ (.task k input) manager :=
        Lifecycle.step_cases hmanager
      cases rule with
      | task _ _ _ _ _ _ rule => exact rule.wakes_eq
  | client i input =>
      obtain ⟨pc, here, hrest⟩ := Option.bind_eq_some_iff.mp hmanager
      obtain ⟨⟨core, pc'⟩, hclient, hmanager⟩ := Option.bind_eq_some_iff.mp hrest
      cases hmanager
      have sent := Lifecycle.clientStep_wakes hclient
      simp only [noteMarks, markOf, here, Option.bind_eq_bind, Option.bind_some]
      cases hasleep : pc.findsAsleep input with
      | true =>
          rw [hasleep] at sent
          obtain ⟨exec, hexec, awaits⟩ := awaits_of_leads linked here (ClientPc.leads_of_asleep hasleep)
          refine hs.mark hexec ?_ (fun _ _ => rfl) (wakes_update _ 1 sent) rfl
          obtain hpc | hpc := awaits <;> (rw [hpc]; rfl)
      | false =>
          rw [hasleep] at sent
          exact hs.same rfl rfl (wakes_update _ 0 sent)

theorem booked_step {t t' : Proxy × List (Nat × Mark)} {a : Proxy.Action} (hs : Booked t)
    (linked : LinkedWith config DegradesIfAsked t.1) (ok : EndsPlainly t a)
    (h : ((proxy serde config timing).monitor noteMarks).step t a = some t') : Booked t' := by
  obtain ⟨s, marks⟩ := t
  obtain ⟨s', marks'⟩ := t'
  obtain ⟨hstep, hnote⟩ := System.monitor_step_iff.mp h
  obtain rfl : marks' = noteMarks s a s' marks := hnote
  have rule : ProxyRule serde config timing s a s' := proxy_cases hstep
  cases rule with
  | exec i input exec manager o here answered stepped =>
      refine booked_exec hs here (wakes_update o 0 ?_) ((execStep_cases stepped).marks here) ok
      rw [(answer_cases answered).core]
      rfl
  | lifecycle backend action _ _ _ => exact booked_lifecycle hs linked hstep
  | elapse span clock _ stepped _ =>
      obtain ⟨execs, metrics, sent⟩ := elapse_keeps hstep
      exact hs.same execs metrics sent

section Reachable

variable {execs instant : Nat} {initial : Backend → BackendStatus} {clock : Timestamp}

theorem booked_reachable {t : Proxy × List (Nat × Mark)}
    (h : (((proxy serde config timing).monitor noteMarks).restrict EndsPlainly).Reachable
      (.new config execs initial instant clock, []) t) : Booked t := by
  induction h with
  | refl => exact ⟨rfl, rfl, fun _ _ _ _ => rfl, fun _ _ => rfl⟩
  | step ht hstep ih =>
      obtain ⟨ok, hstep⟩ := System.restrict_step_iff.mp hstep
      exact booked_step ih (degradesIfAsked_reachable ht.unrestrict.unmonitor) ok hstep

theorem plain_even {marks : List Mark} (h : plain marks = true) :
    marks.countP Mark.isAsleep = marks.countP (fun mark => !mark.isAsleep) := by
  unfold plain at h
  split at h
  · rfl
  · rfl
  · rfl
  · rfl
  · cases h

theorem countP_marksOf (p : Mark → Bool) (i : Nat) (marks : List (Nat × Mark)) :
    (marksOf i marks).countP p = ((marks.filter fun mark => p mark.2).map Prod.fst).count i := by
  rw [marksOf, List.count_eq_countP, List.countP_map, List.countP_map, List.countP_filter,
    List.countP_filter]
  refine List.countP_congr fun mark _ => ?_
  simp [and_comm]

/-- In a run in which every call that ends has been a plain one, `wake_attempts` is the
number of wakes once all calls are over. -/
theorem wakeAttempts_counts_wakes {t : Proxy × List (Nat × Mark)}
    (h : (((proxy serde config timing).monitor noteMarks).restrict EndsPlainly).Reachable
      (.new config execs initial instant clock, []) t)
    (ended : ∀ exec ∈ t.1.orchestrator.execs, exec.pc.over = true) :
    t.1.orchestrator.metrics.wakeAttempts = t.1.wakes := by
  have booked := booked_reachable h
  have isPlain : ∀ i, plain (marksOf i t.2) = true := by
    intro i
    cases hexec : t.1.orchestrator.execs[i]? with
    | none =>
        rw [booked.nobody i hexec]
        rfl
    | some exec => exact booked.calls i exec hexec (ended exec (List.mem_of_getElem? hexec))
  have marked : ∀ p : Mark → Bool, t.2.countP (fun mark => p mark.2) =
      ((t.2.filter fun mark => p mark.2).map Prod.fst).length := by
    intro p
    rw [List.length_map, List.countP_eq_length_filter]
  rw [← booked.counted, ← booked.wakes, marked fun mark => !mark.isAsleep, marked]
  refine List.Perm.length_eq (List.perm_iff_count.mpr fun i => ?_)
  rw [← countP_marksOf (fun mark => !mark.isAsleep), ← countP_marksOf]
  exact (plain_even (isPlain i)).symm

end Reachable

section Miscounted

def wokenStatus : BackendStatus :=
  { BackendStatus.default with lifecycle := .warming, lastWakeAttemptAt := some ⟨0⟩ }

/-- Call `i` waits its time and is told that the backend is still starting. -/
def waitSchedule (i : Nat) : List Proxy.Action :=
  [.elapse (Lifecycle.Duration.fromSecs 1) ⟨1⟩, .lifecycle .chat (.client i .run),
    .lifecycle .chat (.client i .run), .exec i (.decide (.warming wokenStatus 10)), .exec i .run]

/-- The first call leads a round, and its wake fails. -/
def wakeFailsSchedule : List Proxy.Action :=
  [.exec 0 (.enter .chat false), .exec 0 (.status .default), .exec 0 .run, .exec 0 .call] ++
    List.replicate 4 (.lifecycle .chat (.client 0 .run)) ++
    [.lifecycle .chat (.client 0 (.answer (.ssh (.ok false)))),
      .lifecycle .chat (.client 0 (.answer (.wake (.error ⟨""⟩)))),
      .lifecycle .chat (.client 0 .run),
      .exec 0 (.decide (.failed { BackendStatus.default with
                                  lifecycle := .error, lastWakeAttemptAt := some ⟨0⟩ } ⟨""⟩)),
      .exec 0 .run]

def allOver (s : Proxy) : Bool := s.orchestrator.execs.all fun exec => exec.pc.over

theorem over_of_allOver (h : allOver s = true) :
    ∀ exec ∈ s.orchestrator.execs, exec.pc.over = true :=
  List.all_eq_true.mp h

/-- A call that sends a wake, waits its time and is told so. -/
theorem wakeAttempts_counts_wakes_woken :
    ∃ t, (((proxy SerdeJson.mute oneColdStart Lifecycle.exampleTiming).monitor noteMarks).restrict
        EndsPlainly).Reachable (.new oneColdStart 1 (fun _ => .default) 0 ⟨0⟩, []) t ∧
      t.1.wakes = 1 ∧ t.1.orchestrator.metrics.wakeAttempts = t.1.wakes := by
  have told : ∃ t, (((proxy SerdeJson.mute oneColdStart Lifecycle.exampleTiming).monitor
      noteMarks).restrict EndsPlainly).Reachable
        (.new oneColdStart 1 (fun _ => .default) 0 ⟨0⟩, []) t ∧
          (allOver t.1 = true ∧ t.1.wakes = 1) :=
    System.reachable_of_check (wakeSchedule ++ waitSchedule 0) (by decide)
  obtain ⟨t, ht, hover, hwakes⟩ := told
  exact ⟨t, ht, hwakes, wakeAttempts_counts_wakes ht (over_of_allOver hover)⟩

/-- A call that joins the round is counted for a wake it does not send, and a call
whose wake fails is not counted. -/
theorem wakeAttempts_miscounts :
    (∃ s, (proxy SerdeJson.mute oneColdStart Lifecycle.exampleTiming).Reachable
        (.new oneColdStart 2 (fun _ => .default) 0 ⟨0⟩) s ∧
      allOver s = true ∧ s.wakes = 1 ∧ s.orchestrator.metrics.wakeAttempts = 2) ∧
    ∃ s, (proxy SerdeJson.mute oneColdStart Lifecycle.exampleTiming).Reachable
        (.new oneColdStart 1 (fun _ => .default) 0 ⟨0⟩) s ∧
      allOver s = true ∧ s.wakes = 1 ∧ s.orchestrator.metrics.wakeAttempts = 0 :=
  ⟨System.reachable_of_check
      (wakeSchedule ++ joinSchedule ++ [.lifecycle .chat (.client 1 .run)] ++ waitSchedule 0 ++
        waitSchedule 1) (by decide),
    System.reachable_of_check wakeFailsSchedule (by decide)⟩

end Miscounted
end LlmWakeProxy.Orchestrate
