import LlmWakeProxy.Lifecycle.Evidence
import LlmWakeProxy.Orchestrate.TunnelDrops

/-!
What a forwarded request rests on. A call forwards its request only after a decision
that its backend is ready, and that decision goes back, through waiters, republished
statuses and the calls of others, to one pass of `observe_once` over that backend in
which SSH, the helper and the tunnel all said so.
-/

namespace LlmWakeProxy.Orchestrate
open LlmWakeProxy.Library LlmWakeProxy.Forward
open LlmWakeProxy.Lifecycle (LifecycleRequest LifecycleTiming BackendStatus Timestamp Manager
  Sightings Sighting noteSighting backendIsReady evident_step evident_new)

universe u
variable {ν : Type u} {serde : SerdeJson ν} {config : AppConfig} {timing : LifecycleTiming}
variable {s s' : Proxy} {n : Backend → Sightings} {initial : Backend → BackendStatus}

def noteSightings (s : Proxy) (a : Proxy.Action) (s' : Proxy) (n : Backend → Sightings) :
    Backend → Sightings :=
  match a with
  | .lifecycle backend action =>
      Function.update n backend
        (noteSighting (s.lifecycles backend) action (s'.lifecycles backend) (n backend))
  | _ => n

/-- The call has been told that its backend is ready, and may forward its request. -/
def ExecPc.warranted : ExecPc → Bool
  | .handleReady _ | .execute | .scheduled | .retrying _ => true
  | _ => false

/-! ### The steps of the call -/

/-- The step tells the call that its backend is ready. -/
def tellsReady (config : AppConfig) (exec : Exec) (input : Input) : Prop :=
  exec.pc.awaitsLifecycle = true ∧ config.backendOf exec = config.lifecycleFor exec.kind ∧
    ∃ status, input = .decide (.ready status)

structure WarrantStep (config : AppConfig) (o o' : Orchestrator) (i : Nat) (exec : Exec)
    (input : Input) : Prop where
  moved : ∃ exec', o'.execs = o.execs.set i exec' ∧ exec'.pc ≠ .idle ∧
    (exec'.kind = exec.kind ∨ exec.pc = .idle) ∧
    (exec'.pc.warranted = true → exec'.kind = exec.kind ∧
      (exec.pc.warranted = true ∨ tellsReady config exec input))
  delivered : ∀ j, .delivered j ∈ o'.log →
    .delivered j ∈ o.log ∨ j = i ∧ exec.pc.warranted = true

section Step

variable {o o' : Orchestrator} {i : Nat} {exec : Exec} {input : Input}

theorem WarrantStep.put {t : Orchestrator} (pc : ExecPc) (execs : t.execs = o.execs)
    (inside : pc ≠ .idle) (told : pc.warranted = true →
      exec.pc.warranted = true ∨ tellsReady config exec input)
    (delivered : ∀ j, .delivered j ∈ t.log →
      .delivered j ∈ o.log ∨ j = i ∧ exec.pc.warranted = true) :
    WarrantStep config o (t.put i (exec.goto pc)) i exec input :=
  ⟨⟨exec.goto pc, by rw [Orchestrator.put_execs, execs], inside, .inl rfl,
    fun warranted => ⟨rfl, told warranted⟩⟩, delivered⟩

theorem WarrantStep.same (here : o.execs[i]? = some exec) (execs : o'.execs = o.execs)
    (inside : exec.pc ≠ .idle) (delivered : ∀ j, .delivered j ∈ o'.log →
      .delivered j ∈ o.log ∨ j = i ∧ exec.pc.warranted = true) :
    WarrantStep config o o' i exec input :=
  ⟨⟨exec, by rw [execs, set_of_some here], inside, .inl rfl, fun warranted => ⟨rfl, .inl warranted⟩⟩,
    delivered⟩

theorem mem_of_noteDelivery {j : Nat} {pc : ForwardPc} {forward : ForwardInput}
    (warranted : exec.pc.warranted = true) (h : .delivered j ∈ (o.noteDelivery i pc forward).log) :
    .delivered j ∈ o.log ∨ j = i ∧ exec.pc.warranted = true := by
  rw [noteDelivery_log, List.mem_append] at h
  obtain h | h := h
  · obtain heq | heq := mem_deliveryOf h
    · cases heq
      exact .inr ⟨rfl, warranted⟩
    · cases heq
  · exact .inl h

theorem ExecRule.warrantStep (config : AppConfig) (rule : ExecRule serde config o i exec input o')
    (here : o.execs[i]? = some exec) : WarrantStep config o o' i exec input := by
  have silent : ∀ {t : Orchestrator}, t.log = o.log → ∀ j, .delivered j ∈ t.log →
      .delivered j ∈ o.log ∨ j = i ∧ exec.pc.warranted = true :=
    fun log j h => .inl (log ▸ h)
  have emitted : ∀ {event : Event}, (∀ j, event ≠ .delivered j) → ∀ j,
      .delivered j ∈ (o.emit event).log → .delivered j ∈ o.log ∨ j = i ∧ exec.pc.warranted = true := by
    intro event other j h
    obtain h | h := List.mem_cons.mp h
    · exact absurd h.symm (other j)
    · exact .inl h
  have unwarranted : ∀ {pc : ExecPc}, pc.warranted = false → pc.warranted = true →
      exec.pc.warranted = true ∨ tellsReady config exec input :=
    fun hpc warranted => absurd (hpc.symm.trans warranted) Bool.false_ne_true
  cases rule with
  | enter kind stream pc =>
      exact ⟨⟨_, rfl, by simp, .inr pc, fun warranted => by cases warranted⟩, silent rfl⟩
  | admitted semaphore pc _ =>
      exact ⟨⟨_, rfl, by simp, .inl rfl, fun warranted => by cases warranted⟩, silent rfl⟩
  | cold _ _ _ | notCold _ _ _ | refused _ _ | callEnsure _ | callDegrade _ _ | callMark _
  | relayed _ | unwoundAwaiting _ _ =>
      exact .put _ rfl (by simp) (unwarranted rfl) (silent rfl)
  | decided decision pc =>
      cases decision with
      | ready status =>
          refine .put _ rfl (by simp) (fun _ => .inr ⟨by rw [pc]; rfl, ?_, status, rfl⟩) (silent rfl)
          simp only [AppConfig.backendOf, pc]
      | warming _ _ | failed _ _ => exact .put _ rfl (by simp) (unwarranted rfl) (silent rfl)
  | retryDecided decision pc =>
      cases decision with
      | ready status =>
          refine .put _ rfl (by simp) (fun _ => .inr ⟨by rw [pc]; rfl, ?_, status, rfl⟩) (silent rfl)
          simp only [AppConfig.backendOf, pc]
      | warming _ _ | failed _ _ => exact .put _ rfl (by simp) (unwarranted rfl) (silent rfl)
  | degraded reason _ =>
      exact .put _ rfl (by simp) (unwarranted rfl) (emitted (by simp))
  | embeddingsDegraded status pc _ _ =>
      exact .put _ (by simp) (by simp) (unwarranted rfl) (silent (by simp))
  | handled status pc _ =>
      exact .put _ (by simp) (by simp) (fun _ => .inl (by rw [pc]; rfl)) (silent (by simp))
  | execute t pc drive =>
      exact .put _ (Orchestrator.drive_frame drive).1 (by simp) (fun _ => .inl (by rw [pc]; rfl))
        (silent (Orchestrator.drive_log drive))
  | scheduled _ _ pc drive _ _ | unwinding _ _ pc drive _ _ =>
      exact .same here (Orchestrator.drive_frame drive).1 (by simp [pc]) (silent (Orchestrator.drive_log drive))
  | executed t _ outcome _ drive _ _ =>
      obtain ⟨inc, pc, ho, hpc⟩ := t.afterExecute_eq i exec outcome
      rw [ho]
      have log : t.log = o.log := Orchestrator.drive_log drive
      refine .put pc (Orchestrator.drive_frame drive).1 ?_ (unwarranted ?_)
        (silent (t := t.count inc) log)
      · obtain ⟨_, rfl⟩ | rfl | ⟨_, rfl, _⟩ := hpc <;> simp
      · obtain ⟨_, rfl⟩ | rfl | ⟨_, rfl, _⟩ := hpc <;> rfl
  | operate t _ _ _ _ pc _ _ _ drive =>
      refine .same here ?_ (by simp [pc]) fun j h => ?_
      · rw [(Orchestrator.drive_frame drive).1, Orchestrator.noteDelivery_execs]
      · rw [Orchestrator.drive_log drive] at h
        exact mem_of_noteDelivery (by rw [pc]; rfl) h
  | complete t _ _ _ _ pc _ _ _ drive =>
      refine .same here (Orchestrator.drive_frame drive).1 (by simp [pc]) fun j h => ?_
      rw [Orchestrator.drive_log drive] at h
      exact emitted (by simp) j h
  | retryPending _ _ after pc _ =>
      exact .put _ (by simp) (by simp) (fun _ => .inl (by rw [pc]; rfl))
        fun j h => mem_of_noteDelivery (by rw [pc]; rfl) h
  | retryDone _ _ _ _ _ => exact .put _ rfl (by simp) (unwarranted rfl) (emitted (by simp))
  | returned response _ =>
      refine ⟨⟨_, rfl, ?_, .inl rfl, fun warranted => ?_⟩, emitted (by simp)⟩
      · cases response.streams <;> simp
      · cases hstreams : response.streams <;> simp [hstreams, ExecPc.warranted] at warranted
  | unwoundScheduled t _ _ drive | unwoundCall t _ _ drive _ _ =>
      exact .put _ (Orchestrator.drive_frame drive).1 (by simp) (unwarranted rfl)
        (silent (Orchestrator.drive_log drive))
  | dropped _ =>
      exact ⟨⟨_, rfl, by simp, .inl rfl, fun warranted => by cases warranted⟩, silent rfl⟩

end Step

/-! ### Every run -/

def readyAtFirst (initial : Backend → BackendStatus) (backend : Backend) : Prop :=
  backendIsReady (initial backend) = true

/-- Who may forward, or has forwarded, does so on a sighting of its backend. -/
structure Proxy.Warranted (config : AppConfig) (initial : Backend → BackendStatus) (s : Proxy)
    (n : Backend → Sightings) : Prop where
  managers : ∀ backend, (s.lifecycles backend).Evident (readyAtFirst initial backend) (n backend)
  execs : ∀ exec ∈ s.orchestrator.execs, exec.pc.warranted = true →
    (n (config.lifecycleFor exec.kind)).Seen (readyAtFirst initial (config.lifecycleFor exec.kind))
  delivered : ∀ i, .delivered i ∈ s.orchestrator.log → ∃ exec,
    s.orchestrator.execs[i]? = some exec ∧ exec.pc ≠ .idle ∧
      (n (config.lifecycleFor exec.kind)).Seen
        (readyAtFirst initial (config.lifecycleFor exec.kind))

/-- Only a client that has been told so ends its call's await with a ready decision. -/
theorem seen_of_tellsReady {i : Nat} {exec : Exec} {input : Input} {manager : Manager}
    (h : s.Warranted config initial n)
    (answered : Proxy.answer timing (s.lifecycles (config.backendOf exec)) i exec input =
      some manager) (told : tellsReady config exec input) :
    (n (config.lifecycleFor exec.kind)).Seen
      (readyAtFirst initial (config.lifecycleFor exec.kind)) := by
  obtain ⟨_, same, status, rfl⟩ := told
  simp only [Proxy.answer] at answered
  split at answered
  next hreturned =>
    rw [← same]
    exact (h.managers (config.backendOf exec)).clients i _ hreturned status rfl
  next => cases answered

theorem answer_evident {manager manager' : Manager} {i : Nat} {exec : Exec} {input : Input}
    {initially : Prop} {sightings : Sightings}
    (h : Proxy.answer timing manager i exec input = some manager')
    (evident : manager.Evident initially sightings) : manager'.Evident initially sightings := by
  cases input with
  | call =>
      obtain ⟨op, _, hstep⟩ := Option.bind_eq_some_iff.mp h
      exact evident_step timing (a := .begin i op) evident hstep
  | unwind panicked =>
      simp only [Proxy.answer] at h
      split at h
      next =>
        cases panicked with
        | true =>
            simp only [if_true] at h
            split at h
            next => cases h; exact evident
            next => cases h
        | false => exact evident_step timing (a := .drop i) evident h
      next => cases h; exact evident
  | status _ | decide _ | degraded =>
      simp only [Proxy.answer] at h
      split at h
      next => cases h; exact evident
      next => cases h
  | enter _ _ | run | forward _ | relayed =>
      cases h
      exact evident

theorem warranted_exec {i : Nat} {exec : Exec} {input : Input} {manager : Manager}
    {o : Orchestrator} (h : s.Warranted config initial n)
    (here : s.orchestrator.execs[i]? = some exec)
    (answered : Proxy.answer timing (s.lifecycles (config.backendOf exec)) i exec input =
      some manager)
    (rule : ExecRule serde config s.orchestrator i exec input o) :
    Proxy.Warranted config initial
      { orchestrator := o
        lifecycles := Function.update s.lifecycles (config.backendOf exec) manager } n := by
  obtain ⟨⟨exec', execs, inside, kind, told⟩, delivered⟩ := rule.warrantStep config here
  refine ⟨fun backend => ?_, ?_, ?_⟩
  · by_cases hbackend : backend = config.backendOf exec
    · subst hbackend
      simp only [Function.update_self]
      exact answer_evident answered (h.managers _)
    · simp only [Function.update_of_ne hbackend]
      exact h.managers backend
  · simp only [execs]
    refine forall_mem_set h.execs fun warranted => ?_
    obtain ⟨same, before | ready⟩ := told warranted
    · rw [same]
      exact h.execs exec (List.mem_of_getElem? here) before
    · rw [same]
      exact seen_of_tellsReady h answered ready
  · intro j hj
    simp only [execs]
    have there : ∀ other, s.orchestrator.execs[j]? = some other → j ≠ i →
        (s.orchestrator.execs.set i exec')[j]? = some other := fun other hother hne =>
      (List.getElem?_set_ne (Ne.symm hne)).trans hother
    obtain hold | ⟨rfl, warranted⟩ := delivered j hj
    · obtain ⟨other, hother, present, seen⟩ := h.delivered j hold
      by_cases hji : j = i
      · subst hji
        obtain rfl : exec = other := Option.some.inj (here.symm.trans hother)
        have same : exec'.kind = exec.kind := kind.resolve_right present
        exact ⟨exec', getElem?_set_of_some here _, inside, by rw [same]; exact seen⟩
      · exact ⟨other, there other hother hji, present, seen⟩
    · have present : exec.pc ≠ .idle := by
        intro hpc
        rw [hpc] at warranted
        cases warranted
      have same : exec'.kind = exec.kind := kind.resolve_right present
      refine ⟨exec', getElem?_set_of_some here _, inside, ?_⟩
      rw [same]
      exact h.execs exec (List.mem_of_getElem? here) warranted

theorem seen_noteSighting {manager manager' : Manager} {action : Lifecycle.Action}
    {sightings : Sightings} {initially : Prop} (h : sightings.Seen initially) :
    (noteSighting manager action manager' sightings).Seen initially := by
  cases action with
  | client _ input | task _ input =>
      cases input with
      | answer _ => exact Sightings.seen_answered h
      | run | timeout => exact h
  | begin _ _ | drop _ | elapse _ _ => exact h

theorem seen_noteSightings {a : Proxy.Action} {backend : Backend} {initially : Prop}
    (h : (n backend).Seen initially) : (noteSightings s a s' n backend).Seen initially := by
  cases a with
  | exec _ _ | elapse _ _ => exact h
  | lifecycle other action =>
      simp only [noteSightings]
      by_cases hbackend : backend = other
      · subst hbackend
        rw [Function.update_self]
        exact seen_noteSighting h
      · rw [Function.update_of_ne hbackend]
        exact h

theorem warranted_step {a : Proxy.Action} (h : s.Warranted config initial n)
    (hstep : (proxy serde config timing).step s a = some s') :
    s'.Warranted config initial (noteSightings s a s' n) := by
  cases a with
  | exec i input =>
      obtain ⟨exec, here, hexec⟩ := Option.bind_eq_some_iff.mp hstep
      obtain ⟨manager, answered, hmanager⟩ := Option.bind_eq_some_iff.mp hexec
      obtain ⟨o, stepped, hs'⟩ := Option.bind_eq_some_iff.mp hmanager
      cases hs'
      exact warranted_exec h here answered (execStep_cases stepped)
  | lifecycle backend action =>
      simp only [proxy, Proxy.step] at hstep
      split at hstep
      next =>
        obtain ⟨manager, moved, rfl⟩ := Option.map_eq_some_iff.mp hstep
        refine ⟨fun other => ?_, fun exec hexec warranted =>
          seen_noteSightings (h.execs exec hexec warranted), fun i hi => ?_⟩
        · simp only [noteSightings]
          by_cases hother : other = backend
          · subst hother
            rw [Function.update_self, Function.update_self]
            exact evident_step timing (h.managers _) moved
          · rw [Function.update_of_ne hother, Function.update_of_ne hother]
            exact h.managers other
        · obtain ⟨exec, here, present, seen⟩ := h.delivered i hi
          exact ⟨exec, here, present, seen_noteSightings seen⟩
      next => cases hstep
  | elapse span clock =>
      cases hstep
      refine ⟨fun backend => ?_, h.execs, h.delivered⟩
      cases backend with
      | chat | embeddings =>
          exact evident_step timing (a := .elapse span clock) (h.managers _) rfl

theorem warranted_new (execs instant : Nat) (clock : Timestamp) :
    Proxy.Warranted config initial (.new config execs initial instant clock) fun _ => .none := by
  refine ⟨fun backend => evident_new execs (initial backend) instant clock, ?_, ?_⟩
  · intro exec hexec warranted
    obtain rfl := (List.mem_replicate.mp hexec).2
    cases warranted
  · intro i hi
    cases hi

theorem warranted_reachable {execs instant : Nat} {clock : Timestamp}
    (h : ((proxy serde config timing).monitor noteSightings).Reachable
      (.new config execs initial instant clock, fun _ => .none) (s, n)) :
    s.Warranted config initial n := by
  refine h.invariant (I := fun t => t.1.Warranted config initial t.2)
    (warranted_new execs instant clock) ?_
  intro t a t' ht hstep
  obtain ⟨moved, noted⟩ := System.monitor_step_iff.mp hstep
  rw [noted]
  exact warranted_step ht moved

/-- In every run of the proxy, a request that was delivered upstream went to a backend
that was ready from the start, or that some pass of `observe_once` of that backend's
manager had found ready: SSH had answered that the host is up, then the helper that the
backend is ready, and then the tunnel that it is. -/
theorem deliveries_rest_on_sightings (serde : SerdeJson ν) (config : AppConfig)
    (timing : LifecycleTiming) (execs : Nat) (initial : Backend → BackendStatus) (instant : Nat)
    (clock : Timestamp) (s : Proxy) (n : Backend → Sightings)
    (h : ((proxy serde config timing).monitor noteSightings).Reachable
      (.new config execs initial instant clock, fun _ => .none) (s, n)) (i : Nat)
    (delivered : .delivered i ∈ s.orchestrator.log) :
    ∃ exec, s.orchestrator.execs[i]? = some exec ∧
      (backendIsReady (initial (config.lifecycleFor exec.kind)) = true ∨
        ∃ trail ∈ (n (config.lifecycleFor exec.kind)).seen, Sighting trail) := by
  have warranted := warranted_reachable h
  obtain ⟨exec, here, _, initially | seen⟩ := warranted.delivered i delivered
  · exact ⟨exec, here, .inl initially⟩
  · obtain ⟨trail, hmem⟩ := List.exists_mem_of_ne_nil _ seen
    exact ⟨exec, here, .inr ⟨trail, hmem, (warranted.managers _).sightings trail hmem⟩⟩

section Delivered

/-- The first call leads a round, finds the backend ready, and its request is sent. -/
def deliverSchedule : List Proxy.Action :=
  handleSchedule ++ List.replicate 4 (.exec 0 .run) ++ [.exec 0 (.forward .deliver)]

def isDeliveryOf (i : Nat) : Event → Bool
  | .delivered j => i == j
  | _ => false

theorem delivered_of_any {log : List Event} {i : Nat} (h : log.any (isDeliveryOf i) = true) :
    .delivered i ∈ log := by
  obtain ⟨event, hmem, hevent⟩ := List.any_eq_true.mp h
  cases event with
  | delivered j =>
      obtain rfl : i = j := by simpa [isDeliveryOf] using hevent
      exact hmem
  | _ => cases hevent

theorem deliveries_rest_on_sightings_delivered :
    ∃ t : Proxy × (Backend → Sightings), (oneProxy.monitor noteSightings).Reachable
        (.new oneColdStart 1 (fun _ => .default) 0 ⟨0⟩, fun _ => .none) t ∧
      .delivered 0 ∈ t.1.orchestrator.log ∧
      ∃ exec, t.1.orchestrator.execs[0]? = some exec ∧
        (backendIsReady BackendStatus.default = true ∨
          ∃ trail ∈ (t.2 (oneColdStart.lifecycleFor exec.kind)).seen, Sighting trail) := by
  have sent : ∃ t : Proxy × (Backend → Sightings), (oneProxy.monitor noteSightings).Reachable
      (.new oneColdStart 1 (fun _ => .default) 0 ⟨0⟩, fun _ => .none) t ∧
      t.1.orchestrator.log.any (isDeliveryOf 0) = true :=
    System.reachable_of_check deliverSchedule (by decide)
  obtain ⟨⟨s, n⟩, ht, hlog⟩ := sent
  have delivered := delivered_of_any hlog
  exact ⟨(s, n), ht, delivered, deliveries_rest_on_sightings SerdeJson.mute oneColdStart
    Lifecycle.exampleTiming 1 (fun _ => .default) 0 ⟨0⟩ s n ht 0 delivered⟩

end Delivered
end LlmWakeProxy.Orchestrate
