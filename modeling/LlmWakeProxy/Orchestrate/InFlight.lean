import LlmWakeProxy.Scheduler.Accounting
import LlmWakeProxy.Orchestrate.Rules

/-!
The upstream requests in flight. A request is in flight from when it is sent
until its body has been relayed or dropped. While a request runs in the
scheduler it holds a permit, and there are no more of these than
`max_active_requests`. Two kinds of requests hold none: the body of a streamed
response outlives the permit of its call, and the request that follows an
unreachable upstream is sent outside the scheduler.
-/

namespace LlmWakeProxy.Orchestrate
open LlmWakeProxy.Library LlmWakeProxy.Scheduler LlmWakeProxy.Forward

universe u
variable {ν : Type u} {serde : SerdeJson ν} {config : AppConfig}
variable {s s' : Orchestrator}

def callInFlight : CallPc ForwardPc ForwardResult → Bool
  | .running _ => true
  | .finished (.ok response) => response.streams
  | _ => false

/-- The call of `execute` has a request in flight, outside the scheduler. -/
def ExecPc.inFlight : ExecPc → Bool
  | .retrying _ => true
  | .returning response => response.streams
  | .relaying => true
  | _ => false

namespace Orchestrator

def scheduledInFlight (s : Orchestrator) : Nat :=
  s.scheduler.calls.countP fun call => callInFlight call.pc

def escapedInFlight (s : Orchestrator) : Nat :=
  s.execs.countP fun exec => exec.pc.inFlight

def inFlight (s : Orchestrator) : Nat :=
  s.scheduledInFlight + s.escapedInFlight

end Orchestrator

/-- The step gives back the permit of a response that has its body still to
relay, or sends a request anew outside the scheduler. -/
def escapes (s : Orchestrator) : Action → Bool
  | .exec i .run =>
      match s.scheduler.calls[i]?.map Call.pc with
      | some (.finished (.ok response)) => response.streams
      | _ => false
  | .exec i (.decide (.ready _)) =>
      match s.execs[i]?.map Exec.pc with
      | some .awaitRetryDecision => true
      | _ => false
  | _ => false

/-- No request leaves the scheduler's permits. -/
def Confined (s : Orchestrator) (a : Action) : Prop := escapes s a = false

instance (s : Orchestrator) (a : Action) : Decidable (Confined s a) :=
  inferInstanceAs (Decidable (escapes s a = false))

/-! ### The scheduler's part -/

theorem drive_reachable {i : Nat} {input : Scheduler.Input ForwardPc ForwardResult}
    (h : s.drive config i input = some s') :
    (warmExecution config.warmExecution .begun).Reachable s.scheduler s'.scheduler := by
  obtain ⟨scheduler, hstep, rfl⟩ := Orchestrator.drive_eq_some h
  exact .step (a := .call i input) .refl hstep

theorem scheduler_step {a : Action} (h : (orchestrator serde config).step s a = some s') :
    (warmExecution config.warmExecution .begun).Reachable s.scheduler s'.scheduler := by
  cases step_cases h with
  | elapse span scheduler drive => exact .step (a := .elapse span) .refl drive
  | exec i input exec here _ rule =>
      cases rule with
      | decided decision _ =>
          obtain ⟨inc, pc, hs', _⟩ := s.afterDecision_eq i exec decision
          rw [hs']
          exact .refl
      | retryDecided decision _ =>
          obtain ⟨pc, hs', _⟩ := s.afterRetryDecision_eq i exec decision
          rw [hs']
          exact .refl
      | executed t call outcome _ drive =>
          obtain ⟨inc, pc, hs', _⟩ := t.afterExecute_eq i exec outcome
          rw [hs']
          simpa using drive_reachable drive
      | execute t _ drive => simpa using drive_reachable drive
      | scheduled _ _ _ drive => exact drive_reachable drive
      | operate _ input _ _ _ _ _ _ _ drive => simpa using drive_reachable drive
      | complete _ _ _ _ result _ _ _ _ drive => simpa using drive_reachable drive
      | unwoundScheduled t _ _ drive => simpa using drive_reachable drive
      | unwinding _ _ _ drive => exact drive_reachable drive
      | unwoundCall t _ _ drive => simpa using drive_reachable drive
      | embeddingsDegraded _ _ _ _ | handled _ _ _ | retryPending _ _ _ _ _ =>
          simp only [Orchestrator.put_scheduler, Orchestrator.checkTunnelDrop_scheduler,
            Orchestrator.noteDelivery_scheduler]
          exact .refl
      | _ => exact .refl

theorem scheduler_reachable {execs instant : Nat}
    (h : (orchestrator serde config).Reachable (.new config execs instant) s) :
    (warmExecution config.warmExecution .begun).Reachable
      (.new config.warmExecution execs instant) s.scheduler :=
  h.project (f := Orchestrator.scheduler) fun _ _ _ hstep => scheduler_step hstep

/-- What is in flight in the scheduler holds a permit. -/
theorem scheduledInFlight_le {execs instant : Nat}
    (h : (orchestrator serde config).Reachable (.new config execs instant) s) :
    s.scheduledInFlight ≤ config.warmExecution.maxActiveRequests := by
  have accounts := accounted_reachable (scheduler_reachable h)
  have hpermits := accounts.permits
  have hle : s.scheduledInFlight ≤ s.scheduler.permitsHeld := by
    refine List.countP_mono_left ?_
    intro call _ hcall
    cases hpc : call.pc with
    | running operation => rfl
    | finished output => rfl
    | _ => simp [hpc, callInFlight] at hcall
  omega

/-! ### What escapes the scheduler -/

theorem escapedInFlight_eq_zero :
    s.escapedInFlight = 0 ↔ ∀ exec ∈ s.execs, exec.pc.inFlight = false := by
  simp [Orchestrator.escapedInFlight, List.countP_eq_zero]

theorem confined_decide {i : Nat} {exec : Exec} {status : Lifecycle.BackendStatus}
    (ok : Confined s (.exec i (.decide (.ready status)))) (here : s.execs[i]? = some exec) :
    exec.pc ≠ .awaitRetryDecision := by
  intro hpc
  simp [Confined, escapes, here, hpc] at ok

/-- In a confined step the scheduler returns no response that is still streaming. -/
theorem confined_executed {i : Nat} {t : Orchestrator} {call : Call ForwardPc ForwardResult}
    {response : Response} (ok : Confined s (.exec i .run)) (drive : s.drive config i .run = some t)
    (here : t.scheduler.calls[i]? = some call) (returned : call.pc = .returned (.ok (.ok response))) :
    response.streams = false := by
  obtain ⟨scheduler, hstep, rfl⟩ := Orchestrator.drive_eq_some drive
  obtain ⟨before, hbefore, hcall⟩ := Option.bind_eq_some_iff.mp hstep
  have hfinished := (callStep_cases hcall).finished_of_returned hbefore here returned
  simpa [Confined, escapes, hbefore, hfinished] using ok

theorem escapedInFlight_step {a : Action} (hs : ∀ exec ∈ s.execs, exec.pc.inFlight = false)
    (ok : Confined s a) (h : (orchestrator serde config).step s a = some s') :
    ∀ exec ∈ s'.execs, exec.pc.inFlight = false := by
  cases step_cases h with
  | elapse _ _ _ => exact hs
  | exec i input exec here _ rule =>
      cases rule with
      | decided decision _ =>
          obtain ⟨inc, pc, hs', hpc⟩ := s.afterDecision_eq i exec decision
          rw [hs']
          refine forall_mem_set hs ?_
          obtain ⟨_, _, rfl⟩ | ⟨_, rfl, hstreams⟩ := hpc
          · rfl
          · exact hstreams
      | retryDecided decision hpc =>
          obtain ⟨pc, hs', hpc'⟩ := s.afterRetryDecision_eq i exec decision
          rw [hs']
          refine forall_mem_set hs ?_
          obtain ⟨_, rfl, _⟩ | ⟨_, rfl, hstreams⟩ := hpc'
          · exact absurd hpc (confined_decide ok here)
          · exact hstreams
      | executed t call outcome _ drive hcall returned =>
          obtain ⟨inc, pc, hs', hpc⟩ := t.afterExecute_eq i exec outcome
          rw [hs']
          refine forall_mem_set (l := t.execs) ?_ ?_
          · rw [(Orchestrator.drive_frame drive).1]
            exact hs
          · obtain ⟨_, rfl⟩ | rfl | ⟨response, rfl, rfl | hstreams⟩ := hpc
            · rfl
            · rfl
            · exact confined_executed ok drive hcall returned
            · exact hstreams
      | scheduled _ _ _ drive => rwa [(Orchestrator.drive_frame drive).1]
      | unwinding _ _ _ drive => rwa [(Orchestrator.drive_frame drive).1]
      | operate _ _ _ _ _ _ _ _ _ drive =>
          rwa [(Orchestrator.drive_frame drive).1, Orchestrator.noteDelivery_execs]
      | complete _ _ _ _ _ _ _ _ _ drive => rwa [(Orchestrator.drive_frame drive).1]
      | execute t _ drive | unwoundScheduled t _ _ drive | unwoundCall t _ _ drive =>
          refine forall_mem_set (l := t.execs) ?_ rfl
          rwa [(Orchestrator.drive_frame drive).1]
      | embeddingsDegraded _ _ _ _ | handled _ _ _ =>
          rw [Orchestrator.put_execs, Orchestrator.checkTunnelDrop_execs]
          exact forall_mem_set hs rfl
      | retryPending _ _ _ hpc _ | retryDone _ _ _ hpc _ =>
          have hcalm := hs exec (List.mem_of_getElem? here)
          rw [hpc] at hcalm
          cases hcalm
      | returned response hpc =>
          have hcalm := hs exec (List.mem_of_getElem? here)
          rw [hpc] at hcalm
          refine forall_mem_set hs ?_
          simp only [show response.streams = false from hcalm]
          rfl
      | _ => exact forall_mem_set hs rfl

/-- The requests in flight are never more than `max_active_requests` and those
that escaped the scheduler's permits; in a run that lets none escape they keep
within the limit. -/
theorem inFlight_within_permits (serde : SerdeJson ν) (config : AppConfig) (execs instant : Nat) :
    (∀ s, (orchestrator serde config).Reachable (.new config execs instant) s →
      s.inFlight ≤ config.warmExecution.maxActiveRequests + s.escapedInFlight) ∧
    ∀ s, ((orchestrator serde config).restrict Confined).Reachable (.new config execs instant) s →
      s.inFlight ≤ config.warmExecution.maxActiveRequests := by
  constructor
  · intro s h
    exact Nat.add_le_add_right (scheduledInFlight_le h) _
  · intro s h
    have hcalm : ∀ exec ∈ s.execs, exec.pc.inFlight = false := by
      refine h.invariant_restrict ?_ fun t a t' ht ok hstep => escapedInFlight_step ht ok hstep
      intro exec hexec
      obtain rfl := (List.mem_replicate.mp hexec).2
      rfl
    have hle := scheduledInFlight_le h.unrestrict
    simpa only [Orchestrator.inFlight, escapedInFlight_eq_zero.mpr hcalm, Nat.add_zero] using hle

section Overrun

def oneAtATime : AppConfig where
  modelAlias := ['a']
  tunnelLocalPort := 8080
  embeddingsBackend := none
  warmExecution := { maxActiveRequests := 1, maxQueuedRequests := 0, queueTimeout := 0 }
  coldStartMaxWaiting := 1

def servingStatus : Lifecycle.BackendStatus :=
  { Lifecycle.BackendStatus.default with lifecycle := .ready, tunnel := .ready }

/-- Call `i` arrives, finds the backend ready and sends its request. -/
def sendSchedule (i : Nat) (stream : Bool) : List Action :=
  [.exec i (.enter .chat stream), .exec i (.status servingStatus), .exec i .call,
   .exec i (.decide (.ready servingStatus)), .exec i .run, .exec i .run, .exec i .run,
   .exec i .run, .exec i (.forward .deliver)]

/-- A streamed answer comes and the call returns, the body unread. -/
def streamSchedule (i : Nat) : List Action :=
  [.exec i (.forward (.answered 200)), .exec i .run, .exec i .run]

/-- The upstream times out, and is ready again at once. -/
def retrySchedule (i : Nat) : List Action :=
  [.exec i (.forward (.failed { isConnect := false, isTimeout := true, status := none,
                                message := "" })),
   .exec i .run, .exec i .call, .exec i (.decide (.ready servingStatus))]

/-- A request that holds the permit of its call is in flight, and within the limit. -/
theorem inFlight_within_permits_sent :
    ∃ s, ((orchestrator SerdeJson.mute oneAtATime).restrict Confined).Reachable
        (.new oneAtATime 2 0) s ∧ s.inFlight = 1 ∧
      s.inFlight ≤ oneAtATime.warmExecution.maxActiveRequests := by
  have sent : ∃ s, ((orchestrator SerdeJson.mute oneAtATime).restrict Confined).Reachable
      (.new oneAtATime 2 0) s ∧ s.inFlight = 1 :=
    System.reachable_of_check (sendSchedule 0 true) (by decide)
  obtain ⟨s, hs, hcount⟩ := sent
  exact ⟨s, hs, hcount, (inFlight_within_permits SerdeJson.mute oneAtATime 2 0).2 s hs⟩

def ExecPc.relays : ExecPc → Bool
  | .relaying => true
  | _ => false

/-- With one request allowed two are in flight: beside a body that is still being
relayed, and beside a request sent anew. -/
theorem requests_exceed_permits :
    (∃ s, (orchestrator SerdeJson.mute oneAtATime).Reachable (.new oneAtATime 2 0) s ∧
      oneAtATime.warmExecution.maxActiveRequests < s.inFlight ∧
      s.execs.countP (fun exec => exec.pc.relays) = 1) ∧
    ∃ s, (orchestrator SerdeJson.mute oneAtATime).Reachable (.new oneAtATime 2 0) s ∧
      oneAtATime.warmExecution.maxActiveRequests < s.inFlight ∧
      s.execs.countP (fun exec => exec.pc.retries) = 1 :=
  ⟨System.reachable_of_check (sendSchedule 0 true ++ streamSchedule 0 ++ sendSchedule 1 true)
      (by decide),
    System.reachable_of_check
      (sendSchedule 0 false ++ retrySchedule 0 ++ [.exec 0 (.forward .deliver)] ++
        sendSchedule 1 false) (by decide)⟩

end Overrun
end LlmWakeProxy.Orchestrate
