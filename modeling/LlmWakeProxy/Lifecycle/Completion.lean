import LlmWakeProxy.Library.Population
import LlmWakeProxy.Library.Progress
import LlmWakeProxy.Lifecycle.Rules

/-!
A call of the lifecycle can always come to its end by steps of its own, if time
passes and the ports it calls answer something. It needs nothing of another caller or
of a background task: the waiters have their own deadline, and the bootstrap mutex is
held within single steps only.
-/

namespace LlmWakeProxy.Lifecycle
open LlmWakeProxy.Library

def ClientPc.settled : ClientPc → Bool
  | .idle | .returned _ | .dropped | .panicked => true
  | _ => false

def ofClient (i : Nat) : Action → Bool
  | .client j _ => i == j
  | .elapse .. => true
  | _ => false

def OfClient (i : Nat) (_ : Manager) (a : Action) : Prop := ofClient i a = true

instance (i : Nat) (s : Manager) (a : Action) : Decidable (OfClient i s a) :=
  inferInstanceAs (Decidable (ofClient i a = true))

/-- How far a call is from its end. A waiter whose deadline has passed goes back to
the borrow at most once more. -/
def ClientPc.rank : ClientPc → Nat
  | .idle | .returned _ | .dropped | .panicked => 0
  | .degradePublish _ | .leadFinish .. | .waitLock .. | .waitTimedOut _ => 1
  | .degradeBorrow _ | .leadReread _ | .waitBorrow .. => 2
  | .lead .. | .waitChanged .. => 3
  | .leadRequest .. | .waitEnter _ => 4
  | .startOrJoin .. => 5
  | .checkActive .. => 6
  | .ensure _ => 7
  | .markPublish .. => 8
  | .markBorrow _ => 9

def Manager.rank (i : Nat) (s : Manager) : Nat :=
  (s.clients[i]?.map ClientPc.rank).getD 0

section Progress

variable {timing : LifecycleTiming} {s : Manager} {i : Nat} {pc pc' : ClientPc} {core' : Core}

theorem rank_of_getElem? (here : s.clients[i]? = some pc) : s.rank i = pc.rank := by
  simp [Manager.rank, here]

theorem ofClient_step {input : Input} (here : s.clients[i]? = some pc)
    (moved : clientStep timing s.core pc input = some (core', pc')) :
    ((lifecycle timing).restrict (OfClient i)).step s (.client i input) =
      some { core := core', clients := s.clients.set i pc' } := by
  refine System.restrict_step_iff.mpr ⟨beq_self_eq_true i, ?_⟩
  exact Option.bind_eq_some_iff.mpr ⟨pc, here, Option.bind_eq_some_iff.mpr ⟨_, moved, rfl⟩⟩

theorem ofClient_elapse (span : Duration) :
    ((lifecycle timing).restrict (OfClient i)).step s (.elapse span s.core.clock) =
      some { s with core := { s.core with instant := s.core.instant + span } } :=
  System.restrict_step_iff.mpr ⟨rfl, rfl⟩

def Nearer (i : Nat) (s t : Manager) : Prop :=
  (∃ pc, t.clients[i]? = some pc) ∧ t.rank i < s.rank i

theorem nearer_of_step (input : Input) (here : s.clients[i]? = some pc)
    (moved : clientStep timing s.core pc input = some (core', pc')) (lower : pc'.rank < pc.rank) :
    ((lifecycle timing).restrict (OfClient i)).Leads s (Nearer i s) := by
  have there := getElem?_set_of_some here pc'
  refine .step (ofClient_step here moved) (.here ⟨⟨pc', there⟩, ?_⟩)
  rw [rank_of_getElem? here, rank_of_getElem? (s := { core := core', .. }) there]
  exact lower

theorem nearer_of_elapse (span : Duration)
    (later : ((lifecycle timing).restrict (OfClient i)).Leads
      { s with core := { s.core with instant := s.core.instant + span } }
      (Nearer i { s with core := { s.core with instant := s.core.instant + span } })) :
    ((lifecycle timing).restrict (OfClient i)).Leads s (Nearer i s) :=
  .step (ofClient_elapse span) later

theorem afterMark_rank (next : Option LifecycleRequest) : (afterMark next).rank < 8 := by
  cases next <;> simp [afterMark, ClientPc.rank]

theorem observeOnce_fails (core : Core) (request observeRequest : LifecycleRequest)
    (pc : ObservePc) :
    ∃ answer core' draft error, observeOnce core (some request) observeRequest pc answer =
      some (core', .failed draft error) := by
  cases pc with
  | sshIsReady draft => exact ⟨.ssh (.error bootDeadlineError), _, _, _, rfl⟩
  | requestWake draft => exact ⟨.wake (.error bootDeadlineError), _, _, _, rfl⟩
  | observeBackend draft => exact ⟨.helper (.error bootDeadlineError), _, _, _, rfl⟩
  | ensureTunnel draft => exact ⟨.tunnel (.error bootDeadlineError), _, _, _, rfl⟩

/-- Past its deadline a waiter is told something. -/
theorem waitVerdict_of_late (timing : LifecycleTiming) (bootstrap : BootstrapState)
    (status : BackendStatus) (stale : Bool) {instant deadline : Instant}
    (late : deadline ≤ instant) :
    ∃ decision, waitVerdict timing bootstrap instant deadline status stale = some decision := by
  unfold waitVerdict
  rw [if_pos late]
  split
  next => exact ⟨_, rfl⟩
  next =>
    split
    next => exact ⟨_, rfl⟩
    next => exact ⟨_, rfl⟩

/-- From wherever it stands inside a call the client can come nearer to its end. -/
theorem client_nearer (here : s.clients[i]? = some pc) (inside : pc.settled = false) :
    ((lifecycle timing).restrict (OfClient i)).Leads s (Nearer i s) := by
  cases pc with
  | idle | returned _ | dropped | panicked => cases inside
  | markBorrow next =>
      exact nearer_of_step .run here rfl (by simp [ClientPc.rank])
  | markPublish next draft =>
      exact nearer_of_step .run here rfl (afterMark_rank next)
  | degradeBorrow reason =>
      exact nearer_of_step .run here rfl (by simp [ClientPc.rank])
  | degradePublish draft =>
      exact nearer_of_step .run here rfl (by simp [ClientPc.rank])
  | ensure caller =>
      exact nearer_of_step .run here rfl (by simp [ClientPc.rank])
  | checkActive caller initial =>
      by_cases ready : (!s.core.bootstrap.active && backendIsReady initial.status) = true
      · exact nearer_of_step .run here (if_pos ready) (by simp [ClientPc.rank])
      · exact nearer_of_step .run here (if_neg ready) (by simp [ClientPc.rank])
  | startOrJoin caller initial =>
      cases hstart : startOrJoinBootstrap s.core.bootstrap caller.request with
      | mk shouldStart bootstrap =>
          cases shouldStart with
          | true =>
              exact nearer_of_step .run here (by simp only [clientStep, hstart]; rfl)
                (by simp [ClientPc.rank])
          | false =>
              exact nearer_of_step .run here (by simp only [clientStep, hstart]; rfl)
                (by simp [ClientPc.rank])
  | leadRequest request initial wait =>
      exact nearer_of_step .run here rfl (by simp [ClientPc.rank])
  | lead request observeRequest wait pc =>
      obtain ⟨answer, core', draft, error, observed⟩ :=
        observeOnce_fails s.core request observeRequest pc
      exact nearer_of_step (.answer answer) here
        (Option.map_eq_some_iff.mpr ⟨_, observed, rfl⟩) (by simp [ClientPc.rank])
  | leadReread status =>
      exact nearer_of_step .run here rfl (by simp [ClientPc.rank])
  | leadFinish draft error decision =>
      exact nearer_of_step .run here rfl (by simp [ClientPc.rank])
  | waitEnter wait =>
      cases hdeadline :
          Instant.add? s.core.instant (Duration.fromSecs timing.coldWaitBudgetSecs) with
      | none =>
          exact nearer_of_step .run here (by simp only [clientStep, hdeadline]; rfl)
            (by simp [ClientPc.rank])
      | some deadline =>
          exact nearer_of_step .run here (by simp only [clientStep, hdeadline]; rfl)
            (by simp [ClientPc.rank])
  | waitBorrow wait deadline =>
      exact nearer_of_step .run here rfl (by simp [ClientPc.rank])
  | waitLock wait deadline draft =>
      refine nearer_of_elapse deadline ?_
      obtain ⟨decision, verdict⟩ := waitVerdict_of_late timing s.core.bootstrap draft.status
        (staleBootstrapView s.core.bootstrap draft.status)
        (Nat.le_add_left deadline s.core.instant)
      exact nearer_of_step .run here (by simp only [clientStep, verdict]; rfl)
        (by simp [ClientPc.rank])
  | waitChanged wait deadline stale =>
      refine nearer_of_elapse deadline ?_
      cases fresh : s.core.status.hasChanged wait.rx with
      | true =>
          exact nearer_of_step .run here (if_pos fresh) (by simp [ClientPc.rank])
      | false =>
          exact nearer_of_step .timeout here
            (if_pos (by simp [fresh])) (by simp [ClientPc.rank])
  | waitTimedOut stale =>
      exact nearer_of_step .run here rfl (by simp [ClientPc.rank])

/-- Whatever the others do or do not, a client inside a call can come to its end. -/
theorem client_can_settle (timing : LifecycleTiming) (here : s.clients[i]? = some pc) :
    ((lifecycle timing).restrict (OfClient i)).Leads s fun t =>
      ∃ pc', t.clients[i]? = some pc' ∧ pc'.settled = true := by
  refine System.Leads.of_rank (I := fun t => ∃ pc', t.clients[i]? = some pc') (Manager.rank i) ?_
    ⟨pc, here⟩
  intro t there unsettled
  obtain ⟨pc', hpc⟩ := there
  refine client_nearer hpc (Bool.eq_false_iff.mpr fun settled => unsettled ⟨pc', hpc, settled⟩)

end Progress
end LlmWakeProxy.Lifecycle
