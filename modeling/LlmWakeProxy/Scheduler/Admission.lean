import LlmWakeProxy.Scheduler.Calls

/-!
Who is refused with `QueueFull`. A call that finds no permit has, at that moment, all
the permits against it, and every other call that found none and has none yet. While
each ticket belongs to such a call, a call that finds the tickets used up has had
`max_active_requests + max_queued_requests` others in the system beside it.

A waiter keeps its ticket from when it is given a permit, or gives up, until it is
polled again. A ticket that is kept so is stale, and refuses calls that the system
has room for.
-/

namespace LlmWakeProxy.Scheduler
open LlmWakeProxy.Library

universe u v
variable {ω : Type u} {τ : Type v} {config : WarmExecutionConfig} {start : ω}
variable {s s' : WarmExecutionScheduler ω τ}

def CallPc.pending : CallPc ω τ → Bool
  | .reserve | .acquire => true
  | .queued _ assigned | .pollTimer _ assigned | .expired assigned => !assigned
  | _ => false

def CallPc.refused : CallPc ω τ → Bool
  | .returned (.error .queueFull) => true
  | _ => false

def CallPc.inSystem (pc : CallPc ω τ) : Bool := !pc.outside

namespace WarmExecutionScheduler

def pendingCalls (s : WarmExecutionScheduler ω τ) : Nat :=
  s.calls.countP fun call => call.pc.pending

/-- The number of calls that hold a ticket and wait for a permit. -/
def queueing (s : WarmExecutionScheduler ω τ) : Nat :=
  s.calls.countP fun call => call.pc.holdsTicket && call.pc.pending

def others (s : WarmExecutionScheduler ω τ) (i : Nat) : Nat :=
  (s.calls.eraseIdx i).countP fun call => call.pc.inSystem

def isInSystem (s : WarmExecutionScheduler ω τ) (i : Nat) : Bool :=
  s.calls[i]?.any fun call => call.pc.inSystem

end WarmExecutionScheduler

/-- For every call the most others that have been in the system during it. -/
abbrev Peaks := Nat → Nat

def notePeaks (_ : WarmExecutionScheduler ω τ) (_ : Action ω τ) (s' : WarmExecutionScheduler ω τ)
    (peaks : Peaks) : Peaks := fun i =>
  if s'.isInSystem i then max (peaks i) (s'.others i) else peaks i

/-- The step refuses a call by a ticket whose holder has its permit or has given up. -/
def refusesStale (config : WarmExecutionConfig) (s : WarmExecutionScheduler ω τ) :
    Action ω τ → Bool
  | .call i _ =>
      match s.calls[i]?.map Call.pc with
      | some .reserve =>
          config.maxQueuedRequests ≤ s.queued &&
            s.calls.any fun call => call.pc.holdsTicket && !call.pc.pending
      | _ => false
  | .elapse _ => false

/-- No call is refused by a stale ticket. -/
def Fresh (config : WarmExecutionConfig) (t : WarmExecutionScheduler ω τ × Peaks)
    (a : Action ω τ) : Prop :=
  refusesStale config t.1 a = false

instance (t : WarmExecutionScheduler ω τ × Peaks) (a : Action ω τ) :
    Decidable (Fresh config t a) :=
  inferInstanceAs (Decidable (refusesStale config t.1 a = false))

/-! ### Which calls are pending -/

theorem CallPc.pending_of_assign {pc : CallPc ω τ} (h : pc.assign.pending = true) :
    pc.pending = true := by
  cases pc with
  | queued _ _ | pollTimer _ _ | expired _ => cases h
  | _ => exact h

theorem CallPc.refused_of_assign {pc : CallPc ω τ} (h : pc.assign.refused = true) :
    pc.refused = true := by
  cases pc with
  | queued _ _ | pollTimer _ _ | expired _ => cases h
  | _ => exact h

theorem CallPc.of_pending {pc : CallPc ω τ} (h : pc.pending = true) :
    pc.inSystem = true ∧ pc.holdsPermit = false := by
  cases pc with
  | reserve | acquire => exact ⟨rfl, rfl⟩
  | queued _ assigned | pollTimer _ assigned | expired assigned =>
      cases assigned with
      | true => cases h
      | false => exact ⟨rfl, rfl⟩
  | _ => cases h

theorem CallPc.inSystem_of_holdsPermit {pc : CallPc ω τ} (h : pc.holdsPermit = true) :
    pc.inSystem = true := by
  cases pc with
  | idle | returned _ | dropped | panicked => cases h
  | _ => rfl

section Moves

variable {i : Nat} {call call' next : Call ω τ} {t : WarmExecutionScheduler ω τ}

theorem of_settled {p : CallPc ω τ → Bool}
    (assigned : ∀ {pc : CallPc ω τ}, p pc.assign = true → p pc = true)
    (left : t.calls[i]? = some next ∨ t.calls[i]? = some next.assign)
    (here : t.calls[i]? = some call') (held : p call'.pc = true) : p next.pc = true := by
  rw [here] at left
  obtain h | h := left
  · cases h
    exact held
  · cases h
    exact assigned held

theorem of_put {p : CallPc ω τ → Bool} (here : s.calls[i]? = some call)
    (calls : t.calls = s.calls) (here' : (t.put i next).calls[i]? = some call')
    (held : p call'.pc = true) : p next.pc = true := by
  rw [← calls] at here
  cases (getElem?_set_of_some here next).symm.trans here'
  exact held

/-- A call comes to be pending only by finding no permit. -/
theorem CallRule.pending_of (rule : CallRule config start s i call s')
    (here : s.calls[i]? = some call) (here' : s'.calls[i]? = some call')
    (pending : call'.pc.pending = true) :
    call.pc.pending = true ∨
      (s.semaphore.tryAcquire = none ∧ s' = s.put i (call.goto .reserve)) := by
  cases rule with
  | noPermits pc exhausted => exact .inr ⟨exhausted, rfl⟩
  | reserved pc _ | enqueued pc _ | pending _ pc => exact .inl (by rw [pc]; rfl)
  | elapsed _ _ pc _ | parked _ _ pc _ =>
      refine .inl ?_
      rw [pc]
      exact of_put here rfl here' pending
  | returned _ _ =>
      cases of_settled CallPc.pending_of_assign (getElem?_release (getElem?_set_of_some here _))
        here' pending
  | ended panicked _ =>
      have := of_settled CallPc.pending_of_assign
        (getElem?_release (getElem?_set_of_some here _)) here' pending
      cases panicked <;> cases this
  | timedOut _ _ | dropQueued _ _ _ =>
      cases of_settled CallPc.pending_of_assign (getElem?_giveUp (getElem?_set_of_some here _))
        here' pending
  | _ => cases of_put here rfl here' pending

/-- A call is refused where it finds the tickets used up. -/
theorem CallRule.refused_of (rule : CallRule config start s i call s')
    (here : s.calls[i]? = some call) (here' : s'.calls[i]? = some call')
    (refused : call'.pc.refused = true) :
    call.pc = .reserve ∧ config.maxQueuedRequests ≤ s.queued := by
  cases rule with
  | queueFull pc full => exact ⟨pc, full⟩
  | returned _ _ =>
      cases of_settled CallPc.refused_of_assign (getElem?_release (getElem?_set_of_some here _))
        here' refused
  | ended panicked _ =>
      have := of_settled CallPc.refused_of_assign
        (getElem?_release (getElem?_set_of_some here _)) here' refused
      cases panicked <;> cases this
  | timedOut _ _ | dropQueued _ _ _ =>
      cases of_settled CallPc.refused_of_assign (getElem?_giveUp (getElem?_set_of_some here _))
        here' refused
  | _ => cases of_put here rfl here' refused

end Moves

/-! ### Counting the others -/

theorem others_of_inSystem {i : Nat} {call : Call ω τ} (here : s.calls[i]? = some call)
    (inside : call.pc.inSystem = true) :
    s.others i + 1 = s.calls.countP fun call => call.pc.inSystem := by
  have balance := countP_eraseIdx_balance (fun call : Call ω τ => call.pc.inSystem) here
  rwa [inside] at balance

/-- While no permit is available, a pending call has all the permits and every other
pending call beside it. -/
theorem pending_le_others {i : Nat} {call : Call ω τ} (accounts : Accounted config 0 s)
    (exhausted : s.semaphore.available = 0) (here : s.calls[i]? = some call)
    (pending : call.pc.pending = true) :
    config.maxActiveRequests + s.pendingCalls ≤ s.others i + 1 := by
  have permits := accounts.permits
  rw [exhausted] at permits
  have apart : s.permitsHeld + s.pendingCalls ≤ s.calls.countP fun call => call.pc.inSystem :=
    countP_add_countP_le s.calls
      (fun call held => Bool.eq_false_iff.mpr fun pending => by
        rw [(CallPc.of_pending pending).2] at held
        cases held)
      (fun _ => CallPc.inSystem_of_holdsPermit) (fun _ pending => (CallPc.of_pending pending).1)
  rw [others_of_inSystem here (CallPc.of_pending pending).1]
  omega

/-- A call that looks for a ticket is one more pending call than there are tickets, if
every ticket belongs to one. -/
theorem tickets_lt_pending {i : Nat} {call : Call ω τ} (here : s.calls[i]? = some call)
    (pc : call.pc = .reserve)
    (fresh : ∀ call ∈ s.calls, call.pc.holdsTicket = true → call.pc.pending = true) :
    s.ticketsHeld + 1 ≤ s.pendingCalls := by
  have tickets := countP_eraseIdx_balance (fun call : Call ω τ => call.pc.holdsTicket) here
  have pendings := countP_eraseIdx_balance (fun call : Call ω τ => call.pc.pending) here
  have fewer : ((s.calls.eraseIdx i).countP fun call => call.pc.holdsTicket) ≤
      (s.calls.eraseIdx i).countP fun call => call.pc.pending :=
    List.countP_mono_left fun call hcall held =>
      fresh call ((List.eraseIdx_sublist s.calls i).mem hcall) held
  have holder : call.pc.holdsTicket = false := by rw [pc]; rfl
  have isPending : call.pc.pending = true := by rw [pc]; rfl
  rw [holder, Bool.toNat_false] at tickets
  rw [isPending, Bool.toNat_true] at pendings
  simp only [WarmExecutionScheduler.ticketsHeld, WarmExecutionScheduler.pendingCalls]
  omega

/-! ### The peaks -/

/-- Every pending call has had all the permits beside it at one moment, with every call
that is pending now, and so has every call that was refused, with all the tickets. -/
structure Peaked (config : WarmExecutionConfig) (s : WarmExecutionScheduler ω τ) (peaks : Peaks) :
    Prop where
  pending : ∀ i call, s.calls[i]? = some call → call.pc.pending = true →
    config.maxActiveRequests + s.pendingCalls ≤ peaks i + 1
  refused : ∀ i call, s.calls[i]? = some call → call.pc.refused = true →
    config.maxActiveRequests + config.maxQueuedRequests ≤ peaks i

theorem le_notePeaks (s s' : WarmExecutionScheduler ω τ) (a : Action ω τ) (peaks : Peaks)
    (i : Nat) :
    peaks i ≤ notePeaks s a s' peaks i := by
  unfold notePeaks
  split
  next => exact Nat.le_max_left _ _
  next => exact Nat.le_refl _

theorem others_le_notePeaks {i : Nat} {call : Call ω τ} (a : Action ω τ) (peaks : Peaks)
    (here : s'.calls[i]? = some call) (inside : call.pc.inSystem = true) :
    s'.others i ≤ notePeaks s a s' peaks i := by
  have present : s'.isInSystem i = true := by
    simp [WarmExecutionScheduler.isInSystem, here, inside]
  simp only [notePeaks, present, if_true]
  exact Nat.le_max_right _ _

/-- A call other than the stepping one is pending or refused only if it was. -/
theorem Kept.of_assign {P : CallPc ω τ → Prop} (assigned : ∀ pc : CallPc ω τ, P pc.assign → P pc)
    {j : Nat} {call : Call ω τ} (kept : Kept s s' j) (here : s'.calls[j]? = some call)
    (held : P call.pc) : ∃ before, s.calls[j]? = some before ∧ P before.pc := by
  obtain same | assign := kept
  · exact ⟨call, same.symm.trans here, held⟩
  · obtain ⟨before, hbefore, rfl⟩ := Option.map_eq_some_iff.mp (assign.symm.trans here)
    exact ⟨before, hbefore, assigned _ held⟩

theorem fresh_tickets {i : Nat} {call : Call ω τ} {input : Input ω τ} {peaks : Peaks}
    (ok : Fresh config (s, peaks) (.call i input)) (here : s.calls[i]? = some call)
    (pc : call.pc = .reserve) (full : config.maxQueuedRequests ≤ s.queued) :
    ∀ call ∈ s.calls, call.pc.holdsTicket = true → call.pc.pending = true := by
  simpa [Fresh, refusesStale, here, pc, full] using ok

theorem peaked_call {i : Nat} {call : Call ω τ} {input : Input ω τ} {peaks : Peaks}
    (accounts : Accounted config 0 s) (h : Peaked config s peaks)
    (ok : Fresh config (s, peaks) (.call i input)) (here : s.calls[i]? = some call)
    (rule : CallRule config start s i call s') :
    Peaked config s' (notePeaks s (.call i input) s' peaks) := by
  have kept := (rule.callStep here).kept
  have grows := le_notePeaks s s' (.call i input) peaks
  constructor
  · intro j other here' pending
    by_cases failed : s.semaphore.tryAcquire = none ∧ s' = s.put i (call.goto .reserve)
    · -- the moment at which all the permits are against everyone who is pending
      obtain ⟨exhausted, rfl⟩ := failed
      have beside := pending_le_others (accounted_call accounts here rule)
        (Semaphore.tryAcquire_eq_none.mp exhausted) here' pending
      have noted := others_le_notePeaks (s := s) (.call i input) peaks here'
        (CallPc.of_pending pending).1
      omega
    · have was : ∀ (k : Nat) (now : Call ω τ), s'.calls[k]? = some now → now.pc.pending = true →
          ∃ before : Call ω τ, s.calls[k]? = some before ∧ before.pc.pending = true := by
        intro k now hnow hpending
        by_cases hki : k = i
        · subst hki
          exact ⟨call, here, (rule.pending_of here hnow hpending).resolve_right failed⟩
        · exact (kept k hki).of_assign (P := fun pc => pc.pending = true)
            (fun _ => CallPc.pending_of_assign) hnow hpending
      have fewer : s'.pendingCalls ≤ s.pendingCalls := countP_le_countP_of_getElem? was
      obtain ⟨before, hbefore, hpending⟩ := was j other here' pending
      have peak := h.pending j before hbefore hpending
      have := grows j
      omega
  · intro j other here' refused
    have := grows j
    by_cases hji : j = i
    · subst hji
      obtain ⟨pc, full⟩ := rule.refused_of here here' refused
      have more := tickets_lt_pending here pc (fresh_tickets ok here pc full)
      have peak := h.pending j call here (by rw [pc]; rfl)
      have tickets := accounts.tickets
      omega
    · obtain ⟨before, hbefore, hrefused⟩ := (kept j hji).of_assign
        (P := fun pc => pc.refused = true) (fun _ => CallPc.refused_of_assign) here' refused
      exact Nat.le_trans (h.refused j before hbefore hrefused) (grows j)

theorem peaked_step {a : Action ω τ} {t t' : WarmExecutionScheduler ω τ × Peaks}
    (accounts : Accounted config 0 t.1) (h : Peaked config t.1 t.2) (ok : Fresh config t a)
    (hstep : ((warmExecution config start).monitor notePeaks).step t a = some t') :
    Peaked config t'.1 t'.2 := by
  obtain ⟨hmoved, hnote⟩ := System.monitor_step_iff.mp hstep
  rw [hnote]
  cases a with
  | call i input =>
      obtain ⟨call, here, hcall⟩ := Option.bind_eq_some_iff.mp hmoved
      exact peaked_call accounts h ok here (callStep_cases hcall)
  | elapse span =>
      have same : { t.1 with instant := t.1.instant + span } = t'.1 := Option.some.inj hmoved
      have grows := le_notePeaks t.1 t'.1 (.elapse span) t.2
      rw [← same] at grows ⊢
      refine ⟨fun j call here pending => ?_, fun j call here refused => ?_⟩
      · have := h.pending j call here pending
        have := grows j
        simp only [WarmExecutionScheduler.pendingCalls] at *
        omega
      · exact Nat.le_trans (h.refused j call here refused) (grows j)

theorem peaked_new (calls instant : Nat) :
    Peaked config (.new config calls instant : WarmExecutionScheduler ω τ) fun _ => 0 := by
  constructor
  · intro i call here pending
    obtain ⟨_, rfl⟩ := by
      simpa [WarmExecutionScheduler.new, List.getElem?_replicate] using here
    cases pending
  · intro i call here refused
    obtain ⟨_, rfl⟩ := by
      simpa [WarmExecutionScheduler.new, List.getElem?_replicate] using here
    cases refused

/-- Where a stale ticket refuses a call, fewer calls than there are tickets wait for a
permit. -/
theorem queueing_of_stale {a : Action ω τ} (accounts : Accounted config 0 s)
    (stale : refusesStale config s a = true) : s.queueing < config.maxQueuedRequests := by
  unfold refusesStale at stale
  split at stale
  next i _ =>
    split at stale
    next =>
      obtain ⟨holder, hmem, hstale⟩ := List.any_eq_true.mp (Bool.and_eq_true_iff.mp stale).2
      have kept : 0 < s.calls.countP fun call => call.pc.holdsTicket && !call.pc.pending :=
        List.countP_pos_iff.mpr ⟨holder, hmem, hstale⟩
      have both :
          s.queueing + (s.calls.countP fun call => call.pc.holdsTicket && !call.pc.pending) ≤
            s.ticketsHeld := by
        refine countP_add_countP_le s.calls ?_ ?_ ?_
        · intro call queueing
          simp only [Bool.and_eq_true] at queueing
          simp [queueing.2]
        · exact fun _ queueing => (Bool.and_eq_true_iff.mp queueing).1
        · exact fun _ stale => (Bool.and_eq_true_iff.mp stale).1
      have tickets := accounts.tickets
      have limited := accounts.limited
      omega
    next => cases stale
  next => cases stale

/-- In a run that refuses no call by a stale ticket, a call that has returned
`QueueFull` had at some moment `max_active_requests + max_queued_requests` others in
the system beside it. A call that a stale ticket does refuse is told that the queue is
full while fewer than `max_queued_requests` calls wait in it. -/
theorem refused_beside_full_system (config : WarmExecutionConfig) (start : ω)
    (calls instant : Nat) :
    (∀ t : WarmExecutionScheduler ω τ × Peaks,
      (((warmExecution config start).monitor notePeaks).restrict (Fresh config)).Reachable
        (.new config calls instant, fun _ => 0) t →
      ∀ i call, t.1.calls[i]? = some call → call.pc = .returned (.error .queueFull) →
        config.maxActiveRequests + config.maxQueuedRequests ≤ t.2 i) ∧
    ∀ (t : WarmExecutionScheduler ω τ × Peaks) (a : Action ω τ),
      ((warmExecution config start).monitor notePeaks).Reachable
        (.new config calls instant, fun _ => 0) t →
      ¬ Fresh config t a → t.1.queueing < config.maxQueuedRequests := by
  constructor
  · intro t h i call here refused
    have held : Accounted config 0 t.1 ∧ Peaked config t.1 t.2 := by
      refine h.invariant_restrict (I := fun t => Accounted config 0 t.1 ∧ Peaked config t.1 t.2)
        ⟨accounted_new calls instant, peaked_new calls instant⟩ ?_
      intro t a t' ht ok hstep
      exact ⟨accounted_step ht.1 (System.monitor_step_iff.mp hstep).1,
        peaked_step ht.1 ht.2 ok hstep⟩
    exact held.2.refused i call here (by rw [refused]; rfl)
  · intro t a h stale
    exact queueing_of_stale (accounted_reachable h.unmonitor) (by simpa [Fresh] using stale)

section Stale

/-- Call `i` comes and is refused. -/
def refuseSchedule (i : Nat) : List (Action Unit Unit) :=
  [.call i .enter, .call i .run, .call i .run]

/-- Call 0 finishes, and its permit goes to call 1, which has not been polled since. -/
def handOverSchedule : List (Action Unit Unit) :=
  [.call 0 (.complete ()), .call 0 .run]

/-- The system is full, and a third call is refused. -/
theorem refused_beside_full_system_full :
    ∃ t : WarmExecutionScheduler Unit Unit × Peaks,
      (((warmExecution oneAndOne ()).monitor notePeaks).restrict (Fresh oneAndOne)).Reachable
        (.new oneAndOne 3 0, fun _ => 0) t ∧ 2 ≤ t.2 2 := by
  have refused : ∃ t : WarmExecutionScheduler Unit Unit × Peaks,
      (((warmExecution oneAndOne ()).monitor notePeaks).restrict (Fresh oneAndOne)).Reachable
        (.new oneAndOne 3 0, fun _ => 0) t ∧
        t.1.calls[2]?.any (fun call => call.pc.refused) = true :=
    System.reachable_of_check (queueSchedule ++ refuseSchedule 2) (by decide)
  obtain ⟨t, ht, hrefused⟩ := refused
  obtain ⟨call, here, hcall⟩ := (Option.any_eq_true _ _).mp hrefused
  refine ⟨t, ht, (refused_beside_full_system oneAndOne () 3 0).1 t ht 2 call here ?_⟩
  unfold CallPc.refused at hcall
  split at hcall
  next hpc => exact hpc
  next => cases hcall

/-- With one permit and one ticket a call is refused beside a single other one, which
has the permit and still holds its ticket. -/
theorem stale_ticket_refuses :
    ∃ t : WarmExecutionScheduler Unit Unit × Peaks,
      ((warmExecution oneAndOne ()).monitor notePeaks).Reachable (.new oneAndOne 3 0, fun _ => 0) t ∧
        t.1.calls[2]?.any (fun call => call.pc.refused) = true ∧
        t.2 2 < oneAndOne.maxActiveRequests + oneAndOne.maxQueuedRequests :=
  System.reachable_of_check (queueSchedule ++ handOverSchedule ++ refuseSchedule 2) (by decide)

end Stale
end LlmWakeProxy.Scheduler
