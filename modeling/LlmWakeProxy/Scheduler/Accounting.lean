import LlmWakeProxy.Scheduler.Rules

/-!
The accounts of the scheduler: permits are conserved, the ticket count is the
number of live tickets and stays within its limit, and the queue of the
semaphore holds exactly the waiters that were not given a permit.

A call that drops its permit first stops holding it and then gives it back; in
between one permit is `spare`. The invariant is stated with the spare permits as
a parameter, so that the two halves of a release are two lemmas.
-/

namespace LlmWakeProxy.Scheduler
open LlmWakeProxy.Library

universe u v
variable {ω : Type u} {τ : Type v} {config : WarmExecutionConfig} {start : ω}
variable {s s' : WarmExecutionScheduler ω τ}

def WarmExecutionScheduler.WaitsAt (s : WarmExecutionScheduler ω τ) (i : Nat) : Prop :=
  ∃ call, s.calls[i]? = some call ∧ call.pc.waits = true

def WarmExecutionScheduler.permitsHeld (s : WarmExecutionScheduler ω τ) : Nat :=
  s.calls.countP fun call => call.pc.holdsPermit

def WarmExecutionScheduler.ticketsHeld (s : WarmExecutionScheduler ω τ) : Nat :=
  s.calls.countP fun call => call.pc.holdsTicket

structure Accounted (config : WarmExecutionConfig) (spare : Nat)
    (s : WarmExecutionScheduler ω τ) : Prop where
  permits : s.semaphore.available + s.permitsHeld + spare = config.maxActiveRequests
  tickets : s.queued = s.ticketsHeld
  limited : s.queued ≤ config.maxQueuedRequests
  queues : s.semaphore.Queues s.WaitsAt

theorem waitsAt_put_ne {i j : Nat} {call : Call ω τ} (h : j ≠ i) :
    (s.put i call).WaitsAt j ↔ s.WaitsAt j := by
  simp only [WarmExecutionScheduler.WaitsAt, WarmExecutionScheduler.put,
    List.getElem?_set_ne (Ne.symm h)]

theorem waitsAt_of_getElem? {i : Nat} {call : Call ω τ} (here : s.calls[i]? = some call) :
    s.WaitsAt i ↔ call.pc.waits = true := by
  simp [WarmExecutionScheduler.WaitsAt, here]

theorem waitsAt_put_self {i : Nat} {call call' : Call ω τ} (here : s.calls[i]? = some call) :
    (s.put i call').WaitsAt i ↔ call'.pc.waits = true :=
  waitsAt_of_getElem? (getElem?_set_of_some here call')

theorem waitsAt_put {i : Nat} {call call' : Call ω τ} (here : s.calls[i]? = some call)
    (same : call'.pc.waits = call.pc.waits) (j : Nat) :
    (s.put i call').WaitsAt j ↔ s.WaitsAt j := by
  by_cases hji : j = i
  · subst hji
    rw [waitsAt_put_self here, waitsAt_of_getElem? here, same]
  · exact waitsAt_put_ne hji

theorem waitsAt_put_entered {i : Nat} {call call' : Call ω τ} (here : s.calls[i]? = some call)
    (waits : call'.pc.waits = true) (j : Nat) :
    (s.put i call').WaitsAt j ↔ j = i ∨ s.WaitsAt j := by
  by_cases hji : j = i
  · subst hji
    simp [waitsAt_put_self here, waits]
  · simp [waitsAt_put_ne hji, hji]

theorem waitsAt_put_left {i : Nat} {call call' : Call ω τ} (here : s.calls[i]? = some call)
    (left : call'.pc.waits = false) (j : Nat) :
    (s.put i call').WaitsAt j ↔ j ≠ i ∧ s.WaitsAt j := by
  by_cases hji : j = i
  · subst hji
    simp [waitsAt_put_self here, left]
  · simp [waitsAt_put_ne hji, hji]

/-- Replacing a call: the books balance when what the call takes or gives is what
the semaphore and the ticket count lose or get. -/
theorem Accounted.put {spare spare' i queued : Nat} {call call' : Call ω τ}
    {semaphore : Semaphore Nat} {started : List Nat} (h : Accounted config spare s)
    (here : s.calls[i]? = some call)
    (permits : semaphore.available + call'.pc.holdsPermit.toNat + spare' =
      s.semaphore.available + call.pc.holdsPermit.toNat + spare)
    (tickets : queued + call.pc.holdsTicket.toNat = s.queued + call'.pc.holdsTicket.toNat)
    (limited : queued ≤ config.maxQueuedRequests)
    (queues : semaphore.Queues (s.put i call').WaitsAt) :
    Accounted config spare' ({ s with semaphore := semaphore, queued := queued,
                                      started := started }.put i call') := by
  have permitBalance :=
    countP_set_balance (fun call : Call ω τ => call.pc.holdsPermit) (b := call') here
  have ticketBalance :=
    countP_set_balance (fun call : Call ω τ => call.pc.holdsTicket) (b := call') here
  have hpermits := h.permits
  have htickets := h.tickets
  simp only [WarmExecutionScheduler.permitsHeld] at hpermits
  simp only [WarmExecutionScheduler.ticketsHeld] at htickets
  refine ⟨?_, ?_, limited, queues⟩
  · simp only [WarmExecutionScheduler.put, WarmExecutionScheduler.permitsHeld]
    omega
  · simp only [WarmExecutionScheduler.put, WarmExecutionScheduler.ticketsHeld]
    omega

theorem Accounted.move {spare i : Nat} {call call' : Call ω τ} {started : List Nat}
    (h : Accounted config spare s) (here : s.calls[i]? = some call)
    (same : call'.pc.holdings = call.pc.holdings) :
    Accounted config spare ({ s with started := started }.put i call') := by
  obtain ⟨permit, ticket, waits⟩ : call'.pc.holdsPermit = call.pc.holdsPermit ∧
      call'.pc.holdsTicket = call.pc.holdsTicket ∧ call'.pc.waits = call.pc.waits := by
    simpa only [CallPc.holdings, Prod.mk.injEq] using same
  exact h.put here (by rw [permit]) (by rw [ticket]) h.limited
    (h.queues.congr (waitsAt_put here waits))

theorem Accounted.dropTicket {spare i : Nat} {call call' : Call ω τ}
    (h : Accounted config spare s) (here : s.calls[i]? = some call)
    (permit : call'.pc.holdsPermit = call.pc.holdsPermit)
    (had : call.pc.holdsTicket = true) (lost : call'.pc.holdsTicket = false)
    (waits : call'.pc.waits = call.pc.waits) :
    Accounted config spare (s.dropTicket.put i call') := by
  have hpos : 0 < s.queued := by
    rw [h.tickets]
    exact countP_pos_of_getElem? (p := fun call : Call ω τ => call.pc.holdsTicket) here had
  refine h.put here (by rw [permit]) ?_ ?_ (h.queues.congr (waitsAt_put here waits))
  · rw [had, lost]
    simp only [Bool.toNat_true, Bool.toNat_false]
    omega
  · exact Nat.le_trans (Nat.sub_le _ _) h.limited

theorem Accounted.take {spare i : Nat} {call call' : Call ω τ} {semaphore : Semaphore Nat}
    (h : Accounted config spare s) (here : s.calls[i]? = some call)
    (free : s.semaphore.tryAcquire = some semaphore)
    (had : call.pc.holdsPermit = false) (got : call'.pc.holdsPermit = true)
    (ticket : call'.pc.holdsTicket = call.pc.holdsTicket)
    (waits : call'.pc.waits = call.pc.waits) :
    Accounted config spare ({ s with semaphore := semaphore }.put i call') := by
  refine h.put here ?_ (by rw [ticket]) h.limited
    ((h.queues.tryAcquire free).congr (waitsAt_put here waits))
  have havailable := (Semaphore.tryAcquire_eq_some free).1
  rw [had, got]
  simp only [Bool.toNat_true, Bool.toNat_false]
  omega

/-- The call stops holding its permit, which is spare until it is released. -/
theorem Accounted.spend {spare i : Nat} {call call' : Call ω τ}
    (h : Accounted config spare s) (here : s.calls[i]? = some call)
    (had : call.pc.holdsPermit = true) (lost : call'.pc.holdsPermit = false)
    (ticket : call'.pc.holdsTicket = call.pc.holdsTicket)
    (waits : call'.pc.waits = call.pc.waits) :
    Accounted config (spare + 1) (s.put i call') := by
  refine h.put here ?_ (by rw [ticket]) h.limited (h.queues.congr (waitsAt_put here waits))
  rw [had, lost]
  simp only [Bool.toNat_true, Bool.toNat_false]
  omega

theorem Accounted.release {spare : Nat} (h : Accounted config (spare + 1) s) :
    Accounted config spare s.release := by
  cases hrelease : s.semaphore.release with
  | mk heir semaphore =>
      cases heir with
      | none =>
          obtain ⟨havailable, hqueues⟩ := h.queues.release_none hrelease
          have hs : s.release = { s with semaphore := semaphore } := by
            simp only [WarmExecutionScheduler.release, hrelease]
          have hpermits := h.permits
          rw [hs]
          refine ⟨?_, h.tickets, h.limited, hqueues⟩
          simp only [WarmExecutionScheduler.permitsHeld] at hpermits ⊢
          omega
      | some j =>
          obtain ⟨havailable, ⟨call, here, hwaits⟩, hqueues⟩ := h.queues.release_some hrelease
          have hs : s.release = { s with semaphore := semaphore }.put j call.assign := by
            simp only [WarmExecutionScheduler.release, hrelease, WarmExecutionScheduler.put]
            rw [List.modify_eq_set_getElem?, here]
            rfl
          obtain ⟨hadnot, hhas⟩ := CallPc.holdsPermit_assign hwaits
          rw [hs]
          refine h.put here ?_ ?_ h.limited
            (hqueues.congr (waitsAt_put_left here call.pc.waits_assign))
          · rw [Call.assign_pc, hhas, hadnot, havailable]
            simp only [Bool.toNat_true, Bool.toNat_false]
            omega
          · rw [Call.assign_pc, CallPc.holdsTicket_assign]

/-- Dropping the acquisition of a call takes it out of the queue, or gives back
the permit it was assigned. -/
theorem Accounted.giveUp {i : Nat} {call call' : Call ω τ} {assigned : Bool}
    (h : Accounted config 0 s) (here : s.calls[i]? = some call)
    (permit : call.pc.holdsPermit = assigned) (waits : call.pc.waits = !assigned)
    (nothing : call'.pc.holdsPermit = false) (ticket : call'.pc.holdsTicket = call.pc.holdsTicket)
    (left : call'.pc.waits = false) :
    Accounted config 0 ((s.put i call').giveUp i assigned) := by
  cases assigned with
  | true => exact (h.spend here permit nothing ticket (by rw [left, waits]; rfl)).release
  | false =>
      refine h.put here ?_ (by rw [ticket]; rfl) h.limited
        ((h.queues.abandon i).congr (waitsAt_put_left here left))
      rw [nothing, permit]
      rfl

theorem accounted_call {i : Nat} {call : Call ω τ} (h : Accounted config 0 s)
    (here : s.calls[i]? = some call) (rule : CallRule config start s i call s') :
    Accounted config 0 s' := by
  cases rule with
  | enter pc => exact h.move here (by rw [pc]; rfl)
  | taken pc semaphore free =>
      exact h.take here free (by rw [pc]; rfl) rfl (by rw [pc]; rfl) (by rw [pc]; rfl)
  | noPermits pc _ => exact h.move here (by rw [pc]; rfl)
  | queueFull pc _ => exact h.move here (by rw [pc]; rfl)
  | reserved pc room =>
      exact h.put here (by rw [pc]; rfl) (by rw [pc]; rfl) room
        (h.queues.congr (waitsAt_put here (by rw [pc]; rfl)))
  | acquired pc semaphore free =>
      exact h.take here free (by rw [pc]; rfl) rfl (by rw [pc]; rfl) (by rw [pc]; rfl)
  | enqueued pc exhausted =>
      have outside : ¬ s.WaitsAt i := by
        rw [waitsAt_of_getElem? here, pc]
        exact Bool.false_ne_true
      exact h.put here (by rw [pc]; rfl) (by rw [pc]; rfl) h.limited
        ((h.queues.enqueue exhausted outside).congr (waitsAt_put_entered here rfl))
  | pickedUp _ pc => exact h.move here (by rw [pc]; rfl)
  | pending _ pc => exact h.move here (by rw [pc]; rfl)
  | elapsed _ _ pc _ => exact h.move here (by rw [pc]; rfl)
  | parked _ _ pc _ => exact h.move here (by rw [pc]; rfl)
  | timedOut _ pc =>
      exact h.giveUp here (by rw [pc]; rfl) (by rw [pc]; rfl) rfl (by rw [pc]; rfl) rfl
  | queueTimeout pc =>
      exact h.dropTicket here (by rw [pc]; rfl) (by rw [pc]; rfl) rfl (by rw [pc]; rfl)
  | droppedQueued pc =>
      exact h.dropTicket here (by rw [pc]; rfl) (by rw [pc]; rfl) rfl (by rw [pc]; rfl)
  | leftQueue pc =>
      exact h.dropTicket here (by rw [pc]; rfl) (by rw [pc]; rfl) rfl (by rw [pc]; rfl)
  | started pc => exact h.move here (by rw [pc]; rfl)
  | operated _ _ pc => exact h.move here (by rw [pc]; rfl)
  | completed _ _ pc => exact h.move here (by rw [pc]; rfl)
  | returned _ pc =>
      exact (h.spend here (by rw [pc]; rfl) rfl (by rw [pc]; rfl) (by rw [pc]; rfl)).release
  | unwound _ _ pc => exact h.move here (by rw [pc]; rfl)
  | ended panicked pc =>
      cases panicked with
      | true | false =>
          exact (h.spend here (by rw [pc]; rfl) rfl (by rw [pc]; rfl) (by rw [pc]; rfl)).release
  | dropQueued _ _ pc =>
      exact h.giveUp here (by rw [pc]; rfl) (by rw [pc]; rfl) rfl (by rw [pc]; rfl) rfl

theorem accounted_new (calls : Nat) (instant : Nat) :
    Accounted config 0 (.new config calls instant : WarmExecutionScheduler ω τ) := by
  refine ⟨?_, ?_, Nat.zero_le _, ?_⟩
  · simp only [WarmExecutionScheduler.new, WarmExecutionScheduler.permitsHeld, Semaphore.new,
      List.countP_replicate]
    rfl
  · simp only [WarmExecutionScheduler.new, WarmExecutionScheduler.ticketsHeld,
      List.countP_replicate]
    rfl
  · refine Semaphore.Queues.new _ ?_
    rintro i ⟨call, here, hwaits⟩
    obtain ⟨_, rfl⟩ := by simpa [WarmExecutionScheduler.new, List.getElem?_replicate] using here
    cases hwaits

theorem accounted_step {a : Action ω τ} (hs : Accounted config 0 s)
    (hstep : (warmExecution config start).step s a = some s') : Accounted config 0 s' := by
  cases step_cases hstep with
  | call i call here _ rule => exact accounted_call hs here rule
  | elapse _ => exact ⟨hs.permits, hs.tickets, hs.limited, hs.queues⟩

theorem accounted_reachable {calls instant : Nat}
    (h : (warmExecution config start).Reachable (.new config calls instant) s) :
    Accounted config 0 s :=
  h.invariant (accounted_new calls instant) fun _ _ _ => accounted_step

end LlmWakeProxy.Scheduler
