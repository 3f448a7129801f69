import LlmWakeProxy.Scheduler.Admission

/-!
The order of the warm queue. A call joins the queue when its first poll of the
semaphore finds no permit, and is granted one when another call gives it back. The
calls are granted permits in the order in which they joined, and nobody takes a
permit past a call that waits.
-/

namespace LlmWakeProxy.Scheduler
open LlmWakeProxy.Library

universe u v
variable {ω : Type u} {τ : Type v} {config : WarmExecutionConfig} {start : ω}
variable {s s' : WarmExecutionScheduler ω τ}

namespace WarmExecutionScheduler

def waits (s : WarmExecutionScheduler ω τ) (i : Nat) : Bool :=
  s.calls[i]?.any fun call => call.pc.waits

def holds (s : WarmExecutionScheduler ω τ) (i : Nat) : Bool :=
  s.calls[i]?.any fun call => call.pc.holdsPermit

def joins (s s' : WarmExecutionScheduler ω τ) : List Nat :=
  (List.range s.calls.length).filter fun i => !s.waits i && s'.waits i

def grants (s s' : WarmExecutionScheduler ω τ) : List Nat :=
  (List.range s.calls.length).filter fun i => s.waits i && s'.holds i

end WarmExecutionScheduler

/-- The calls that have joined the queue and those that were granted a permit in it,
latest first. -/
structure QueueOrder where
  joined : List Nat
  granted : List Nat
  deriving DecidableEq, Repr

def QueueOrder.none : QueueOrder where
  joined := []
  granted := []

def noteOrder (s : WarmExecutionScheduler ω τ) (_ : Action ω τ) (s' : WarmExecutionScheduler ω τ)
    (n : QueueOrder) : QueueOrder where
  joined := s.joins s' ++ n.joined
  granted := s.grants s' ++ n.granted

def CallPc.unpolled : CallPc ω τ → Bool
  | .idle | .tryAcquire | .reserve | .acquire => true
  | _ => false

/-! ### What a step does to the queue -/

theorem waits_iff {i : Nat} : s.waits i = true ↔ s.WaitsAt i := by
  simp [WarmExecutionScheduler.waits, WarmExecutionScheduler.WaitsAt, Option.any_eq_true]

theorem waits_of_getElem? {i : Nat} {call : Call ω τ} (here : s.calls[i]? = some call) :
    s.waits i = call.pc.waits := by
  simp [WarmExecutionScheduler.waits, here]

theorem holds_of_getElem? {i : Nat} {call : Call ω τ} (here : s.calls[i]? = some call) :
    s.holds i = call.pc.holdsPermit := by
  simp [WarmExecutionScheduler.holds, here]

theorem CallPc.not_holds_of_waits {pc : CallPc ω τ} (h : pc.waits = true) :
    pc.holdsPermit = false :=
  (CallPc.holdsPermit_assign h).1

theorem filter_range_eq_nil {n : Nat} {p : Nat → Bool} (h : ∀ i < n, p i = false) :
    (List.range n).filter p = [] := by
  refine List.filter_eq_nil_iff.mpr fun i hi => ?_
  simp [h i (List.mem_range.mp hi)]

theorem filter_range_eq_singleton {n i : Nat} {p : Nat → Bool} (hi : i < n)
    (h : ∀ j < n, p j = true ↔ j = i) : (List.range n).filter p = [i] := by
  have hp : (List.range n).filter p = (List.range n).filter (· == i) := by
    refine List.filter_congr fun j hj => ?_
    rw [Bool.eq_iff_iff, h j (List.mem_range.mp hj), beq_iff_eq]
  rw [hp, List.filter_beq, List.count_eq_one_of_mem List.nodup_range (List.mem_range.mpr hi)]
  rfl

theorem not_holds_of_waits {j : Nat} (h : s.waits j = true) : s.holds j = false := by
  obtain ⟨call, here, hwaits⟩ := waits_iff.mp h
  rw [holds_of_getElem? here]
  exact CallPc.not_holds_of_waits hwaits

section Put

variable {t : WarmExecutionScheduler ω τ} {i : Nat} {call call' : Call ω τ}

theorem waits_put_ne (calls : t.calls = s.calls) {j : Nat} (h : j ≠ i) :
    (t.put i call').waits j = s.waits j := by
  simp only [WarmExecutionScheduler.waits, WarmExecutionScheduler.put, calls,
    List.getElem?_set_ne (Ne.symm h)]

theorem holds_put_ne (calls : t.calls = s.calls) {j : Nat} (h : j ≠ i) :
    (t.put i call').holds j = s.holds j := by
  simp only [WarmExecutionScheduler.holds, WarmExecutionScheduler.put, calls,
    List.getElem?_set_ne (Ne.symm h)]

theorem getElem?_put_self (calls : t.calls = s.calls) (here : s.calls[i]? = some call) :
    (t.put i call').calls[i]? = some call' :=
  getElem?_set_of_some (by rw [calls]; exact here) call'

theorem joins_put (calls : t.calls = s.calls) (here : s.calls[i]? = some call)
    (same : call'.pc.waits = true → call.pc.waits = true) : s.joins (t.put i call') = [] := by
  refine filter_range_eq_nil fun j _ => ?_
  by_cases hji : j = i
  · subst hji
    rw [waits_of_getElem? here, waits_of_getElem? (getElem?_put_self calls here)]
    cases hwaits : call'.pc.waits with
    | false => simp
    | true => simp [same hwaits]
  · rw [waits_put_ne calls hji]
    exact Bool.not_and_self (s.waits j)

theorem joins_put_self (calls : t.calls = s.calls) (here : s.calls[i]? = some call)
    (apart : call.pc.waits = false) (waits : call'.pc.waits = true) :
    s.joins (t.put i call') = [i] := by
  refine filter_range_eq_singleton (List.getElem?_eq_some_iff.mp here).1 fun j _ => ?_
  by_cases hji : j = i
  · subst hji
    rw [waits_of_getElem? here, waits_of_getElem? (getElem?_put_self calls here), apart, waits]
    simp
  · rw [waits_put_ne calls hji, Bool.not_and_self]
    simp [hji]

theorem grants_put (calls : t.calls = s.calls) (here : s.calls[i]? = some call)
    (nothing : call.pc.waits = true → call'.pc.holdsPermit = false) :
    s.grants (t.put i call') = [] := by
  refine filter_range_eq_nil fun j _ => ?_
  cases hwaits : s.waits j with
  | false => rfl
  | true =>
      by_cases hji : j = i
      · subst hji
        rw [waits_of_getElem? here] at hwaits
        rw [holds_of_getElem? (getElem?_put_self calls here)]
        exact nothing hwaits
      · rw [holds_put_ne calls hji]
        exact not_holds_of_waits hwaits

end Put

/-- What a step does to the queue: nothing, a call joins at its end, the call at its
front is granted a permit, or a call leaves it. -/
inductive QueueTurn (s s' : WarmExecutionScheduler ω τ) : Prop
  | keep (waiting : s'.semaphore.waiting = s.semaphore.waiting) (joins : s.joins s' = [])
      (grants : s.grants s' = [])
  | join (i : Nat) (call : Call ω τ) (here : s.calls[i]? = some call)
      (unpolled : call.pc.unpolled = true) (exhausted : s.semaphore.available = 0)
      (waiting : s'.semaphore.waiting = s.semaphore.waiting ++ [i])
      (joins : s.joins s' = [i]) (grants : s.grants s' = [])
  | grant (i : Nat) (waiting : s.semaphore.waiting = i :: s'.semaphore.waiting)
      (joins : s.joins s' = []) (grants : s.grants s' = [i])
  | leave (i : Nat) (waiting : s'.semaphore.waiting = s.semaphore.waiting.erase i)
      (joins : s.joins s' = []) (grants : s.grants s' = [])

variable {i : Nat} {call call' : Call ω τ}

theorem QueueTurn.put {t : WarmExecutionScheduler ω τ} (calls : t.calls = s.calls)
    (here : s.calls[i]? = some call) (waiting : t.semaphore.waiting = s.semaphore.waiting)
    (same : call'.pc.waits = call.pc.waits) : QueueTurn s (t.put i call') := by
  refine .keep waiting (joins_put calls here (by rw [same]; exact id)) (grants_put calls here ?_)
  intro hwaits
  rw [← same] at hwaits
  exact CallPc.not_holds_of_waits hwaits

/-- Giving a permit back grants it to the call at the front. -/
theorem QueueTurn.release (accounts : Accounted config 0 s) (here : s.calls[i]? = some call)
    (apart : call.pc.waits = false) (apart' : call'.pc.waits = false) :
    QueueTurn s (s.put i call').release := by
  have same : call'.pc.waits = call.pc.waits := by rw [apart, apart']
  have queues : s.semaphore.Queues (s.put i call').WaitsAt :=
    accounts.queues.congr (waitsAt_put here same)
  cases hrelease : s.semaphore.release with
  | mk heir semaphore =>
      cases heir with
      | none =>
          have hs : (s.put i call').release = { s with semaphore := semaphore }.put i call' := by
            simp only [WarmExecutionScheduler.release, WarmExecutionScheduler.put, hrelease]
          have hwaiting : semaphore.waiting = s.semaphore.waiting := by
            unfold Semaphore.release at hrelease
            split at hrelease
            next => cases hrelease; rfl
            next => cases hrelease
          rw [hs]
          exact .put rfl here hwaiting same
      | some j =>
          obtain ⟨_, ⟨heir, hthere, hwaits⟩, _⟩ := queues.release_some hrelease
          have hji : j ≠ i := by
            rintro rfl
            rw [getElem?_put_self rfl here] at hthere
            cases hthere
            rw [apart'] at hwaits
            cases hwaits
          have there : s.calls[j]? = some heir := by
            rw [← hthere]
            exact (List.getElem?_set_ne (Ne.symm hji)).symm
          have hs : (s.put i call').release =
              ({ s with semaphore := semaphore }.put i call').put j heir.assign := by
            simp only [WarmExecutionScheduler.release, hrelease, WarmExecutionScheduler.put]
            simp only [WarmExecutionScheduler.put] at hthere
            rw [List.modify_eq_set_getElem?, hthere]
            rfl
          have hwaiting : s.semaphore.waiting = j :: semaphore.waiting := by
            unfold Semaphore.release at hrelease
            split at hrelease
            next => cases hrelease
            next hcons => cases hrelease; exact hcons
          have hcalls : ({ s with semaphore := semaphore }.put i call').calls =
              (s.put i call').calls := rfl
          have apart_i : s.waits i = false := by rw [waits_of_getElem? here, apart]
          rw [hs]
          refine .grant j hwaiting ?_ ?_
          · refine filter_range_eq_nil fun k _ => ?_
            by_cases hkj : k = j
            · subst hkj
              rw [waits_of_getElem? (getElem?_put_self hcalls hthere), Call.assign_pc,
                CallPc.waits_assign, Bool.and_false]
            · rw [waits_put_ne hcalls hkj]
              by_cases hki : k = i
              · subst hki
                rw [waits_of_getElem? (getElem?_put_self rfl here), apart', Bool.and_false]
              · rw [waits_put_ne rfl hki]
                exact Bool.not_and_self (s.waits k)
          · refine filter_range_eq_singleton (List.getElem?_eq_some_iff.mp there).1 fun k _ => ?_
            by_cases hkj : k = j
            · subst hkj
              rw [holds_of_getElem? (getElem?_put_self hcalls hthere), waits_of_getElem? there,
                Call.assign_pc, hwaits, (CallPc.holdsPermit_assign hwaits).2]
              simp
            · rw [holds_put_ne hcalls hkj]
              by_cases hki : k = i
              · subst hki
                simp [apart_i, hkj]
              · rw [holds_put_ne rfl hki]
                cases hk : s.waits k with
                | false => simp [hkj]
                | true => simp [not_holds_of_waits hk, hkj]

theorem QueueTurn.giveUp {assigned : Bool} (accounts : Accounted config 0 s)
    (here : s.calls[i]? = some call) (waits : call.pc.waits = !assigned)
    (nothing : call'.pc.holdsPermit = false) (left : call'.pc.waits = false) :
    QueueTurn s ((s.put i call').giveUp i assigned) := by
  cases assigned with
  | true => exact .release accounts here waits left
  | false =>
      refine .leave i rfl ?_ ?_
      · exact joins_put (t := { s with semaphore := s.semaphore.abandon i }) rfl here
          (by rw [left]; exact fun h => by cases h)
      · exact grants_put (t := { s with semaphore := s.semaphore.abandon i }) rfl here
          fun _ => nothing

theorem CallRule.queueTurn (accounts : Accounted config 0 s) (here : s.calls[i]? = some call)
    (rule : CallRule config start s i call s') : QueueTurn s s' := by
  cases rule with
  | taken pc semaphore free | acquired pc semaphore free =>
      exact .put rfl here (Semaphore.tryAcquire_eq_some free).2 (by rw [pc]; rfl)
  | enqueued pc exhausted =>
      exact .join i call here (by rw [pc]; rfl) (Semaphore.tryAcquire_eq_none.mp exhausted) rfl
        (joins_put_self rfl here (by rw [pc]; rfl) rfl)
        (grants_put rfl here (by rw [pc]; exact fun h => by cases h))
  | timedOut _ pc => exact .giveUp accounts here (by rw [pc]; rfl) rfl rfl
  | dropQueued _ _ pc => exact .giveUp accounts here (by rw [pc]; rfl) rfl rfl
  | returned _ pc => exact .release accounts here (by rw [pc]; rfl) rfl
  | ended panicked pc => exact .release accounts here (by rw [pc]; rfl) (by cases panicked <;> rfl)
  | enter pc | noPermits pc _ | queueFull pc _ | reserved pc _ | pickedUp _ pc | pending _ pc
  | elapsed _ _ pc _ | parked _ _ pc _ | queueTimeout pc | droppedQueued pc | leftQueue pc
  | started pc | operated _ _ pc | completed _ _ pc | unwound _ _ pc =>
      exact .put rfl here rfl (by rw [pc]; rfl)

theorem queueTurn_step {a : Action ω τ} (accounts : Accounted config 0 s)
    (hstep : (warmExecution config start).step s a = some s') : QueueTurn s s' := by
  cases step_cases hstep with
  | call i call here _ rule => exact rule.queueTurn accounts here
  | elapse _ =>
      refine .keep rfl ?_ ?_
      · exact filter_range_eq_nil fun j _ => Bool.not_and_self (s.waits j)
      · refine filter_range_eq_nil fun j _ => ?_
        cases hwaits : s.waits j with
        | false => rfl
        | true => exact not_holds_of_waits hwaits

/-! ### Who comes to hold a permit -/

theorem CallPc.unpolled_of_assign {pc : CallPc ω τ} (h : pc.assign.unpolled = true) :
    pc.unpolled = true := by
  cases pc with
  | queued _ _ | pollTimer _ _ | expired _ => cases h
  | _ => exact h

theorem CallPc.polled_of_waits {pc : CallPc ω τ} (h : pc.waits = true) : pc.unpolled = false := by
  cases pc with
  | queued _ _ | pollTimer _ _ | expired _ => rfl
  | _ => cases h

/-- Being assigned a permit, a call comes to hold one only if it waited. -/
theorem CallPc.waits_of_assign {pc : CallPc ω τ} (had : pc.holdsPermit = false)
    (has : pc.assign.holdsPermit = true) : pc.waits = true := by
  cases pc with
  | queued _ assigned | pollTimer _ assigned | expired assigned =>
      cases assigned with
      | false => rfl
      | true => cases had
  | _ => exact absurd (had.symm.trans has) Bool.false_ne_true

/-- A call that has polled the semaphore is not about to poll it for the first time. -/
theorem CallRule.unpolled_of (rule : CallRule config start s i call s')
    (here : s.calls[i]? = some call) (here' : s'.calls[i]? = some call')
    (unpolled : call'.pc.unpolled = true) : call.pc.unpolled = true := by
  cases rule with
  | enter pc | taken pc _ _ | noPermits pc _ | reserved pc _ => rw [pc]; rfl
  | returned _ _ =>
      cases of_settled CallPc.unpolled_of_assign (getElem?_release (getElem?_set_of_some here _))
        here' unpolled
  | ended panicked _ =>
      have := of_settled CallPc.unpolled_of_assign
        (getElem?_release (getElem?_set_of_some here _)) here' unpolled
      cases panicked <;> cases this
  | timedOut _ _ | dropQueued _ _ _ =>
      cases of_settled CallPc.unpolled_of_assign (getElem?_giveUp (getElem?_set_of_some here _))
        here' unpolled
  | _ => cases of_put here rfl here' unpolled

/-- The stepping call comes to hold a permit by taking an available one. -/
theorem CallRule.available_of_holds (rule : CallRule config start s i call s')
    (here : s.calls[i]? = some call) (here' : s'.calls[i]? = some call')
    (had : call.pc.holdsPermit = false) (has : call'.pc.holdsPermit = true) :
    0 < s.semaphore.available := by
  have settled : ∀ {t : WarmExecutionScheduler ω τ} {next : Call ω τ},
      t.calls[i]? = some next ∨ t.calls[i]? = some next.assign → t.calls[i]? = some call' →
        next.pc.holdsPermit = true ∨ next.pc.assign.holdsPermit = true := by
    intro t next left there
    rw [there] at left
    obtain h | h := left
    · cases h
      exact .inl has
    · cases h
      exact .inr has
  cases rule with
  | taken _ semaphore free | acquired _ semaphore free =>
      have := (Semaphore.tryAcquire_eq_some free).1
      omega
  | returned _ _ =>
      obtain h | h := settled (getElem?_release (getElem?_set_of_some here _)) here' <;> cases h
  | ended panicked _ =>
      obtain h | h := settled (getElem?_release (getElem?_set_of_some here _)) here' <;>
        cases panicked <;> cases h
  | timedOut _ _ | dropQueued _ _ _ =>
      obtain h | h := settled (getElem?_giveUp (getElem?_set_of_some here _)) here' <;> cases h
  | pending _ pc | elapsed _ _ pc _ | parked _ _ pc _ | pickedUp _ pc | leftQueue pc | started pc
  | operated _ _ pc | completed _ _ pc | unwound _ _ pc =>
      rw [pc] at had
      have := of_put (p := CallPc.holdsPermit) here rfl here' has
      exact absurd (had.symm.trans this) Bool.false_ne_true
  | _ => cases of_put (p := CallPc.holdsPermit) here rfl here' has

theorem getElem?_of_any {p : Call ω τ → Bool} {k : Nat} (h : s.calls[k]?.any p = true) :
    ∃ call, s.calls[k]? = some call ∧ p call = true := by
  simpa [Option.any_eq_true] using h

/-- While a call waits, only the call at the front of the queue comes to hold a permit. -/
theorem front_of_holds {a : Action ω τ} {k : Nat} (accounts : Accounted config 0 s)
    (hstep : (warmExecution config start).step s a = some s') (had : s.holds k = false)
    (has : s'.holds k = true) (waiting : s.semaphore.waiting ≠ []) :
    s.semaphore.waiting.head? = some k := by
  have turn := queueTurn_step accounts hstep
  have waited : s.waits k = true := by
    obtain ⟨call', there', holds⟩ := getElem?_of_any has
    cases step_cases hstep with
    | elapse _ =>
        rw [holds_of_getElem? (s := s) there'] at had
        exact absurd (had.symm.trans holds) Bool.false_ne_true
    | call i call here _ rule =>
        by_cases hki : k = i
        · subst hki
          rw [holds_of_getElem? here] at had
          exact absurd (accounts.queues.idle (rule.available_of_holds here there' had holds)) waiting
        · obtain same | assigned := (rule.callStep here).kept k hki
          · rw [holds_of_getElem? (same.symm.trans there')] at had
            exact absurd (had.symm.trans holds) Bool.false_ne_true
          · obtain ⟨before, there, rfl⟩ := Option.map_eq_some_iff.mp (assigned.symm.trans there')
            rw [holds_of_getElem? there] at had
            rw [waits_of_getElem? there]
            exact CallPc.waits_of_assign had holds
  have granted : k ∈ s.grants s' := by
    obtain ⟨call, there, _⟩ := getElem?_of_any waited
    refine List.mem_filter.mpr ⟨List.mem_range.mpr (List.getElem?_eq_some_iff.mp there).1, ?_⟩
    rw [waited, has]
    rfl
  cases turn with
  | keep _ _ grants | join _ _ _ _ _ _ _ grants | leave _ _ _ grants =>
      rw [grants] at granted
      cases granted
  | grant j front _ grants =>
      rw [grants, List.mem_singleton] at granted
      rw [front, granted]
      rfl

/-! ### The order kept -/

/-- The calls that were granted a permit, and after them those that wait, stand in the
order in which they joined, which each does once. -/
structure QueueOrder.Follows (n : QueueOrder) (s : WarmExecutionScheduler ω τ) : Prop where
  inOrder : (s.semaphore.waiting.reverse ++ n.granted).Sublist n.joined
  once : n.joined.Nodup
  polled : ∀ i ∈ n.joined, ∀ call, s.calls[i]? = some call → call.pc.unpolled = false

theorem polled_step {a : Action ω τ} {j : Nat}
    (hstep : (warmExecution config start).step s a = some s')
    (polled : ∀ call, s.calls[j]? = some call → call.pc.unpolled = false) (call' : Call ω τ)
    (here' : s'.calls[j]? = some call') : call'.pc.unpolled = false := by
  cases step_cases hstep with
  | elapse _ => exact polled call' here'
  | call i call here _ rule =>
      refine Bool.eq_false_iff.mpr fun unpolled => ?_
      by_cases hji : j = i
      · subst hji
        exact absurd ((polled call here).symm.trans (rule.unpolled_of here here' unpolled))
          Bool.false_ne_true
      · obtain ⟨before, hbefore, hunpolled⟩ := ((rule.callStep here).kept j hji).of_assign
          (P := fun pc => pc.unpolled = true) (fun _ => CallPc.unpolled_of_assign) here' unpolled
        exact absurd ((polled before hbefore).symm.trans hunpolled) Bool.false_ne_true

theorem follows_step {a : Action ω τ} {n : QueueOrder} (accounts : Accounted config 0 s)
    (h : n.Follows s) (hstep : (warmExecution config start).step s a = some s') :
    (noteOrder s a s' n).Follows s' := by
  have polled : ∀ i ∈ n.joined, ∀ call, s'.calls[i]? = some call → call.pc.unpolled = false :=
    fun i hi => polled_step hstep (h.polled i hi)
  cases queueTurn_step accounts hstep with
  | keep waiting joins grants =>
      refine ⟨?_, ?_, ?_⟩ <;> simp only [noteOrder, joins, grants, List.nil_append]
      · rw [waiting]
        exact h.inOrder
      · exact h.once
      · exact polled
  | leave i waiting joins grants =>
      refine ⟨?_, ?_, ?_⟩ <;> simp only [noteOrder, joins, grants, List.nil_append]
      · rw [waiting]
        exact (((List.erase_sublist).reverse).append_right n.granted).trans h.inOrder
      · exact h.once
      · exact polled
  | grant i waiting joins grants =>
      have inOrder := h.inOrder
      rw [waiting, List.reverse_cons, List.append_assoc] at inOrder
      refine ⟨?_, ?_, ?_⟩ <;> simp only [noteOrder, joins, grants, List.nil_append]
      · exact inOrder
      · exact h.once
      · exact polled
  | join i call here unpolled _ waiting joins grants =>
      have fresh : i ∉ n.joined := fun hmem =>
        absurd ((h.polled i hmem call here).symm.trans unpolled) Bool.false_ne_true
      have joined : s'.waits i = true := by
        have hmem : i ∈ s.joins s' := by rw [joins]; exact List.mem_singleton_self i
        exact (Bool.and_eq_true_iff.mp (List.mem_filter.mp hmem).2).2
      refine ⟨?_, ?_, ?_⟩ <;> simp only [noteOrder, joins, grants, List.nil_append,
        List.singleton_append]
      · rw [waiting, List.reverse_append, List.reverse_singleton]
        exact h.inOrder.cons_cons i
      · exact List.nodup_cons.mpr ⟨fresh, h.once⟩
      · intro j hj call' here'
        obtain rfl | hj := List.mem_cons.mp hj
        · rw [waits_of_getElem? here'] at joined
          exact CallPc.polled_of_waits joined
        · exact polled j hj call' here'

/-- In every run the queue is first come, first served: calls are granted permits in
the order in which they joined, those still waiting joined after all of them that were
granted one, no call waits while a permit is available, and while a call waits nobody but
the one at the front comes to hold a permit. -/
theorem permits_granted_in_order (config : WarmExecutionConfig) (start : ω) (calls instant : Nat)
    (s : WarmExecutionScheduler ω τ) (n : QueueOrder)
    (h : ((warmExecution config start).monitor noteOrder).Reachable
      (.new config calls instant, .none) (s, n)) :
    (s.semaphore.waiting.reverse ++ n.granted).Sublist n.joined ∧ n.joined.Nodup ∧
      (∀ i, i ∈ s.semaphore.waiting ↔ s.waits i = true) ∧
      (0 < s.semaphore.available → s.semaphore.waiting = []) ∧
      ∀ (a : Action ω τ) (s' : WarmExecutionScheduler ω τ) (k : Nat),
        (warmExecution config start).step s a = some s' → s.holds k = false → s'.holds k = true →
        s.semaphore.waiting ≠ [] → s.semaphore.waiting.head? = some k := by
  have accounts : Accounted config 0 s := accounted_reachable h.unmonitor
  have follows : n.Follows s := by
    refine (h.invariant (I := fun t => Accounted config 0 t.1 ∧ t.2.Follows t.1) ?_ ?_).2
    · refine ⟨accounted_new calls instant, ?_, .nil, ?_⟩
      · exact List.Sublist.refl []
      · intro i hi
        cases hi
    · intro t a t' ht hstep
      obtain ⟨hmoved, hnote⟩ := System.monitor_step_iff.mp hstep
      rw [hnote]
      exact ⟨accounted_step ht.1 hmoved, follows_step ht.1 ht.2 hmoved⟩
  refine ⟨follows.inOrder, follows.once, ?_, accounts.queues.idle, ?_⟩
  · intro i
    rw [accounts.queues.mem i, waits_iff]
  · intro a s' k hstep had has waiting
    exact front_of_holds accounts hstep had has waiting

section Order

/-- One permit and room for two tickets. -/
def oneAndTwo : WarmExecutionConfig where
  maxActiveRequests := 1
  maxQueuedRequests := 2
  queueTimeout := 0

/-- Call 0 runs, calls 1 and 2 come to wait, and call 0 gives its permit back. -/
def servedSchedule : List (Action Unit Unit) :=
  queueSchedule ++ [.call 2 .enter, .call 2 .run, .call 2 .run, .call 1 .run, .call 2 .run] ++
    handOverSchedule

theorem permits_granted_in_order_served :
    ∃ t : WarmExecutionScheduler Unit Unit × QueueOrder,
      ((warmExecution oneAndTwo ()).monitor noteOrder).Reachable (.new oneAndTwo 3 0, .none) t ∧
        t.2 = { joined := [2, 1], granted := [1] } ∧
        (t.1.semaphore.waiting.reverse ++ t.2.granted).Sublist t.2.joined := by
  have served : ∃ t : WarmExecutionScheduler Unit Unit × QueueOrder,
      ((warmExecution oneAndTwo ()).monitor noteOrder).Reachable (.new oneAndTwo 3 0, .none) t ∧
        t.2 = { joined := [2, 1], granted := [1] } :=
    System.reachable_of_check servedSchedule (by decide)
  obtain ⟨⟨s, n⟩, ht, horder⟩ := served
  exact ⟨(s, n), ht, horder, (permits_granted_in_order oneAndTwo () 3 0 s n ht).1⟩

end Order
end LlmWakeProxy.Scheduler
