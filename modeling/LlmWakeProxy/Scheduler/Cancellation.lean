import LlmWakeProxy.Library.Notify
import LlmWakeProxy.Scheduler.Calls

/-!
`RequestCancellation` and `CancelOnDrop`: the handle a call gives its operation is
cancelled when the call is dropped or unwound before the operation finished, and
never otherwise, and no task that waits for the cancellation sleeps through it.

Beside the scheduler every call has a guard with its handle, a flag with a
notification that the guard alone raises. The handle is out of everyone's reach until
the call starts its operation; from then on any number of tasks wait on clones of it,
between any two steps of the call.
-/

namespace LlmWakeProxy.Scheduler
open LlmWakeProxy.Library

universe u v
variable {ω : Type u} {τ : Type v} {config : WarmExecutionConfig} {start : ω}

/-- The guard, its handle as the tasks share it; before `CancelOnDrop::new` it is
not armed. -/
structure CancelOnDrop where
  cancellation : Signal
  armed : Bool
  deriving DecidableEq, Repr

namespace CancelOnDrop

def disarm (guard : CancelOnDrop) : CancelOnDrop :=
  { guard with armed := false }

/-- `CancelOnDrop::drop`, as far as the `swap` of `RequestCancellation::cancel`. -/
def drop (guard : CancelOnDrop) : Option CancelOnDrop :=
  if guard.armed then
    (signal.step guard.cancellation (.raise 0)).map fun cancellation =>
      { guard with cancellation := cancellation }
  else
    some guard

def follow (guard : CancelOnDrop) (pc : CallPc ω τ) : Input ω τ → Option CancelOnDrop
  | .run =>
      match pc with
      | .starting => some { guard with armed := true }
      | .finished _ => some guard.disarm
      -- the permit is dropped after `cancel` has returned
      | .unwinding _ =>
          if .notifying ∈ guard.cancellation.raisers then none else some guard
      | _ => some guard
  | .panic | .drop => guard.drop
  | .enter | .operate _ | .complete _ => some guard

end CancelOnDrop

/-- The scheduler with the guards of its calls. -/
structure Cancellable (ω : Type u) (τ : Type v) where
  scheduler : WarmExecutionScheduler ω τ
  guards : List CancelOnDrop

inductive CancelAction (ω : Type u) (τ : Type v) where
  | scheduler (a : Action ω τ)
  | handle (call : Nat) (a : SignalAction)

namespace Cancellable

/-- A scheduler of `calls` calls, `tasks` tasks holding clones of each handle. -/
def new (config : WarmExecutionConfig) (calls tasks instant : Nat) : Cancellable ω τ where
  scheduler := .new config calls instant
  guards := List.replicate calls { cancellation := .new 1 tasks, armed := false }

def step (config : WarmExecutionConfig) (start : ω) (s : Cancellable ω τ) :
    CancelAction ω τ → Option (Cancellable ω τ)
  | .scheduler (.call i input) =>
      s.scheduler.calls[i]?.bind fun call =>
      s.guards[i]?.bind fun guard =>
      (s.scheduler.callStep config start i call input).bind fun scheduler =>
      (guard.follow call.pc input).map fun guard =>
        { scheduler := scheduler, guards := s.guards.set i guard }
  | .scheduler (.elapse span) =>
      some { s with scheduler.instant := s.scheduler.instant + span }
  | .handle _ (.raise _) => none
  | .handle i a =>
      s.guards[i]?.bind fun guard =>
      if i ∈ s.scheduler.started then
        (signal.step guard.cancellation a).map fun cancellation =>
          { s with guards := s.guards.set i { guard with cancellation := cancellation } }
      else
        none

end Cancellable

def cancellable (config : WarmExecutionConfig) (start : ω) :
    System (Cancellable ω τ) (CancelAction ω τ) where
  step := Cancellable.step config start

variable {s s' : Cancellable ω τ}

inductive CancelRule (config : WarmExecutionConfig) (start : ω) (s : Cancellable ω τ) :
    Cancellable ω τ → Prop
  | call (i : Nat) (input : Input ω τ) (call : Call ω τ) (guard guard' : CancelOnDrop)
      (scheduler : WarmExecutionScheduler ω τ) (here : s.scheduler.calls[i]? = some call)
      (guarded : s.guards[i]? = some guard)
      (stepped : s.scheduler.callStep config start i call input = some scheduler)
      (followed : guard.follow call.pc input = some guard') :
      CancelRule config start s { scheduler := scheduler, guards := s.guards.set i guard' }
  | elapse (span : Nat) :
      CancelRule config start s { s with scheduler.instant := s.scheduler.instant + span }
  | handle (i : Nat) (a : SignalAction) (guard : CancelOnDrop) (cancellation : Signal)
      (guarded : s.guards[i]? = some guard) (handed : i ∈ s.scheduler.started)
      (stepped : signal.step guard.cancellation a = some cancellation)
      (lowered : ∀ k, a ≠ .raise k) :
      CancelRule config start s
        { s with guards := s.guards.set i { guard with cancellation := cancellation } }

theorem cancelStep_cases {a : CancelAction ω τ}
    (h : (cancellable config start).step s a = some s') :
    CancelRule config start s s' := by
  cases a with
  | scheduler a =>
      cases a with
      | call i input =>
          obtain ⟨call, here, h⟩ := Option.bind_eq_some_iff.mp h
          obtain ⟨guard, guarded, h⟩ := Option.bind_eq_some_iff.mp h
          obtain ⟨scheduler, stepped, h⟩ := Option.bind_eq_some_iff.mp h
          obtain ⟨guard', followed, rfl⟩ := Option.map_eq_some_iff.mp h
          exact .call i input call guard guard' scheduler here guarded stepped followed
      | elapse span =>
          cases h
          exact .elapse span
  | handle i a =>
      cases a with
      | raise k => cases h
      | notify _ | wait _ | go _ | giveUp _ =>
          obtain ⟨guard, guarded, h⟩ := Option.bind_eq_some_iff.mp h
          split at h
          next handed =>
            obtain ⟨cancellation, stepped, rfl⟩ := Option.map_eq_some_iff.mp h
            exact .handle i _ guard cancellation guarded handed stepped (by simp)
          next => cases h

/-! ### The guard goes with its call -/

/-- The call was dropped, or its operation panicked. -/
def CallPc.unwound : CallPc ω τ → Bool
  | .unwinding _ | .dropped | .panicked => true
  | _ => false

def CallPc.isUnwinding : CallPc ω τ → Bool
  | .unwinding _ => true
  | _ => false

/-- What the guard of a call is where the call stands. -/
structure CancelOnDrop.Guards (guard : CancelOnDrop) (started : Prop) (pc : CallPc ω τ) : Prop where
  early : pc.unstarted = true → ¬ started ∧ guard.armed = false
  running : pc.isRunning = true → started ∧ guard.armed = true
  raised : guard.cancellation.raised = true ↔ started ∧ pc.unwound = true
  notifying : .notifying ∈ guard.cancellation.raisers → pc.isUnwinding = true

section Guards

variable {guard guard' : CancelOnDrop} {started : Prop} {pc pc' : CallPc ω τ}

theorem CancelOnDrop.drop_unarmed (h : guard.armed = false) : guard.drop = some guard := by
  simp [CancelOnDrop.drop, h]

theorem CancelOnDrop.drop_armed (h : guard.armed = true) (hdrop : guard.drop = some guard') :
    guard'.cancellation.raised = true := by
  simp only [CancelOnDrop.drop, h, if_true] at hdrop
  obtain ⟨cancellation, raised, rfl⟩ := Option.map_eq_some_iff.mp hdrop
  cases Signal.step_rule raised with
  | raise _ _ => rfl
  | waiter _ _ _ _ _ ofWaiter _ _ => cases ofWaiter

/-- Before the operation is started nothing happens to the guard. -/
theorem CancelOnDrop.follow_early {input : Input ω τ} (early : pc.unstarted = true)
    (held : pc ≠ .starting) (unarmed : guard.armed = false) :
    guard.follow pc input = some guard := by
  cases input with
  | enter | operate _ | complete _ => rfl
  | panic | drop => exact drop_unarmed unarmed
  | run =>
      cases pc with
      | starting => exact absurd rfl held
      | finished _ | unwinding _ => cases early
      | _ => rfl

theorem CancelOnDrop.Guards.assign (h : guard.Guards started pc) :
    guard.Guards started pc.assign := by
  cases pc with
  | queued _ _ | pollTimer _ _ | expired _ =>
      exact ⟨fun _ => h.early rfl, h.running, h.raised, h.notifying⟩
  | _ => exact h

/-- Only a call that unwinds has its guard notify. -/
theorem CancelOnDrop.Guards.silent (h : guard.Guards started pc) (quiet : pc.isUnwinding = false) :
    .notifying ∉ guard.cancellation.raisers := by
  intro notifying
  rw [h.notifying notifying] at quiet
  cases quiet

theorem CancelOnDrop.Guards.waits (h : guard.Guards started pc) (early : pc.unstarted = true)
    (later : pc'.isRunning = false) : guard.Guards started pc' := by
  obtain ⟨unstarted, unarmed⟩ := h.early early
  have quiet : pc.isUnwinding = false := by
    cases pc with
    | unwinding _ => cases early
    | _ => rfl
  refine ⟨fun _ => ⟨unstarted, unarmed⟩, ?_, ?_, fun notifying => absurd notifying (h.silent quiet)⟩
  · intro running
    rw [later] at running
    cases running
  · exact ⟨fun raised => absurd (h.raised.mp raised).1 unstarted, fun h => absurd h.1 unstarted⟩

/-- The call moves on after its operation was started, and is not unwound. -/
theorem CancelOnDrop.Guards.moves (h : guard.Guards started pc)
    (silent : .notifying ∉ guard.cancellation.raisers) (late : pc'.unstarted = false)
    (running : pc'.isRunning = true → pc.isRunning = true) (same : pc'.unwound = pc.unwound) :
    guard.Guards started pc' := by
  refine ⟨?_, fun runs => h.running (running runs), ?_, fun notifying => absurd notifying silent⟩
  · intro early
    rw [late] at early
    cases early
  · rw [same]
    exact h.raised

theorem CancelOnDrop.Guards.disarm (h : guard.Guards started pc) (late : pc.unstarted = false)
    (stopped : pc.isRunning = false) : guard.disarm.Guards started pc := by
  refine ⟨?_, ?_, h.raised, h.notifying⟩
  · intro early
    rw [late] at early
    cases early
  · intro running
    rw [stopped] at running
    cases running

end Guards

/-- Only the step that starts the operation makes a call running. -/
theorem CallMove.later_of_early {pc pc' : CallPc ω τ} (move : CallMove start pc pc')
    (early : pc.unstarted = true) (held : pc ≠ .starting) : pc'.isRunning = false := by
  cases move with
  | waits _ _ later =>
      cases pc' with
      | running _ => cases later
      | _ => rfl
  | leaves => rfl
  | starts => exact absurd rfl held
  | operates | finishes | returns | unwinds | ends => cases early

section CallStep

variable {t t' : WarmExecutionScheduler ω τ} {i : Nat} {call call' : Call ω τ} {input : Input ω τ}
variable {guard guard' : CancelOnDrop}

/-- The operation is being driven, finishes, or is dropped with the call or panics. -/
theorem guards_running {operation : ω} (h : guard.Guards (i ∈ t.started) call.pc)
    (here : t.calls[i]? = some call) (hpc : call.pc = .running operation)
    (stepped : t.callStep config start i call input = some t')
    (followed : guard.follow call.pc input = some guard') (here' : t'.calls[i]? = some call') :
    guard'.Guards (i ∈ t'.started) call'.pc := by
  obtain ⟨started, armed⟩ := h.running (by rw [hpc]; rfl)
  have unwound : ∀ panicked, guard.drop = some guard' → call'.pc = .unwinding panicked →
      guard'.Guards (i ∈ t.started) call'.pc := by
    intro panicked hdrop hpc'
    rw [hpc']
    refine ⟨fun early => (by cases early), fun running => (by cases running), ?_, fun _ => rfl⟩
    exact ⟨fun _ => ⟨started, rfl⟩, fun _ => CancelOnDrop.drop_armed armed hdrop⟩
  have silent : .notifying ∉ guard.cancellation.raisers := h.silent (by rw [hpc]; rfl)
  cases input with
  | enter | run => simp [WarmExecutionScheduler.callStep, hpc] at stepped
  | operate next =>
      obtain rfl : t.put i (call.goto (.running next)) = t' := by
        simpa [WarmExecutionScheduler.callStep, hpc] using stepped
      obtain rfl := Option.some.inj ((getElem?_set_of_some here _).symm.trans here')
      cases followed
      exact h.moves silent rfl (fun _ => by rw [hpc]; rfl) (by rw [hpc]; rfl)
  | complete output =>
      obtain rfl : t.put i (call.goto (.finished output)) = t' := by
        simpa [WarmExecutionScheduler.callStep, hpc] using stepped
      obtain rfl := Option.some.inj ((getElem?_set_of_some here _).symm.trans here')
      cases followed
      exact h.moves silent rfl (fun running => by cases running) (by rw [hpc]; rfl)
  | panic =>
      obtain rfl : t.put i { pc := .unwinding true, cancelled := true } = t' := by
        simpa [WarmExecutionScheduler.callStep, hpc] using stepped
      obtain rfl := Option.some.inj ((getElem?_set_of_some here _).symm.trans here')
      exact unwound true followed rfl
  | drop =>
      obtain rfl : t.put i { pc := .unwinding false, cancelled := true } = t' := by
        simpa [WarmExecutionScheduler.callStep, hpc] using stepped
      obtain rfl := Option.some.inj ((getElem?_set_of_some here _).symm.trans here')
      exact unwound false followed rfl

theorem guards_starting (h : guard.Guards (i ∈ t.started) call.pc)
    (here : t.calls[i]? = some call) (hpc : call.pc = .starting)
    (stepped : t.callStep config start i call input = some t')
    (followed : guard.follow call.pc input = some guard') (here' : t'.calls[i]? = some call') :
    guard'.Guards (i ∈ t'.started) call'.pc := by
  cases input with
  | enter | operate _ | complete _ | panic | drop =>
      simp [WarmExecutionScheduler.callStep, hpc] at stepped
  | run =>
      obtain rfl : { t with started := i :: t.started }.put i
          { pc := .running start, cancelled := false } = t' := by
        simpa [WarmExecutionScheduler.callStep, hpc] using stepped
      obtain rfl := Option.some.inj ((getElem?_set_of_some here _).symm.trans here')
      obtain ⟨unstarted, _⟩ := h.early (by rw [hpc]; rfl)
      have silent : .notifying ∉ guard.cancellation.raisers := h.silent (by rw [hpc]; rfl)
      simp only [CancelOnDrop.follow, hpc, Option.some.injEq] at followed
      subst followed
      refine ⟨fun early => (by cases early), fun _ => ⟨List.mem_cons_self, rfl⟩, ?_,
        fun notifying => absurd notifying silent⟩
      exact ⟨fun raised => absurd (h.raised.mp raised).1 unstarted, fun h => by cases h.2⟩

theorem guards_callStep (h : guard.Guards (i ∈ t.started) call.pc)
    (here : t.calls[i]? = some call) (stepped : t.callStep config start i call input = some t')
    (followed : guard.follow call.pc input = some guard') (here' : t'.calls[i]? = some call') :
    guard'.Guards (i ∈ t'.started) call'.pc := by
  obtain ⟨⟨next, hnext, move⟩, _, hstarted⟩ := (callStep_cases stepped).callStep here
  obtain rfl := Option.some.inj (hnext.symm.trans here')
  by_cases hpc : call.pc = .starting
  · exact guards_starting h here hpc stepped followed here'
  have same : t'.started = t.started := hstarted.resolve_right fun h => hpc h.1
  rw [same]
  by_cases early : call.pc.unstarted = true
  · rw [CancelOnDrop.follow_early early hpc (h.early early).2] at followed
    cases followed
    exact h.waits early (move.later_of_early early hpc)
  cases hbefore : call.pc with
  | running operation =>
      rw [← same]
      exact guards_running h here hbefore stepped followed here'
  | starting => exact absurd hbefore hpc
  | finished output =>
      cases input with
      | enter | operate _ | complete _ | panic | drop =>
          simp [WarmExecutionScheduler.callStep, hbefore] at stepped
      | run =>
          simp only [CancelOnDrop.follow, hbefore, Option.some.injEq] at followed
          subst followed
          rw [hbefore] at h move
          generalize next.pc = after at move ⊢
          cases move with
          | waits early _ _ | leaves early _ => cases early
          | returns =>
              have kept := h.disarm rfl rfl
              exact kept.moves (h.silent rfl) rfl (fun running => by cases running) rfl
  | unwinding panicked =>
      cases input with
      | enter | operate _ | complete _ | panic | drop =>
          simp [WarmExecutionScheduler.callStep, hbefore] at stepped
      | run =>
          rw [hbefore] at h move followed
          obtain ⟨silent, rfl⟩ : .notifying ∉ guard.cancellation.raisers ∧ guard = guard' := by
            simpa [CancelOnDrop.follow] using followed
          generalize next.pc = after at move ⊢
          cases move with
          | waits early _ _ | leaves early _ => cases early
          | ends =>
              cases panicked with
              | true | false => exact h.moves silent rfl (fun running => by cases running) rfl
  | returned result =>
      cases result with
      | ok output => cases input <;> simp [WarmExecutionScheduler.callStep, hbefore] at stepped
      | error _ => simp [hbefore, CallPc.unstarted] at early
  | dropped | panicked =>
      cases input <;> simp [WarmExecutionScheduler.callStep, hbefore] at stepped
  | _ => simp [hbefore, CallPc.unstarted] at early

end CallStep

def Cancellable.Guarded (s : Cancellable ω τ) : Prop :=
  ∀ (i : Nat) (call : Call ω τ) (guard : CancelOnDrop), s.scheduler.calls[i]? = some call →
    s.guards[i]? = some guard → guard.Guards (i ∈ s.scheduler.started) call.pc

theorem guarded_step {a : CancelAction ω τ} (hs : s.Guarded)
    (hstep : (cancellable config start).step s a = some s') : s'.Guarded := by
  cases cancelStep_cases hstep with
  | elapse _ => exact hs
  | handle i a guard cancellation guarded _ stepped lowered =>
      intro j call guard' here guarded'
      obtain ⟨rfl, rfl⟩ | ⟨_, kept⟩ := getElem?_set_cases guarded guarded'
      · have h := hs j call guard here guarded
        obtain ⟨raised, notifying⟩ := Signal.lowered_step stepped lowered
        refine ⟨h.early, h.running, ?_, fun hnotifying => h.notifying (notifying hnotifying)⟩
        rw [raised]
        exact h.raised
      · exact hs j call guard' here kept
  | call i input call guard guard' scheduler here guarded stepped followed =>
      obtain ⟨_, kept, started⟩ := (callStep_cases stepped).callStep here
      intro j other guard'' here' guarded'
      obtain ⟨rfl, rfl⟩ | ⟨hji, hguard⟩ := getElem?_set_cases guarded guarded'
      · exact guards_callStep (hs j call guard here guarded) here stepped followed here'
      · have same : (j ∈ scheduler.started) = (j ∈ s.scheduler.started) := by
          obtain hsame | ⟨_, hmore⟩ := started
          · rw [hsame]
          · rw [hmore, List.mem_cons, eq_false hji, false_or]
        show guard''.Guards (j ∈ scheduler.started) other.pc
        rw [same]
        obtain hkept | hassigned := kept j hji
        · exact hs j other guard'' (hkept.symm.trans here') hguard
        · obtain ⟨before, hbefore, rfl⟩ := Option.map_eq_some_iff.mp (hassigned.symm.trans here')
          exact (hs j before guard'' hbefore hguard).assign

theorem guarded_new (calls tasks instant : Nat) :
    (.new config calls tasks instant : Cancellable ω τ).Guarded := by
  intro i call guard here guarded
  obtain ⟨_, rfl⟩ := by simpa [Cancellable.new, List.getElem?_replicate] using guarded
  obtain ⟨_, rfl⟩ := by
    simpa [Cancellable.new, WarmExecutionScheduler.new, List.getElem?_replicate] using here
  refine ⟨fun _ => ⟨List.not_mem_nil, rfl⟩, fun running => (by cases running), ?_, ?_⟩
  · exact ⟨fun raised => (by cases raised), fun h => by cases h.2⟩
  · intro notifying
    simp [Signal.new] at notifying

/-! ### The handle of a call is a signal -/

theorem CancelOnDrop.follow_run {guard guard' : CancelOnDrop} {pc : CallPc ω τ} {input : Input ω τ}
    (h : guard.follow pc input = some guard') :
    signal.Reachable guard.cancellation guard'.cancellation := by
  have dropped : guard.drop = some guard' →
      signal.Reachable guard.cancellation guard'.cancellation := by
    intro hdrop
    unfold CancelOnDrop.drop at hdrop
    split at hdrop
    next =>
      obtain ⟨cancellation, raised, rfl⟩ := Option.map_eq_some_iff.mp hdrop
      exact .step .refl raised
    next =>
      cases hdrop
      exact .refl
  cases input with
  | panic | drop => exact dropped h
  | enter | operate _ | complete _ =>
      cases h
      exact .refl
  | run =>
      cases pc with
      | unwinding _ =>
          simp only [CancelOnDrop.follow] at h
          split at h
          next => cases h
          next =>
            cases h
            exact .refl
      | _ =>
          cases h
          exact .refl

def Cancellable.handle (s : Cancellable ω τ) (tasks i : Nat) : Signal :=
  match s.guards[i]? with
  | some guard => guard.cancellation
  | none => .new 1 tasks

theorem Cancellable.handle_of_guard {tasks i : Nat} {guard : CancelOnDrop}
    (guarded : s.guards[i]? = some guard) : s.handle tasks i = guard.cancellation := by
  simp only [handle, guarded]

theorem handle_set {guards : List CancelOnDrop} {tasks i : Nat} {guard guard' : CancelOnDrop}
    {scheduler scheduler' : WarmExecutionScheduler ω τ} (guarded : guards[i]? = some guard)
    (run : signal.Reachable guard.cancellation guard'.cancellation) (j : Nat) :
    signal.Reachable (Cancellable.handle { scheduler := scheduler, guards := guards } tasks j)
      (Cancellable.handle { scheduler := scheduler', guards := guards.set i guard' } tasks j) := by
  by_cases hij : i = j
  · subst hij
    rw [Cancellable.handle_of_guard guarded,
      Cancellable.handle_of_guard (getElem?_set_of_some guarded guard')]
    exact run
  · simp only [Cancellable.handle, List.getElem?_set_ne hij]
    exact .refl

/-- A run of the scheduler is a run of every handle. -/
theorem handle_reachable {calls tasks instant : Nat}
    (h : (cancellable config start).Reachable (.new config calls tasks instant) s) (i : Nat) :
    signal.Reachable (.new 1 tasks) (s.handle tasks i) := by
  have fresh :
      (.new config calls tasks instant : Cancellable ω τ).handle tasks i = .new 1 tasks := by
    simp only [Cancellable.handle, Cancellable.new, List.getElem?_replicate]
    split
    next heq =>
      split at heq
      next =>
        cases heq
        rfl
      next => cases heq
    next => rfl
  rw [← fresh]
  refine h.project (f := fun s => s.handle tasks i) ?_
  intro t a t' hstep
  cases cancelStep_cases hstep with
  | elapse _ => exact .refl
  | call j _ _ _ _ _ _ guarded _ followed =>
      exact handle_set guarded (CancelOnDrop.follow_run followed) i
  | handle j _ _ _ guarded _ stepped _ => exact handle_set guarded (.step .refl stepped) i

section Parked

/-- The only call is dropped while its task parks, after the task looked at the flag. -/
def parkedSchedule : List (CancelAction Unit Unit) :=
  [.scheduler (.call 0 .enter), .scheduler (.call 0 .run), .scheduler (.call 0 .run),
   .handle 0 (.wait 0), .handle 0 (.go 0), .scheduler (.call 0 .drop), .handle 0 (.go 0)]

end Parked
end LlmWakeProxy.Scheduler
