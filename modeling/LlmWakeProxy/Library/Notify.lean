import LlmWakeProxy.Library.Transition
import LlmWakeProxy.Library.Population

/-!
A flag with a notification. A raiser sets the flag, and the one who finds it unset
notifies all waiters in a second step. A waiter registers, looks at the flag and
goes to sleep only if it is unset; a notification reaches every waiter that
registered before it, asleep or not. Nobody sleeps through it: while the flag is
set, a sleeper that has not been reached will be, by a raiser between its two steps.
-/

namespace LlmWakeProxy.Library

/-- Where a waiter stands, and whether a notification has reached it. -/
inductive WaitPc where
  | idle
  | registered (reached : Bool)
  | unset (reached : Bool)
  | asleep (reached : Bool)
  | returned
  deriving DecidableEq, Repr

def WaitPc.reach : WaitPc → WaitPc
  | .registered _ => .registered true
  | .unset _ => .unset true
  | .asleep _ => .asleep true
  | pc => pc

inductive RaisePc where
  | idle
  | notifying
  | done
  deriving DecidableEq, Repr

structure Signal where
  raised : Bool
  raisers : List RaisePc
  waiters : List WaitPc
  deriving DecidableEq, Repr

inductive SignalAction where
  | raise (raiser : Nat)
  | notify (raiser : Nat)
  | wait (waiter : Nat)
  | go (waiter : Nat)
  | giveUp (waiter : Nat)

def SignalAction.ofWaiter : SignalAction → Bool
  | .raise _ | .notify _ => false
  | .wait _ | .go _ | .giveUp _ => true

namespace Signal

def new (raisers waiters : Nat) : Signal where
  raised := false
  raisers := List.replicate raisers .idle
  waiters := List.replicate waiters .idle

def step (s : Signal) : SignalAction → Option Signal
  | .raise k => do
      match ← s.raisers[k]? with
      | .idle => some { s with raised := true
                               raisers := s.raisers.set k (if s.raised then .done else .notifying) }
      | _ => none
  | .notify k => do
      match ← s.raisers[k]? with
      | .notifying => some { s with raisers := s.raisers.set k .done
                                    waiters := s.waiters.map WaitPc.reach }
      | _ => none
  | .wait j => do
      match ← s.waiters[j]? with
      | .idle | .returned => some { s with waiters := s.waiters.set j (.registered false) }
      | _ => none
  | .go j => do
      match ← s.waiters[j]? with
      | .registered reached =>
          some { s with
            waiters := s.waiters.set j (if s.raised then .returned else .unset reached) }
      | .unset reached =>
          some { s with waiters := s.waiters.set j (if reached then .returned else .asleep false) }
      | .asleep true => some { s with waiters := s.waiters.set j .returned }
      | _ => none
  | .giveUp j => do
      match ← s.waiters[j]? with
      | .asleep _ => some { s with waiters := s.waiters.set j .idle }
      | _ => none

end Signal

def signal : System Signal SignalAction where
  step := Signal.step

namespace Signal

/-- The steps of a signal. -/
inductive Rule (s : Signal) : SignalAction → Signal → Prop
  | raise (k : Nat) (here : s.raisers[k]? = some .idle) :
      Rule s (.raise k) { s with raised := true
                                 raisers := s.raisers.set k
                                   (if s.raised then .done else .notifying) }
  | notify (k : Nat) (here : s.raisers[k]? = some .notifying) :
      Rule s (.notify k) { s with raisers := s.raisers.set k .done
                                  waiters := s.waiters.map WaitPc.reach }
  | waiter (j : Nat) (a : SignalAction) (pc pc' : WaitPc) (here : s.waiters[j]? = some pc)
      (ofWaiter : a.ofWaiter = true)
      (sleeps : pc' = .asleep false → pc = .unset false)
      (looks : ∀ reached, pc' = .unset reached → s.raised = false) :
      Rule s a { s with waiters := s.waiters.set j pc' }

variable {s s' : Signal}

theorem step_rule {a : SignalAction} (h : signal.step s a = some s') : Rule s a s' := by
  cases a with
  | raise k =>
      obtain ⟨pc, here, hstep⟩ := Option.bind_eq_some_iff.mp h
      cases pc with
      | idle =>
          cases hstep
          exact .raise k here
      | notifying | done => cases hstep
  | notify k =>
      obtain ⟨pc, here, hstep⟩ := Option.bind_eq_some_iff.mp h
      cases pc with
      | notifying =>
          cases hstep
          exact .notify k here
      | idle | done => cases hstep
  | wait j =>
      obtain ⟨pc, here, hstep⟩ := Option.bind_eq_some_iff.mp h
      cases pc with
      | idle | returned =>
          cases hstep
          exact .waiter j _ _ _ here rfl (by simp) (by simp)
      | registered _ | unset _ | asleep _ => cases hstep
  | go j =>
      obtain ⟨pc, here, hstep⟩ := Option.bind_eq_some_iff.mp h
      cases pc with
      | idle | returned => cases hstep
      | registered reached =>
          cases hstep
          refine .waiter j _ _ _ here rfl ?_ ?_
          · split <;> simp
          · cases s.raised <;> simp
      | unset reached =>
          cases hstep
          refine .waiter j _ _ _ here rfl ?_ ?_
          · cases reached <;> simp
          · cases reached <;> simp
      | asleep reached =>
          cases reached with
          | true =>
              cases hstep
              exact .waiter j _ _ _ here rfl (by simp) (by simp)
          | false => cases hstep
  | giveUp j =>
      obtain ⟨pc, here, hstep⟩ := Option.bind_eq_some_iff.mp h
      cases pc with
      | asleep _ =>
          cases hstep
          exact .waiter j _ _ _ here rfl (by simp) (by simp)
      | idle | registered _ | unset _ | returned => cases hstep

/-- Whoever has seen the flag unset and is not reached has a notification coming
once the flag is set. -/
def Watchful (s : Signal) : Prop :=
  s.raised = true → .unset false ∈ s.waiters ∨ .asleep false ∈ s.waiters →
    .notifying ∈ s.raisers

theorem reach_ne (pc : WaitPc) : pc.reach ≠ .unset false ∧ pc.reach ≠ .asleep false := by
  cases pc <;> simp [WaitPc.reach]

/-- A notification leaves no sleeper behind. -/
theorem notified_of_notify {k : Nat} (h : signal.step s (.notify k) = some s') :
    .unset false ∉ s'.waiters ∧ .asleep false ∉ s'.waiters := by
  have none_left : ∀ pc ∈ s.waiters.map WaitPc.reach, pc ≠ .unset false ∧ pc ≠ .asleep false := by
    intro pc hmem
    obtain ⟨before, _, rfl⟩ := List.mem_map.mp hmem
    exact reach_ne before
  cases step_rule h with
  | notify _ _ => exact ⟨fun hmem => (none_left _ hmem).1 rfl, fun hmem => (none_left _ hmem).2 rfl⟩
  | waiter _ _ _ _ _ ofWaiter _ _ => cases ofWaiter

theorem watchful_step {a : SignalAction} (h : s.Watchful) (hstep : signal.step s a = some s') :
    s'.Watchful := by
  cases step_rule hstep with
  | raise k here =>
      intro _ waiting
      cases hraised : s.raised with
      | false => exact List.mem_of_getElem? (getElem?_set_of_some here _)
      | true =>
          obtain ⟨j, hj⟩ := List.mem_iff_getElem?.mp (h hraised waiting)
          refine List.mem_of_getElem? (i := j) ?_
          have hkj : k ≠ j := by
            rintro rfl
            cases here.symm.trans hj
          rwa [List.getElem?_set_ne hkj]
  | notify k _ =>
      intro _ waiting
      obtain ⟨unset, asleep⟩ := notified_of_notify hstep
      exact absurd waiting (not_or.mpr ⟨unset, asleep⟩)
  | waiter j a pc pc' here _ sleeps looks =>
      intro raised waiting
      refine h raised ?_
      have kept : ∀ pc₀, pc₀ ∈ s.waiters.set j pc' → pc₀ = pc' ∨ pc₀ ∈ s.waiters := by
        intro pc₀ hmem
        obtain rfl | ⟨i, _, hi⟩ := mem_set_cases hmem
        · exact .inl rfl
        · exact .inr (List.mem_of_getElem? hi)
      obtain hunset | hasleep := waiting
      · obtain hnew | hold := kept _ hunset
        · rw [looks false hnew.symm] at raised
          cases raised
        · exact .inl hold
      · obtain hnew | hold := kept _ hasleep
        · refine .inl (List.mem_of_getElem? (i := j) ?_)
          rw [here, sleeps hnew.symm]
        · exact .inr hold

/-- Only a raiser raises the flag, and begins to notify only when it does. -/
theorem lowered_step {a : SignalAction} (h : signal.step s a = some s')
    (lowered : ∀ k, a ≠ .raise k) :
    s'.raised = s.raised ∧ (.notifying ∈ s'.raisers → .notifying ∈ s.raisers) := by
  cases step_rule h with
  | raise k _ => exact absurd rfl (lowered k)
  | notify k here => exact ⟨rfl, fun _ => List.mem_of_getElem? here⟩
  | waiter _ _ _ _ _ _ _ _ => exact ⟨rfl, id⟩

theorem raisers_length {raisers waiters : Nat} (h : signal.Reachable (.new raisers waiters) s) :
    s.raisers.length = raisers := by
  refine h.invariant (I := fun s => s.raisers.length = raisers) List.length_replicate ?_
  intro t a t' ht hstep
  cases step_rule hstep with
  | raise _ _ | notify _ _ => exact List.length_set.trans ht
  | waiter _ _ _ _ _ _ _ _ => exact ht

/-- In every run, a sleeper that no notification has reached has one coming once
the flag is set: some raiser is about to notify, its next step is enabled, and it
leaves no such sleeper. -/
theorem no_lost_wakeup {raisers waiters : Nat}
    (h : signal.Reachable (.new raisers waiters) s) (raised : s.raised = true)
    (parked : .asleep false ∈ s.waiters) :
    ∃ k s', s.raisers[k]? = some .notifying ∧ signal.step s (.notify k) = some s' ∧
      .asleep false ∉ s'.waiters := by
  have watchful : s.Watchful := by
    refine h.invariant ?_ fun _ _ _ => watchful_step
    intro raised
    cases raised
  obtain ⟨k, here⟩ := List.mem_iff_getElem?.mp (watchful raised (.inr parked))
  have enabled : signal.step s (.notify k) =
      some { s with raisers := s.raisers.set k .done, waiters := s.waiters.map WaitPc.reach } := by
    simp only [signal, step, here]
    rfl
  exact ⟨k, _, here, enabled, (notified_of_notify enabled).2⟩

end Signal
end LlmWakeProxy.Library
