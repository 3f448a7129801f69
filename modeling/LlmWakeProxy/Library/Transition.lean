import Mathlib.Logic.Relation

/-!
Guarded transition systems with an executable step function.

A step that is not enabled in a state answers `none`. The same definition is
replayed on concrete schedules and reasoned about over all of them, so the
guards the proofs use are the guards a replay obeys. Restricting a system to
the steps that meet a predicate is again a system; every statement about "the
runs whose steps all meet a condition" is a statement about such a restriction.
-/

namespace LlmWakeProxy.Library

universe u v
variable {σ : Type u} {α : Type v}

/-- A guarded transition system over states `σ` and actions `α`. -/
structure System (σ : Type u) (α : Type v) where
  step : σ → α → Option σ

namespace System

/-- The states that a finite run from `start` ends in. -/
inductive Reachable (M : System σ α) (start : σ) : σ → Prop
  | refl : Reachable M start start
  | step {s s' : σ} {a : α} :
      Reachable M start s → M.step s a = some s' → Reachable M start s'

/-- Replay a schedule; `none` when one of its actions is not enabled. -/
def replay (M : System σ α) (start : σ) : List α → Option σ
  | [] => some start
  | a :: rest => (M.step start a).bind fun s => M.replay s rest

/-- The same system, refusing every action that does not meet `ok`. -/
def restrict (M : System σ α) (ok : σ → α → Prop) [∀ s a, Decidable (ok s a)] :
    System σ α where
  step s a := if ok s a then M.step s a else none

theorem Reachable.trans {M : System σ α} {s t u : σ}
    (left : M.Reachable s t) (right : M.Reachable t u) : M.Reachable s u := by
  induction right with
  | refl => exact left
  | step _ hstep ih => exact .step ih hstep

/-- Replaying an enabled schedule ends in a reachable state. -/
theorem reachable_of_replay {M : System σ α} {start s : σ} (schedule : List α)
    (h : M.replay start schedule = some s) : M.Reachable start s := by
  induction schedule generalizing start with
  | nil =>
      cases h
      exact .refl
  | cons a rest ih =>
      obtain ⟨t, ht, hrest⟩ := Option.bind_eq_some_iff.mp h
      exact (Reachable.step .refl ht).trans (ih hrest)

/-- A schedule whose replay passes a computed check leads to a reachable state
that has the property checked for. -/
theorem reachable_of_check {M : System σ α} {start : σ} (schedule : List α) {P : σ → Prop}
    [DecidablePred P] (h : (M.replay start schedule).any (fun s => decide (P s)) = true) :
    ∃ s, M.Reachable start s ∧ P s := by
  cases hreplay : M.replay start schedule with
  | none => simp [hreplay] at h
  | some s =>
      rw [hreplay] at h
      exact ⟨s, reachable_of_replay schedule hreplay, of_decide_eq_true h⟩

/-- A step whose result passes a computed check. -/
theorem step_of_check {M : System σ α} {s : σ} {a : α} {P : σ → Prop} [DecidablePred P]
    (h : (M.step s a).any (fun t => decide (P t)) = true) : ∃ t, M.step s a = some t ∧ P t := by
  cases hstep : M.step s a with
  | none => simp [hstep] at h
  | some t =>
      rw [hstep] at h
      exact ⟨t, rfl, of_decide_eq_true h⟩

/-- What holds at the start and is preserved by every step holds in every
reachable state. -/
theorem Reachable.invariant {M : System σ α} {I : σ → Prop} {start s : σ}
    (h : M.Reachable start s) (hstart : I start)
    (hstep : ∀ t a t', I t → M.step t a = some t' → I t') : I s := by
  induction h with
  | refl => exact hstart
  | step _ ht ih => exact hstep _ _ _ ih ht

section Restrict

variable {M : System σ α} {ok : σ → α → Prop} [∀ s a, Decidable (ok s a)]

theorem restrict_step_iff {s s' : σ} {a : α} :
    (M.restrict ok).step s a = some s' ↔ ok s a ∧ M.step s a = some s' := by
  simp [restrict]

/-- A run of the restriction is a run of the system. -/
theorem Reachable.unrestrict {start s : σ}
    (h : (M.restrict ok).Reachable start s) : M.Reachable start s := by
  induction h with
  | refl => exact .refl
  | step _ ht ih => exact .step ih (restrict_step_iff.mp ht).2

/-- A schedule whose actions meet the condition in every state replays alike. -/
theorem replay_restrict {start : σ} {schedule : List α} (h : ∀ a ∈ schedule, ∀ s, ok s a) :
    (M.restrict ok).replay start schedule = M.replay start schedule := by
  induction schedule generalizing start with
  | nil => rfl
  | cons a rest ih =>
      obtain ⟨first, others⟩ := List.forall_mem_cons.mp h
      have same : (M.restrict ok).step start a = M.step start a := if_pos (first start)
      simp only [replay, same]
      exact Option.bind_congr fun s _ => ih others

/-- The invariant rule for a restricted system, with the condition at hand. -/
theorem Reachable.invariant_restrict {I : σ → Prop} {start s : σ}
    (h : (M.restrict ok).Reachable start s) (hstart : I start)
    (hstep : ∀ t a t', I t → ok t a → M.step t a = some t' → I t') : I s := by
  refine h.invariant hstart ?_
  intro t a t' ht hrestricted
  obtain ⟨hok, hs⟩ := restrict_step_iff.mp hrestricted
  exact hstep t a t' ht hok hs

end Restrict

section Projection

universe w x
variable {τ : Type w} {β : Type x}

/-- A component of a composed system: every step of the whole either leaves the
component as it is or is a run of the component's own steps. -/
theorem Reachable.project {M : System σ α} {N : System τ β} {f : σ → τ} {start s : σ}
    (h : M.Reachable start s)
    (hstep : ∀ t a t', M.step t a = some t' → N.Reachable (f t) (f t')) :
    N.Reachable (f start) (f s) := by
  induction h with
  | refl => exact .refl
  | step _ ht ih => exact ih.trans (hstep _ _ _ ht)

end Projection

section Monitor

universe w
variable {τ : Type w} {note : σ → α → σ → τ → τ}

/-- The same system with a monitor beside it, which takes note of every step and
hinders none. -/
def monitor (M : System σ α) (note : σ → α → σ → τ → τ) : System (σ × τ) α where
  step s a := (M.step s.1 a).map fun t => (t, note s.1 a t s.2)

theorem monitor_step_iff {M : System σ α} {s s' : σ × τ} {a : α} :
    (M.monitor note).step s a = some s' ↔ M.step s.1 a = some s'.1 ∧ s'.2 = note s.1 a s'.1 s.2 := by
  constructor
  · intro h
    obtain ⟨t, hstep, rfl⟩ := Option.map_eq_some_iff.mp h
    exact ⟨hstep, rfl⟩
  · rintro ⟨hstep, hnote⟩
    exact Option.map_eq_some_iff.mpr ⟨s'.1, hstep, Prod.ext rfl hnote.symm⟩

/-- A monitored run is a run. -/
theorem Reachable.unmonitor {M : System σ α} {start s : σ × τ}
    (h : (M.monitor note).Reachable start s) : M.Reachable start.1 s.1 :=
  h.project (f := Prod.fst) fun _ _ _ hstep => .step .refl (monitor_step_iff.mp hstep).1

end Monitor

end System
end LlmWakeProxy.Library
