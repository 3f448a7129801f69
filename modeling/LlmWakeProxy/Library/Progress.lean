import LlmWakeProxy.Library.Transition

/-!
Possibility: `s` leads to `P` when some run from `s` ends in a state with `P`. That
a part of a system can always be brought to its end, whatever has happened before, is
such a statement; it is proved by a rank that some enabled step lowers. A run of a
component is carried over to the whole by matching its steps one by one.
-/

namespace LlmWakeProxy.Library.System

universe u v w x
variable {σ : Type u} {α : Type v} {M : System σ α} {P Q : σ → Prop} {s s' : σ}

def Leads (M : System σ α) (s : σ) (P : σ → Prop) : Prop :=
  ∃ t, M.Reachable s t ∧ P t

theorem Leads.here (h : P s) : M.Leads s P :=
  ⟨s, .refl, h⟩

theorem Leads.mono (h : M.Leads s P) (imp : ∀ t, P t → Q t) : M.Leads s Q := by
  obtain ⟨t, reach, held⟩ := h
  exact ⟨t, reach, imp t held⟩

theorem Leads.after (reach : M.Reachable s s') (h : M.Leads s' P) : M.Leads s P := by
  obtain ⟨t, onward, held⟩ := h
  exact ⟨t, reach.trans onward, held⟩

/-- One enabled step first. -/
theorem Leads.step {a : α} (hstep : M.step s a = some s') (h : M.Leads s' P) : M.Leads s P :=
  h.after (.step .refl hstep)

/-- While `P` does not hold, some run lowers the rank and keeps the invariant. -/
theorem Leads.of_rank {I : σ → Prop} (rank : σ → Nat)
    (lower : ∀ t, I t → ¬ P t → M.Leads t fun t' => I t' ∧ rank t' < rank t) (h : I s) :
    M.Leads s P := by
  induction hn : rank s using Nat.strongRecOn generalizing s with
  | ind n ih =>
      by_cases held : P s
      · exact .here held
      · obtain ⟨t, reach, kept, lt⟩ := lower s h held
        exact (ih (rank t) (hn ▸ lt) kept rfl).after reach

/-- Forward simulation: what matches every step matches every run. -/
theorem Reachable.simulate {τ : Type w} {β : Type x} {N : System τ β} {R : σ → τ → Prop} {t : τ}
    (h : M.Reachable s s') (related : R s t)
    (matched : ∀ u a u' v, R u v → M.step u a = some u' →
      ∃ v', N.Reachable v v' ∧ R u' v') :
    ∃ t', N.Reachable t t' ∧ R s' t' := by
  induction h with
  | refl => exact ⟨t, .refl, related⟩
  | step _ hstep ih =>
      obtain ⟨v, reach, hrelated⟩ := ih
      obtain ⟨v', onward, hrelated'⟩ := matched _ _ _ v hrelated hstep
      exact ⟨v', reach.trans onward, hrelated'⟩

end LlmWakeProxy.Library.System
