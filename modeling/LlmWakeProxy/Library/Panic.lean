import Mathlib.Logic.Basic

/-!
Computations over a state that can panic. A panic ends the computation where it is, and
what was done before it stays done: every run ends in a state, with a result or without
one.
-/

namespace LlmWakeProxy.Library

variable {S α β : Type}

/-- A computation over states `S`, without a result where it panics. -/
def PanicM (S α : Type) : Type := S → Option α × S

namespace PanicM

instance : Monad (PanicM S) where
  pure a := fun s => (some a, s)
  bind x f := fun s =>
    match x s with
    | (some a, next) => f a next
    | (none, next) => (none, next)

def panicked : PanicM S α := fun s => (none, s)

def get : PanicM S S := fun s => (some s, s)

variable {x : PanicM S α} {f : α → PanicM S β} {s t : S}

theorem bind_run {a : α} (h : x s = (some a, t)) : (x >>= f) s = f a t := by
  simp only [Bind.bind, h]

theorem bind_panicked (h : x s = (none, t)) : (x >>= f) s = (none, t) := by
  simp only [Bind.bind, h]

theorem pure_eq_some {a : α} {r : Option α × S} : (pure a : PanicM S α) s = r ↔ (some a, s) = r :=
  Iff.rfl

/-- A run goes on with the result of its first part, or ends with it in a panic. -/
theorem bind_cases {result : Option β} (h : (x >>= f) s = (result, t)) :
    (∃ a next, x s = (some a, next) ∧ f a next = (result, t)) ∨
      x s = (none, t) ∧ result = none := by
  cases hx : x s with
  | mk first next =>
      cases first with
      | some a => exact .inl ⟨a, next, rfl, (bind_run hx).symm.trans h⟩
      | none =>
          cases (bind_panicked hx).symm.trans h
          exact .inr ⟨rfl, rfl⟩

theorem bind_eq_some {b : β} :
    (x >>= f) s = (some b, t) ↔ ∃ a next, x s = (some a, next) ∧ f a next = (some b, t) := by
  constructor
  · intro h
    obtain first | ⟨_, none⟩ := bind_cases h
    · exact first
    · cases none
  · rintro ⟨a, next, hx, hf⟩
    exact (bind_run hx).trans hf

/-- The computation never panics. -/
def Returns (x : PanicM S α) : Prop := ∀ s, ∃ a t, x s = (some a, t)

theorem Returns.pure (a : α) : Returns (pure a : PanicM S α) :=
  fun s => ⟨a, s, rfl⟩

theorem Returns.bind (hx : x.Returns) (hf : ∀ a, (f a).Returns) : (x >>= f).Returns := by
  intro s
  obtain ⟨a, next, hrun⟩ := hx s
  obtain ⟨b, t, hrest⟩ := hf a next
  exact ⟨b, t, (bind_run hrun).trans hrest⟩

theorem isSome_iff : (x s).1.isSome = true ↔ ∃ a t, x s = (some a, t) := by
  constructor
  · intro h
    obtain ⟨a, ha⟩ := Option.isSome_iff_exists.mp h
    exact ⟨a, (x s).2, Prod.ext ha rfl⟩
  · rintro ⟨a, t, h⟩
    rw [h]
    rfl

end PanicM
end LlmWakeProxy.Library
