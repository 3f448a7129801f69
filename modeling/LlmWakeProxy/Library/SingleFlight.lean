import Mathlib.Data.Bool.Basic

/-!
The single-flight pattern: a flag lets one owner at a time run a piece of work
that everybody else waits for. Ownership starts with the flag, may move from
one party to another, and ends with the flag. What the pattern is for is
`Flight.Held`: the flag is up exactly while one owner exists. The only way to
lose it is an owner that goes away with the flag still up.
-/

namespace LlmWakeProxy.Library

/-- The flag and the number of parties that believe they own the flight. -/
structure Flight where
  active : Bool
  owners : Nat
  deriving DecidableEq, Repr

namespace Flight

/-- The moves that respect ownership. A hand-over keeps the number of owners. -/
inductive Turn : Flight → Flight → Prop
  | keep (f : Flight) : Turn f f
  | acquire (n : Nat) : Turn ⟨false, n⟩ ⟨true, n + 1⟩
  | release (b : Bool) (n : Nat) : Turn ⟨b, n + 1⟩ ⟨false, n⟩

/-- An owner goes away without putting the flag down. -/
inductive Abandon : Flight → Flight → Prop
  | lose (b : Bool) (n : Nat) : Abandon ⟨b, n + 1⟩ ⟨b, n⟩

/-- There is never more than one owner, and none while the flag is down. -/
def Exclusive (f : Flight) : Prop := f.owners ≤ f.active.toNat

/-- The flag is up exactly while an owner exists. -/
def Held (f : Flight) : Prop := f.owners = f.active.toNat

theorem Held.exclusive {f : Flight} (h : Held f) : Exclusive f := Nat.le_of_eq h

theorem Exclusive.active {f : Flight} (h : Exclusive f) (hpos : 0 < f.owners) :
    f.active = true := by
  cases hactive : f.active with
  | true => rfl
  | false =>
      simp only [Exclusive, hactive, Bool.toNat_false] at h
      omega

theorem Exclusive.owners_le_one {f : Flight} (h : Exclusive f) : f.owners ≤ 1 :=
  Nat.le_trans h (Bool.toNat_le f.active)

theorem Exclusive.turn {f g : Flight} (h : Exclusive f) (step : Turn f g) : Exclusive g := by
  cases step with
  | keep => exact h
  | acquire n =>
      simp only [Exclusive, Bool.toNat_false, Bool.toNat_true] at h ⊢
      omega
  | release b n =>
      simp only [Exclusive, Bool.toNat_false] at h ⊢
      cases b <;> simp only [Bool.toNat_false, Bool.toNat_true] at h <;> omega

theorem Exclusive.abandon {f g : Flight} (h : Exclusive f) (step : Abandon f g) :
    Exclusive g := by
  cases step with
  | lose b n =>
      simp only [Exclusive] at h ⊢
      omega

theorem Held.turn {f g : Flight} (h : Held f) (step : Turn f g) : Held g := by
  cases step with
  | keep => exact h
  | acquire n =>
      simp only [Held, Bool.toNat_false, Bool.toNat_true] at h ⊢
      omega
  | release b n =>
      simp only [Held, Bool.toNat_false] at h ⊢
      cases b <;> simp only [Bool.toNat_false, Bool.toNat_true] at h <;> omega

/-- Abandoning is exactly what breaks the pattern: the flag stays up for nobody. -/
theorem Held.orphaned {f g : Flight} (h : Held f) (step : Abandon f g) :
    g.active = true ∧ g.owners = 0 := by
  cases step with
  | lose b n =>
      cases b with
      | false => simp [Held] at h
      | true =>
          have hone : n + 1 = 1 := by simpa [Held] using h
          exact ⟨rfl, Nat.succ.inj hone⟩

theorem held_iff_owned {f : Flight} (h : Exclusive f) :
    Held f ↔ (f.active = true → 0 < f.owners) := by
  cases hactive : f.active with
  | false =>
      simp only [Exclusive, Held, hactive, Bool.toNat_false] at h ⊢
      constructor
      · intro _ hup
        cases hup
      · intro _
        omega
  | true =>
      simp only [Exclusive, Held, hactive, Bool.toNat_true] at h ⊢
      constructor
      · intro heq _
        omega
      · intro hpos
        have := hpos trivial
        omega

end Flight
end LlmWakeProxy.Library
