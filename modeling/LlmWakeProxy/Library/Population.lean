import Mathlib.Data.List.Basic
import Mathlib.Data.Bool.Basic

/-!
Counting the members of a population that have a property, when one member at
a time changes. A party system keeps its parties in a list and a step replaces
one of them; every counting invariant of such a system goes through the exact
balance `countP_set_balance`.
-/

namespace LlmWakeProxy.Library

universe u v
variable {α : Type u}

/-- Replacing one member moves the count by exactly that member's change. -/
theorem countP_set_balance (p : α → Bool) {l : List α} {i : Nat} {a b : α}
    (h : l[i]? = some a) :
    (l.set i b).countP p + (p a).toNat = l.countP p + (p b).toNat := by
  induction l generalizing i with
  | nil => simp at h
  | cons x rest ih =>
      cases i with
      | zero =>
          obtain rfl : x = a := by simpa using h
          simp only [List.set_cons_zero, List.countP_cons]
          cases p x <;> cases p b <;> simp
      | succ i =>
          have hrest : rest[i]? = some a := by simpa using h
          have balance := ih hrest
          simp only [List.set_cons_succ, List.countP_cons]
          omega

/-- The weights of all members together. -/
def totalWeight (weight : α → Nat) : List α → Nat
  | [] => 0
  | a :: rest => weight a + totalWeight weight rest

/-- Replacing one member moves the total by exactly that member's change. -/
theorem totalWeight_set_balance (weight : α → Nat) {l : List α} {i : Nat} {a b : α}
    (h : l[i]? = some a) :
    totalWeight weight (l.set i b) + weight a = totalWeight weight l + weight b := by
  induction l generalizing i with
  | nil => simp at h
  | cons x rest ih =>
      cases i with
      | zero =>
          obtain rfl : x = a := by simpa using h
          simp only [List.set_cons_zero, totalWeight]
          omega
      | succ i =>
          have balance := ih (by simpa using h)
          simp only [List.set_cons_succ, totalWeight]
          omega

/-- A weight that is bounded, and nothing for the members without a property. -/
theorem totalWeight_le_mul_countP {weight : α → Nat} {p : α → Bool} {bound : Nat}
    (h : ∀ a, weight a ≤ bound * (p a).toNat) (l : List α) :
    totalWeight weight l ≤ bound * l.countP p := by
  induction l with
  | nil => exact Nat.zero_le _
  | cons x rest ih =>
      have head := h x
      simp only [totalWeight, List.countP_cons]
      cases hp : p x with
      | true =>
          rw [hp, Bool.toNat_true] at head
          rw [if_pos rfl, Nat.mul_add]
          omega
      | false =>
          rw [hp, Bool.toNat_false] at head
          rw [if_neg Bool.false_ne_true, Nat.mul_add]
          omega

/-- Leaving one member out leaves out what it counts. -/
theorem countP_eraseIdx_balance (p : α → Bool) {l : List α} {i : Nat} {a : α}
    (h : l[i]? = some a) : (l.eraseIdx i).countP p + (p a).toNat = l.countP p := by
  induction l generalizing i with
  | nil => simp at h
  | cons x rest ih =>
      cases i with
      | zero =>
          obtain rfl : x = a := by simpa using h
          simp only [List.eraseIdx_cons_zero, List.countP_cons]
          cases p x <;> simp
      | succ i =>
          have balance := ih (by simpa using h)
          simp only [List.eraseIdx_cons_succ, List.countP_cons]
          omega

/-- Members with either of two properties that exclude each other. -/
theorem countP_add_countP_le {p q r : α → Bool} (l : List α)
    (apart : ∀ a, p a = true → q a = false) (left : ∀ a, p a = true → r a = true)
    (right : ∀ a, q a = true → r a = true) : l.countP p + l.countP q ≤ l.countP r := by
  induction l with
  | nil => simp
  | cons x rest ih =>
      simp only [List.countP_cons]
      cases hp : p x with
      | true =>
          simp only [apart x hp, left x hp, if_true, Bool.false_eq_true, if_false]
          omega
      | false =>
          cases hq : q x with
          | true =>
              simp only [right x hq, if_true, Bool.false_eq_true, if_false]
              omega
          | false =>
              simp only [Bool.false_eq_true, if_false]
              omega

/-- A member with the property is counted. -/
theorem countP_pos_of_getElem? {p : α → Bool} {l : List α} {i : Nat} {a : α}
    (h : l[i]? = some a) (ha : p a = true) : 0 < l.countP p :=
  List.countP_pos_iff.mpr ⟨a, List.mem_of_getElem? h, ha⟩

/-- At most one member has the property: two places that hold one coincide. -/
theorem eq_of_countP_le_one {p : α → Bool} {l : List α} (h : l.countP p ≤ 1) {i j : Nat}
    {a b : α} (hi : l[i]? = some a) (hj : l[j]? = some b) (ha : p a = true)
    (hb : p b = true) : i = j := by
  induction l generalizing i j with
  | nil => simp at hi
  | cons x rest ih =>
      simp only [List.countP_cons] at h
      cases i with
      | zero =>
          obtain rfl : x = a := by simpa using hi
          cases j with
          | zero => rfl
          | succ j =>
              have hrest : rest[j]? = some b := by simpa using hj
              have hpos := countP_pos_of_getElem? hrest hb
              simp only [ha, if_true] at h
              omega
      | succ i =>
          have hi' : rest[i]? = some a := by simpa using hi
          cases j with
          | zero =>
              obtain rfl : x = b := by simpa using hj
              have hpos := countP_pos_of_getElem? hi' ha
              simp only [hb, if_true] at h
              omega
          | succ j =>
              have hj' : rest[j]? = some b := by simpa using hj
              rw [ih (by omega) hi' hj']

/-- Two populations indexed alike: a property that entails another, place by
place, is not more frequent than it. -/
theorem countP_le_countP_of_getElem? {β : Type v} {p : α → Bool} {q : β → Bool} {l : List α}
    {m : List β}
    (h : ∀ (i : Nat) (a : α), l[i]? = some a → p a = true → ∃ b : β, m[i]? = some b ∧ q b = true) :
    l.countP p ≤ m.countP q := by
  induction l generalizing m with
  | nil => simp
  | cons x rest ih =>
      cases m with
      | nil =>
          have hnone : ∀ a ∈ x :: rest, p a = false := by
            intro a ha
            obtain ⟨i, hi⟩ := List.mem_iff_getElem?.mp ha
            cases hp : p a with
            | false => rfl
            | true =>
                obtain ⟨b, hb, _⟩ := h i a hi hp
                simp at hb
          have : (x :: rest).countP p = 0 := by
            rw [List.countP_eq_zero]
            intro a ha
            simp [hnone a ha]
          omega
      | cons y others =>
          have hrest := @ih others fun i a hi hp => by
            simpa using h (i + 1) a (by simpa using hi) hp
          simp only [List.countP_cons]
          cases hp : p x with
          | false => simp only [Bool.false_eq_true, if_false]; omega
          | true =>
              obtain ⟨b, hb, hq⟩ := h 0 x (by simp) hp
              obtain rfl : y = b := by simpa using hb
              simp only [hq, if_true]
              omega

theorem getElem?_set_of_some {l : List α} {i : Nat} {a : α} (h : l[i]? = some a) (b : α) :
    (l.set i b)[i]? = some b :=
  List.getElem?_set_self (List.getElem?_eq_some_iff.mp h).1

/-- Replacing a member by itself. -/
theorem set_of_some {l : List α} {i : Nat} {a : α} (h : l[i]? = some a) : l.set i a = l := by
  obtain ⟨hlt, rfl⟩ := List.getElem?_eq_some_iff.mp h
  exact List.set_getElem_self hlt

/-- A place holds the new member if it is the one replaced, and what it held otherwise. -/
theorem getElem?_set_cases {l : List α} {i j : Nat} {a b c : α} (h : l[i]? = some a)
    (hj : (l.set i b)[j]? = some c) : (j = i ∧ c = b) ∨ (j ≠ i ∧ l[j]? = some c) := by
  by_cases hji : j = i
  · subst hji
    rw [getElem?_set_of_some h] at hj
    exact .inl ⟨rfl, (Option.some.inj hj).symm⟩
  · rw [List.getElem?_set_ne (Ne.symm hji)] at hj
    exact .inr ⟨hji, hj⟩

/-- After a replacement a member is the new one or sits in another place. -/
theorem mem_set_cases {l : List α} {i : Nat} {a b : α} (h : a ∈ l.set i b) :
    a = b ∨ ∃ j, j ≠ i ∧ l[j]? = some a := by
  obtain ⟨j, hj⟩ := List.mem_iff_getElem?.mp h
  by_cases hji : j = i
  · subst hji
    have hlt : j < l.length := by simpa using (List.getElem?_eq_some_iff.mp hj).1
    rw [List.getElem?_set_self hlt] at hj
    exact .inl (Option.some.inj hj).symm
  · rw [List.getElem?_set_ne (Ne.symm hji)] at hj
    exact .inr ⟨j, hji, hj⟩

/-- Replacing a member keeps what holds of all the others. -/
theorem forall_mem_set {P : α → Prop} {l : List α} {i : Nat} {b : α}
    (hl : ∀ a ∈ l, P a) (hb : P b) : ∀ a ∈ l.set i b, P a := by
  intro a ha
  rcases List.mem_or_eq_of_mem_set ha with hmem | rfl
  · exact hl a hmem
  · exact hb

/-- A replacement that does not take the property away keeps some member having it. -/
theorem exists_mem_set {p : α → Bool} {l : List α} {i : Nat} {a b : α}
    (h : ∃ c ∈ l, p c = true) (here : l[i]? = some a) (hb : p a = true → p b = true) :
    ∃ c ∈ l.set i b, p c = true := by
  obtain ⟨c, hc, hp⟩ := h
  obtain ⟨j, hj⟩ := List.mem_iff_getElem?.mp hc
  by_cases hji : j = i
  · subst hji
    rw [here] at hj
    cases hj
    exact ⟨b, List.mem_of_getElem? (getElem?_set_of_some here b), hb hp⟩
  · refine ⟨c, List.mem_of_getElem? (i := j) ?_, hp⟩
    rwa [List.getElem?_set_ne (Ne.symm hji)]

end LlmWakeProxy.Library
