import Mathlib.Data.List.Basic
import Mathlib.Data.List.Nodup

/-!
A fair counting semaphore. A permit that is given back goes to the waiter at
the front of the queue, if there is one, and becomes available otherwise; it is
the waiter's from that moment, although the waiter only learns of it later.

`Queues` relates the queue to the parties that wait: every one of them is in the
queue, once, and nobody waits while a permit is available.
-/

namespace LlmWakeProxy.Library

universe u
variable {ι : Type u}

/-- Permits nobody holds, and who waits for one, oldest first. -/
structure Semaphore (ι : Type u) where
  available : Nat
  waiting : List ι
  deriving DecidableEq, Repr

namespace Semaphore

def new (permits : Nat) : Semaphore ι where
  available := permits
  waiting := []

def tryAcquire (s : Semaphore ι) : Option (Semaphore ι) :=
  if 0 < s.available then some { s with available := s.available - 1 } else none

def enqueue (s : Semaphore ι) (i : ι) : Semaphore ι :=
  { s with waiting := s.waiting ++ [i] }

/-- A waiter leaves the queue before it was given a permit. -/
def abandon [DecidableEq ι] (s : Semaphore ι) (i : ι) : Semaphore ι :=
  { s with waiting := s.waiting.erase i }

/-- Give a permit back; the first component is the waiter it goes to. -/
def release (s : Semaphore ι) : Option ι × Semaphore ι :=
  match s.waiting with
  | [] => (none, { s with available := s.available + 1 })
  | i :: rest => (some i, { s with waiting := rest })

theorem tryAcquire_eq_some {s s' : Semaphore ι} (h : s.tryAcquire = some s') :
    s'.available + 1 = s.available ∧ s'.waiting = s.waiting := by
  unfold tryAcquire at h
  split at h
  next hpos =>
    cases h
    exact ⟨Nat.sub_add_cancel hpos, rfl⟩
  next => cases h

theorem tryAcquire_eq_none {s : Semaphore ι} : s.tryAcquire = none ↔ s.available = 0 := by
  unfold tryAcquire
  split <;> simp <;> omega

/-- The queue holds exactly the parties that wait, each once, and is empty while
a permit is available. -/
structure Queues (s : Semaphore ι) (waits : ι → Prop) : Prop where
  nodup : s.waiting.Nodup
  mem : ∀ i, i ∈ s.waiting ↔ waits i
  idle : 0 < s.available → s.waiting = []

namespace Queues

variable {s s' : Semaphore ι} {waits waits' : ι → Prop}

theorem new (permits : Nat) (h : ∀ i, ¬ waits i) : (Semaphore.new permits).Queues waits where
  nodup := .nil
  mem i := by simp [Semaphore.new, h i]
  idle _ := rfl

theorem congr (hs : s.Queues waits) (h : ∀ i, waits' i ↔ waits i) : s.Queues waits' where
  nodup := hs.nodup
  mem i := (hs.mem i).trans (h i).symm
  idle := hs.idle

theorem tryAcquire (hs : s.Queues waits) (h : s.tryAcquire = some s') : s'.Queues waits := by
  obtain ⟨havailable, hwaiting⟩ := tryAcquire_eq_some h
  refine ⟨?_, ?_, ?_⟩
  · rw [hwaiting]
    exact hs.nodup
  · rw [hwaiting]
    exact hs.mem
  · intro _
    rw [hwaiting]
    exact hs.idle (by omega)

theorem enqueue (hs : s.Queues waits) {i : ι} (hnone : s.tryAcquire = none) (hi : ¬ waits i) :
    (s.enqueue i).Queues fun j => j = i ∨ waits j where
  nodup := by
    have hfresh : i ∉ s.waiting := fun hmem => hi ((hs.mem i).mp hmem)
    exact List.nodup_append.mpr ⟨hs.nodup, List.nodup_singleton i, by
      intro a ha b hb
      obtain rfl := List.mem_singleton.mp hb
      exact fun hab => hfresh (hab ▸ ha)⟩
  mem j := by
    simp only [Semaphore.enqueue, List.mem_append, List.mem_singleton, hs.mem j]
    exact or_comm
  idle havailable := by
    have hzero := tryAcquire_eq_none.mp hnone
    simp only [Semaphore.enqueue] at havailable
    omega

theorem abandon [DecidableEq ι] (hs : s.Queues waits) (i : ι) :
    (s.abandon i).Queues fun j => j ≠ i ∧ waits j where
  nodup := hs.nodup.erase i
  mem j := by
    simp only [Semaphore.abandon]
    rw [hs.nodup.mem_erase_iff, hs.mem j]
  idle havailable := by
    simp only [Semaphore.abandon]
    rw [hs.idle havailable, List.erase_nil]

theorem release_none (hs : s.Queues waits) (h : s.release = (none, s')) :
    s'.available = s.available + 1 ∧ s'.Queues waits := by
  unfold Semaphore.release at h
  split at h
  next hempty =>
    cases h
    refine ⟨rfl, ?_, ?_, ?_⟩
    · exact hs.nodup
    · exact hs.mem
    · exact fun _ => hempty
  next => cases h

theorem release_some (hs : s.Queues waits) {i : ι} (h : s.release = (some i, s')) :
    s'.available = s.available ∧ waits i ∧ s'.Queues fun j => j ≠ i ∧ waits j := by
  unfold Semaphore.release at h
  split at h
  next => cases h
  next i' rest hwaiting =>
    cases h
    have hnodup := hs.nodup
    have hidle := hs.idle
    rw [hwaiting] at hnodup hidle
    obtain ⟨hfresh, hrest⟩ := List.nodup_cons.mp hnodup
    refine ⟨rfl, (hs.mem i).mp (by simp [hwaiting]), hrest, ?_, ?_⟩
    · intro j
      rw [← hs.mem j, hwaiting, List.mem_cons]
      constructor
      · exact fun hj => ⟨fun heq => hfresh (heq ▸ hj), .inr hj⟩
      · rintro ⟨hne, heq | hj⟩
        · exact absurd heq hne
        · exact hj
    · intro havailable
      exact absurd (hidle havailable) (by simp)

end Queues
end Semaphore
end LlmWakeProxy.Library
