import Mathlib.Order.Defs.PartialOrder

/-!
A watch cell: the latest value sent, with the number of sends so far. Writers
that copy the value, edit the copy and send it back are described by what their
edit guarantees relative to the version they copied (`Grounded`). The guarantee
reaches the cell only when nothing was sent in between; that is the whole
content of a lost update.
-/

namespace LlmWakeProxy.Library

universe u

/-- The latest value together with the number of values sent before it. -/
structure Watch (α : Type u) where
  value : α
  version : Nat
  deriving DecidableEq, Repr

namespace Watch

variable {α : Type u}

/-- Replace the value and let every receiver see that it changed. -/
def send (w : Watch α) (a : α) : Watch α :=
  { value := a, version := w.version + 1 }

/-- `a` was derived from version `base`; while that version is the latest, `R`
relates the cell's value to `a`. -/
def Grounded (R : α → α → Prop) (w : Watch α) (base : Nat) (a : α) : Prop :=
  base ≤ w.version ∧ (base = w.version → R w.value a)

variable {R : α → α → Prop}

theorem grounded_borrow (w : Watch α) (h : R w.value w.value) :
    Grounded R w w.version w.value :=
  ⟨Nat.le_refl _, fun _ => h⟩

/-- Editing a draft, or asking something else of it, when the edit is right for
the latest version. -/
theorem Grounded.edit {S : α → α → Prop} {w : Watch α} {base : Nat} {a b : α}
    (h : Grounded R w base a) (hedit : base = w.version → R w.value a → S w.value b) :
    Grounded S w base b :=
  ⟨h.1, fun hbase => hedit hbase (h.2 hbase)⟩

/-- A draft of the latest version carries its guarantee into the cell. -/
theorem Grounded.publish {w : Watch α} {base : Nat} {a : α} (h : Grounded R w base a)
    (fresh : base = w.version) : R w.value (w.send a).value :=
  h.2 fresh

/-- A version that is not the latest grounds nothing. -/
theorem grounded_of_lt {w : Watch α} {base : Nat} {a : α} (h : base < w.version) :
    Grounded R w base a :=
  ⟨Nat.le_of_lt h, fun heq => absurd heq (Nat.ne_of_lt h)⟩

end Watch

/-- A receiver remembers the version it was last woken for. -/
structure Receiver where
  seen : Nat
  deriving DecidableEq, Repr

namespace Watch

variable {α : Type u}

/-- A fresh receiver counts the current value as seen. -/
def subscribe (w : Watch α) : Receiver :=
  { seen := w.version }

def hasChanged (w : Watch α) (rx : Receiver) : Bool :=
  w.version != rx.seen

end Watch
end LlmWakeProxy.Library
