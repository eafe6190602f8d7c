import Mathlib
import JaspyNexus.Lib.PMap

/-! # Timers

The timers of an event loop: each is set under a number of its own and comes due at most
once. What it is for stands beside its number. Clearing a number that is not pending does
nothing. -/

namespace JaspyNexus.Lib

universe u
variable {α : Type u}

structure Timers (α : Type u) where
  pending : PMap Nat α
  /-- the number the next one gets -/
  next : Nat

namespace Timers

def none : Timers α := ⟨PMap.empty, 0⟩

/-- The timer that is set has the number `next`. -/
def set (timers : Timers α) (a : α) : Timers α :=
  ⟨timers.pending.insert timers.next a, timers.next + 1⟩

def clear (timers : Timers α) (id : Option Nat) : Timers α :=
  { timers with pending := fun i => if some i = id then .none else timers.pending i }

@[simp] theorem pending_none (i : Nat) : (none : Timers α).pending i = .none := rfl

theorem pending_set (timers : Timers α) (a : α) (i : Nat) :
    (timers.set a).pending i = if i = timers.next then some a else timers.pending i :=
  PMap.insert_apply timers.pending timers.next i a

@[simp] theorem pending_set_next (timers : Timers α) (a : α) :
    (timers.set a).pending timers.next = some a := PMap.insert_self timers.pending timers.next a

theorem pending_clear (timers : Timers α) (id : Option Nat) (i : Nat) :
    (timers.clear id).pending i = if some i = id then .none else timers.pending i := rfl

/-- What is still pending was pending. -/
theorem pending_of_clear {timers : Timers α} {id : Option Nat} {i : Nat} {a : α}
    (h : (timers.clear id).pending i = some a) : some i ≠ id ∧ timers.pending i = some a := by
  rw [pending_clear] at h
  split at h
  · cases h
  · next hne => exact ⟨hne, h⟩

end Timers

end JaspyNexus.Lib
