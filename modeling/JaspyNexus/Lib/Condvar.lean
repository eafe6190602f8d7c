import Mathlib
import JaspyNexus.Lib.SetAt

/-! # A condition variable

The threads that wait on a condition variable sleep until one of them is notified or one
wakes up by itself; either way it takes the lock and looks again before it goes on. `Covers`
says that no wake-up is lost: as long as a thread sleeps, everyone who may go on by now has
a thread that was notified of it and has not looked yet. -/

namespace JaspyNexus.Lib

inductive Waiter where
  /-- the thread does not wait -/
  | away
  | asleep
  /-- it was notified, and has not looked yet -/
  | notified
  /-- it woke up by itself, and has not looked yet -/
  | woken
  deriving DecidableEq, Repr

structure Condvar where
  waiters : List Waiter
  deriving DecidableEq, Repr

namespace Condvar
variable (c : Condvar)

def new (threads : Nat) : Condvar := ⟨List.replicate threads .away⟩

def set (i : Nat) (w : Waiter) : Condvar := ⟨c.waiters.set i w⟩

/-- The threads that sleep. -/
def sleepers : List Nat := (List.range c.waiters.length).filter fun i => c.waiters[i]? = some .asleep

/-- `notify_one`: one of the sleepers, if there is any. -/
def notifyOne (choice : Nat) : Condvar :=
  match c.sleepers[choice % c.sleepers.length]? with
  | some i => c.set i .notified
  | none => c

/-- A thread wakes up by itself. -/
def wake (i : Nat) : Condvar :=
  match c.waiters[i]? with
  | some .asleep => c.set i .woken
  | _ => c

/-- The threads in a state. -/
def count (w : Waiter) : Nat := c.waiters.countP (· = w)

/-- A thread that waits, or that is back from its wait and has not looked yet. -/
def Waits (i : Nat) : Prop := ∃ w, c.waiters[i]? = some w ∧ w ≠ .away

/-- While a thread sleeps, `n` others were notified and have not looked yet. -/
def Covers (n : Nat) : Prop := 0 < c.count .asleep → n ≤ c.count .notified

section
variable {c : Condvar} {i n : Nat} {w : Waiter}

theorem getElem?_set (h : c.waiters[i]? = some w) (w' : Waiter) (j : Nat) :
    (c.set i w').waiters[j]? = if i = j then some w' else c.waiters[j]? := by
  obtain ⟨hi, -⟩ := List.getElem?_eq_some_iff.mp h
  rw [set, List.getElem?_set, if_pos hi]

theorem waits_set (h : c.waiters[i]? = some w) (w' : Waiter) (j : Nat) :
    (c.set i w').Waits j ↔ if i = j then w' ≠ .away else c.Waits j := by
  unfold Waits
  rw [getElem?_set h]
  split
  · simp
  · rfl

theorem length_set (c : Condvar) (i : Nat) (w : Waiter) : (c.set i w).waiters.length = c.waiters.length :=
  List.length_set

theorem count_set (h : c.waiters[i]? = some w) (w' v : Waiter) :
    (c.set i w').count v + (decide (w = v)).toNat = c.count v + (decide (w' = v)).toNat :=
  countP_set_add h _ w'

theorem count_pos : 0 < c.count w ↔ ∃ i : Nat, c.waiters[i]? = some w := by
  rw [count, List.countP_pos_iff]
  simp [List.mem_iff_getElem?]

/-- **What `notify_one` does**: it notifies a thread that sleeps, unless none does. -/
theorem notifyOne_cases (c : Condvar) (choice : Nat) :
    (∃ i : Nat, c.waiters[i]? = some .asleep ∧ c.notifyOne choice = c.set i .notified) ∨
    (c.count .asleep = 0 ∧ c.notifyOne choice = c) := by
  unfold notifyOne
  cases hi : c.sleepers[choice % c.sleepers.length]? with
  | some i => exact .inl ⟨i, by simpa using (List.mem_filter.mp (List.mem_of_getElem? hi)).2, rfl⟩
  | none =>
    refine .inr ⟨?_, rfl⟩
    by_contra hpos
    obtain ⟨j, hj⟩ := count_pos.mp (Nat.pos_of_ne_zero hpos)
    have hmem : j ∈ c.sleepers := by
      obtain ⟨hlt, -⟩ := List.getElem?_eq_some_iff.mp hj
      exact List.mem_filter.mpr ⟨List.mem_range.mpr hlt, by simpa using hj⟩
    have hlength := List.length_pos_of_mem hmem
    rw [List.getElem?_eq_none_iff] at hi
    exact absurd (Nat.mod_lt choice hlength) (Nat.not_lt.mpr hi)

theorem wake_cases (c : Condvar) (i : Nat) :
    (c.waiters[i]? = some .asleep ∧ c.wake i = c.set i .woken) ∨
    (c.waiters[i]? ≠ some .asleep ∧ c.wake i = c) := by
  unfold wake
  split
  next h => exact .inl ⟨h, rfl⟩
  next h => exact .inr ⟨h, rfl⟩

/-- Who is notified or wakes up was waiting, and is no other than before. -/
theorem waits_notifyOne (c : Condvar) (choice j : Nat) : (c.notifyOne choice).Waits j ↔ c.Waits j := by
  rcases c.notifyOne_cases choice with ⟨i, hi, hnotify⟩ | ⟨-, hnotify⟩
  · rw [hnotify, waits_set hi]
    split
    · next hij => exact iff_of_true nofun ⟨.asleep, hij ▸ hi, nofun⟩
    · rfl
  · rw [hnotify]

theorem waits_wake (c : Condvar) (i j : Nat) : (c.wake i).Waits j ↔ c.Waits j := by
  rcases c.wake_cases i with ⟨hi, hwake⟩ | ⟨-, hwake⟩
  · rw [hwake, waits_set hi]
    split
    · next hij => exact iff_of_true nofun ⟨.asleep, hij ▸ hi, nofun⟩
    · rfl
  · rw [hwake]

theorem length_notifyOne (c : Condvar) (choice : Nat) :
    (c.notifyOne choice).waiters.length = c.waiters.length := by
  rcases c.notifyOne_cases choice with ⟨i, -, hnotify⟩ | ⟨-, hnotify⟩
  · rw [hnotify, length_set]
  · rw [hnotify]

theorem length_wake (c : Condvar) (i : Nat) : (c.wake i).waiters.length = c.waiters.length := by
  rcases c.wake_cases i with ⟨-, hwake⟩ | ⟨-, hwake⟩
  · rw [hwake, length_set]
  · rw [hwake]

/-- Who is awake stays so while others are notified or wake up. -/
theorem awake_notifyOne {j : Nat} (h : c.waiters[j]? = some w) (hw : w ≠ .asleep) (choice : Nat) :
    (c.notifyOne choice).waiters[j]? = some w := by
  rcases c.notifyOne_cases choice with ⟨i, hi, hnotify⟩ | ⟨-, hnotify⟩
  · have hij : i ≠ j := fun hij => hw (Option.some.inj (h.symm.trans (hij ▸ hi)))
    rw [hnotify, getElem?_set hi, if_neg hij, h]
  · rwa [hnotify]

theorem awake_wake {j : Nat} (h : c.waiters[j]? = some w) (hw : w ≠ .asleep) (i : Nat) :
    (c.wake i).waiters[j]? = some w := by
  rcases c.wake_cases i with ⟨hi, hwake⟩ | ⟨-, hwake⟩
  · have hij : i ≠ j := fun hij => hw (Option.some.inj (h.symm.trans (hij ▸ hi)))
    rw [hwake, getElem?_set hi, if_neg hij, h]
  · rwa [hwake]

theorem covers_zero : c.Covers 0 := fun _ => Nat.zero_le _

/-- One more may go on, and one is notified. -/
theorem Covers.notifyOne (h : c.Covers n) (choice : Nat) : (c.notifyOne choice).Covers (n + 1) := by
  rcases c.notifyOne_cases choice with ⟨i, hi, hnotify⟩ | ⟨hnone, hnotify⟩
  · rw [hnotify]
    intro _
    have hpos := h (count_pos.mpr ⟨i, hi⟩)
    have hcount := count_set hi .notified .notified
    simp only [reduceCtorEq, decide_false, decide_true, Bool.toNat_false, Bool.toNat_true] at hcount
    omega
  · rw [hnotify]
    intro hpos
    omega

theorem Covers.wake (h : c.Covers n) (i : Nat) : (c.wake i).Covers n := by
  rcases c.wake_cases i with ⟨hi, hwake⟩ | ⟨-, hwake⟩
  · rw [hwake]
    intro _
    have hpos := h (count_pos.mpr ⟨i, hi⟩)
    have hcount := count_set hi .woken .notified
    simp only [reduceCtorEq, decide_false, Bool.toNat_false] at hcount
    omega
  · rwa [hwake]

/-- A thread that looked goes on, and there is one less to go on. -/
theorem Covers.goOn (h : c.Covers (n + 1)) (hi : c.waiters[i]? = some w) (hw : w ≠ .asleep) :
    (c.set i .away).Covers n := by
  intro hpos
  have hasleep := count_set hi .away .asleep
  have hnotified := count_set hi .away .notified
  have hone := Bool.toNat_le (decide (w = .notified))
  simp only [hw, reduceCtorEq, decide_false, Bool.toNat_false] at hasleep hnotified
  have hcovered := h (by omega)
  omega

end
end Condvar
end JaspyNexus.Lib
