import Mathlib
import JaspyNexus.Lib.Condvar
import JaspyNexus.Lib.Runs

/-! # The semaphore

`utilities/semaphore.rs`: the free permits under a lock, and a condition variable for the
threads that find none. A use of the lock is one step. Any thread may drop a guard, so the
guards are counted over all of them. -/

namespace JaspyNexus.Utilities
open JaspyNexus.Lib

structure Semaphore where
  permits : Nat
  cvar : Condvar
  deriving DecidableEq, Repr

namespace Semaphore
variable (sem : Semaphore)

def new (permits threads : Nat) : Semaphore := ⟨permits, .new threads⟩

/-- One use of the lock in `acquire`, by a thread that calls it or is back from its wait: it
takes a permit and has a guard, or waits. -/
def acquire (i : Nat) : Semaphore × Bool :=
  match sem.cvar.waiters[i]? with
  | none => (sem, false)
  | some .asleep => (sem, false)
  | some _ =>
    if sem.permits = 0 then ({ sem with cvar := sem.cvar.set i .asleep }, false)
    else ({ permits := sem.permits - 1, cvar := sem.cvar.set i .away }, true)

/-- `release`, when a guard is dropped. -/
def release (choice : Nat) : Semaphore :=
  { permits := sem.permits + 1, cvar := sem.cvar.notifyOne choice }

/-- A wait ends by itself. -/
def wake (i : Nat) : Semaphore := { sem with cvar := sem.cvar.wake i }

end Semaphore

/-- A semaphore and the guards that are live. -/
structure Shared where
  sem : Semaphore
  guards : Nat
  deriving DecidableEq, Repr

inductive SemAction where
  /-- a thread that is in `acquire` has the lock -/
  | acquire (i : Nat)
  /-- a spurious wake-up -/
  | wake (i : Nat)
  /-- a guard is dropped; `choice` is which of the sleepers is notified -/
  | drop (choice : Nat)
  deriving DecidableEq, Repr

namespace Shared

def start (permits threads : Nat) : Shared := ⟨.new permits threads, 0⟩

def step (s : Shared) : SemAction → Shared
  | .acquire i =>
    let out := s.sem.acquire i
    { sem := out.1, guards := if out.2 then s.guards + 1 else s.guards }
  | .wake i => { s with sem := s.sem.wake i }
  | .drop choice =>
    match s.guards with
    | guards + 1 => { sem := s.sem.release choice, guards := guards }
    | 0 => s

def run (s : Shared) (actions : List SemAction) : Shared := actions.foldl step s

end Shared

section
variable {sem : Semaphore} {s : Shared} {permits i : Nat}

/-- **What a use of the lock in `acquire` does.** -/
theorem acquire_cases (sem : Semaphore) (i : Nat) :
    (∃ w, sem.cvar.waiters[i]? = some w ∧ w ≠ .asleep ∧ 0 < sem.permits ∧
      sem.acquire i = (⟨sem.permits - 1, sem.cvar.set i .away⟩, true)) ∨
    (∃ w, sem.cvar.waiters[i]? = some w ∧ w ≠ .asleep ∧ sem.permits = 0 ∧
      sem.acquire i = (⟨sem.permits, sem.cvar.set i .asleep⟩, false)) ∨
    ((∀ w, sem.cvar.waiters[i]? = some w → w = .asleep) ∧ sem.acquire i = (sem, false)) := by
  unfold Semaphore.acquire
  split
  next hi => exact .inr (.inr ⟨fun w h => (by rw [hi] at h; cases h), rfl⟩)
  next hi => exact .inr (.inr ⟨fun w h => (by rw [hi] at h; exact (Option.some.inj h).symm), rfl⟩)
  next w hne hi =>
    by_cases hp : sem.permits = 0
    · exact .inr (.inl ⟨w, hi, hne, hp, if_pos hp⟩)
    · exact .inl ⟨w, hi, hne, Nat.pos_of_ne_zero hp, if_neg hp⟩

/-- A thread that is awake takes a permit that is free. -/
theorem acquire_of_free {w : Waiter} (hi : sem.cvar.waiters[i]? = some w) (hw : w ≠ .asleep)
    (hfree : 0 < sem.permits) : (sem.acquire i).2 = true := by
  rcases acquire_cases sem i with ⟨-, -, -, -, hacquire⟩ | ⟨-, -, -, hnone, -⟩ | ⟨hasleep, -⟩
  · rw [hacquire]
  · omega
  · exact absurd (hasleep w hi) hw

/-- The permits are free or held, and those that are free have been told of. -/
structure Shared.Inv (permits : Nat) (s : Shared) : Prop where
  conserved : s.sem.permits + s.guards = permits
  covers : s.sem.cvar.Covers s.sem.permits

theorem Shared.inv_start (permits threads : Nat) : Inv permits (start permits threads) where
  conserved := rfl
  covers hpos := by
    obtain ⟨i, hi⟩ := Condvar.count_pos.mp hpos
    have hmem := List.mem_of_getElem? hi
    cases (List.mem_replicate.mp hmem).2

theorem Shared.Inv.step (h : s.Inv permits) (action : SemAction) : (s.step action).Inv permits := by
  have hconserved := h.conserved
  cases action with
  | acquire i =>
    rcases acquire_cases s.sem i with ⟨w, hi, hw, hfree, hacquire⟩ | ⟨-, -, -, hnone, hacquire⟩ | ⟨-, hacquire⟩
    · obtain ⟨free, hfree⟩ := Nat.exists_eq_add_of_lt hfree
      refine ⟨?_, ?_⟩
      · simp only [Shared.step, hacquire, if_true]
        omega
      · have hcovers := h.covers
        simp only [Shared.step, hacquire]
        rw [show s.sem.permits - 1 = free by omega]
        rw [show s.sem.permits = free + 1 by omega] at hcovers
        exact hcovers.goOn hi hw
    · refine ⟨by simpa [Shared.step, hacquire] using hconserved, ?_⟩
      simp only [Shared.step, hacquire, hnone]
      exact Condvar.covers_zero
    · simpa [Shared.step, hacquire] using h
  | wake i => exact ⟨hconserved, h.covers.wake i⟩
  | drop choice =>
    dsimp only [Shared.step]
    split
    next guards hguards =>
      refine ⟨?_, h.covers.notifyOne choice⟩
      simp only [Semaphore.release]
      omega
    next => exact h

/-- **No wake-up is lost.** -/
structure NoneLost (permits : Nat) (s : Shared) : Prop where
  conserved : s.sem.permits + s.guards = permits
  /-- while a permit is free and a thread sleeps, another was notified and has not looked -/
  notified : 0 < s.sem.permits → (∃ i : Nat, s.sem.cvar.waiters[i]? = some .asleep) →
    ∃ j : Nat, s.sem.cvar.waiters[j]? = some .notified
  /-- and who waits at all includes one who takes the permit with the next use of the lock -/
  takes : 0 < s.sem.permits → (∃ i, s.sem.cvar.Waits i) → ∃ j, s.sem.cvar.Waits j ∧ (s.sem.acquire j).2 = true

theorem Shared.Inv.noneLost (h : s.Inv permits) : NoneLost permits s := by
  have hnotified : 0 < s.sem.permits → (∃ i : Nat, s.sem.cvar.waiters[i]? = some .asleep) →
      ∃ j : Nat, s.sem.cvar.waiters[j]? = some .notified := by
    intro hfree hasleep
    have hcovered := h.covers (Condvar.count_pos.mpr hasleep)
    exact Condvar.count_pos.mp (by omega)
  refine ⟨h.conserved, hnotified, fun hfree ⟨i, w, hi, hw⟩ => ?_⟩
  by_cases hasleep : w = .asleep
  · obtain ⟨j, hj⟩ := hnotified hfree ⟨i, hasleep ▸ hi⟩
    exact ⟨j, ⟨.notified, hj, nofun⟩, acquire_of_free hj nofun hfree⟩
  · exact ⟨i, ⟨w, hi, hw⟩, acquire_of_free hi hasleep hfree⟩

theorem Shared.noneLost_run (permits threads : Nat) (actions : List SemAction) :
    NoneLost permits ((start permits threads).run actions) :=
  (Runs.foldl_inv (Inv permits) (fun _ action h => h.step action) actions (inv_start permits threads)).noneLost

end
end JaspyNexus.Utilities
