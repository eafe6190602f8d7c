import Mathlib
import JaspyNexus.Lib.SetAt

/-! # A bounded pool of workers

Workers take items from a shared queue until it is empty, and the call returns when every
worker has exited. A worker exits only on an empty queue and has nothing in hand when it
does, so a call that returns has worked off every item. -/

namespace JaspyNexus.Lib

universe u
variable {τ : Type u}

inductive Worker (τ : Type u) where
  | ready
  | working (item : τ)
  | exited
  deriving DecidableEq, Repr

structure WorkerPool (τ : Type u) where
  queue : List τ
  workers : List (Worker τ)
  deriving DecidableEq, Repr

namespace WorkerPool

/-- What is seen of a move: worker `i` starts an item, or is done with it. -/
inductive Event (τ : Type u) where
  | started (i : Nat) (item : τ)
  | finished (i : Nat) (item : τ)
  deriving DecidableEq, Repr

/-- No more workers than items, and at least one unless there is none. -/
def spawn (items : List τ) (maxWorkers : Nat) : WorkerPool τ where
  queue := items
  workers := List.replicate (min (max maxWorkers 1) items.length) .ready

/-- Worker `i` takes its next step. -/
def move (p : WorkerPool τ) (i : Nat) : WorkerPool τ × Option (Event τ) :=
  match p.workers[i]? with
  | some .ready =>
    match p.queue with
    | item :: queue => ({ queue := queue, workers := p.workers.set i (.working item) }, some (.started i item))
    | [] => ({ p with workers := p.workers.set i .exited }, none)
  | some (.working item) => ({ p with workers := p.workers.set i .ready }, some (.finished i item))
  | _ => (p, none)

def isExited : Worker τ → Bool
  | .exited => true
  | _ => false

/-- The call returns when every worker has exited. -/
def returned (p : WorkerPool τ) : Bool := p.workers.all isExited

/-- A worker that has exited found nothing left. -/
structure Wf (p : WorkerPool τ) : Prop where
  exited : ∀ i : Nat, p.workers[i]? = some Worker.exited → p.queue = []
  manned : p.workers = [] → p.queue = []

section
variable {p : WorkerPool τ} {i : Nat} {item : τ}

theorem wf_spawn (items : List τ) (maxWorkers : Nat) : (spawn items maxWorkers).Wf where
  exited i h := by
    have hmem := List.mem_of_getElem? h
    cases (List.mem_replicate.mp hmem).2
  manned h := by
    have hlength : min (max maxWorkers 1) items.length = 0 := by simpa [spawn] using h
    have hempty : items.length = 0 := by omega
    exact List.eq_nil_of_length_eq_zero hempty

/-- **What a worker does**: it takes the next item, or finds none and exits, or is done
with its item; or it has exited. -/
theorem move_cases (p : WorkerPool τ) (i : Nat) :
    (∃ item queue, p.workers[i]? = some .ready ∧ p.queue = item :: queue ∧
      p.move i = (⟨queue, p.workers.set i (.working item)⟩, some (.started i item))) ∨
    (p.workers[i]? = some .ready ∧ p.queue = [] ∧ p.move i = (⟨p.queue, p.workers.set i .exited⟩, none)) ∨
    (∃ item, p.workers[i]? = some (.working item) ∧
      p.move i = (⟨p.queue, p.workers.set i .ready⟩, some (.finished i item))) ∨
    ((∀ worker, p.workers[i]? = some worker → worker = .exited) ∧ p.move i = (p, none)) := by
  unfold move
  split
  next hready =>
    split
    next item queue hqueue => exact .inl ⟨item, queue, hready, hqueue, rfl⟩
    next hqueue => exact .inr (.inl ⟨hready, hqueue, rfl⟩)
  next item hworking => exact .inr (.inr (.inl ⟨item, hworking, rfl⟩))
  next hidle hbusy =>
    refine .inr (.inr (.inr ⟨fun worker hworker => ?_, rfl⟩))
    cases worker with
    | exited => rfl
    | ready => exact absurd hworker hidle
    | working item => exact absurd hworker (hbusy item)

theorem Wf.move (h : p.Wf) (i : Nat) : (p.move i).1.Wf := by
  rcases p.move_cases i with ⟨item, queue, -, hqueue, hmove⟩ | ⟨-, hqueue, hmove⟩ | ⟨item, -, hmove⟩ | ⟨-, hmove⟩
  · rw [hmove]
    refine ⟨fun j hj => ?_, fun hnone => ?_⟩
    · rw [List.getElem?_set] at hj
      split at hj
      · split at hj <;> cases hj
      · have hempty := h.exited j hj
        rw [hqueue] at hempty
        cases hempty
    · have hempty := h.manned (by simpa using hnone)
      rw [hqueue] at hempty
      cases hempty
  · rw [hmove]
    exact ⟨fun _ _ => hqueue, fun _ => hqueue⟩
  · rw [hmove]
    refine ⟨fun j hj => ?_, fun hnone => h.manned (by simpa using hnone)⟩
    rw [List.getElem?_set] at hj
    split at hj
    · split at hj <;> cases hj
    · exact h.exited j hj
  · rw [hmove]
    exact h

theorem exited_of_returned (h : p.returned = true) {worker : Worker τ} (hi : p.workers[i]? = some worker) :
    worker = .exited := by
  have hexited := List.all_eq_true.mp h worker (List.mem_of_getElem? hi)
  cases worker with
  | exited => rfl
  | _ => cases hexited

/-- **A call that returns has worked off the queue**, -/
theorem Wf.queue_eq_nil (h : p.Wf) (hreturned : p.returned = true) : p.queue = [] := by
  cases hworkers : p.workers with
  | nil => exact h.manned hworkers
  | cons worker rest =>
    have hfirst : p.workers[0]? = some worker := by rw [hworkers]; rfl
    obtain rfl := exited_of_returned hreturned hfirst
    exact h.exited 0 hfirst

/-- and no worker has an item in hand. -/
theorem not_working (hreturned : p.returned = true) : p.workers[i]? ≠ some (.working item) := fun hworking => by
  cases exited_of_returned hreturned hworking

/-- An item stays in the queue until a worker starts it. -/
theorem queued_move (h : item ∈ p.queue) (i : Nat) : item ∈ (p.move i).1.queue ∨
    ((p.move i).2 = some (.started i item) ∧ (p.move i).1.workers[i]? = some (.working item)) := by
  rcases p.move_cases i with ⟨first, queue, hready, hqueue, hmove⟩ | ⟨-, hqueue, hmove⟩ | ⟨done, -, hmove⟩ | ⟨-, hmove⟩
  · rw [hmove]
    rw [hqueue] at h
    rcases List.mem_cons.mp h with rfl | h
    · obtain ⟨hlt, -⟩ := List.getElem?_eq_some_iff.mp hready
      exact .inr ⟨rfl, List.getElem?_set_self hlt⟩
    · exact .inl h
  · rw [hmove]
    exact .inl h
  · rw [hmove]
    exact .inl h
  · rw [hmove]
    exact .inl h

/-- A worker has its item in hand until it is done with it. -/
theorem working_move {j : Nat} (h : p.workers[j]? = some (.working item)) (i : Nat) :
    (p.move i).1.workers[j]? = some (.working item) ∨ (j = i ∧ (p.move i).2 = some (.finished i item)) := by
  rcases p.move_cases i with ⟨first, queue, hready, -, hmove⟩ | ⟨hready, -, hmove⟩ | ⟨done, hdone, hmove⟩ | ⟨-, hmove⟩
  · have hne : i ≠ j := by
      rintro rfl
      rw [hready] at h
      cases h
    rw [hmove]
    exact .inl ((List.getElem?_set_ne hne).trans h)
  · have hne : i ≠ j := by
      rintro rfl
      rw [hready] at h
      cases h
    rw [hmove]
    exact .inl ((List.getElem?_set_ne hne).trans h)
  · rw [hmove]
    by_cases hij : i = j
    · subst hij
      rw [hdone] at h
      cases h
      exact .inr ⟨rfl, rfl⟩
    · exact .inl ((List.getElem?_set_ne hij).trans h)
  · rw [hmove]
    exact .inl h

/-! ## The call can return -/

/-- The steps that a worker still has to take, at least. -/
def weight : Worker τ → Nat
  | .ready => 1
  | .working _ => 2
  | .exited => 0

def measure (p : WorkerPool τ) : Nat := 3 * p.queue.length + (p.workers.map weight).sum

/-- Every step of a worker that has not exited brings the call nearer to its end. -/
theorem measure_move {worker : Worker τ} (h : p.workers[i]? = some worker) (hlive : worker ≠ .exited) :
    (p.move i).1.measure < p.measure := by
  rcases p.move_cases i with ⟨first, queue, hready, hqueue, hmove⟩ | ⟨hready, -, hmove⟩ | ⟨done, hdone, hmove⟩ | ⟨hexited, -⟩
  · rw [hmove]
    have hsum := sum_map_set hready weight (.working first)
    simp only [measure, hqueue, List.length_cons, weight] at hsum ⊢
    omega
  · rw [hmove]
    have hsum := sum_map_set hready weight .exited
    simp only [measure, weight] at hsum ⊢
    omega
  · rw [hmove]
    have hsum := sum_map_set hdone weight .ready
    simp only [measure, weight] at hsum ⊢
    omega
  · exact absurd (hexited worker h) hlive

/-- **Workers that go on end the call.** -/
theorem exists_returned (p : WorkerPool τ) :
    ∃ moves : List Nat, (moves.foldl (fun p i => (p.move i).1) p).returned = true := by
  induction hsize : p.measure using Nat.strong_induction_on generalizing p with
  | _ size ih =>
    by_cases hreturned : p.returned = true
    · exact ⟨[], hreturned⟩
    · obtain ⟨worker, hworker, hlive⟩ : ∃ worker ∈ p.workers, worker ≠ .exited := by
        by_contra hnone
        push Not at hnone
        refine hreturned (List.all_eq_true.mpr fun worker hworker => ?_)
        rw [hnone worker hworker]
        rfl
      obtain ⟨i, hi⟩ := List.getElem?_of_mem hworker
      obtain ⟨moves, hmoves⟩ := ih _ (hsize ▸ measure_move hi hlive) (p.move i).1 rfl
      exact ⟨i :: moves, hmoves⟩

/-! ## Every item once -/

def item? : Worker τ → Option τ
  | .working item => some item
  | _ => none

/-- The items in hand. -/
def inHand (p : WorkerPool τ) : List τ := p.workers.filterMap item?

def Event.started? : Event τ → Option τ
  | .started _ item => some item
  | .finished _ _ => none

def Event.finished? : Event τ → Option τ
  | .started _ _ => none
  | .finished _ item => some item

/-- The items started, in order. -/
def started (log : List (Event τ)) : List τ := log.filterMap Event.started?

/-- The items that were finished. -/
def finished (log : List (Event τ)) : List τ := log.filterMap Event.finished?

@[simp]
theorem started_append (log log' : List (Event τ)) : started (log ++ log') = started log ++ started log' :=
  List.filterMap_append

@[simp]
theorem finished_append (log log' : List (Event τ)) : finished (log ++ log') = finished log ++ finished log' :=
  List.filterMap_append

/-- What a log accounts for: the items are started in turn, and those started and not
finished are in hand. -/
structure Accounts (items : List τ) (p : WorkerPool τ) (log : List (Event τ)) : Prop where
  inTurn : started log ++ p.queue = items
  balance : (finished log ++ p.inHand).Perm (started log)

theorem accounts_spawn (items : List τ) (maxWorkers : Nat) : Accounts items (spawn items maxWorkers) [] where
  inTurn := rfl
  balance := by simp [inHand, spawn, item?, started, finished]

/-- The items in hand around worker `i`, who has another one now. -/
theorem filterMap_set {ws : List (Worker τ)} (hi : i < ws.length) (next : Worker τ) :
    (ws.set i next).filterMap item? =
      (ws.take i).filterMap item? ++ ((item? next).toList ++ (ws.drop (i + 1)).filterMap item?) := by
  rw [List.set_eq_take_append_cons_drop, if_pos hi, List.filterMap_append, List.filterMap_cons]
  cases item? next <;> rfl

/-- A worker takes an item in hand. -/
theorem filterMap_set_working {ws : List (Worker τ)} {worker : Worker τ} (h : ws[i]? = some worker)
    (hnone : item? worker = none) (item : τ) :
    ((ws.set i (.working item)).filterMap item?).Perm (item :: ws.filterMap item?) := by
  obtain ⟨hi, hworker⟩ := List.getElem?_eq_some_iff.mp h
  have hold : ws.filterMap item? = (ws.take i).filterMap item? ++ (ws.drop (i + 1)).filterMap item? := by
    have hset := filterMap_set hi worker
    rwa [← hworker, List.set_getElem_self, hworker, hnone] at hset
  rw [filterMap_set hi, hold]
  exact List.perm_middle

theorem filterMap_set_none {ws : List (Worker τ)} {worker next : Worker τ} (h : ws[i]? = some worker)
    (hnone : item? worker = none) (hnext : item? next = none) :
    (ws.set i next).filterMap item? = ws.filterMap item? := by
  obtain ⟨hi, hworker⟩ := List.getElem?_eq_some_iff.mp h
  have hset := filterMap_set hi worker
  rw [← hworker, List.set_getElem_self, hworker, hnone] at hset
  rw [filterMap_set hi, hset, hnext]

theorem started_move (p : WorkerPool τ) (i : Nat) :
    started (p.move i).2.toList ++ (p.move i).1.queue = p.queue := by
  rcases p.move_cases i with ⟨item, queue, -, hqueue, hmove⟩ | ⟨-, -, hmove⟩ | ⟨item, -, hmove⟩ | ⟨-, hmove⟩
  · rw [hmove, hqueue]
    rfl
  · rw [hmove]
    rfl
  · rw [hmove]
    rfl
  · rw [hmove]
    rfl

theorem balance_move (p : WorkerPool τ) (i : Nat) :
    (finished (p.move i).2.toList ++ (p.move i).1.inHand).Perm (p.inHand ++ started (p.move i).2.toList) := by
  rcases p.move_cases i with ⟨item, queue, hready, -, hmove⟩ | ⟨hready, -, hmove⟩ | ⟨item, hworking, hmove⟩ | ⟨-, hmove⟩
  · rw [hmove]
    exact (filterMap_set_working hready rfl item).trans (List.perm_append_singleton item _).symm
  · rw [hmove]
    have hsame : (p.workers.set i .exited).filterMap item? = p.inHand := filterMap_set_none hready rfl rfl
    simp [started, finished, inHand, hsame]
  · -- before the move the item was taken in hand
    obtain ⟨hi, hitem⟩ := List.getElem?_eq_some_iff.mp hworking
    have hset : (p.workers.set i .ready).set i (.working item) = p.workers := by
      rw [List.set_set, ← hitem, List.set_getElem_self]
    have htaken := filterMap_set_working (List.getElem?_set_self (a := .ready) hi) rfl item
    rw [hset] at htaken
    have hnone : started [Event.finished i item] = [] := rfl
    rw [hmove, Option.toList_some, hnone, List.append_nil]
    exact htaken.symm
  · rw [hmove]
    simp [started, finished]

theorem Accounts.move {items : List τ} {log : List (Event τ)} (h : Accounts items p log) (i : Nat) :
    Accounts items (p.move i).1 (log ++ (p.move i).2.toList) := by
  refine ⟨?_, ?_⟩
  · rw [started_append, List.append_assoc, started_move, h.inTurn]
  · rw [finished_append, started_append, List.append_assoc]
    refine ((p.balance_move i).append_left (finished log)).trans ?_
    rw [← List.append_assoc]
    exact h.balance.append_right _

/-- **A call that returns has worked off every item once.** -/
theorem Accounts.of_returned {items : List τ} {log : List (Event τ)} (h : Accounts items p log) (hwf : p.Wf)
    (hreturned : p.returned = true) : started log = items ∧ (finished log).Perm items := by
  have hstarted : started log = items := by
    rw [← h.inTurn, hwf.queue_eq_nil hreturned, List.append_nil]
  have hhand : p.inHand = [] := by
    refine List.filterMap_eq_nil_iff.mpr fun worker hworker => ?_
    obtain ⟨i, hi⟩ := List.getElem?_of_mem hworker
    rw [exited_of_returned hreturned hi]
    rfl
  have hbalance := h.balance
  rw [hhand, List.append_nil, hstarted] at hbalance
  exact ⟨hstarted, hbalance⟩

/-- No more items are in hand than there are workers, -/
theorem length_inHand_le (p : WorkerPool τ) : p.inHand.length ≤ p.workers.length := List.length_filterMap_le _ _

/-- and no worker is added. -/
theorem length_workers_move (p : WorkerPool τ) (i : Nat) : (p.move i).1.workers.length = p.workers.length := by
  rcases p.move_cases i with ⟨item, queue, -, -, hmove⟩ | ⟨-, -, hmove⟩ | ⟨item, -, hmove⟩ | ⟨-, hmove⟩
  · rw [hmove, List.length_set]
  · rw [hmove, List.length_set]
  · rw [hmove, List.length_set]
  · rw [hmove]

end

end WorkerPool
end JaspyNexus.Lib
