import Mathlib
import JaspyNexus.Lib.Fair
import JaspyNexus.Lib.Runs
import JaspyNexus.Lib.WorkerPool

/-! # Bounded fan-out

`run_bounded` of `collectors/pool.rs`: the caller spawns the workers one by one, and its
scope ends when all of them have. A worker may sleep for its jitter first, and then takes
items from the queue until it finds none. The threads can be spawned, and `work` does not
panic. The workers refine `WorkerPool`, where they are all there from the start. -/

namespace JaspyNexus.Collectors.Pool
open JaspyNexus.Lib

universe u
variable {τ : Type u}

/-- Where the thread of a worker is. -/
inductive Thread (τ : Type u) where
  /-- it sleeps for its jitter -/
  | sleeping
  /-- it is about to take an item -/
  | ready
  | working (item : τ)
  | exited
  deriving DecidableEq, Repr

def Thread.isExited : Thread τ → Bool
  | .exited => true
  | _ => false

def Thread.isSleeping : Thread τ → Bool
  | .sleeping => true
  | _ => false

def Thread.item? : Thread τ → Option τ
  | .working item => some item
  | _ => none

/-- A call, and what its workers have done so far. -/
structure Scope (τ : Type u) where
  queue : List τ
  jitterMsecs : Nat
  /-- the workers that are still to be spawned -/
  unspawned : Nat
  threads : List (Thread τ)
  returned : Bool
  log : List (WorkerPool.Event τ)
  deriving DecidableEq, Repr

/-- The call as it begins. -/
def runBounded (items : List τ) (maxWorkers jitterMsecs : Nat) : Scope τ where
  queue := items
  jitterMsecs := jitterMsecs
  unspawned := min (max maxWorkers 1) items.length
  threads := []
  returned := false
  log := []

namespace Scope
variable (s : Scope τ)

/-- The caller spawns a worker, or waits for all of them. -/
def callerStep : Scope τ :=
  match s.unspawned with
  | unspawned + 1 =>
    { s with
      unspawned := unspawned
      threads := s.threads ++ [if s.jitterMsecs > 0 then .sleeping else .ready] }
  | 0 => if s.threads.all Thread.isExited then { s with returned := true } else s

/-- The worker wakes up, or takes an item under the lock, or is done with its item. -/
def threadStep (i : Nat) : Scope τ :=
  match s.threads[i]? with
  | some .sleeping => { s with threads := s.threads.set i .ready }
  | some .ready =>
    match s.queue with
    | item :: queue =>
      { s with
        queue := queue
        threads := s.threads.set i (.working item)
        log := s.log ++ [.started i item] }
    | [] => { s with threads := s.threads.set i .exited }
  | some (.working item) =>
    { s with threads := s.threads.set i .ready, log := s.log ++ [.finished i item] }
  | _ => s

/-- The caller's turn, or a worker's. -/
def step (s : Scope τ) : Option Nat → Scope τ
  | none => s.callerStep
  | some i => s.threadStep i

def run (s : Scope τ) (turns : List (Option Nat)) : Scope τ := turns.foldl step s

/-- The items in progress. -/
def inProgress : List τ := s.threads.filterMap Thread.item?

end Scope

open WorkerPool (started finished)

/-- **What `run_bounded` is to guarantee**, at any time of a call. -/
structure Bounded (items : List τ) (maxWorkers : Nat) (s : Scope τ) : Prop where
  /-- the items are started in turn, each of them once -/
  inTurn : started s.log ++ s.queue = items
  /-- an item that was started is in progress until it is finished -/
  balance : (finished s.log ++ s.inProgress).Perm (started s.log)
  bound : s.inProgress.length ≤ max maxWorkers 1
  /-- the call returns when all the work has been done, and nothing is left to do -/
  barrier : s.returned = true → started s.log = items ∧ (finished s.log).Perm items ∧
    s.inProgress = [] ∧ ∀ turn, s.step turn = s

/-! ## The workers refine the pool -/

/-- A worker that sleeps is one that takes its time. -/
def Thread.worker : Thread τ → Worker τ
  | .sleeping => .ready
  | .ready => .ready
  | .working item => .working item
  | .exited => .exited

/-- The workers as a pool: those to be spawned take their time too. -/
def Scope.pool (s : Scope τ) : WorkerPool τ where
  queue := s.queue
  workers := s.threads.map Thread.worker ++ List.replicate s.unspawned .ready

section
variable {s : Scope τ} {i : Nat} {thread : Thread τ}

theorem pool_runBounded (items : List τ) (maxWorkers jitterMsecs : Nat) :
    (runBounded items maxWorkers jitterMsecs).pool = WorkerPool.spawn items maxWorkers := rfl

theorem getElem?_pool (h : s.threads[i]? = some thread) : s.pool.workers[i]? = some thread.worker := by
  obtain ⟨hi, -⟩ := List.getElem?_eq_some_iff.mp h
  rw [Scope.pool, List.getElem?_append_left (by simpa using hi), List.getElem?_map, h]
  rfl

theorem set_pool (h : s.threads[i]? = some thread) (next : Thread τ) :
    (s.threads.set i next).map Thread.worker ++ List.replicate s.unspawned .ready =
      s.pool.workers.set i next.worker := by
  obtain ⟨hi, -⟩ := List.getElem?_eq_some_iff.mp h
  rw [Scope.pool, List.map_set, List.set_append_left _ _ (by simpa using hi)]

theorem inHand_pool (s : Scope τ) : s.pool.inHand = s.inProgress := by
  have hitem : WorkerPool.item? ∘ Thread.worker = (Thread.item? : Thread τ → Option τ) := by
    funext thread
    cases thread <;> rfl
  have hnone : (List.replicate s.unspawned (Worker.ready : Worker τ)).filterMap WorkerPool.item? = [] := by
    refine List.filterMap_eq_nil_iff.mpr fun worker hworker => ?_
    rw [(List.mem_replicate.mp hworker).2]
    rfl
  rw [WorkerPool.inHand, Scope.pool, List.filterMap_append, List.filterMap_map, hitem, hnone, List.append_nil]
  rfl

def asleep (s : Scope τ) : Nat := s.threads.countP Thread.isSleeping

/-- The pool takes the same step. -/
structure Moves (s s' : Scope τ) (i : Nat) : Prop where
  pool : s'.pool = (s.pool.move i).1
  log : s'.log = s.log ++ (s.pool.move i).2.toList
  unspawned : s'.unspawned = s.unspawned
  returned : s'.returned = s.returned
  asleep : asleep s' = Pool.asleep s

theorem moves_set (next : Thread τ) {queue : List τ} {event : Option (WorkerPool.Event τ)}
    (h : s.threads[i]? = some thread) (hthread : thread.isSleeping = false) (hnext : next.isSleeping = false)
    (hmove : s.pool.move i = (⟨queue, s.pool.workers.set i next.worker⟩, event)) :
    Moves s { s with queue := queue, threads := s.threads.set i next, log := s.log ++ event.toList } i where
  pool := by
    rw [hmove, ← set_pool h]
    rfl
  log := by rw [hmove]
  unspawned := rfl
  returned := rfl
  asleep := by
    have hcount := countP_set_add h Thread.isSleeping next
    rw [hthread, hnext] at hcount
    exact hcount

/-- **What a worker does**: it wakes up, or moves in the pool, or has exited. -/
theorem threadStep_cases (s : Scope τ) (i : Nat) :
    (s.threads[i]? = some .sleeping ∧ s.threadStep i = { s with threads := s.threads.set i .ready }) ∨
    (∃ thread, s.threads[i]? = some thread ∧ thread ≠ .exited ∧ Moves s (s.threadStep i) i) ∨
    ((∀ thread, s.threads[i]? = some thread → thread = .exited) ∧ s.threadStep i = s) := by
  cases hi : s.threads[i]? with
  | none => exact .inr (.inr ⟨nofun, by rw [Scope.threadStep, hi]⟩)
  | some thread =>
    have hpool := getElem?_pool hi
    cases thread with
    | sleeping => exact .inl ⟨rfl, by rw [Scope.threadStep, hi]⟩
    | exited => exact .inr (.inr ⟨fun _ h => (Option.some.inj h).symm, by rw [Scope.threadStep, hi]⟩)
    | ready =>
      refine .inr (.inl ⟨.ready, rfl, nofun, ?_⟩)
      cases hqueue : s.queue with
      | nil =>
        have hmove : s.pool.move i = (⟨s.queue, s.pool.workers.set i .exited⟩, none) := by
          simp only [WorkerPool.move, hpool, Thread.worker, show s.pool.queue = [] from hqueue, hqueue]
        have hmoves := moves_set .exited hi rfl rfl hmove
        rw [Option.toList_none, List.append_nil, hqueue] at hmoves
        rwa [Scope.threadStep, hi, hqueue]
      | cons item queue =>
        have hmove : s.pool.move i = (⟨queue, s.pool.workers.set i (.working item)⟩, some (.started i item)) := by
          simp only [WorkerPool.move, hpool, Thread.worker, show s.pool.queue = item :: queue from hqueue]
        rw [Scope.threadStep, hi, hqueue]
        exact moves_set (.working item) hi rfl rfl hmove
    | working item =>
      refine .inr (.inl ⟨.working item, rfl, nofun, ?_⟩)
      have hmove : s.pool.move i = (⟨s.queue, s.pool.workers.set i .ready⟩, some (.finished i item)) := by
        simp only [WorkerPool.move, hpool, Thread.worker]
        rfl
      rw [Scope.threadStep, hi]
      exact moves_set .ready hi rfl rfl hmove

/-- **What the caller does**: it spawns a worker, or returns, or waits. -/
theorem callerStep_cases (s : Scope τ) :
    (∃ unspawned, s.unspawned = unspawned + 1 ∧ s.callerStep =
      { s with
        unspawned := unspawned
        threads := s.threads ++ [if s.jitterMsecs > 0 then .sleeping else .ready] }) ∨
    (s.unspawned = 0 ∧ s.threads.all Thread.isExited = true ∧ s.callerStep = { s with returned := true }) ∨
    (s.unspawned = 0 ∧ s.threads.all Thread.isExited = false ∧ s.callerStep = s) := by
  unfold Scope.callerStep
  cases s.unspawned with
  | succ unspawned => exact .inl ⟨unspawned, rfl, rfl⟩
  | zero =>
    cases hall : s.threads.all Thread.isExited with
    | true => exact .inr (.inl ⟨rfl, rfl, rfl⟩)
    | false => exact .inr (.inr ⟨rfl, rfl, rfl⟩)

/-- A worker that is spawned was in the pool. -/
theorem pool_spawn {unspawned : Nat} (h : s.unspawned = unspawned + 1) {first : Thread τ}
    (hfirst : first.worker = .ready) :
    ({ s with unspawned := unspawned, threads := s.threads ++ [first] } : Scope τ).pool = s.pool := by
  unfold Scope.pool
  rw [h, List.replicate_succ, List.map_append, List.append_assoc, List.map_singleton, hfirst]
  rfl

theorem pool_wake (h : s.threads[i]? = some .sleeping) :
    ({ s with threads := s.threads.set i .ready } : Scope τ).pool = s.pool := by
  have hset := set_pool h .ready
  obtain ⟨hi, hworker⟩ := List.getElem?_eq_some_iff.mp (getElem?_pool h)
  rw [show (Thread.ready : Thread τ).worker = (Thread.sleeping : Thread τ).worker from rfl, ← hworker,
    List.set_getElem_self] at hset
  exact congrArg (WorkerPool.mk s.queue) hset

/-- **A step stays within the pool.** -/
theorem step_refines (s : Scope τ) (turn : Option Nat) :
    ((s.step turn).pool = s.pool ∧ (s.step turn).log = s.log) ∨ ∃ i, Moves s (s.step turn) i := by
  cases turn with
  | none =>
    refine .inl ?_
    dsimp only [Scope.step]
    rcases callerStep_cases s with ⟨unspawned, hspawn, hstep⟩ | ⟨-, -, hstep⟩ | ⟨-, -, hstep⟩
    · rw [hstep]
      exact ⟨pool_spawn hspawn (by split <;> rfl), rfl⟩
    · rw [hstep]
      exact ⟨rfl, rfl⟩
    · rw [hstep]
      exact ⟨rfl, rfl⟩
  | some i =>
    dsimp only [Scope.step]
    rcases threadStep_cases s i with ⟨hsleeping, hstep⟩ | ⟨thread, -, -, hmoves⟩ | ⟨-, hstep⟩
    · rw [hstep]
      exact .inl ⟨pool_wake hsleeping, rfl⟩
    · exact .inr ⟨i, hmoves⟩
    · rw [hstep]
      exact .inl ⟨rfl, rfl⟩

/-! ## A whole call -/

theorem returned_pool (hspawned : s.unspawned = 0) (hall : s.threads.all Thread.isExited = true) :
    s.pool.returned = true := by
  have hworkers : s.pool.workers = s.threads.map Thread.worker := by
    rw [Scope.pool, hspawned, List.replicate_zero, List.append_nil]
  rw [WorkerPool.returned, hworkers, List.all_map]
  refine List.all_eq_true.mpr fun thread hthread => ?_
  have hexited := List.all_eq_true.mp hall thread hthread
  cases thread with
  | exited => rfl
  | _ => cases hexited

/-- What holds at any time of a call. -/
structure Inv (items : List τ) (maxWorkers : Nat) (s : Scope τ) : Prop where
  wf : s.pool.Wf
  accounts : WorkerPool.Accounts items s.pool s.log
  size : s.pool.workers.length = min (max maxWorkers 1) items.length
  ended : s.returned = true → s.unspawned = 0 ∧ s.threads.all Thread.isExited = true

variable {items : List τ} {maxWorkers : Nat}

theorem inv_runBounded (items : List τ) (maxWorkers jitterMsecs : Nat) :
    Inv items maxWorkers (runBounded items maxWorkers jitterMsecs) where
  wf := by
    rw [pool_runBounded]
    exact WorkerPool.wf_spawn items maxWorkers
  accounts := by
    rw [pool_runBounded]
    exact WorkerPool.accounts_spawn items maxWorkers
  size := List.length_replicate
  ended := nofun

/-- A call that has returned is over. -/
theorem Inv.over (h : Inv items maxWorkers s) (hreturned : s.returned = true) (turn : Option Nat) :
    s.step turn = s := by
  obtain ⟨hspawned, hall⟩ := h.ended hreturned
  cases turn with
  | none =>
    show s.callerStep = s
    rcases callerStep_cases s with ⟨unspawned, hspawn, -⟩ | ⟨-, -, hstep⟩ | ⟨-, -, hstep⟩
    · omega
    · rw [hstep, ← hreturned]
    · exact hstep
  | some i =>
    show s.threadStep i = s
    unfold Scope.threadStep
    cases hi : s.threads[i]? with
    | none => rfl
    | some thread =>
      have hexited := List.all_eq_true.mp hall thread (List.mem_of_getElem? hi)
      cases thread with
      | exited => rfl
      | _ => cases hexited

theorem Inv.step (h : Inv items maxWorkers s) (turn : Option Nat) : Inv items maxWorkers (s.step turn) := by
  by_cases hreturned : s.returned = true
  · rwa [h.over hreturned]
  have hended : (s.step turn).returned = true →
      (s.step turn).unspawned = 0 ∧ (s.step turn).threads.all Thread.isExited = true := by
    intro hnow
    cases turn with
    | none =>
      dsimp only [Scope.step] at hnow ⊢
      rcases callerStep_cases s with ⟨unspawned, -, hstep⟩ | ⟨hspawned, hall, hstep⟩ | ⟨-, -, hstep⟩
      · rw [hstep] at hnow
        exact absurd hnow hreturned
      · rw [hstep]
        exact ⟨hspawned, hall⟩
      · rw [hstep] at hnow
        exact absurd hnow hreturned
    | some i =>
      dsimp only [Scope.step] at hnow
      rcases threadStep_cases s i with ⟨-, hstep⟩ | ⟨thread, -, -, hmoves⟩ | ⟨-, hstep⟩
      · rw [hstep] at hnow
        exact absurd hnow hreturned
      · rw [hmoves.returned] at hnow
        exact absurd hnow hreturned
      · rw [hstep] at hnow
        exact absurd hnow hreturned
  rcases step_refines s turn with ⟨hpool, hlog⟩ | ⟨i, hmoves⟩
  · exact ⟨hpool ▸ h.wf, by rw [hpool, hlog]; exact h.accounts, by rw [hpool]; exact h.size, hended⟩
  · refine ⟨hmoves.pool ▸ h.wf.move i, ?_, ?_, hended⟩
    · rw [hmoves.pool, hmoves.log]
      exact h.accounts.move i
    · rw [hmoves.pool, WorkerPool.length_workers_move]
      exact h.size

theorem Inv.bounded (h : Inv items maxWorkers s) : Bounded items maxWorkers s where
  inTurn := h.accounts.inTurn
  balance := inHand_pool s ▸ h.accounts.balance
  bound := by
    have hhand := s.pool.length_inHand_le
    rw [inHand_pool, h.size] at hhand
    exact hhand.trans (min_le_left _ _)
  barrier hreturned := by
    obtain ⟨hspawned, hall⟩ := h.ended hreturned
    obtain ⟨hstarted, hfinished⟩ := h.accounts.of_returned h.wf (returned_pool hspawned hall)
    refine ⟨hstarted, hfinished, List.filterMap_eq_nil_iff.mpr fun thread hthread => ?_, h.over hreturned⟩
    have hexited := List.all_eq_true.mp hall thread hthread
    cases thread with
    | working item => cases hexited
    | _ => rfl

/-! ## A call returns -/

/-- The steps that are still to be taken, at least. -/
def remaining (s : Scope τ) : Nat := s.pool.measure + 2 * s.unspawned + asleep s + (!s.returned).toNat

theorem remaining_spawn {unspawned : Nat} (h : s.unspawned = unspawned + 1) {first : Thread τ}
    (hfirst : first.worker = .ready) :
    remaining { s with unspawned := unspawned, threads := s.threads ++ [first] } < remaining s := by
  have hone : [first].countP Thread.isSleeping ≤ 1 := List.countP_le_length
  rw [remaining, remaining, pool_spawn h hfirst, h]
  simp only [asleep, List.countP_append]
  omega

theorem remaining_return (h : s.returned = false) : remaining { s with returned := true } < remaining s := by
  show s.pool.measure + 2 * s.unspawned + asleep s + (!true).toNat < remaining s
  rw [remaining, h]
  exact Nat.lt_succ_self _

theorem remaining_threadStep (h : s.threads[i]? = some thread) (hlive : thread ≠ .exited) :
    remaining (s.threadStep i) < remaining s := by
  rcases threadStep_cases s i with ⟨hsleeping, hstep⟩ | ⟨thread', hi, hlive', hmoves⟩ | ⟨hexited, -⟩
  · have hcount := countP_set_add hsleeping Thread.isSleeping .ready
    rw [hstep, remaining, remaining, pool_wake hsleeping]
    simp only [asleep, Thread.isSleeping, Bool.toNat_true, Bool.toNat_false] at hcount ⊢
    omega
  · have hworker : thread'.worker ≠ .exited := by
      cases thread' with
      | exited => exact absurd rfl hlive'
      | _ => exact nofun
    have hmeasure := WorkerPool.measure_move (getElem?_pool hi) hworker
    rw [remaining, remaining, hmoves.pool, hmoves.unspawned, hmoves.asleep, hmoves.returned]
    omega
  · exact absurd (hexited thread h) hlive

theorem step_nearer (s : Scope τ) (turn : Option Nat) :
    s.step turn = s ∨ remaining (s.step turn) < remaining s := by
  cases turn with
  | none =>
    dsimp only [Scope.step]
    rcases callerStep_cases s with ⟨unspawned, hspawn, hstep⟩ | ⟨-, -, hstep⟩ | ⟨-, -, hstep⟩
    · rw [hstep]
      exact .inr (remaining_spawn hspawn (by split <;> rfl))
    · rw [hstep]
      cases hreturned : s.returned with
      | true => exact .inl (by rw [← hreturned])
      | false => exact .inr (remaining_return hreturned)
    · exact .inl hstep
  | some i =>
    dsimp only [Scope.step]
    by_cases hlive : ∃ thread, s.threads[i]? = some thread ∧ thread ≠ .exited
    · obtain ⟨thread, hi, hlive⟩ := hlive
      exact .inr (remaining_threadStep hi hlive)
    · refine .inl ?_
      rcases threadStep_cases s i with ⟨hsleeping, -⟩ | ⟨thread, hi, hne, -⟩ | ⟨-, hstep⟩
      · exact absurd ⟨_, hsleeping, nofun⟩ hlive
      · exact absurd ⟨thread, hi, hne⟩ hlive
      · exact hstep

/-- Until the call returns, someone has something to do. -/
theorem exists_nearer (h : s.returned ≠ true) : ∃ turn, remaining (s.step turn) < remaining s := by
  by_cases hall : s.threads.all Thread.isExited = true
  · refine ⟨none, ?_⟩
    dsimp only [Scope.step]
    rcases callerStep_cases s with ⟨unspawned, hspawn, hstep⟩ | ⟨-, -, hstep⟩ | ⟨-, hnot, -⟩
    · rw [hstep]
      exact remaining_spawn hspawn (by split <;> rfl)
    · rw [hstep]
      exact remaining_return (Bool.not_eq_true _ ▸ h)
    · rw [hall] at hnot
      cases hnot
  · obtain ⟨thread, hthread, hlive⟩ : ∃ thread ∈ s.threads, ¬thread.isExited = true := by
      simpa using hall
    obtain ⟨i, hi⟩ := List.getElem?_of_mem hthread
    exact ⟨some i, remaining_threadStep hi fun hexited => hlive (by rw [hexited]; rfl)⟩

end

/-- **`run_bounded` does every item once**, within its bound and before it returns, however
the threads interleave; and it returns when every thread is given its turns. -/
theorem runBounded_exact {τ : Type u} (items : List τ) (maxWorkers jitterMsecs : Nat) :
    (∀ turns, Bounded items maxWorkers ((runBounded items maxWorkers jitterMsecs).run turns)) ∧
    ∀ schedule : ℕ → Option Nat, (∀ turn, Fair.Again schedule (· = turn)) →
      ∃ n, (Fair.after Scope.step (runBounded items maxWorkers jitterMsecs) schedule n).returned = true := by
  refine ⟨fun turns => ?_, fun schedule hfair => ?_⟩
  · have hinv := Runs.foldl_inv (Inv items maxWorkers) (fun s turn h => h.step turn) turns
      (inv_runBounded items maxWorkers jitterMsecs)
    exact hinv.bounded
  · exact Fair.ends remaining (fun s => s.returned = true) step_nearer (fun s h => exists_nearer h) hfair

/-- Three items and no worker asked for: one worker does them all. -/
example : ((runBounded [1, 2, 3] 0 0).run ([none] ++ List.replicate 7 (some 0) ++ [none])).log =
    [.started 0 1, .finished 0 1, .started 0 2, .finished 0 2, .started 0 3, .finished 0 3] := by
  decide

end JaspyNexus.Collectors.Pool
