import Mathlib
import JaspyNexus.Lib.Runs
import JaspyNexus.Collectors.Crawl

/-! # What a crawl leaves

Whatever the neighbours are and however the threads interleave. The threads refine
`ForkJoin` (`Refines`), so when the join loop ends no worker runs; beside it every
worker records its device once (`Records`). -/

namespace JaspyNexus.Collectors.Discovery
open JaspyNexus.Lib JaspyNexus.Lib.Text

/-! ## The threads refine fork and join -/

def Start.spawning : Start → Option String
  | .spawn fqdn => some fqdn
  | _ => none

def Start.holding : Start → Option Nat
  | .push handle => some handle
  | _ => none

def Phase.starting : Phase → Option Start
  | .start st _ => some st
  | _ => none

def Joiner.starting : Joiner → Option Start
  | .start st => some st
  | _ => none

def Joiner.joining : Joiner → List Nat
  | .join handles => handles
  | _ => []

def Joiner.isExited : Joiner → Bool
  | .exited => true
  | _ => false

namespace Crawl

/-- What a thread is starting. -/
def starting (crawl : Crawl) : Option Nat → Option Start
  | none => crawl.joiner.starting
  | some i => crawl.workers[i]?.bind fun worker => worker.phase.starting

def spawning (crawl : Crawl) (t : Option Nat) : Option String := (crawl.starting t).bind Start.spawning

def holding (crawl : Crawl) (t : Option Nat) : Option Nat := (crawl.starting t).bind Start.holding

/-- The threads, and what they share to start and join each other. -/
def threads (crawl : Crawl) : ForkJoin.State String where
  marked := crawl.inFlight
  threads := crawl.workers.map Worker.fqdn
  ended := (Finset.range crawl.workers.length).filter fun i => crawl.isDone i
  spawning := crawl.spawning
  holding := crawl.holding
  handles := crawl.handles
  joining := crawl.joiner.joining
  exited := crawl.joiner.isExited

variable {crawl : Crawl} {i : Nat} {worker : Worker}

theorem isDone_iff : crawl.isDone i = true ↔ ∃ fqdn, crawl.workers[i]? = some ⟨fqdn, .done⟩ := by
  unfold isDone
  split
  · next fqdn h => exact iff_of_true rfl ⟨fqdn, h⟩
  · next h => exact iff_of_false nofun fun ⟨fqdn, h'⟩ => h fqdn h'

theorem mem_ended_iff : i ∈ crawl.threads.ended ↔ crawl.isDone i = true := by
  refine Finset.mem_filter.trans (and_iff_right_of_imp fun h => Finset.mem_range.mpr ?_)
  obtain ⟨fqdn, h⟩ := isDone_iff.mp h
  exact (List.getElem?_eq_some_iff.mp h).1

section SetPhase
variable (h : crawl.workers[i]? = some worker) (phase : Phase)
include h

theorem getElem?_setPhase (j : Nat) : (crawl.setPhase i phase).workers[j]? =
    if i = j then some { worker with phase := phase } else crawl.workers[j]? := by
  dsimp only [setPhase]
  rw [List.getElem?_modify]
  split
  · next hij => rw [← hij, h]; rfl
  · cases crawl.workers[j]? <;> rfl

theorem starting_setPhase (t : Option Nat) : (crawl.setPhase i phase).starting t =
    if t = some i then phase.starting else crawl.starting t := by
  cases t with
  | none => rfl
  | some j =>
    dsimp only [starting]
    rw [getElem?_setPhase h]
    by_cases hij : i = j
    · simp [hij]
    · simp [hij, Ne.symm hij]

theorem isDone_setPhase (j : Nat) : (crawl.setPhase i phase).isDone j =
    if i = j then phase matches .done else crawl.isDone j := by
  unfold isDone
  rw [getElem?_setPhase h]
  by_cases hij : i = j
  · rw [if_pos hij, if_pos hij]
    cases phase <;> rfl
  · rw [if_neg hij, if_neg hij]

theorem map_fqdn_setPhase :
    (crawl.setPhase i phase).workers.map Worker.fqdn = crawl.workers.map Worker.fqdn := by
  refine List.ext_getElem? fun j => ?_
  rw [List.getElem?_map, List.getElem?_map, getElem?_setPhase h]
  split
  · next hij => rw [← hij, h]; rfl
  · rfl

/-- A worker that has not returned goes on. -/
theorem threads_setPhase (hlive : crawl.isDone i = false) (hphase : (phase matches .done) = false) :
    (crawl.setPhase i phase).threads = { crawl.threads with
      spawning := Function.update crawl.spawning (some i) (phase.starting.bind Start.spawning)
      holding := Function.update crawl.holding (some i) (phase.starting.bind Start.holding) } := by
  ext1
  · rfl
  · exact map_fqdn_setPhase h phase
  · ext j
    rw [mem_ended_iff, isDone_setPhase h, mem_ended_iff]
    split
    · next hij => rw [← hij, hlive, hphase]
    · rfl
  · funext t
    dsimp only [threads, spawning]
    rw [starting_setPhase h, Function.update_apply]
    split <;> rfl
  · funext t
    dsimp only [threads, holding]
    rw [starting_setPhase h, Function.update_apply]
    split <;> rfl
  · rfl
  · rfl
  · rfl

theorem threads_setPhase_done (hidle : worker.phase.starting = none) :
    (crawl.setPhase i .done).threads = { crawl.threads with ended := insert i crawl.threads.ended } := by
  have hstarting : (crawl.setPhase i .done).starting = crawl.starting := by
    funext t
    rw [starting_setPhase h]
    split
    · next ht =>
      subst ht
      have hold : crawl.starting (some i) = worker.phase.starting := by simp [starting, h]
      rw [hold, hidle]
      rfl
    · rfl
  ext1
  · rfl
  · exact map_fqdn_setPhase h .done
  · ext j
    rw [mem_ended_iff, isDone_setPhase h]
    dsimp only
    rw [Finset.mem_insert, mem_ended_iff]
    split
    · next hij => simp [hij]
    · next hij => simp [Ne.symm hij]
  · exact congrArg (fun f t => (f t).bind Start.spawning) hstarting
  · exact congrArg (fun f t => (f t).bind Start.holding) hstarting
  · rfl
  · rfl
  · rfl

end SetPhase

theorem threads_joiner (joiner : Joiner) :
    ({ crawl with joiner := joiner } : Crawl).threads = { crawl.threads with
      spawning := Function.update crawl.spawning none (joiner.starting.bind Start.spawning)
      holding := Function.update crawl.holding none (joiner.starting.bind Start.holding)
      joining := joiner.joining
      exited := joiner.isExited } := by
  ext1
  · rfl
  · rfl
  · rfl
  · funext t
    cases t <;> rfl
  · funext t
    cases t <;> rfl
  · rfl
  · rfl
  · rfl

/-- A thread that is started is not in the middle of starting another, and has not
returned. -/
theorem threads_append (crawl : Crawl) (fqdn : String) :
    ({ crawl with workers := crawl.workers ++ [⟨fqdn, .collect⟩] } : Crawl).threads =
      { crawl.threads with threads := crawl.threads.threads ++ [fqdn] } := by
  generalize hnew : ({ crawl with workers := crawl.workers ++ [⟨fqdn, .collect⟩] } : Crawl) = new
  have hworkers : new.workers = crawl.workers ++ [⟨fqdn, .collect⟩] := hnew ▸ rfl
  have hget : ∀ j, new.workers[j]? = if j = crawl.workers.length then some ⟨fqdn, .collect⟩
      else crawl.workers[j]? := by
    intro j
    rw [hworkers, List.getElem?_append]
    split
    · next hj => rw [if_neg (by omega)]
    · next hj =>
      by_cases heq : j = crawl.workers.length
      · simp [heq]
      · rw [if_neg heq, List.getElem?_eq_none (by simp; omega), List.getElem?_eq_none (by omega)]
  have hnone : crawl.workers[crawl.workers.length]? = none := List.getElem?_eq_none le_rfl
  have hstarting : new.starting = crawl.starting := by
    funext t
    cases t with
    | none => subst hnew; rfl
    | some j =>
      dsimp only [starting]
      rw [hget]
      split
      · next hj => rw [hj, hnone]; rfl
      · rfl
  ext1
  · subst hnew; rfl
  · dsimp only [threads]
    rw [hworkers, List.map_append]
    rfl
  · ext j
    rw [mem_ended_iff]
    dsimp only
    rw [mem_ended_iff]
    unfold isDone
    by_cases hj : j = crawl.workers.length
    · rw [hget, if_pos hj, hj, hnone]
    · rw [hget, if_neg hj]
  · exact congrArg (fun f t => (f t).bind Start.spawning) hstarting
  · exact congrArg (fun f t => (f t).bind Start.holding) hstarting
  · subst hnew; rfl
  · subst hnew; rfl
  · subst hnew; rfl

/-! ### One step -/

/-- The threads when one of them goes on starting a device, or is through with it. -/
def resumed (t : Option Nat) (out : Crawl × Option Start) : ForkJoin.State String :=
  { out.1.threads with
    spawning := Function.update out.1.spawning t (out.2.bind Start.spawning)
    holding := Function.update out.1.holding t (out.2.bind Start.holding) }

/-- One step of starting a device, for whichever thread takes it. -/
theorem startStep_threads {t : Option Nat} {st : Start} (hst : crawl.starting t = some st)
    (hlive : crawl.threads.Live t) :
    resumed t (crawl.startStep st) = crawl.threads ∨
      ForkJoin.Step crawl.threads (resumed t (crawl.startStep st)) := by
  have hspawning : crawl.spawning t = st.spawning := by simp [spawning, hst]
  have hholding : crawl.holding t = st.holding := by simp [holding, hst]
  have hs : Function.update crawl.spawning t st.spawning = crawl.spawning :=
    Function.update_eq_self_iff.mpr hspawning.symm
  have hh : Function.update crawl.holding t st.holding = crawl.holding :=
    Function.update_eq_self_iff.mpr hholding.symm
  cases st with
  | check fqdn =>
    by_cases hknown : (decide (fqdn ∈ crawl.inFlight) || (crawl.detected fqdn).isSome) = true
    · have hout : crawl.startStep (.check fqdn) = (crawl, none) := if_pos hknown
      rw [hout]
      left
      exact ForkJoin.State.ext rfl rfl rfl hs hh rfl rfl rfl
    · have hout : crawl.startStep (.check fqdn) =
          ({ crawl with inFlight := insert fqdn crawl.inFlight }, some (.spawn fqdn)) := if_neg hknown
      simp only [Bool.or_eq_true, decide_eq_true_eq, not_or] at hknown
      have hmark := ForkJoin.Step.mark hlive ⟨hspawning, hholding⟩ hknown.1
      rw [hout]
      right
      convert hmark using 1
      exact ForkJoin.State.ext rfl rfl rfl rfl hh rfl rfl rfl
  | spawn fqdn =>
    have hspawn := ForkJoin.Step.spawn (s := crawl.threads) hspawning
    have happend := crawl.threads_append fqdn
    right
    convert hspawn using 1
    have hsame : (crawl.startStep (.spawn fqdn)).1.spawning = crawl.spawning :=
      congrArg ForkJoin.State.spawning happend
    have hsame' : (crawl.startStep (.spawn fqdn)).1.holding = crawl.holding :=
      congrArg ForkJoin.State.holding happend
    unfold resumed
    rw [hsame, hsame', show (crawl.startStep (.spawn fqdn)).1.threads = _ from happend]
    refine ForkJoin.State.ext rfl rfl rfl rfl ?_ rfl rfl rfl
    simp [threads, startStep, Start.holding]
  | push handle =>
    have hpush := ForkJoin.Step.push (s := crawl.threads) hholding
    right
    convert hpush using 1
    exact ForkJoin.State.ext rfl rfl rfl hs rfl rfl rfl rfl

theorem resume_starting {α : Type} (f : Start → Option α) (hf : ∀ fqdn, f (.check fqdn) = none)
    (rest : List String) (o : Option Start) :
    (Phase.resume rest o).starting.bind f = o.bind f := by
  cases o with
  | some st => rfl
  | none => cases rest <;> simp [Phase.resume, Phase.next, Phase.starting, hf]

theorem joiner_resume (o : Option Start) :
    (Joiner.resume o).starting = o ∧ (Joiner.resume o).joining = [] ∧
      (Joiner.resume o).isExited = false := by
  cases o <;> exact ⟨rfl, rfl, rfl⟩

theorem workers_startStep (st : Start) (h : crawl.workers[i]? = some worker) :
    (crawl.startStep st).1.workers[i]? = some worker := by
  cases st with
  | check fqdn =>
    dsimp only [startStep]
    split <;> exact h
  | spawn fqdn =>
    obtain ⟨hi, -⟩ := List.getElem?_eq_some_iff.mp h
    dsimp only [startStep]
    rw [List.getElem?_append_left hi]
    exact h
  | push handle => exact h

theorem isDone_of_get (h : crawl.workers[i]? = some worker) (hphase : (worker.phase matches .done) = false) :
    crawl.isDone i = false := by
  unfold isDone
  rw [h]
  obtain ⟨fqdn, phase⟩ := worker
  cases phase <;> first | rfl | cases hphase

theorem live_of_get (h : crawl.workers[i]? = some worker) (hdone : crawl.isDone i = false) :
    crawl.threads.Live (some i) := by
  refine ⟨nofun, fun j hj => ?_⟩
  obtain rfl := Option.some.inj hj
  refine ⟨?_, fun hmem => ?_⟩
  · simpa [threads] using (List.getElem?_eq_some_iff.mp h).1
  · rw [mem_ended_iff, hdone] at hmem
    cases hmem

/-- A worker goes on that neither starts a device nor is about to. -/
theorem threads_setPhase_quiet (h : crawl.workers[i]? = some worker) {phase : Phase}
    (hidle : worker.phase.starting = none) (hlive : crawl.isDone i = false)
    (hphase : (phase matches .done) = false) (hs : phase.starting.bind Start.spawning = none)
    (hh : phase.starting.bind Start.holding = none) :
    (crawl.setPhase i phase).threads = crawl.threads := by
  have hold : crawl.starting (some i) = none := by simp [starting, h, hidle]
  rw [threads_setPhase h phase hlive hphase, hs, hh]
  refine ForkJoin.State.ext rfl rfl rfl ?_ ?_ rfl rfl rfl
  · exact Function.update_eq_self_iff.mpr (by simp [spawning, hold])
  · exact Function.update_eq_self_iff.mpr (by simp [holding, hold])

/-- A worker returns. -/
theorem threads_setPhase_finish (h : crawl.workers[i]? = some worker)
    (hidle : worker.phase.starting = none) (hlive : crawl.isDone i = false) :
    ForkJoin.Step crawl.threads (crawl.setPhase i .done).threads := by
  have hold : crawl.starting (some i) = none := by simp [starting, h, hidle]
  rw [threads_setPhase_done h hidle]
  exact .finish (live_of_get h hlive) ⟨by simp [threads, spawning, hold], by simp [threads, holding, hold]⟩

variable (params : RunParams) (network : Network)

theorem workerStep_threads (crawl : Crawl) (i : Nat) :
    (crawl.workerStep params network i).threads = crawl.threads ∨
      ForkJoin.Step crawl.threads (crawl.workerStep params network i).threads := by
  unfold workerStep
  split
  · exact .inl rfl
  · next worker h =>
    obtain ⟨fqdn, phase⟩ := worker
    cases phase with
    | collect =>
      left
      dsimp only
      unfold collected
      split
      · exact threads_setPhase_quiet h rfl (isDone_of_get h rfl) rfl rfl rfl
      · split <;> exact threads_setPhase_quiet h rfl (isDone_of_get h rfl) rfl rfl rfl
    | fail reason =>
      exact .inr (@threads_setPhase_finish { crawl with failures := _ } _ _ h rfl (isDone_of_get h rfl))
    | record sds =>
      left
      dsimp only
      cases discoveredNeighbors params network sds <;>
        exact @threads_setPhase_quiet { crawl with detected := _ } _ _ h _ rfl
          (isDone_of_get h rfl) rfl rfl rfl
    | start st rest =>
      dsimp only
      have h' := workers_startStep st h
      have hgo : ((crawl.startStep st).1.setPhase i (.resume rest (crawl.startStep st).2)).threads =
          resumed (some i) (crawl.startStep st) := by
        rw [threads_setPhase h' _ (isDone_of_get h' rfl) (by
          cases (crawl.startStep st).2 <;> [cases rest; skip] <;> rfl)]
        rw [resume_starting _ fun _ => rfl, resume_starting _ fun _ => rfl]
        rfl
      rw [hgo]
      exact startStep_threads (by simp [starting, h, Phase.starting])
        (live_of_get h (isDone_of_get h rfl))
    | ingest => exact .inr (threads_setPhase_finish h rfl (isDone_of_get h rfl))
    | done => exact .inl rfl

/-- The main thread goes on that is not starting a device. -/
theorem threads_joiner_idle (hold : crawl.joiner.starting = none) (handles : List Nat) {joiner : Joiner}
    (hnew : joiner.starting = none) :
    ({ crawl with handles := handles, joiner := joiner } : Crawl).threads =
      { crawl.threads with handles := handles, joining := joiner.joining, exited := joiner.isExited } := by
  have hsame : ({ crawl with handles := handles, joiner := joiner } : Crawl).starting = crawl.starting := by
    funext t
    cases t with
    | none => exact hnew.trans hold.symm
    | some i => rfl
  refine ForkJoin.State.ext rfl rfl rfl ?_ ?_ rfl rfl rfl
  · exact congrArg (fun f t => (f t).bind Start.spawning) hsame
  · exact congrArg (fun f t => (f t).bind Start.holding) hsame

theorem joinerStep_threads (crawl : Crawl) :
    crawl.joinerStep.threads = crawl.threads ∨
      ForkJoin.Step crawl.threads crawl.joinerStep.threads := by
  unfold joinerStep
  cases hjoiner : crawl.joiner with
  | start st =>
    dsimp only
    have hkept : (crawl.startStep st).1.joiner = crawl.joiner := by
      cases st with
      | check fqdn =>
        dsimp only [startStep]
        split <;> rfl
      | spawn fqdn => rfl
      | push handle => rfl
    have hgo : ({ (crawl.startStep st).1 with joiner := .resume (crawl.startStep st).2 } : Crawl).threads =
        resumed none (crawl.startStep st) := by
      obtain ⟨hstarting, hjoining, hexited⟩ := joiner_resume (crawl.startStep st).2
      rw [threads_joiner, hstarting, hjoining, hexited]
      refine ForkJoin.State.ext rfl rfl rfl rfl rfl rfl ?_ ?_
      · simp [resumed, threads, hkept, hjoiner, Joiner.joining]
      · simp [resumed, threads, hkept, hjoiner, Joiner.isExited]
    rw [hgo]
    exact startStep_threads (by simp [starting, hjoiner, Joiner.starting])
      ⟨fun _ => by simp [threads, hjoiner, Joiner.isExited], nofun⟩
  | drain =>
    have hold : crawl.joiner.starting = none := by rw [hjoiner]; rfl
    have hidle : crawl.threads.Idle none := by
      constructor <;> simp [threads, spawning, holding, starting, hold]
    have hjoined : crawl.threads.joining = [] := by simp [threads, hjoiner, Joiner.joining]
    have hexited : crawl.threads.exited = false := by simp [threads, hjoiner, Joiner.isExited]
    dsimp only
    right
    by_cases hnone : crawl.handles = []
    · rw [if_pos hnone, threads_joiner_idle hold [] rfl]
      convert ForkJoin.Step.exit hidle hjoined hnone using 1
      exact ForkJoin.State.ext rfl rfl rfl rfl rfl hnone.symm hjoined.symm rfl
    · rw [if_neg hnone, threads_joiner_idle hold [] rfl]
      convert ForkJoin.Step.drain hidle hjoined using 1
      exact ForkJoin.State.ext rfl rfl rfl rfl rfl rfl rfl hexited.symm
  | join handles =>
    have hold : crawl.joiner.starting = none := by rw [hjoiner]; rfl
    have hjoining : crawl.threads.joining = handles := by simp [threads, hjoiner, Joiner.joining]
    have hexited : crawl.threads.exited = false := by simp [threads, hjoiner, Joiner.isExited]
    cases handles with
    | nil =>
      left
      refine (threads_joiner_idle hold crawl.handles rfl).trans ?_
      exact ForkJoin.State.ext rfl rfl rfl rfl rfl rfl hjoining.symm hexited.symm
    | cons handle rest =>
      dsimp only
      split
      · next hdone =>
        right
        have hjoin := ForkJoin.Step.join hjoining (mem_ended_iff.mpr hdone)
        convert hjoin using 1
        refine (threads_joiner_idle hold crawl.handles rfl).trans ?_
        exact ForkJoin.State.ext rfl rfl rfl rfl rfl rfl rfl hexited.symm
      · exact .inl rfl
  | exited => exact .inl rfl

theorem step_threads (crawl : Crawl) (turn : Option Nat) :
    (crawl.step params network turn).threads = crawl.threads ∨
      ForkJoin.Step crawl.threads (crawl.step params network turn).threads := by
  cases turn with
  | none => exact joinerStep_threads crawl
  | some i => exact workerStep_threads params network crawl i

end Crawl

/-! ## Every device is recorded once -/

/-- What is on record of a worker's device, by where the worker is. -/
def Phase.Recorded (detected : Option DetectedDevice) (failure : Option String) : Phase → Prop
  | .collect | .fail _ | .record _ => detected = none ∧ failure = none
  | .start .. | .ingest => detected ≠ none ∧ failure = none
  | .done => (detected ≠ none ∧ failure = none) ∨ (detected = none ∧ failure ≠ none)

/-- The neighbours that a worker has still to start. -/
def Phase.rest : Phase → List String
  | .start (.check fqdn) rest => fqdn :: rest
  | .start _ rest => rest
  | _ => []

theorem Phase.rest_next (neighbors : List String) : (Phase.next neighbors).rest = neighbors := by
  cases neighbors <;> rfl

/-- **What the workers have recorded**, each of its own device. -/
structure Records (params : RunParams) (network : Network) (crawl : Crawl) : Prop where
  device : ∀ (i : Nat) worker, crawl.workers[i]? = some worker →
    worker.phase.Recorded (crawl.detected worker.fqdn) (crawl.failures worker.fqdn)
  started : ∀ fqdn, crawl.detected fqdn ≠ none ∨ crawl.failures fqdn ≠ none →
    fqdn ∈ crawl.workers.map Worker.fqdn
  /-- a neighbour is marked, or is yet to be -/
  neighbors : ∀ (i : Nat) worker sds, crawl.workers[i]? = some worker →
    crawl.detected worker.fqdn = some sds → ∀ fqdn ∈ discoveredNeighbors params network sds,
      fqdn ∈ crawl.inFlight ∨ fqdn ∈ worker.phase.rest

section Records
variable {params : RunParams} {network : Network} {crawl : Crawl} {i : Nat} {worker : Worker}

theorem Records.start (rootDevice : String) : Records params network (Crawl.start rootDevice) where
  device _ _ h := by cases h
  started _ h := by rcases h with h | h <;> exact absurd rfl h
  neighbors _ _ _ h := by cases h

/-- Two workers are not of one device. -/
theorem eq_of_fqdn (hnd : (crawl.workers.map Worker.fqdn).Nodup) {j : Nat} {worker' : Worker}
    (h : crawl.workers[i]? = some worker) (h' : crawl.workers[j]? = some worker')
    (hf : worker.fqdn = worker'.fqdn) : i = j := by
  obtain ⟨hi, -⟩ := List.getElem?_eq_some_iff.mp h
  refine (List.getElem?_inj (by simpa using hi) hnd).mp ?_
  rw [List.getElem?_map, List.getElem?_map, h, h', Option.map_some, Option.map_some, hf]

/-- A worker goes on, and records of no device but its own. -/
theorem Records.goOn (hnd : (crawl.workers.map Worker.fqdn).Nodup) (h : Records params network crawl)
    (hw : crawl.workers[i]? = some worker) {crawl' : Crawl} {phase : Phase}
    (hworkers : crawl'.workers = crawl.workers) (hmarked : crawl.inFlight ⊆ crawl'.inFlight)
    (hdetected : ∀ fqdn ≠ worker.fqdn, crawl'.detected fqdn = crawl.detected fqdn)
    (hfailures : ∀ fqdn ≠ worker.fqdn, crawl'.failures fqdn = crawl.failures fqdn)
    (hdevice : phase.Recorded (crawl'.detected worker.fqdn) (crawl'.failures worker.fqdn))
    (hneighbors : ∀ sds, crawl'.detected worker.fqdn = some sds →
      ∀ fqdn ∈ discoveredNeighbors params network sds, fqdn ∈ crawl'.inFlight ∨ fqdn ∈ phase.rest) :
    Records params network (crawl'.setPhase i phase) := by
  have hw' : crawl'.workers[i]? = some worker := hworkers ▸ hw
  have hget := Crawl.getElem?_setPhase hw' phase
  have hother : ∀ j worker', i ≠ j → crawl.workers[j]? = some worker' → worker'.fqdn ≠ worker.fqdn :=
    fun j worker' hij hj hf => hij (eq_of_fqdn hnd hw hj hf.symm)
  refine ⟨fun j worker' hj => ?_, fun fqdn hf => ?_, fun j worker' sds hj hd => ?_⟩
  · rw [hget] at hj
    split at hj
    · rw [← Option.some.inj hj]
      exact hdevice
    · next hij =>
      rw [hworkers] at hj
      have hne := hother j worker' hij hj
      have hold := h.device j worker' hj
      rw [← hdetected _ hne, ← hfailures _ hne] at hold
      exact hold
  · rw [Crawl.map_fqdn_setPhase hw', hworkers]
    by_cases hne : fqdn = worker.fqdn
    · exact hne ▸ List.mem_map_of_mem (List.mem_of_getElem? hw)
    · exact h.started fqdn (by rw [← hdetected _ hne, ← hfailures _ hne]; exact hf)
  · rw [hget] at hj
    split at hj
    · obtain rfl := Option.some.inj hj
      exact hneighbors sds hd
    · next hij =>
      rw [hworkers] at hj
      have hold := h.neighbors j worker' sds hj (by rw [← hdetected _ (hother j worker' hij hj)]; exact hd)
      exact fun fqdn hn => (hold fqdn hn).imp_left fun hm => hmarked hm

/-- Among the workers and a new one. -/
theorem getElem?_append_worker {fqdn : String} (h : (crawl.workers ++ [⟨fqdn, .collect⟩])[i]? = some worker) :
    crawl.workers[i]? = some worker ∨ worker = ⟨fqdn, .collect⟩ := by
  rw [List.getElem?_append] at h
  split at h
  · exact .inl h
  · exact .inr (List.mem_singleton.mp (List.mem_of_getElem? h))

/-- A worker for a new device. -/
theorem Records.append (h : Records params network crawl) {fqdn : String}
    (hnew : fqdn ∉ crawl.workers.map Worker.fqdn) :
    Records params network { crawl with workers := crawl.workers ++ [⟨fqdn, .collect⟩] } := by
  have hnone : crawl.detected fqdn = none ∧ crawl.failures fqdn = none := by
    by_contra hne
    rw [not_and_or] at hne
    exact hnew (h.started fqdn hne)
  refine ⟨fun j worker' hj => ?_, fun f hf => ?_, fun j worker' sds hj hd => ?_⟩
  · rcases getElem?_append_worker hj with hj | rfl
    · exact h.device j worker' hj
    · exact hnone
  · rw [List.map_append]
    exact List.mem_append_left _ (h.started f hf)
  · rcases getElem?_append_worker hj with hj | rfl
    · exact h.neighbors j worker' sds hj hd
    · rw [hnone.1] at hd
      cases hd

/-- A device is marked, or a handle pushed. -/
theorem Records.mark (h : Records params network crawl) {crawl' : Crawl}
    (hworkers : crawl'.workers = crawl.workers) (hmarked : crawl.inFlight ⊆ crawl'.inFlight)
    (hdetected : crawl'.detected = crawl.detected) (hfailures : crawl'.failures = crawl.failures) :
    Records params network crawl' := by
  refine ⟨fun j worker' hj => ?_, fun f hf => ?_, fun j worker' sds hj hd fqdn hn => ?_⟩
  · rw [hdetected, hfailures]
    exact h.device j worker' (hworkers ▸ hj)
  · rw [hdetected, hfailures] at hf
    rw [hworkers]
    exact h.started f hf
  · exact (h.neighbors j worker' sds (hworkers ▸ hj) (hdetected ▸ hd) fqdn hn).imp_left fun hm => hmarked hm

/-- One step of starting a device; the worker's own records stay. -/
theorem Records.startStep (hinv : ForkJoin.Inv crawl.threads) (h : Records params network crawl)
    {t : Option Nat} {st : Start} (hst : crawl.starting t = some st) :
    Records params network (crawl.startStep st).1 := by
  cases st with
  | check fqdn =>
    dsimp only [Crawl.startStep]
    split
    · exact h
    · exact h.mark rfl (Finset.subset_insert ..) rfl rfl
  | spawn fqdn =>
    have hspawning : crawl.threads.spawning t = some fqdn := by
      simp [Crawl.threads, Crawl.spawning, hst, Start.spawning]
    exact h.append (hinv.spawning_marked t fqdn hspawning).2
  | push handle => exact h.mark rfl (Finset.Subset.refl _) rfl rfl

theorem startStep_nodup (hinv : ForkJoin.Inv crawl.threads) {t : Option Nat} {st : Start}
    (hst : crawl.starting t = some st) : ((crawl.startStep st).1.workers.map Worker.fqdn).Nodup := by
  have hnd : (crawl.workers.map Worker.fqdn).Nodup := hinv.once
  cases st with
  | check fqdn =>
    dsimp only [Crawl.startStep]
    split <;> exact hnd
  | spawn fqdn =>
    have hspawning : crawl.threads.spawning t = some fqdn := by
      simp [Crawl.threads, Crawl.spawning, hst, Start.spawning]
    have hnew := (hinv.spawning_marked t fqdn hspawning).2
    dsimp only [Crawl.startStep]
    rw [List.map_append, List.nodup_append]
    refine ⟨hnd, List.nodup_singleton _, fun a ha b hb hab => hnew ?_⟩
    obtain rfl : b = fqdn := List.mem_singleton.mp hb
    exact hab ▸ ha
  | push handle => exact hnd

/-- A neighbour that is no longer to be started is marked. -/
theorem startStep_rest (hinv : ForkJoin.Inv crawl.threads) (h : Records params network crawl)
    {st : Start} {rest : List String} {fqdn : String} (hf : fqdn ∈ (Phase.start st rest).rest) :
    fqdn ∈ (crawl.startStep st).1.inFlight ∨
      fqdn ∈ (Phase.resume rest (crawl.startStep st).2).rest := by
  cases st with
  | check next =>
    dsimp only [Crawl.startStep]
    rcases List.mem_cons.mp hf with rfl | hf
    · left
      split
      · next hknown =>
        simp only [Bool.or_eq_true, decide_eq_true_eq] at hknown
        refine hknown.elim id fun hd => hinv.thread_marked fqdn (h.started fqdn (.inl ?_))
        exact Option.isSome_iff_ne_none.mp hd
      · exact Finset.mem_insert_self ..
    · right
      split
      · exact (Phase.rest_next rest).symm ▸ hf
      · exact hf
  | spawn next => exact .inr hf
  | push handle => exact .inr ((Phase.rest_next rest).symm ▸ hf)

theorem Records.workerStep (hinv : ForkJoin.Inv crawl.threads) (h : Records params network crawl)
    (i : Nat) : Records params network (crawl.workerStep params network i) := by
  unfold Crawl.workerStep
  split
  · exact h
  · next worker hw =>
    have hdevice := h.device i worker hw
    have hneighbors := h.neighbors i worker
    have hnd : (crawl.workers.map Worker.fqdn).Nodup := hinv.once
    obtain ⟨fqdn, phase⟩ := worker
    cases phase with
    | collect =>
      have hnone : ∀ sds, crawl.detected fqdn = some sds → False := fun sds hd => by
        rw [hdevice.1] at hd
        cases hd
      have hphase : (Crawl.collected network fqdn).Recorded (crawl.detected fqdn) (crawl.failures fqdn) := by
        unfold Crawl.collected
        split
        · exact hdevice
        · split <;> exact hdevice
      exact h.goOn hnd hw rfl (Finset.Subset.refl _) (fun _ _ => rfl) (fun _ _ => rfl) hphase
        fun sds hd => (hnone sds hd).elim
    | fail reason =>
      refine h.goOn hnd hw rfl (Finset.Subset.refl _) (fun _ _ => rfl) (fun f hf => by simp [hf])
        (.inr ⟨hdevice.1, by simp⟩) fun sds hd => ?_
      rw [show crawl.detected fqdn = none from hdevice.1] at hd
      cases hd
    | record sds =>
      refine h.goOn hnd hw rfl (Finset.Subset.refl _) (fun f hf => by simp [hf]) (fun _ _ => rfl) ?_
        fun sds' hd f hf => .inr ?_
      · cases discoveredNeighbors params network sds <;> exact ⟨by simp, hdevice.2⟩
      · rw [Phase.rest_next]
        obtain rfl : sds = sds' := by simpa using hd
        exact hf
    | start st rest =>
      have hst : crawl.starting (some i) = some st := by simp [Crawl.starting, hw, Phase.starting]
      have h₁ := h.startStep hinv hst
      have hw₁ := Crawl.workers_startStep st hw
      have hdevice₁ := h₁.device i _ hw₁
      refine h₁.goOn (startStep_nodup hinv hst) hw₁ rfl (Finset.Subset.refl _) (fun _ _ => rfl)
        (fun _ _ => rfl) ?_ fun sds hd f hf => ?_
      · cases (crawl.startStep st).2 <;> [cases rest; skip] <;> exact hdevice₁
      · rcases h₁.neighbors i _ sds hw₁ hd f hf with hm | hr
        · exact .inl hm
        · exact startStep_rest hinv h hr
    | ingest =>
      exact h.goOn hnd hw rfl (Finset.Subset.refl _) (fun _ _ => rfl) (fun _ _ => rfl) (.inl hdevice)
        fun sds hd f hf => hneighbors sds hw hd f hf
    | done => exact h

theorem Records.step (hinv : ForkJoin.Inv crawl.threads) (h : Records params network crawl)
    (turn : Option Nat) : Records params network (crawl.step params network turn) := by
  cases turn with
  | some i => exact h.workerStep hinv i
  | none =>
    dsimp only [Crawl.step, Crawl.joinerStep]
    split
    · next st hjoiner =>
      have hst : crawl.starting none = some st := by simp [Crawl.starting, hjoiner, Joiner.starting]
      exact (h.startStep hinv hst).mark rfl (Finset.Subset.refl _) rfl rfl
    · exact h.mark rfl (Finset.Subset.refl _) rfl rfl
    · exact h.mark rfl (Finset.Subset.refl _) rfl rfl
    · split
      · exact h.mark rfl (Finset.Subset.refl _) rfl rfl
      · exact h
    · exact h

/-! ## Any run -/

theorem threads_start (rootDevice : String) : (Crawl.start rootDevice).threads = ForkJoin.State.start := by
  refine ForkJoin.State.ext rfl rfl rfl ?_ ?_ rfl rfl rfl <;>
  · funext t
    cases t <;> rfl

theorem inv_step (h : ForkJoin.Inv crawl.threads) (turn : Option Nat) :
    ForkJoin.Inv (crawl.step params network turn).threads := by
  rcases crawl.step_threads params network turn with hsame | hstep
  · rw [hsame]
    exact h
  · exact h.step hstep

/-- In every state of a run. -/
theorem run_inv (params : RunParams) (network : Network) (rootDevice : String) (turns : List (Option Nat)) :
    ForkJoin.Inv ((Crawl.start rootDevice).run params network turns).threads ∧
      Records params network ((Crawl.start rootDevice).run params network turns) :=
  Runs.foldl_inv (fun crawl : Crawl => ForkJoin.Inv crawl.threads ∧ Records params network crawl)
    (fun _ turn h => ⟨inv_step h.1 turn, h.2.step h.1 turn⟩) turns
    ⟨threads_start rootDevice ▸ .start, .start rootDevice⟩

/-! ## The law -/

/-- A name that a device gives for a neighbour. -/
def Names (sds : DetectedDevice) (name : String) : Prop :=
  ∃ iface ∈ sds.interfaces, (∃ neighbor ∈ iface.lldp, neighbor.remSysName = name) ∨
    ∃ neighbor, iface.cdp = some neighbor ∧ neighbor.deviceId = name

/-- A resolvable neighbour of a device, not one to be ignored. -/
def IsNeighbor (params : RunParams) (network : Network) (sds : DetectedDevice) (fqdn : String) : Prop :=
  fqdn ∉ params.ignore ∧ ∃ name, Names sds name ∧ tryResolve params network (trim name) = some fqdn

theorem mem_foldl_gather {names kept : List String} {fqdn : String} :
    fqdn ∈ names.foldl (gather params network) kept ↔ fqdn ∈ kept ∨
      fqdn ∉ params.ignore ∧ ∃ name ∈ names, tryResolve params network (trim name) = some fqdn := by
  induction names generalizing kept with
  | nil => simp
  | cons name names ih =>
    rw [List.foldl_cons, ih]
    unfold gather
    cases hname : tryResolve params network (trim name) with
    | none => simp [hname]
    | some found =>
      dsimp only
      split
      · grind
      · grind

def neighborNames (iface : DiscoveredIface) : List String :=
  iface.lldp.map LldpNeighbor.remSysName ++ iface.cdp.toList.map CdpNeighbor.deviceId

/-- What a crawl goes on to are the neighbours. -/
theorem mem_discoveredNeighbors (hcrawl : params.singleDevice = false) {sds : DetectedDevice}
    {fqdn : String} :
    fqdn ∈ discoveredNeighbors params network sds ↔ IsNeighbor params network sds fqdn := by
  have hfold : discoveredNeighbors params network sds =
      (sds.interfaces.flatMap neighborNames).foldl (gather params network) [] := by
    unfold discoveredNeighbors
    rw [hcrawl, if_neg (by simp), List.foldl_flatMap]
    congr 1
    funext kept iface
    rw [neighborNames, List.foldl_append, List.foldl_map, List.foldl_map]
    cases iface.cdp <;> rfl
  have hnames : ∀ name, name ∈ sds.interfaces.flatMap neighborNames ↔ Names sds name := fun name => by
    simp [Names, neighborNames, List.mem_flatMap]
  rw [hfold, mem_foldl_gather]
  simp [IsNeighbor, hnames]

/-- **What a crawl is to guarantee.** -/
structure Closed (params : RunParams) (network : Network) (crawl : Crawl) : Prop where
  /-- a device is handed to one worker -/
  once : (crawl.workers.map Worker.fqdn).Nodup
  /-- the join loop ends when no worker runs or is about to be spawned -/
  quiet : crawl.joiner = .exited →
    (∀ worker ∈ crawl.workers, worker.phase = .done) ∧ ∀ t, crawl.spawning t = none
  /-- by then a device that was started is either detected or failed -/
  recorded : crawl.joiner = .exited → ∀ fqdn ∈ crawl.inFlight, fqdn ∈ crawl.workers.map Worker.fqdn ∧
    ((crawl.detected fqdn).isSome = true ∧ crawl.failures fqdn = none ∨
      crawl.detected fqdn = none ∧ (crawl.failures fqdn).isSome = true)
  /-- and a neighbour of a detected device is one or the other -/
  neighbors : crawl.joiner = .exited → params.singleDevice = false →
    ∀ fqdn sds, crawl.detected fqdn = some sds → ∀ neighbor, IsNeighbor params network sds neighbor →
      (crawl.detected neighbor).isSome = true ∨ (crawl.failures neighbor).isSome = true

theorem Records.closed (hinv : ForkJoin.Inv crawl.threads) (h : Records params network crawl) :
    Closed params network crawl := by
  have hexited : crawl.joiner = .exited → crawl.threads.exited = true := fun hj => by
    simp [Crawl.threads, hj, Joiner.isExited]
  have hdone : crawl.joiner = .exited → ∀ worker ∈ crawl.workers, worker.phase = .done := by
    intro hj worker hw
    obtain ⟨i, hi⟩ := List.getElem?_of_mem hw
    have hlt : i < crawl.threads.threads.length := by
      simpa [Crawl.threads] using (List.getElem?_eq_some_iff.mp hi).1
    have hended := Crawl.mem_ended_iff.mp ((hinv.exited (hexited hj)).1 i hlt)
    obtain ⟨fqdn, hget⟩ := Crawl.isDone_iff.mp hended
    rw [hget] at hi
    rw [← Option.some.inj hi]
  -- a device that was started has a worker, and that has recorded it
  have hrecorded : crawl.joiner = .exited → ∀ fqdn ∈ crawl.inFlight,
      fqdn ∈ crawl.workers.map Worker.fqdn ∧
      ((crawl.detected fqdn).isSome = true ∧ crawl.failures fqdn = none ∨
        crawl.detected fqdn = none ∧ (crawl.failures fqdn).isSome = true) := by
    intro hj fqdn hf
    have hthread : fqdn ∈ crawl.workers.map Worker.fqdn :=
      ((hinv.exited (hexited hj)).2.2 fqdn).mp hf
    obtain ⟨worker, hw, rfl⟩ := List.mem_map.mp hthread
    obtain ⟨i, hi⟩ := List.getElem?_of_mem hw
    have hdevice := h.device i worker hi
    rw [hdone hj worker hw] at hdevice
    simp only [Option.isSome_iff_ne_none]
    exact ⟨hthread, hdevice⟩
  refine ⟨hinv.once, fun hj => ⟨hdone hj, (hinv.exited (hexited hj)).2.1⟩, hrecorded,
    fun hj hcrawl fqdn sds hd neighbor hn => ?_⟩
  obtain ⟨worker, hw, rfl⟩ := List.mem_map.mp (h.started fqdn (.inl (by simp [hd])))
  obtain ⟨i, hi⟩ := List.getElem?_of_mem hw
  have hmarked : neighbor ∈ crawl.inFlight := by
    refine (h.neighbors i worker sds hi hd neighbor ((mem_discoveredNeighbors hcrawl).mpr hn)).resolve_right ?_
    rw [hdone hj worker hw]
    exact List.not_mem_nil
  exact (hrecorded hj neighbor hmarked).2.imp And.left And.right

/-- **A crawl is closed**, whatever the neighbours are and however the threads
interleave. -/
theorem crawl_closed (params : RunParams) (network : Network) (rootDevice : String)
    (turns : List (Option Nat)) :
    Closed params network ((Crawl.start rootDevice).run params network turns) := by
  obtain ⟨hinv, hrecords⟩ := run_inv params network rootDevice turns
  exact hrecords.closed hinv

end Records

/-- Two devices that name each other are crawled, and the join loop ends. -/
example : ((Crawl.start "a.lan").run ⟨"a", ["lan"], [], fun _ => none, true, false⟩
    ⟨fun fqdn => .ok ⟨fqdn, [⟨[⟨"a"⟩, ⟨"b"⟩], none⟩], true⟩, fun _ => true⟩
    ([none, none, none, none] ++ List.replicate 8 (some 0) ++ List.replicate 5 (some 1) ++
      List.replicate 6 none)).joiner.isExited = true := by
  decide +kernel

end JaspyNexus.Collectors.Discovery
