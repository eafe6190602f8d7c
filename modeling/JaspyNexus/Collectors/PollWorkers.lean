import Mathlib
import JaspyNexus.Lib.HashMap
import JaspyNexus.Lib.LastWrite
import JaspyNexus.Lib.Runs
import JaspyNexus.Models.Dbo
import JaspyNexus.Collectors.Poller

/-! # The poll workers

The supervisor loop `run` of `collectors/poller.rs`: one thread for every monitored
device, started and stopped as the database changes, all of them stopped while polling is
paused. A thread polls with the copy of the device that it was started with. -/

namespace JaspyNexus.Collectors.Poller
open JaspyNexus.Lib JaspyNexus.Models

def Device.toPoll (device : Device) : PollDevice := ⟨device.fqdn, device.snmpCommunity⟩

/-- `load_devices`: nothing without a connection, and nothing from a query that fails. -/
def loadDevices (db : Database) (pool queried : Bool) : HashMap String PollDevice :=
  if pool then
    writeAll (fun device : Device => some (device.fqdn, Device.toPoll device)) (Device.monitored db queried)
  else ∅

/-- `PollThreadInfo`: the device that the thread has captured, and the flag it polls
under. -/
structure PollThreadInfo where
  device : PollDevice
  running : Bool
  deriving DecidableEq, Repr

def PollThreadInfo.stop (worker : PollThreadInfo) : PollThreadInfo := { worker with running := false }

structure Supervisor where
  pollWorkers : HashMap String PollThreadInfo
  reapThreads : List PollThreadInfo
  ticksSinceReload : Nat
  wasPaused : Bool

/-- Before the first tick. -/
def Supervisor.start : Supervisor := ⟨∅, [], 0, false⟩

/-! ## Reconciliation -/

/-- `check_if_worker_needed`. -/
def checkIfWorkerNeeded (devices : HashMap String PollDevice) (workers : HashMap String PollThreadInfo) :
    HashMap String PollThreadInfo :=
  devices.entries.foldl (fun workers e => if e.1 ∈ workers then workers else workers.insert e.1 ⟨e.2, true⟩) workers

/-- `check_expired_fqdn_workers`: the workers with their flags, and whose time is up. -/
def checkExpiredFqdnWorkers (devices : HashMap String PollDevice) (workers : HashMap String PollThreadInfo) :
    HashMap String PollThreadInfo × List String :=
  (workers.update fun fqdn worker => if fqdn ∈ devices then worker else worker.stop,
    workers.keys.filter fun fqdn => fqdn ∉ devices)

/-- `prepare_expired_fqdns_for_reap`, one name. -/
def prepareForReap (s : HashMap String PollThreadInfo × List PollThreadInfo) (fqdn : String) :
    HashMap String PollThreadInfo × List PollThreadInfo :=
  match s.1.lookup fqdn with
  | some worker => (s.1.erase fqdn, s.2 ++ [worker])
  | none => s

namespace Supervisor

def reconcile (s : Supervisor) (devices : HashMap String PollDevice) : Supervisor :=
  let expired := checkExpiredFqdnWorkers devices (checkIfWorkerNeeded devices s.pollWorkers)
  let prepared := expired.2.foldl prepareForReap (expired.1, s.reapThreads)
  { s with pollWorkers := prepared.1, reapThreads := prepared.2 }

/-- `reap_finished_threads`: `finished` says, by position, who has sent the signal. -/
def reapFinishedThreads (s : Supervisor) (finished : Nat → Bool) : Supervisor :=
  { s with reapThreads := (s.reapThreads.zipIdx.filter fun e => !finished e.2).map Prod.fst }

/-- Every worker is stopped and joined. -/
def pause (s : Supervisor) : Supervisor := { s with pollWorkers := ∅, reapThreads := [], wasPaused := true }

def resume (s : Supervisor) : Supervisor :=
  if s.wasPaused then { s with ticksSinceReload := 0, wasPaused := false } else s

end Supervisor

/-- What one turn of the loop meets: the master switch, the database and which of its two
steps succeed, and the threads that have finished. -/
structure Tick where
  enabled : Bool
  db : Database
  pool : Bool
  queried : Bool
  finished : Nat → Bool

/-- One turn of the loop. -/
def Supervisor.tick (reloadSecs : Nat) (s : Supervisor) (t : Tick) : Supervisor :=
  if t.enabled then
    let s := s.resume
    let s := if s.ticksSinceReload = 0 then s.reconcile (loadDevices t.db t.pool t.queried) else s
    let s := s.reapFinishedThreads t.finished
    { s with ticksSinceReload := (s.ticksSinceReload + 1) % reloadSecs }
  else s.pause

/-! ## What a reconciliation leaves -/

section
variable {devices : HashMap String PollDevice} {workers : HashMap String PollThreadInfo} {fqdn : String}

theorem lookup_checkIfWorkerNeeded : (checkIfWorkerNeeded devices workers).lookup fqdn =
    (workers.lookup fqdn).or ((devices.lookup fqdn).map fun device => ⟨device, true⟩) := by
  unfold checkIfWorkerNeeded
  obtain ⟨entries, hnd⟩ := devices
  show (entries.foldl _ workers).lookup fqdn = (workers.lookup fqdn).or ((entries.dlookup fqdn).map _)
  clear hnd
  induction entries generalizing workers with
  | nil => simp
  | cons e rest ih =>
    rw [List.foldl_cons, ih]
    by_cases hkey : e.1 = fqdn
    · subst hkey
      by_cases hmem : e.1 ∈ workers
      · obtain ⟨worker, hworker⟩ := HashMap.mem_iff_lookup.mp hmem
        simp [hmem, hworker]
      · have hnone : workers.lookup e.1 = none := AList.lookup_eq_none.mpr hmem
        have hfirst : List.dlookup e.1 (e :: rest) = some e.2 := List.dlookup_cons_eq rest e.1 e.2
        simp [hmem, hnone, hfirst]
    · have hother : (if e.1 ∈ workers then workers else workers.insert e.1 ⟨e.2, true⟩).lookup fqdn =
          workers.lookup fqdn := by
        split
        · rfl
        · exact AList.lookup_insert_ne (Ne.symm hkey)
      rw [hother, List.dlookup_cons_ne _ _ (Ne.symm hkey)]

section
variable {state : HashMap String PollThreadInfo × List PollThreadInfo} {worker : PollThreadInfo}

theorem lookup_prepareForReap (name : String) :
    (prepareForReap state name).1.lookup fqdn = if fqdn = name then none else state.1.lookup fqdn := by
  unfold prepareForReap
  by_cases hname : fqdn = name
  · subst hname
    cases hworker : state.1.lookup fqdn with
    | none => simp [hworker]
    | some worker => simp
  · cases hworker : state.1.lookup name with
    | none => simp [hname]
    | some worker => simp [hname, AList.lookup_erase_ne hname]

theorem mem_prepareForReap {name : String} (h : worker ∈ (prepareForReap state name).2) :
    worker ∈ state.2 ∨ state.1.lookup name = some worker := by
  unfold prepareForReap at h
  cases hworker : state.1.lookup name with
  | none =>
    rw [hworker] at h
    exact .inl h
  | some found =>
    rw [hworker] at h
    rcases List.mem_append.mp h with h | h
    · exact .inl h
    · exact .inr (congrArg some (List.mem_singleton.mp h).symm)

/-- Every name given goes, and no other. -/
theorem lookup_foldl_prepareForReap {expired : List String} :
    (expired.foldl prepareForReap state).1.lookup fqdn =
      if fqdn ∈ expired then none else state.1.lookup fqdn := by
  induction expired generalizing state with
  | nil => simp
  | cons name rest ih =>
    rw [List.foldl_cons, ih, lookup_prepareForReap]
    by_cases hname : fqdn = name <;> simp [hname]

/-- What goes to be reaped was there, or is a worker under one of the names. -/
theorem mem_foldl_prepareForReap {expired : List String} (h : worker ∈ (expired.foldl prepareForReap state).2) :
    worker ∈ state.2 ∨ ∃ name ∈ expired, state.1.lookup name = some worker := by
  induction expired generalizing state with
  | nil => exact .inl h
  | cons name rest ih =>
    rw [List.foldl_cons] at h
    rcases ih h with h | ⟨other, hother, hlookup⟩
    · rcases mem_prepareForReap h with h | hlookup
      · exact .inl h
      · exact .inr ⟨name, List.mem_cons_self, hlookup⟩
    · rw [lookup_prepareForReap] at hlookup
      split at hlookup
      · cases hlookup
      · exact .inr ⟨other, List.mem_cons_of_mem _ hother, hlookup⟩

end

/-- A name is on the list of those whose time is up when it has a worker and no device. -/
theorem mem_expired : fqdn ∈ (checkExpiredFqdnWorkers devices workers).2 ↔ fqdn ∈ workers ∧ fqdn ∉ devices := by
  simp [checkExpiredFqdnWorkers, AList.mem_keys]

/-- **What a reconciliation leaves**: a worker for every device on the list, the one that
was there if one was. -/
theorem lookup_reconcile (s : Supervisor) : (s.reconcile devices).pollWorkers.lookup fqdn =
    (devices.lookup fqdn).map fun device => (s.pollWorkers.lookup fqdn).getD ⟨device, true⟩ := by
  have hneeded : (checkIfWorkerNeeded devices s.pollWorkers).lookup fqdn = _ := lookup_checkIfWorkerNeeded
  show (List.foldl prepareForReap _ _).1.lookup fqdn = _
  rw [lookup_foldl_prepareForReap]
  show (if _ then none else (HashMap.update _ _).lookup fqdn) = _
  rw [HashMap.lookup_update]
  cases hdevice : devices.lookup fqdn with
  | none =>
    have hgone : fqdn ∉ devices := AList.lookup_eq_none.mp hdevice
    by_cases hworker : fqdn ∈ checkIfWorkerNeeded devices s.pollWorkers
    · rw [if_pos (mem_expired.mpr ⟨hworker, hgone⟩)]
      rfl
    · rw [AList.lookup_eq_none.mpr hworker]
      simp
  | some device =>
    have hlisted : fqdn ∈ devices := HashMap.mem_iff_lookup.mpr ⟨device, hdevice⟩
    rw [if_neg fun h => (mem_expired.mp h).2 hlisted, hneeded, hdevice]
    cases s.pollWorkers.lookup fqdn <;> simp [hlisted]

/-- What a reconciliation adds to the threads to be reaped has been told to stop. -/
theorem mem_reapThreads_reconcile {s : Supervisor} {worker : PollThreadInfo}
    (h : worker ∈ (s.reconcile devices).reapThreads) : worker ∈ s.reapThreads ∨ worker.running = false := by
  rcases mem_foldl_prepareForReap h with h | ⟨name, hname, hlookup⟩
  · exact .inl h
  · obtain ⟨-, hgone⟩ := mem_expired.mp hname
    right
    have hupdate : ((checkIfWorkerNeeded devices s.pollWorkers).update fun fqdn worker =>
        if fqdn ∈ devices then worker else worker.stop).lookup name = some worker := hlookup
    rw [HashMap.lookup_update] at hupdate
    obtain ⟨before, -, rfl⟩ := Option.map_eq_some_iff.mp hupdate
    rw [if_neg hgone]
    rfl

end

/-! ## The threads of a run -/

namespace Supervisor

/-- A worker polls, under the name of its device; a thread to be reaped has been told to
stop. -/
structure Wf (s : Supervisor) : Prop where
  polls : ∀ fqdn worker, s.pollWorkers.lookup fqdn = some worker → worker.running = true ∧ worker.device.fqdn = fqdn
  stopped : ∀ worker ∈ s.reapThreads, worker.running = false

/-- The threads that poll the device. -/
def polling (s : Supervisor) (fqdn : String) : List PollThreadInfo :=
  (s.pollWorkers.values ++ s.reapThreads).filter fun worker => worker.running && worker.device.fqdn == fqdn

variable {s : Supervisor}

theorem wf_start : Wf start where
  polls fqdn worker h := by
    rw [start, AList.lookup_empty] at h
    cases h
  stopped worker h := nomatch h

theorem Wf.polling_eq (h : s.Wf) (fqdn : String) : s.polling fqdn = (s.pollWorkers.lookup fqdn).toList := by
  unfold polling
  rw [List.filter_append, HashMap.filter_values (k := fqdn) ?_, List.filter_eq_nil_iff.mpr ?_, List.append_nil]
  · intro worker hworker
    simp [h.stopped worker hworker]
  · intro name worker hworker
    obtain ⟨hrunning, hname⟩ := h.polls name worker hworker
    simp [hrunning, hname]

theorem Wf.reconcile (h : s.Wf) {devices : HashMap String PollDevice}
    (hdevices : ∀ fqdn device, devices.lookup fqdn = some device → device.fqdn = fqdn) :
    (s.reconcile devices).Wf where
  polls fqdn worker hworker := by
    rw [lookup_reconcile] at hworker
    obtain ⟨device, hdevice, rfl⟩ := Option.map_eq_some_iff.mp hworker
    cases hbefore : s.pollWorkers.lookup fqdn with
    | some worker => exact h.polls fqdn worker hbefore
    | none => exact ⟨rfl, hdevices fqdn device hdevice⟩
  stopped worker hworker := (mem_reapThreads_reconcile hworker).elim (h.stopped worker) id

theorem Wf.reapFinishedThreads (h : s.Wf) (finished : Nat → Bool) : (s.reapFinishedThreads finished).Wf where
  polls := h.polls
  stopped worker hworker := by
    obtain ⟨e, he, rfl⟩ := List.mem_map.mp hworker
    exact h.stopped e.1 (List.fst_mem_of_mem_zipIdx (List.mem_of_mem_filter he))

theorem Wf.resume (h : s.Wf) : s.resume.Wf := by
  unfold Supervisor.resume
  split
  · exact ⟨h.polls, h.stopped⟩
  · exact h

theorem wf_pause : s.pause.Wf := ⟨wf_start.polls, wf_start.stopped⟩

theorem pollWorkers_resume : s.resume.pollWorkers = s.pollWorkers := by
  unfold Supervisor.resume
  split <;> rfl

/-- The turn reconciles. -/
def Reconciles (s : Supervisor) (t : Tick) : Prop := t.enabled = true ∧ s.resume.ticksSinceReload = 0

instance (s : Supervisor) (t : Tick) : Decidable (s.Reconciles t) := inferInstanceAs (Decidable (_ ∧ _))

end Supervisor

/-! ## The database -/

/-- The row that `load_devices` keeps for a name: the last one. -/
def deviceRow (db : Database) (fqdn : String) : Option Device :=
  (db.monitoredDevices.filter fun device => device.fqdn = fqdn).getLast?

/-- The turn's listing of the devices: a step of it that fails leaves an empty list. -/
def Tick.Lists (t : Tick) : Prop := t.pool = true ∧ t.queried = true

def Tick.devices (t : Tick) : HashMap String PollDevice := loadDevices t.db t.pool t.queried

theorem lookup_devices_of_lists {t : Tick} (h : t.Lists) (fqdn : String) :
    t.devices.lookup fqdn = (deviceRow t.db fqdn).map Device.toPoll := by
  have hsay : ∀ device : Device, sayOf (fun device => some (device.fqdn, Device.toPoll device)) fqdn device =
      (Option.guard (fun device : Device => device.fqdn = fqdn) device).map Device.toPoll := by
    intro device
    by_cases hname : device.fqdn = fqdn <;> simp [sayOf, Option.guard, hname]
  unfold Tick.devices loadDevices deviceRow
  rw [h.1, h.2, if_pos rfl, lookup_writeAll, List.filterMap_congr fun device _ => hsay device,
    ← List.map_filterMap, List.filterMap_eq_filter, List.getLast?_map]
  rfl

theorem lookup_devices_of_not_lists {t : Tick} (h : ¬t.Lists) (fqdn : String) : t.devices.lookup fqdn = none := by
  unfold Tick.devices loadDevices
  split
  next hpool =>
    have hqueried : t.queried = false := by simpa [hpool, Tick.Lists] using h
    rw [Device.monitored, hqueried]
    exact AList.lookup_empty fqdn
  next => exact AList.lookup_empty fqdn

theorem fqdn_of_lookup_devices {t : Tick} {fqdn : String} {device : PollDevice}
    (h : t.devices.lookup fqdn = some device) : device.fqdn = fqdn := by
  by_cases hlists : t.Lists
  · rw [lookup_devices_of_lists hlists] at h
    obtain ⟨row, hrow, rfl⟩ := Option.map_eq_some_iff.mp h
    show row.fqdn = fqdn
    simpa using (List.mem_filter.mp (List.mem_of_getLast? hrow)).2
  · rw [lookup_devices_of_not_lists hlists] at h
    cases h

/-- Nothing is monitored exactly when no name has a row. -/
theorem deviceRow_eq_none_iff {db : Database} : (∀ fqdn, deviceRow db fqdn = none) ↔ db.monitoredDevices = [] := by
  constructor
  · intro hnone
    refine List.eq_nil_iff_forall_not_mem.mpr fun device hdevice => ?_
    have hrow : db.monitoredDevices.filter (fun d => d.fqdn = device.fqdn) = [] :=
      List.getLast?_eq_none_iff.mp (hnone device.fqdn)
    have hmem : device ∈ db.monitoredDevices.filter fun d => d.fqdn = device.fqdn :=
      List.mem_filter.mpr ⟨hdevice, by simp⟩
    rw [hrow] at hmem
    cases hmem
  · intro hnil fqdn
    rw [deviceRow, hnil]
    rfl

/-! ## The law -/

/-- A run of the loop beside the database: what it held at the last reconciliation, unless
all workers have been stopped since. -/
structure World where
  supervisor : Supervisor
  reconciled : Option Database

def World.start : World := ⟨.start, none⟩

def World.tick (reloadSecs : Nat) (w : World) (t : Tick) : World where
  supervisor := w.supervisor.tick reloadSecs t
  reconciled :=
    if w.supervisor.Reconciles t then some t.db
    else if t.enabled then w.reconciled
    else none

/-- **One worker for every monitored device**, which polls with the community that the
database held at the reconciliation, and none for any other name. -/
def World.Reconciled (w : World) : Prop :=
  ∀ db, w.reconciled = some db → ∀ fqdn, (w.supervisor.polling fqdn).map (fun worker => worker.device.snmpCommunity) =
    ((deviceRow db fqdn).map Device.snmpCommunity).toList

/-- The worker that a device has, if it has one, was started with the community that the
device has now. -/
def Supervisor.SameCommunities (s : Supervisor) (db : Database) : Prop :=
  ∀ fqdn worker device, s.pollWorkers.lookup fqdn = some worker → deviceRow db fqdn = some device →
    worker.device.snmpCommunity = device.snmpCommunity

/-- A turn that goes well: if it reconciles, the devices are listed, or there are none, and
no device that has a worker has another community. -/
def World.Steady (w : World) (t : Tick) : Prop :=
  w.supervisor.Reconciles t → (t.Lists ∨ t.db.monitoredDevices = []) ∧ w.supervisor.SameCommunities t.db

section
variable {s : Supervisor} {w : World} {reloadSecs : Nat} {t : Tick}

theorem Supervisor.Wf.tick (h : s.Wf) : (s.tick reloadSecs t).Wf := by
  unfold Supervisor.tick
  split
  · dsimp only
    split
    · have hlisted : (s.resume.reconcile t.devices).Wf := h.resume.reconcile fun _ _ => fqdn_of_lookup_devices
      have hdone := hlisted.reapFinishedThreads t.finished
      exact ⟨hdone.polls, hdone.stopped⟩
    · have hdone := h.resume.reapFinishedThreads t.finished
      exact ⟨hdone.polls, hdone.stopped⟩
  · exact wf_pause

theorem Supervisor.lookup_tick_of_reconciles (h : s.Reconciles t) (fqdn : String) :
    (s.tick reloadSecs t).pollWorkers.lookup fqdn =
      (t.devices.lookup fqdn).map fun device => (s.pollWorkers.lookup fqdn).getD ⟨device, true⟩ := by
  unfold Supervisor.tick
  rw [if_pos h.1]
  dsimp only
  rw [if_pos h.2]
  show (s.resume.reconcile t.devices).pollWorkers.lookup fqdn = _
  rw [lookup_reconcile, pollWorkers_resume]

theorem Supervisor.pollWorkers_tick_of_enabled (h : ¬s.Reconciles t) (henabled : t.enabled = true) :
    (s.tick reloadSecs t).pollWorkers = s.pollWorkers := by
  have hnot : ¬s.resume.ticksSinceReload = 0 := fun hzero => h ⟨henabled, hzero⟩
  unfold Supervisor.tick
  rw [if_pos henabled]
  dsimp only
  rw [if_neg hnot]
  exact pollWorkers_resume

/-- A turn that reconciles leaves the workers as the database has the devices, exactly
when it goes well. -/
theorem Supervisor.reconciled_iff (reloadSecs : Nat) (hwf : s.Wf) (h : s.Reconciles t) :
    (∀ fqdn, ((s.tick reloadSecs t).polling fqdn).map (fun worker => worker.device.snmpCommunity) =
      ((deviceRow t.db fqdn).map Device.snmpCommunity).toList) ↔
    (t.Lists ∨ t.db.monitoredDevices = []) ∧ s.SameCommunities t.db := by
  simp only [hwf.tick.polling_eq, lookup_tick_of_reconciles h]
  by_cases hlists : t.Lists
  · simp only [lookup_devices_of_lists hlists, hlists, true_or, true_and]
    refine forall_congr' fun fqdn => ?_
    cases hrow : deviceRow t.db fqdn with
    | none => simp
    | some device => cases hworker : s.pollWorkers.lookup fqdn <;> simp [Device.toPoll]
  · simp only [lookup_devices_of_not_lists hlists, hlists, false_or]
    constructor
    · intro hnone
      have hrows : ∀ fqdn, deviceRow t.db fqdn = none := fun fqdn => by simpa using (hnone fqdn).symm
      refine ⟨deviceRow_eq_none_iff.mp hrows, fun fqdn worker device _ hrow => ?_⟩
      rw [hrows fqdn] at hrow
      cases hrow
    · intro ⟨hnil, _⟩ fqdn
      rw [deviceRow_eq_none_iff.mpr hnil fqdn]
      rfl

theorem World.reconciled_tick_iff (hwf : w.supervisor.Wf) (h : w.Reconciled) :
    (w.tick reloadSecs t).Reconciled ↔ w.Steady t := by
  unfold World.Steady World.Reconciled World.tick
  dsimp only
  by_cases hrec : w.supervisor.Reconciles t
  · rw [if_pos hrec, ← Supervisor.reconciled_iff reloadSecs hwf hrec]
    exact ⟨fun hall _ => hall t.db rfl, fun hall db hdb => by cases hdb; exact hall hrec⟩
  · rw [if_neg hrec]
    refine ⟨fun _ hnow => absurd hnow hrec, fun _ db hdb fqdn => ?_⟩
    cases henabled : t.enabled with
    | false => simp [henabled] at hdb
    | true =>
      rw [henabled, if_pos rfl] at hdb
      rw [hwf.tick.polling_eq, Supervisor.pollWorkers_tick_of_enabled hrec henabled, ← hwf.polling_eq]
      exact h db hdb fqdn

end

/-- **The workers of a run**: over any turns of the loop, whatever the database, the
master switch and the threads do between them, the workers are as the database had the
devices at each reconciliation exactly when every reconciliation goes well. -/
theorem workers_reconciled_iff (reloadSecs : Nat) (ticks : List Tick) :
    Runs.Allowed (World.tick reloadSecs) World.Steady World.start ticks ↔
      ∀ pre, pre <+: ticks → (pre.foldl (World.tick reloadSecs) World.start).Reconciled :=
  Runs.allowed_iff World.Reconciled (fun w => w.supervisor.Wf) (fun _ _ hwf => hwf.tick)
    (fun _ _ hwf h => World.reconciled_tick_iff hwf h) Supervisor.wf_start fun _ hdb => nomatch hdb

/-! ## A community that changes -/

/-- A switch with the community. -/
def switchRow (community : String) : Device :=
  ⟨1, "sw", "lan", some community, none, none, none, none, none⟩

/-- A turn that lists the one switch. -/
def listing (community : String) : Tick := ⟨true, ⟨[switchRow community], []⟩, true, true, fun _ => false⟩

/-- **A rotated community**: the switch is listed at every turn, and the worker that was
started before the change keeps the old one. -/
theorem rotated_community_ignored :
    let w := [listing "old", listing "new"].foldl (World.tick 1) World.start
    w.reconciled = some ⟨[switchRow "new"], []⟩ ∧
      (w.supervisor.polling "sw.lan").map (fun worker => worker.device.snmpCommunity) = [some "old"] ∧
      ¬w.Reconciled := by
  have hpolling : ((([listing "old", listing "new"].foldl (World.tick 1) World.start).supervisor.polling "sw.lan").map
      fun worker => worker.device.snmpCommunity) = [some "old"] := by
    decide +kernel
  refine ⟨rfl, hpolling, fun h => ?_⟩
  have hnew := h _ rfl "sw.lan"
  rw [hpolling] at hnew
  exact absurd hnew (by decide +kernel)

end JaspyNexus.Collectors.Poller
