import Mathlib
import JaspyNexus.Lib.Runs
import JaspyNexus.Utilities.ImdsRefresh
import JaspyNexus.Collectors.Pinger

/-! # What the pinger has settled, and what the store shows

The shard workers of `pinger.rs`, the refresh of `main.rs` and the database they
all read, one locked step after another in any order. A worker reports a state
only when it enters it. A report that fails is not made again, and an entry that
a refresh makes anew has no state. -/

namespace JaspyNexus.Collectors.Pinger
open JaspyNexus.Lib JaspyNexus.Models JaspyNexus.Utilities

/-! ## The worker -/

/-- Where a worker is in its loop. -/
inductive Phase where
  | idle
  /-- `reconcile_accounting`, with the devices still to look up -/
  | seeding (shard todo : List String)
  /-- the reports still to make -/
  | reporting (reports : List (String × Bool))
  deriving DecidableEq, Repr

structure Worker where
  accounting : Accounting
  phase : Phase

/-- The reports that the running tick has still to make. -/
def Worker.pending (w : Worker) : List (String × Bool) :=
  match w.phase with
  | .reporting reports => reports
  | _ => []

/-- `load_device_fqdns`. -/
def loadDeviceFqdns (db : Database) (answers : Answers) : List String :=
  if answers.pool then ((Device.monitored db answers.monitored).map Device.fqdn).dedup else []

/-- The devices of a worker, in the order the hash map gives them. -/
def shardFqdns (shardOf : String → Nat) (k : Nat) (db : Database) (answers : Answers)
    (order : String → Nat) : List String :=
  ((loadDeviceFqdns db answers).filter fun fqdn => shardOf fqdn = k).insertionSort
    fun f g => order f ≤ order g

/-- One device of `reconcile_accounting`: a newcomer starts from the state shown. -/
def seedDevice (imds : Imds) (lock : Bool) (accounting : Accounting) (fqdn : String) : Accounting :=
  match accounting fqdn with
  | some _ => accounting
  | none => PMap.insert accounting fqdn
    { responsive := if lock then (imds.devices fqdn).bind DeviceMetrics.up else none
      hysteresisResponsive := 0
      hysteresisUnresponsive := 0 }

inductive WorkerTurn where
  /-- the master switch is off at the start of a tick -/
  | pause
  | load (answers : Answers) (order : String → Nat)
  | seed (lock : Bool)
  | ping (round : Round)
  /-- one `report_up` -/
  | report (pool lock : Bool) (neighbors : Option (List String)) (now : Nat)
  | finish

/-- One step of `ping_shard_worker`; a turn that the worker is not at does nothing. -/
def Worker.step (shardOf : String → Nat) (k : Nat) (db : Database) (imds : Imds) (w : Worker)
    (turn : WorkerTurn) : Imds × Worker :=
  match w.phase, turn with
  | .idle, .pause => (imds, { w with accounting := PMap.empty })
  | .idle, .load answers order =>
    let shard := shardFqdns shardOf k db answers order
    (imds, ⟨PMap.retain w.accounting fun fqdn => fqdn ∈ shard, .seeding shard shard⟩)
  | .seeding shard (fqdn :: todo), .seed lock =>
    (imds, ⟨seedDevice imds lock w.accounting fqdn, .seeding shard todo⟩)
  | .seeding shard [], .ping round =>
    match round.responded shard with
    | some responded =>
      let out := advanceShard w.accounting shard responded
      (imds, ⟨out.1, .reporting out.2⟩)
    -- a round that was not sent leaves the accounting
    | none => (imds, { w with phase := .idle })
  | .reporting ((fqdn, up) :: reports), .report pool lock neighbors now =>
    (if pool && lock then (imds.reportDevice neighbors ⟨fqdn, up⟩ now).1 else imds,
      { w with phase := .reporting reports })
  | .reporting [], .finish => (imds, { w with phase := .idle })
  | _, _ => (imds, w)

/-! ## The whole -/

structure System where
  db : Database
  /-- the monitored devices that a refresh has read and not yet applied -/
  reading : Option (List Device)
  imds : Imds
  worker : Nat → Worker

def System.start (db : Database) : System where
  db := db
  reading := none
  imds := Imds.empty
  worker := fun _ => ⟨PMap.empty, .idle⟩

inductive Turn where
  /-- the database is another, with devices removed, added or renamed -/
  | edit (db : Database)
  /-- a refresh reads the monitored devices -/
  | readDevices (answers : Answers)
  /-- it has read `rows` of their interfaces and does the rest under the lock -/
  | applyRefresh (rows : Device → List Interface) (lock : Bool) (now : Nat)
  /-- a poller or the trap receiver reports interfaces -/
  | interfaces (cfg : Health.HealthConfig) (remote : Int → Option RemoteInfo)
      (imr : InterfaceMonitorReport) (now : Nat)
  | worker (k : Nat) (turn : WorkerTurn)

def System.step (shardOf : String → Nat) (s : System) : Turn → System
  | .edit db => { s with db := db }
  | .readDevices answers =>
    match s.reading with
    | some _ => s
    | none =>
      if answers.pool then { s with reading := some (Device.monitored s.db answers.monitored) }
      else s
  | .applyRefresh rows lock now =>
    match s.reading with
    | none => s
    | some devices =>
      { s with
        reading := none
        imds := if lock then s.imds.applyRefresh devices rows now else s.imds }
  | .interfaces cfg remote imr now =>
    { s with imds := (s.imds.reportInterfaces cfg remote imr now).1 }
  | .worker k turn =>
    let out := (s.worker k).step shardOf k s.db s.imds turn
    { s with imds := out.1, worker := Function.update s.worker k out.2 }

/-! ## Agreement -/

/-- The accounting holds the device in the state, and the tick that set it has
made its report. -/
def Worker.Settled (w : Worker) (f : String) (b : Bool) : Prop :=
  ∃ info, w.accounting f = some info ∧ info.responsive = some b ∧ (f, b) ∉ w.pending

/-- The device's entry, if it has one, shows the state. -/
def Shows (imds : Imds) (f : String) (b : Bool) : Prop :=
  ∀ entry, imds.devices f = some entry → entry.up = some b

/-- **Agreement**: what a worker has settled about a monitored device is shown. -/
def System.Agrees (s : System) : Prop :=
  ∀ k f b, s.db.Monitors f → (s.worker k).Settled f b → Shows s.imds f b

/-- **When a worker loses nothing**: a report that fails has nothing to say of a
monitored device that its entry does not show. -/
def Worker.Lossless (db : Database) (imds : Imds) (w : Worker) : WorkerTurn → Prop
  | .report pool lock _ _ => (pool && lock) = false → ∀ f b reports,
      w.phase = .reporting ((f, b) :: reports) → db.Monitors f → Shows imds f b
  | _ => True

/-- **When a turn loses nothing**: no report is lost, a refresh makes no entry for
a monitored device that is settled, and a device that comes back to the database
is shown as it is settled. -/
def System.Lossless (s : System) : Turn → Prop
  | .edit db => ∀ k f b, db.Monitors f → ¬s.db.Monitors f → (s.worker k).Settled f b →
      Shows s.imds f b
  | .applyRefresh _ lock _ => lock = true → ∀ devices, s.reading = some devices →
      ∀ device ∈ devices, s.db.Monitors device.fqdn → s.imds.devices device.fqdn = none →
      ∀ k b, ¬(s.worker k).Settled device.fqdn b
  | .worker k turn => (s.worker k).Lossless s.db s.imds turn
  | _ => True

/-- What a worker's accounting is: of its own devices, with one report pending at
most for each, of the state it holds. -/
structure WorkerOk (shardOf : String → Nat) (k : Nat) (w : Worker) : Prop where
  owned : ∀ f info, w.accounting f = some info → shardOf f = k
  shard : ∀ shard todo, w.phase = .seeding shard todo →
    shard.Nodup ∧ (∀ f ∈ shard, shardOf f = k) ∧ ∀ f ∈ todo, f ∈ shard
  pending : ∀ f b, (f, b) ∈ w.pending → ∃ info, w.accounting f = some info ∧ info.responsive = some b
  distinct : (w.pending.map Prod.fst).Nodup

/-! ## What the store's operations do to a device's state -/

/-- Whether the state is shown depends on the entry's state only. -/
theorem shows_congr {imds out : Imds} {f : String}
    (h : (out.devices f).map DeviceMetrics.up = (imds.devices f).map DeviceMetrics.up) (b : Bool) :
    Shows out f b ↔ Shows imds f b := by
  have hiff : ∀ imds : Imds, Shows imds f b ↔
      ∀ up, (imds.devices f).map DeviceMetrics.up = some up → up = some b := fun imds => by
    unfold Shows
    cases imds.devices f with
    | none => simp
    | some entry => simp
  rw [hiff, hiff, h]

theorem reportDevice_shows (imds : Imds) (neighbors : Option (List String)) (f : String) (b : Bool)
    (now : Nat) : Shows (imds.reportDevice neighbors ⟨f, b⟩ now).1 f b := by
  intro entry hentry
  rw [show (imds.reportDevice neighbors ⟨f, b⟩ now).1.devices f = some _ from
    PMap.insert_self ..] at hentry
  cases hentry
  rfl

theorem reportDevice_other (imds : Imds) (neighbors : Option (List String)) {f fqdn : String}
    (b : Bool) (now : Nat) (hne : f ≠ fqdn) :
    (imds.reportDevice neighbors ⟨fqdn, b⟩ now).1.devices f = imds.devices f :=
  PMap.insert_of_ne _ _ hne

theorem reportInterface_up (cfg : Health.HealthConfig) (fqdn : String) (ctx : ReportContext)
    (now : Nat) (imds : Imds) (r : InterfaceReport) (f : String) :
    ((imds.reportInterface cfg fqdn ctx now r).1.devices f).map DeviceMetrics.up =
      (imds.devices f).map DeviceMetrics.up := by
  unfold Imds.reportInterface
  cases hd : imds.devices fqdn with
  | none => rfl
  | some device =>
    have hset : ∀ m, ((imds.setInterface fqdn device r.ifIndex m).devices f).map DeviceMetrics.up =
        (imds.devices f).map DeviceMetrics.up := by
      intro m
      unfold Imds.setInterface
      dsimp only
      rw [PMap.insert_apply]
      split
      · next hf => rw [hf, hd]; rfl
      · rfl
    dsimp only
    split
    · rfl
    · split
      · rfl
      · split
        · exact hset _
        · exact hset _

theorem reportInterfaces_up (cfg : Health.HealthConfig) (imds : Imds)
    (remote : Int → Option RemoteInfo) (imr : InterfaceMonitorReport) (now : Nat) (f : String) :
    ((imds.reportInterfaces cfg remote imr now).1.devices f).map DeviceMetrics.up =
      (imds.devices f).map DeviceMetrics.up := by
  unfold Imds.reportInterfaces
  cases hd : imds.devices imr.deviceFqdn with
  | none => rfl
  | some device =>
    dsimp only
    refine List.foldlRecOn (motive := fun st : Imds × List Event =>
      (st.1.devices f).map DeviceMetrics.up = (imds.devices f).map DeviceMetrics.up) _ _ ?_
      fun st h r _ => (reportInterface_up ..).trans h
    unfold Imds.setLastPoll
    dsimp only
    rw [PMap.insert_apply]
    split
    · next hf => rw [hf, hd]; rfl
    · rfl

/-! ## The worker's step -/

theorem shardFqdns_nodup (shardOf : String → Nat) (k : Nat) (db : Database) (answers : Answers)
    (order : String → Nat) : (shardFqdns shardOf k db answers order).Nodup := by
  unfold shardFqdns loadDeviceFqdns
  rw [(List.perm_insertionSort ..).nodup_iff]
  refine List.Nodup.filter _ ?_
  split
  · exact List.nodup_dedup _
  · exact List.nodup_nil

theorem mem_shardFqdns {shardOf : String → Nat} {k : Nat} {db : Database} {answers : Answers}
    {order : String → Nat} {f : String} (h : f ∈ shardFqdns shardOf k db answers order) :
    shardOf f = k := by
  unfold shardFqdns at h
  rw [List.mem_insertionSort, List.mem_filter] at h
  simpa using h.2

section Worker
variable {shardOf : String → Nat} {k : Nat} {db : Database} {imds : Imds} {w : Worker}

/-- A seeded device is new, and holds no state or the one shown. -/
theorem seedDevice_cases {lock : Bool} {accounting : Accounting} {f fqdn : String}
    {info : PingAccountingInfo} (h : seedDevice imds lock accounting fqdn f = some info) :
    accounting f = some info ∨
      (f = fqdn ∧ ∀ b, info.responsive = some b → (imds.devices f).bind DeviceMetrics.up = some b) := by
  unfold seedDevice at h
  cases hseen : accounting fqdn with
  | some _ => rw [hseen] at h; exact .inl h
  | none =>
    rw [hseen] at h
    dsimp only at h
    rw [PMap.insert_apply] at h
    split at h
    · next hf =>
      cases h
      refine .inr ⟨hf, fun b hb => ?_⟩
      cases lock with
      | false => cases hb
      | true => rw [hf]; exact hb
    · exact .inl h

/-- What is pending about a device is what the accounting holds of it. -/
theorem WorkerOk.pending_eq (hw : WorkerOk shardOf k w) {f : String} {b : Bool}
    (h : (f, b) ∈ w.pending) {info : PingAccountingInfo} (hinfo : w.accounting f = some info) :
    info.responsive = some b := by
  obtain ⟨info', hinfo', hb⟩ := hw.pending f b h
  rw [hinfo] at hinfo'
  cases hinfo'
  exact hb

theorem step_workerOk (hw : WorkerOk shardOf k w) (turn : WorkerTurn) :
    WorkerOk shardOf k (w.step shardOf k db imds turn).2 := by
  unfold Worker.step
  split
  · exact ⟨by simp, by simp_all, by simp_all [Worker.pending], by simp_all [Worker.pending]⟩
  · next answers order hphase =>
    refine ⟨fun f info hf => ?_, fun shard todo hs => ?_, by simp [Worker.pending],
      by simp [Worker.pending]⟩
    · dsimp only at hf
      rw [PMap.retain_apply] at hf
      split at hf
      · exact hw.owned f info hf
      · cases hf
    · cases hs
      exact ⟨shardFqdns_nodup .., fun f hf => mem_shardFqdns hf, fun f hf => hf⟩
  · next shard fqdn todo lock hphase =>
    obtain ⟨hnd, hown, htodo⟩ := hw.shard _ _ hphase
    refine ⟨fun f info hf => ?_, fun shard' todo' hs => ?_, by simp [Worker.pending],
      by simp [Worker.pending]⟩
    · rcases seedDevice_cases hf with h | ⟨rfl, -⟩
      · exact hw.owned f info h
      · exact hown f (htodo f (by simp))
    · cases hs
      exact ⟨hnd, hown, fun f hf => htodo f (by simp [hf])⟩
  · next shard round hphase =>
    obtain ⟨hnd, hown, -⟩ := hw.shard _ _ hphase
    split
    · next responded hround =>
      have hadv := advanceShard_advanced w.accounting hnd responded
      refine ⟨fun f info hf => ?_, by simp, hadv.entered, hnd.sublist hadv.sublist⟩
      obtain ⟨old, hold, -⟩ := hadv.kept f info hf
      exact hw.owned f old hold
    · exact ⟨hw.owned, by simp, by simp [Worker.pending], by simp [Worker.pending]⟩
  · next fqdn up reports pool lock neighbors now hphase =>
    have hpending := hw.pending
    have hdistinct := hw.distinct
    unfold Worker.pending at hpending hdistinct
    rw [hphase] at hpending hdistinct
    exact ⟨hw.owned, by simp, fun f b hf => hpending f b (List.mem_cons_of_mem _ hf),
      (List.nodup_cons.mp hdistinct).2⟩
  · exact ⟨hw.owned, by simp, by simp [Worker.pending], by simp [Worker.pending]⟩
  · exact hw

/-- A worker's step shows nothing new of the devices of others. -/
theorem step_other (hw : WorkerOk shardOf k w) (turn : WorkerTurn) {f : String} (hf : shardOf f ≠ k) :
    (w.step shardOf k db imds turn).1.devices f = imds.devices f := by
  unfold Worker.step
  split
  · rfl
  · rfl
  · rfl
  · split <;> rfl
  · next fqdn up reports pool lock neighbors now hphase =>
    obtain ⟨info, hinfo, -⟩ := hw.pending fqdn up (by simp [Worker.pending, hphase])
    have hne : f ≠ fqdn := fun he => hf (he ▸ hw.owned fqdn info hinfo)
    dsimp only
    split
    · exact reportDevice_other imds neighbors up now hne
    · rfl
  · rfl
  · rfl

/-- **One step of a worker** keeps what it has settled in agreement with the store
exactly when it loses nothing. -/
theorem step_shows_iff (hw : WorkerOk shardOf k w) (turn : WorkerTurn)
    (hagrees : ∀ f b, db.Monitors f → w.Settled f b → Shows imds f b) :
    (∀ f b, db.Monitors f → (w.step shardOf k db imds turn).2.Settled f b →
      Shows (w.step shardOf k db imds turn).1 f b) ↔ w.Lossless db imds turn := by
  unfold Worker.step
  split
  · next hphase =>
    refine iff_of_true (fun f b _ hs => ?_) trivial
    obtain ⟨info, hinfo, -⟩ := hs
    cases hinfo
  · next answers order hphase =>
    refine iff_of_true (fun f b hmon hs => hagrees f b hmon ?_) trivial
    obtain ⟨info, hinfo, hb, -⟩ := hs
    dsimp only at hinfo
    rw [PMap.retain_apply] at hinfo
    split at hinfo
    · exact ⟨info, hinfo, hb, by simp [Worker.pending, hphase]⟩
    · cases hinfo
  · next shard fqdn todo lock hphase =>
    refine iff_of_true (fun f b hmon hs => ?_) trivial
    obtain ⟨info, hinfo, hb, -⟩ := hs
    rcases seedDevice_cases hinfo with hinfo | ⟨-, hup⟩
    · exact hagrees f b hmon ⟨info, hinfo, hb, by simp [Worker.pending, hphase]⟩
    · intro entry hentry
      have hshown := hup b hb
      rwa [show imds.devices f = some entry from hentry] at hshown
  · next shard round hphase =>
    refine iff_of_true (fun f b hmon hs => ?_) trivial
    have hpending : ∀ f b, (f, b) ∉ w.pending := by simp [Worker.pending, hphase]
    split at hs
    · next responded hround =>
      have hadv := advanceShard_advanced w.accounting (hw.shard _ _ hphase).1 responded
      obtain ⟨info, hinfo, hb, hdone⟩ := hs
      obtain ⟨old, hold, hsame⟩ := hadv.kept f info hinfo
      -- a device that the round reports is not settled by it yet
      have hnot : f ∉ (advanceShard w.accounting shard responded).2.map Prod.fst := by
        intro hmem
        obtain ⟨⟨f', b'⟩, hreported, rfl⟩ := List.mem_map.mp hmem
        obtain ⟨info', hinfo', hb'⟩ := hadv.entered f' b' hreported
        rw [show info' = info from Option.some.inj (hinfo'.symm.trans hinfo), hb] at hb'
        cases hb'
        exact hdone hreported
      exact hagrees f b hmon ⟨old, hold, (hsame hnot).symm.trans hb, hpending f b⟩
    · next hround =>
      obtain ⟨info, hinfo, hb, -⟩ := hs
      exact hagrees f b hmon ⟨info, hinfo, hb, hpending f b⟩
  · next fqdn up reports pool lock neighbors now hphase =>
    have hpending : w.pending = (fqdn, up) :: reports := by simp [Worker.pending, hphase]
    obtain ⟨info, hinfo, hup⟩ := hw.pending fqdn up (by simp [hpending])
    have hdistinct := hw.distinct
    rw [hpending, List.map_cons, List.nodup_cons] at hdistinct
    have hdone : (fqdn, up) ∉ reports := fun hmem => hdistinct.1 (List.mem_map.mpr ⟨_, hmem, rfl⟩)
    constructor
    · intro hnext hfail f b reports' hreports hmon
      rw [hphase] at hreports
      cases hreports
      have := hnext fqdn up hmon ⟨info, hinfo, hup, hdone⟩
      rwa [hfail] at this
    · intro hlossless f b hmon hs
      obtain ⟨info', hinfo', hb, hnot⟩ := hs
      by_cases hf : f = fqdn
      · subst hf
        obtain rfl : b = up := by
          rw [hw.pending_eq (b := up) (by simp [hpending]) hinfo'] at hb
          exact (Option.some.inj hb).symm
        dsimp only
        split
        · exact reportDevice_shows imds neighbors f b now
        · next hfail => exact hlossless (by simpa using hfail) f b reports hphase hmon
      · have hshown : Shows imds f b := hagrees f b hmon ⟨info', hinfo', hb, by
          rw [hpending]
          exact fun hmem => (List.mem_cons.mp hmem).elim (fun he => hf (Prod.ext_iff.mp he).1) hnot⟩
        dsimp only
        split
        · unfold Shows
          rw [reportDevice_other imds neighbors up now hf]
          exact hshown
        · exact hshown
  · next hphase =>
    refine iff_of_true (fun f b hmon hs => hagrees f b hmon ?_) trivial
    obtain ⟨info, hinfo, hb, -⟩ := hs
    exact ⟨info, hinfo, hb, by simp [Worker.pending, hphase]⟩
  · next hreport _ =>
    refine iff_of_true hagrees ?_
    unfold Worker.Lossless
    split
    · intro _ f b reports hphase
      exact (hreport f b reports _ _ _ _ hphase rfl).elim
    · trivial

end Worker

/-! ## Runs -/

section System
variable {shardOf : String → Nat} {s : System}

def System.Wf (shardOf : String → Nat) (s : System) : Prop := ∀ k, WorkerOk shardOf k (s.worker k)

theorem start_wf (shardOf : String → Nat) (db : Database) : (System.start db).Wf shardOf :=
  fun _ => ⟨(fun _ _ h => by cases h), (fun _ _ h => by cases h), (fun _ _ h => by cases h),
    List.nodup_nil⟩

theorem start_agrees (db : Database) : (System.start db).Agrees :=
  fun _ _ _ _ _ _ h => by cases h

theorem step_wf (s : System) (turn : Turn) (hs : s.Wf shardOf) : (s.step shardOf turn).Wf shardOf := by
  intro j
  cases turn with
  | edit db => exact hs j
  | readDevices answers =>
    dsimp only [System.step]
    split
    · exact hs j
    · split <;> exact hs j
  | applyRefresh rows lock now =>
    dsimp only [System.step]
    split <;> exact hs j
  | interfaces cfg remote imr now => exact hs j
  | worker k turn =>
    dsimp only [System.step]
    by_cases hj : j = k
    · subst hj
      rw [Function.update_self]
      exact step_workerOk (hs j) turn
    · rw [Function.update_of_ne hj]
      exact hs j

/-- A refresh keeps agreement exactly when it makes no entry for a device that is
settled. -/
theorem applyRefresh_agrees_iff (hagrees : s.Agrees) {devices : List Device}
    (rows : Device → List Interface) (now : Nat) :
    (∀ k f b, s.db.Monitors f → (s.worker k).Settled f b →
      Shows (s.imds.applyRefresh devices rows now) f b) ↔
    ∀ device ∈ devices, s.db.Monitors device.fqdn → s.imds.devices device.fqdn = none →
      ∀ k b, ¬(s.worker k).Settled device.fqdn b := by
  constructor
  · intro hnext device hd hmon hnone k b hsettled
    obtain ⟨entry, hentry⟩ := Option.isSome_iff_exists.mp
      (applyRefresh_isSome rows now s.imds ⟨device, hd, rfl⟩)
    -- the entry made has no state
    have hup := (applyRefresh_up hentry).2
    rw [hnone, hnext k _ b hmon hsettled entry hentry] at hup
    cases hup
  · intro hlossless k f b hmon hsettled entry hentry
    obtain ⟨⟨device, hd, rfl⟩, hup⟩ := applyRefresh_up hentry
    rw [hup]
    cases hold : s.imds.devices device.fqdn with
    | none => exact absurd hsettled (hlossless device hd hmon hold k b)
    | some old => exact hagrees k _ b hmon hsettled old hold

/-- **One turn** keeps agreement exactly when it loses nothing. -/
theorem step_agrees_iff (turn : Turn) (hs : s.Wf shardOf) (hagrees : s.Agrees) :
    (s.step shardOf turn).Agrees ↔ s.Lossless turn := by
  cases turn with
  | edit db =>
    refine ⟨fun hnext k f b hmon _ hsettled => hnext k f b hmon hsettled,
      fun hlossless k f b hmon hsettled => ?_⟩
    by_cases hbefore : s.db.Monitors f
    · exact hagrees k f b hbefore hsettled
    · exact hlossless k f b hmon hbefore hsettled
  | readDevices answers =>
    refine iff_of_true ?_ trivial
    dsimp only [System.step]
    split
    · exact hagrees
    · split <;> exact hagrees
  | applyRefresh rows lock now =>
    dsimp only [System.step, System.Lossless]
    cases hreading : s.reading with
    | none => exact iff_of_true hagrees fun _ devices h => by cases h
    | some devices =>
      cases lock with
      | false => exact iff_of_true hagrees fun h => by cases h
      | true =>
        refine (applyRefresh_agrees_iff hagrees rows now).trans ⟨fun h _ _ he => ?_, fun h => ?_⟩
        · cases he
          exact h
        · exact h rfl devices rfl
  | interfaces cfg remote imr now =>
    refine iff_of_true (fun k f b hmon hsettled => ?_) trivial
    exact (shows_congr (reportInterfaces_up cfg s.imds remote imr now f) b).mpr
      (hagrees k f b hmon hsettled)
  | worker k turn =>
    refine Iff.trans ⟨fun hnext f b hmon hsettled => ?_, fun hown j f b hmon hsettled => ?_⟩
      (step_shows_iff (hs k) turn fun f b => hagrees k f b)
    · refine hnext k f b hmon ?_
      dsimp only [System.step]
      rwa [Function.update_self]
    · dsimp only [System.step] at hsettled ⊢
      by_cases hj : j = k
      · subst hj
        rw [Function.update_self] at hsettled
        exact hown f b hmon hsettled
      · rw [Function.update_of_ne hj] at hsettled
        have hshown := hagrees j f b hmon hsettled
        -- the device is the other worker's
        obtain ⟨info, hinfo, -⟩ := hsettled
        have hne : shardOf f ≠ k := fun he => hj (((hs j).owned f info hinfo).symm.trans he)
        unfold Shows
        rw [step_other (hs k) turn hne]
        exact hshown

/-- **What is settled is shown**, throughout a run, exactly when no turn of it loses
anything. -/
theorem run_agrees_iff (shardOf : String → Nat) (db : Database) (turns : List Turn) :
    Runs.Allowed (System.step shardOf) System.Lossless (System.start db) turns ↔
      ∀ pre, pre <+: turns → (pre.foldl (System.step shardOf) (System.start db)).Agrees :=
  Runs.allowed_iff _ _ step_wf (fun _ turn hs hagrees => step_agrees_iff turn hs hagrees)
    (start_wf shardOf db) (start_agrees db)

/-- One monitored device. -/
def oneSwitch : Database where
  devices := [⟨1, "sw1", "lan", none, none, none, none, none, none⟩]
  interfaces := []

/-- A first observation whose report finds no connection, and one more round. -/
def lostReport : List Turn :=
  let up : Round := ⟨fun _ => some "10.0.0.1", some [⟨"10.0.0.1", true⟩]⟩
  let answers : Answers := ⟨true, true, fun _ => true⟩
  [.readDevices answers, .applyRefresh (fun _ => []) true 1000,
    .worker 0 (.load answers fun _ => 0), .worker 0 (.seed true), .worker 0 (.ping up),
    .worker 0 (.report false true none 2000), .worker 0 .finish,
    .worker 0 (.load answers fun _ => 0), .worker 0 (.seed true), .worker 0 (.ping up),
    .worker 0 .finish]

/-- The device answers every ping, the pinger holds it responsive and its tick is
over, and the entry has no state. -/
theorem lostReport_not_shown :
    let s := lostReport.foldl (System.step fun _ => 0) (System.start oneSwitch)
    s.db.Monitors "sw1.lan" ∧ (s.worker 0).phase = .idle ∧ (s.worker 0).Settled "sw1.lan" true ∧
    (s.imds.devices "sw1.lan").map DeviceMetrics.up = some none ∧ ¬s.Agrees := by
  intro s
  have hmon : s.db.Monitors "sw1.lan" := 
    ⟨⟨1, "sw1", "lan", none, none, none, none, none, none⟩, by decide +kernel, by decide +kernel⟩
  have hsettled : (s.worker 0).Settled "sw1.lan" true :=
    ⟨⟨some true, 0, 0⟩, by decide +kernel, rfl, by decide +kernel⟩
  have hup : (s.imds.devices "sw1.lan").map DeviceMetrics.up = some none := by decide +kernel
  refine ⟨hmon, by decide +kernel, hsettled, hup, fun hagrees => ?_⟩
  obtain ⟨entry, hentry, hnone⟩ := Option.map_eq_some_iff.mp hup
  have hshown := hagrees 0 "sw1.lan" true hmon hsettled entry hentry
  rw [hnone] at hshown
  cases hshown

end System

end JaspyNexus.Collectors.Pinger
