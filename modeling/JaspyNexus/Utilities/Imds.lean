import Mathlib
import JaspyNexus.Models.Metrics
import JaspyNexus.Utilities.Health
import JaspyNexus.Utilities.Stp

/-! # The in-memory data store

`IMDS` of `utilities/imds.rs`: the metrics of every monitored device and the
health history of its interfaces, with the operations that the database refresh,
the pollers, the trap receiver and the pinger call. An operation gets the clock
as `now`, and what it reads from the database as an argument. A report returns
the events it publishes. -/

namespace JaspyNexus.Utilities
open JaspyNexus.Lib JaspyNexus.Models JaspyNexus.Utilities.Health

structure Imds where
  devices : PMap String DeviceMetrics
  health : HealthStore

def Imds.empty : Imds := ⟨PMap.empty, PMap.empty⟩

/-- The entry of an interface. -/
def Imds.interface? (imds : Imds) (fqdn : String) (ifIndex : Int) : Option InterfaceMetrics :=
  (imds.devices fqdn).bind fun device => device.interfaces ifIndex

/-- Replace the entry of a device's interface. -/
def Imds.setInterface (imds : Imds) (fqdn : String) (device : DeviceMetrics) (ifIndex : Int)
    (m : InterfaceMetrics) : Imds :=
  { imds with
    devices := PMap.insert imds.devices fqdn
      { device with interfaces := PMap.insert device.interfaces ifIndex m } }

/-! ## Refresh -/

/-- `retain_devices`. -/
def Imds.retainDevices (imds : Imds) (keep : String → Bool) : Imds where
  devices := PMap.retain imds.devices keep
  health := imds.health.retainDevices keep

/-- `retain_interfaces`. -/
def Imds.retainInterfaces (imds : Imds) (fqdn : String) (keep : Int → Bool) : Imds where
  devices := match imds.devices fqdn with
    | some device => PMap.insert imds.devices fqdn
        { device with interfaces := PMap.retain device.interfaces keep }
    | none => imds.devices
  health := imds.health.retainInterfaces fqdn keep

/-- A base MAC as it is stored: normalized, and known only when not empty. -/
def knownMac (baseMac : Option String) : Option String :=
  (baseMac.map Stp.normalizeMac).filter fun m => m ≠ ""

/-- The chassis behind the device was replaced: another MAC is known. -/
def Imds.swapped (device : DeviceMetrics) (baseMac : Option String) : Bool :=
  match knownMac baseMac, device.baseMac with
  | some new, some old => old ≠ new
  | _, _ => false

def newDevice (fqdn : String) (baseMac : Option String) : DeviceMetrics where
  fqdn := fqdn
  hostname := Stp.hostname fqdn
  baseMac := baseMac
  up := none
  lastReport := 0
  lastPoll := 0
  interfaces := PMap.empty

/-- `refresh_device`. -/
def Imds.refreshDevice (imds : Imds) (fqdn : String) (baseMac : Option String) (now : Nat) : Imds :=
  match imds.devices fqdn with
  | none => { imds with devices := PMap.insert imds.devices fqdn (newDevice fqdn (knownMac baseMac)) }
  | some device =>
    let known := { device with lastReport := now, baseMac := (knownMac baseMac).or device.baseMac }
    if Imds.swapped device baseMac then
      { devices := PMap.insert imds.devices fqdn
          { known with
            interfaces := PMap.mapValues device.interfaces InterfaceMetrics.resetCounters }
        health := imds.health.forgetDeviceInterfaces fqdn }
    else { imds with devices := PMap.insert imds.devices fqdn known }

def newInterface (interfaceType name : String) (neighbors : Bool) (speedOverride : Option Int) :
    InterfaceMetrics where
  name := name
  neighbors := neighbors
  interfaceType := interfaceType
  lastReport := 0
  speedOverride := speedOverride
  counters := fun _ => none
  up := none
  speed := none
  adminUp := none
  errDisabled := false
  errDisableCause := none
  errDisableRecoverSecs := none
  counterViolations := 0

/-- `refresh_interface`: an entry that is there takes the name in place. -/
def Imds.refreshInterface (imds : Imds) (fqdn : String) (ifIndex : Int)
    (interfaceType name : String) (neighbors : Bool) (speedOverride : Option Int) : Imds :=
  match imds.devices fqdn with
  | none => imds
  | some device =>
    match device.interfaces ifIndex with
    | some m => imds.setInterface fqdn device ifIndex
        { m with name := name, neighbors := neighbors, speedOverride := speedOverride }
    | none => imds.setInterface fqdn device ifIndex
        (newInterface interfaceType name neighbors speedOverride)

/-! ## Device reports -/

/-- `report_device`; `neighbors` is what the database gives for the device's
neighbours, if it is there. -/
def Imds.reportDevice (imds : Imds) (neighbors : Option (List String))
    (report : DeviceMonitorReport) (now : Nat) : Imds × List Event :=
  let device := PMap.getD imds.devices report.fqdn (newDevice report.fqdn none)
  let events := match device.up, neighbors with
    | some old, some neighbors =>
      if old ≠ report.up then [.pingChange report.fqdn neighbors old report.up] else []
    | _, _ => []
  ({ imds with
      devices := PMap.insert imds.devices report.fqdn
        { device with lastReport := now, up := some report.up } }, events)

/-! ## Interface reports -/

/-- `validate_u64_forward_progress`: a counter may only go back by a wrap. -/
def forwardProgress (old new : Option Nat) : Bool :=
  match old, new with
  | some old, some new => old ≤ new || !(old - new < 2147483647)
  | _, _ => true

/-- `validate_counters`: the verdict and the new violation count. -/
def validateCounters (m : InterfaceMetrics) (r : InterfaceReport) : Bool × Nat :=
  if 10 ≤ m.counterViolations then (true, 0)
  else if Counter.all.all fun c => forwardProgress (m.counters c) (r.counters c) then (true, 0)
  else (false, m.counterViolations + 1)

/-- `counter_delta`. -/
def counterDelta (old new : Option Nat) : Nat :=
  match old, new with
  | some old, some new => new - old
  | _, _ => 0

@[simp] theorem counterDelta_none_left (new : Option Nat) : counterDelta none new = 0 := rfl
@[simp] theorem counterDelta_none_right (old : Option Nat) : counterDelta old none = 0 := by
  cases old <;> rfl

/-- The up/down state entered, when the report changes it. -/
def upTransition (m : InterfaceMetrics) (r : InterfaceReport) : Option Bool :=
  match m.up, r.up with
  | some old, some new => if old ≠ new then some new else none
  | _, _ => none

/-- The speeds left and entered, when the report changes it. -/
def speedChange (m : InterfaceMetrics) (r : InterfaceReport) : Option (Option Int × Int) :=
  match m.speed, r.speed with
  | some old, some new => if old ≠ new then some (some old, new) else none
  | _, _ => none

/-- What an accepted report leaves of the entry: it overwrites what it carries. -/
def applyReport (m : InterfaceMetrics) (r : InterfaceReport) (now : Nat) : InterfaceMetrics :=
  { m with
    lastReport := now
    counters := fun c => (r.counters c).or (m.counters c)
    up := r.up.or m.up
    speed := r.speed.or m.speed
    adminUp := r.adminUp.or m.adminUp
    errDisabled := r.errDisabled.getD m.errDisabled
    errDisableCause := match r.errDisabled with
      | some true => r.errDisableCause
      | some false => none
      | none => m.errDisableCause
    errDisableRecoverSecs := match r.errDisabled with
      | some true => r.errDisableRecoverSecs
      | some false => none
      | none => m.errDisableRecoverSecs
    counterViolations := 0 }

/-- What an accepted report hands to the health store. -/
def sampleInput (m : InterfaceMetrics) (r : InterfaceReport) (now : Nat) : SampleInput where
  inErrors := counterDelta (m.counters .inErrors) (r.counters .inErrors)
  outErrors := counterDelta (m.counters .outErrors) (r.counters .outErrors)
  outDiscards := counterDelta (m.counters .outDiscards) (r.counters .outDiscards)
  inOctets := counterDelta (m.counters .inOctets) (r.counters .inOctets)
  outOctets := counterDelta (m.counters .outOctets) (r.counters .outOctets)
  intervalMs := if 0 < m.lastReport then now - m.lastReport else 0
  upTransition := upTransition m r
  speedChange := speedChange m r
  speedMbps := m.speedOverride.or (r.speed.or m.speed)

/-- The far end of a reported interface, as `ConnectionPair` loads it: its names,
and the indexes of the reporting device's interfaces linked to the same device. -/
structure RemoteInfo where
  neighbor : Neighbor
  linkIndexes : List Int

/-- What a whole report is read against: the database's far ends, the interfaces
before the report, and the up/down states it carries. -/
structure ReportContext where
  remote : Int → Option RemoteInfo
  snapshot : PMap Int InterfaceMetrics
  reportUps : PMap Int (Option Bool)

/-- `lag_link_statuses`, by name: the report's state wins over the snapshot's. -/
def lagLinkStatuses (ctx : ReportContext) (remote : Option RemoteInfo) : List (String × String) :=
  ((remote.map RemoteInfo.linkIndexes).getD []).foldl (fun statuses index =>
    match ctx.snapshot index with
    | none => statuses
    | some m =>
      let up := (ctx.reportUps index).join.or m.up
      let status := match up with
        | some true => "up"
        | some false => "down"
        | none => "unknown"
      statuses.filter (fun e => e.1 ≠ m.name) ++ [(m.name, status)]) []

/-- The events of an accepted report. -/
def reportEvents (fqdn : String) (ctx : ReportContext) (m : InterfaceMetrics)
    (r : InterfaceReport) : List Event :=
  let remote := ctx.remote r.ifIndex
  let neighbor := remote.map RemoteInfo.neighbor
  let upDown := match m.up, r.up with
    | some old, some new =>
      if old ≠ new then
        [.interfaceUpDown fqdn m.name neighbor (lagLinkStatuses ctx remote) old new]
      else []
    | _, _ => []
  let speed := match m.speed, r.speed with
    | some old, some new =>
      if old ≠ new then [.interfaceSpeed fqdn m.name neighbor old new] else []
    | _, _ => []
  upDown ++ speed

/-- The entry an interface report is accepted for: it is there, was last reported
before `now`, and its counters make progress. -/
def Imds.accepting (imds : Imds) (fqdn : String) (r : InterfaceReport) (now : Nat) :
    Option InterfaceMetrics :=
  (imds.interface? fqdn r.ifIndex).filter fun m =>
    m.lastReport < now && (validateCounters m r).1

/-- One interface of `report_interfaces`. -/
def Imds.reportInterface (cfg : HealthConfig) (fqdn : String) (ctx : ReportContext) (now : Nat)
    (imds : Imds) (r : InterfaceReport) : Imds × List Event :=
  match imds.devices fqdn with
  | none => (imds, [])
  | some device =>
    match device.interfaces r.ifIndex with
    | none => (imds, [])
    | some m =>
      if now ≤ m.lastReport then (imds, [])
      else
        match validateCounters m r with
        | (false, violations) =>
          (imds.setInterface fqdn device r.ifIndex { m with counterViolations := violations }, [])
        | (true, _) =>
          ({ imds.setInterface fqdn device r.ifIndex (applyReport m r now) with
              health := imds.health.ingest cfg fqdn r.ifIndex (sampleInput m r now) now },
            reportEvents fqdn ctx m r)

/-- The context of a report. -/
def reportContext (remote : Int → Option RemoteInfo) (device : DeviceMetrics)
    (imr : InterfaceMonitorReport) : ReportContext where
  remote := remote
  snapshot := device.interfaces
  reportUps := imr.interfaces.foldl (fun ups r => PMap.insert ups r.ifIndex r.up) PMap.empty

/-- The time of the device's last poll. -/
def Imds.setLastPoll (imds : Imds) (fqdn : String) (device : DeviceMetrics) (now : Nat) : Imds :=
  { imds with devices := PMap.insert imds.devices fqdn { device with lastPoll := now } }

/-- `report_interfaces`. -/
def Imds.reportInterfaces (cfg : HealthConfig) (imds : Imds) (remote : Int → Option RemoteInfo)
    (imr : InterfaceMonitorReport) (now : Nat) : Imds × List Event :=
  match imds.devices imr.deviceFqdn with
  | none => (imds, [])
  | some device =>
    imr.interfaces.foldl (fun st r =>
      let out := st.1.reportInterface cfg imr.deviceFqdn (reportContext remote device imr) now r
      (out.1, st.2 ++ out.2)) (imds.setLastPoll imr.deviceFqdn device now, [])

/-! ## What an operation does to one interface -/

section Frame
variable (imds : Imds) (fqdn f : String) (i : Int)

theorem interface?_setInterface {device : DeviceMetrics} (hd : imds.devices fqdn = some device)
    (ifIndex : Int) (m : InterfaceMetrics) :
    (imds.setInterface fqdn device ifIndex m).interface? f i =
      if f = fqdn ∧ i = ifIndex then some m else imds.interface? f i := by
  unfold Imds.setInterface Imds.interface?
  by_cases hf : f = fqdn
  · subst hf
    simp only [PMap.insert_self, Option.bind_some, PMap.insert_apply, hd, true_and]
  · simp [hf]

/-- Replacing a device's other fields leaves its interfaces. -/
theorem interface?_insert {device device' : DeviceMetrics} {health : HealthStore}
    (hd : imds.devices fqdn = some device) (hi : device'.interfaces = device.interfaces) :
    Imds.interface? ⟨PMap.insert imds.devices fqdn device', health⟩ f i = imds.interface? f i := by
  unfold Imds.interface?
  by_cases hf : f = fqdn
  · subst hf; simp [hd, hi]
  · simp [hf]

/-- The time of a poll is none of its interfaces'. -/
theorem interface?_setLastPoll {device : DeviceMetrics} (hd : imds.devices fqdn = some device) (now : Nat) :
    (imds.setLastPoll fqdn device now).interface? f i = imds.interface? f i :=
  interface?_insert imds fqdn f i hd rfl

/-- A new device has no interfaces. -/
theorem interface?_insert_new {device : DeviceMetrics} {health : HealthStore}
    (hd : imds.devices fqdn = none) (hi : device.interfaces = PMap.empty) :
    Imds.interface? ⟨PMap.insert imds.devices fqdn device, health⟩ f i = imds.interface? f i := by
  unfold Imds.interface?
  by_cases hf : f = fqdn
  · subst hf; simp [hd, hi]
  · simp [hf]

theorem interface?_retainDevices (keep : String → Bool) :
    (imds.retainDevices keep).interface? f i =
      if keep f then imds.interface? f i else none := by
  unfold Imds.retainDevices Imds.interface?
  simp only [PMap.retain_apply]
  split <;> rfl

theorem interface?_retainInterfaces (keep : Int → Bool) :
    (imds.retainInterfaces fqdn keep).interface? f i =
      if f = fqdn ∧ keep i = false then none else imds.interface? f i := by
  unfold Imds.retainInterfaces Imds.interface?
  cases hd : imds.devices fqdn with
  | none =>
    by_cases hf : f = fqdn
    · subst hf; simp [hd]
    · simp [hf]
  | some device =>
    by_cases hf : f = fqdn
    · subst hf
      cases hk : keep i <;> simp [hd, hk]
    · simp [hf]

/-- `report_device` leaves the interfaces. -/
theorem interface?_reportDevice (neighbors : Option (List String)) (report : DeviceMonitorReport)
    (now : Nat) : (imds.reportDevice neighbors report now).1.interface? f i =
      imds.interface? f i := by
  unfold Imds.reportDevice
  cases hd : imds.devices report.fqdn with
  | none => exact interface?_insert_new imds report.fqdn f i hd (by simp [PMap.getD, hd, newDevice])
  | some device => exact interface?_insert imds report.fqdn f i hd (by simp [PMap.getD, hd])

/-- Where the chassis stays, nothing is swapped. -/
theorem not_swapped {baseMac : Option String}
    (hkeep : ∀ device, imds.devices fqdn = some device → Imds.swapped device baseMac = false) :
    ¬(f = fqdn ∧ (imds.devices f).any (Imds.swapped · baseMac) = true) := by
  intro ⟨hf, hany⟩
  obtain ⟨device, hd, hs⟩ := (Option.any_eq_true _ _).mp hany
  rw [hkeep device (hf ▸ hd)] at hs
  cases hs

/-- **What `refresh_device` does**: nothing to the interfaces, unless the chassis
was replaced; then every interface of the device starts over. -/
theorem refreshDevice_cases (baseMac : Option String) (now : Nat) :
    ((∀ f i, (imds.refreshDevice fqdn baseMac now).interface? f i = imds.interface? f i) ∧
      (imds.refreshDevice fqdn baseMac now).health = imds.health ∧
      ∀ device, imds.devices fqdn = some device → Imds.swapped device baseMac = false) ∨
    (∃ device, imds.devices fqdn = some device ∧ Imds.swapped device baseMac = true ∧
      (∀ f i, (imds.refreshDevice fqdn baseMac now).interface? f i =
        if f = fqdn then (imds.interface? f i).map InterfaceMetrics.resetCounters
        else imds.interface? f i) ∧
      (imds.refreshDevice fqdn baseMac now).health = imds.health.forgetDeviceInterfaces fqdn) := by
  unfold Imds.refreshDevice
  cases hd : imds.devices fqdn with
  | none =>
    refine .inl ⟨fun f i => ?_, rfl, fun device h => by cases h⟩
    exact interface?_insert_new imds fqdn f i hd rfl
  | some device =>
    dsimp only
    cases hs : Imds.swapped device baseMac with
    | false =>
      refine .inl ⟨fun f i => ?_, rfl, fun device' h => by cases h; exact hs⟩
      exact interface?_insert imds fqdn f i hd rfl
    | true =>
      refine .inr ⟨device, rfl, hs, fun f i => ?_, rfl⟩
      rw [if_pos rfl]
      unfold Imds.interface?
      by_cases hf : f = fqdn
      · subst hf; simp [hd]
      · simp [hf]

/-- What it does to one interface. -/
theorem interface?_refreshDevice (baseMac : Option String) (now : Nat) :
    (imds.refreshDevice fqdn baseMac now).interface? f i =
      if f = fqdn ∧ (imds.devices f).any (Imds.swapped · baseMac) = true then
        (imds.interface? f i).map InterfaceMetrics.resetCounters
      else imds.interface? f i := by
  rcases refreshDevice_cases imds fqdn baseMac now with ⟨hentry, -, hkeep⟩ | ⟨device, hd, hs, hentry, -⟩
  · rw [hentry, if_neg (not_swapped imds fqdn f hkeep)]
  · rw [hentry]
    by_cases hf : f = fqdn
    · rw [if_pos hf, if_pos ⟨hf, by rw [hf, hd]; exact hs⟩]
    · rw [if_neg hf, if_neg fun hc => hf hc.1]

/-- What it does to the history of one. -/
theorem health_refreshDevice (baseMac : Option String) (now : Nat) :
    (imds.refreshDevice fqdn baseMac now).health.at? f i =
      if f = fqdn ∧ (imds.devices f).any (Imds.swapped · baseMac) = true then none
      else imds.health.at? f i := by
  rcases refreshDevice_cases imds fqdn baseMac now with ⟨-, hhealth, hkeep⟩ | ⟨device, hd, hs, -, hhealth⟩
  · rw [hhealth, if_neg (not_swapped imds fqdn f hkeep)]
  · rw [hhealth, HealthStore.at?_forget]
    by_cases hf : f = fqdn
    · rw [if_pos hf, if_pos ⟨hf, by rw [hf, hd]; exact hs⟩]
    · rw [if_neg hf, if_neg fun hc => hf hc.1]

/-- **What `refresh_interface` does**: it makes the entry, or renames it in place. -/
theorem refreshInterface_cases (ifIndex : Int) (interfaceType name : String) (neighbors : Bool)
    (speedOverride : Option Int) :
    (imds.refreshInterface fqdn ifIndex interfaceType name neighbors speedOverride = imds ∧
      imds.interface? fqdn ifIndex = none) ∨
    ((imds.refreshInterface fqdn ifIndex interfaceType name neighbors speedOverride).health =
      imds.health ∧ ∃ m', (∀ f i,
        (imds.refreshInterface fqdn ifIndex interfaceType name neighbors speedOverride).interface?
          f i = if f = fqdn ∧ i = ifIndex then some m' else imds.interface? f i) ∧
      ((imds.interface? fqdn ifIndex = none ∧
          m' = newInterface interfaceType name neighbors speedOverride) ∨
        ∃ m, imds.interface? fqdn ifIndex = some m ∧ m' =
          { m with name := name, neighbors := neighbors, speedOverride := speedOverride })) := by
  unfold Imds.refreshInterface
  cases hd : imds.devices fqdn with
  | none => exact .inl ⟨rfl, by simp [Imds.interface?, hd]⟩
  | some device =>
    have hentry : imds.interface? fqdn ifIndex = device.interfaces ifIndex := by
      simp [Imds.interface?, hd]
    rw [hentry]
    dsimp only
    cases hm : device.interfaces ifIndex with
    | none =>
      exact .inr ⟨rfl, _, fun f i => interface?_setInterface imds fqdn f i hd ifIndex _,
        .inl ⟨rfl, rfl⟩⟩
    | some m =>
      exact .inr ⟨rfl, _, fun f i => interface?_setInterface imds fqdn f i hd ifIndex _,
        .inr ⟨m, rfl, rfl⟩⟩

/-- **What one interface's report does**: it is accepted and applied, or it only
counts a violation, or it is skipped. -/
theorem reportInterface_cases (cfg : HealthConfig) (ctx : ReportContext) (now : Nat)
    (r : InterfaceReport) :
    (∃ m, imds.accepting fqdn r now = some m ∧ imds.interface? fqdn r.ifIndex = some m ∧
      m.lastReport < now ∧
      (∀ f i, (imds.reportInterface cfg fqdn ctx now r).1.interface? f i =
        if f = fqdn ∧ i = r.ifIndex then some (applyReport m r now) else imds.interface? f i) ∧
      (imds.reportInterface cfg fqdn ctx now r).1.health =
        imds.health.ingest cfg fqdn r.ifIndex (sampleInput m r now) now ∧
      (imds.reportInterface cfg fqdn ctx now r).2 = reportEvents fqdn ctx m r) ∨
    (imds.accepting fqdn r now = none ∧ (imds.reportInterface cfg fqdn ctx now r).2 = [] ∧
      (imds.reportInterface cfg fqdn ctx now r).1.health = imds.health ∧
      ((∀ f i, (imds.reportInterface cfg fqdn ctx now r).1.interface? f i =
          imds.interface? f i) ∨
        ∃ m violations, imds.interface? fqdn r.ifIndex = some m ∧
          ∀ f i, (imds.reportInterface cfg fqdn ctx now r).1.interface? f i =
            if f = fqdn ∧ i = r.ifIndex then some { m with counterViolations := violations }
            else imds.interface? f i)) := by
  unfold Imds.reportInterface Imds.accepting
  cases hd : imds.devices fqdn with
  | none =>
    have hentry : imds.interface? fqdn r.ifIndex = none := by simp [Imds.interface?, hd]
    exact .inr ⟨by rw [hentry]; rfl, rfl, rfl, .inl fun _ _ => rfl⟩
  | some device =>
    have hentry : imds.interface? fqdn r.ifIndex = device.interfaces r.ifIndex := by
      simp [Imds.interface?, hd]
    rw [hentry]
    dsimp only
    cases hm : device.interfaces r.ifIndex with
    | none => exact .inr ⟨rfl, rfl, rfl, .inl fun _ _ => rfl⟩
    | some m =>
      dsimp only
      by_cases hlast : now ≤ m.lastReport
      · rw [if_pos hlast]
        refine .inr ⟨?_, rfl, rfl, .inl fun _ _ => rfl⟩
        simp [Option.filter, not_lt.mpr hlast]
      · rw [if_neg hlast]
        cases hv : validateCounters m r with
        | mk verdict violations =>
          cases verdict with
          | false =>
            refine .inr ⟨?_, rfl, rfl, .inr ⟨m, violations, rfl, fun f i => ?_⟩⟩
            · simp [Option.filter, hv]
            · exact interface?_setInterface imds fqdn f i hd _ _
          | true =>
            refine .inl ⟨m, ?_, rfl, not_le.mp hlast, fun f i => ?_, rfl, rfl⟩
            · simp [Option.filter, hv, not_le.mp hlast]
            · exact interface?_setInterface imds fqdn f i hd _ _

end Frame

end JaspyNexus.Utilities
