import Mathlib
import JaspyNexus.Lib.Runs
import JaspyNexus.Utilities.ImdsRefresh
import JaspyNexus.Collectors.PollKeeps

/-! # What a cycle drops

The cycles of `vlanpoller.rs` and `lagpoller.rs` begin by dropping the devices
that were not loaded. Like the refresh, they cannot tell a database that answers
with nothing from one that does not answer, and a device without a community is
not loaded either. -/

namespace JaspyNexus.Collectors.Retention
open JaspyNexus.Lib JaspyNexus.Models JaspyNexus.Utilities

/-- `VlanDevice` and `LagDevice`. -/
structure PolledDevice where
  fqdn : String
  community : String
  vendor : Vendor
  deriving DecidableEq, Repr

/-- The device a row is polled as, when it has a community. -/
def polledDevice (device : Device) : Option PolledDevice :=
  device.snmpCommunity.map fun community =>
    ⟨device.fqdn, community, vendorHint device.osInfo device.deviceType⟩

/-- `load_devices` of both collectors. -/
def loadDevices (db : Database) (answers : Answers) : List PolledDevice :=
  if answers.pool then (Device.monitored db answers.monitored).filterMap polledDevice else []

/-- One cycle: drop what was not loaded, then store the polls that answered, in
the order they finish. -/
def cycle {Output : Type} (db : Database) (answers : Answers) (lock : Bool)
    (polled : List (PolledDevice × Output)) (store : PMap String Output) : PMap String Output :=
  if lock then
    (polled.filter fun e => e.1 ∈ loadDevices db answers).foldl
      (fun store e => PMap.insert store e.1.fqdn e.2)
      (PMap.retain store fun fqdn => (loadDevices db answers).any fun device => device.fqdn = fqdn)
  else store

/-- The cycle of `vlanpoller::run`. -/
def vlanCycle (db : Database) (answers : Answers) (lock : Bool)
    (polled : List (PolledDevice × Vlanpoller.DeviceVlans)) (store : Vlanpoller.VlanStore) :
    Vlanpoller.VlanStore := cycle db answers lock polled store

/-- The cycle of `lagpoller::run`. -/
def lagCycle (db : Database) (answers : Answers) (lock : Bool)
    (polled : List (PolledDevice × Lagpoller.DeviceLags)) (store : Lagpoller.LagStore) :
    Lagpoller.LagStore := cycle db answers lock polled store

section Cycle
variable {Output : Type} (db : Database) (answers : Answers) (lock : Bool)
  (polled : List (PolledDevice × Output)) (store : PMap String Output)

/-- **A cycle loses nothing**: it drops only what the database, asked and
answering, does not monitor; without its answer it leaves the store as it was. -/
structure CycleKeeps (before after : PMap String Output) : Prop where
  devices : ∀ f, (before f).isSome = true → after f = none →
    answers.pool = true ∧ answers.monitored = true ∧ ¬db.Monitors f
  unasked : answers.pool = false ∨ answers.monitored = false → after = before

/-- **When it does not**: it has nothing stored, or it gets the list of devices
and every stored device that is monitored has a row with a community. -/
def CycleSafe (store : PMap String Output) : Prop :=
  lock = true → store = PMap.empty ∨
    (answers.pool = true ∧ answers.monitored = true ∧ ∀ f, (store f).isSome = true → db.Monitors f →
      ∃ device ∈ db.monitoredDevices, device.fqdn = f ∧ device.snmpCommunity.isSome = true)

theorem cycle_isSome_of_loaded {f : String} (hstored : (store f).isSome = true)
    (hloaded : ∃ device ∈ loadDevices db answers, device.fqdn = f) :
    (cycle db answers lock polled store f).isSome = true := by
  unfold cycle
  cases lock with
  | false => exact hstored
  | true =>
    rw [if_pos rfl]
    refine Runs.foldl_inv (fun store : PMap String Output => (store f).isSome = true)
      (fun store e h => ?_) _ ?_
    · rw [PMap.insert_apply]
      split
      · rfl
      · exact h
    · obtain ⟨device, hd, hf⟩ := hloaded
      rw [PMap.retain_apply, if_pos (List.any_eq_true.mpr ⟨device, hd, by simpa using hf⟩)]
      exact hstored

theorem cycle_none_of_unloaded {f : String} (hlock : lock = true)
    (hunloaded : ¬∃ device ∈ loadDevices db answers, device.fqdn = f) :
    cycle db answers lock polled store f = none := by
  subst hlock
  unfold cycle
  rw [if_pos rfl]
  have hdropped : PMap.retain store (fun fqdn =>
      (loadDevices db answers).any fun device => device.fqdn = fqdn) f = none := by
    rw [PMap.retain_apply, if_neg]
    simpa using hunloaded
  -- no poll is of a device that was not loaded
  have hpolled : ∀ e ∈ polled.filter fun e => e.1 ∈ loadDevices db answers, e.1.fqdn ≠ f := by
    intro e he hf
    exact hunloaded ⟨e.1, by simpa using (List.mem_filter.mp he).2, hf⟩
  refine List.foldlRecOn (motive := fun store : PMap String Output => store f = none) _ _ hdropped
    fun store h e he => ?_
  rw [PMap.insert_of_ne _ _ (hpolled e he).symm]
  exact h

/-- Without an answer nothing is loaded. -/
theorem loadDevices_unasked (h : answers.pool = false ∨ answers.monitored = false) :
    loadDevices db answers = [] := by
  unfold loadDevices Device.monitored
  rcases h with h | h
  · rw [h]; rfl
  · rw [h]; cases answers.pool <;> rfl

theorem mem_loadDevices (hpool : answers.pool = true) (hmon : answers.monitored = true) {f : String} :
    (∃ device ∈ loadDevices db answers, device.fqdn = f) ↔
      ∃ device ∈ db.monitoredDevices, device.fqdn = f ∧ device.snmpCommunity.isSome = true := by
  unfold loadDevices Device.monitored
  rw [if_pos hpool, if_pos hmon]
  constructor
  · rintro ⟨polled, hp, rfl⟩
    obtain ⟨device, hd, hpd⟩ := List.mem_filterMap.mp hp
    obtain ⟨community, hc, rfl⟩ := Option.map_eq_some_iff.mp hpd
    exact ⟨device, hd, rfl, by rw [hc]; rfl⟩
  · rintro ⟨device, hd, rfl, hc⟩
    obtain ⟨community, hc⟩ := Option.isSome_iff_exists.mp hc
    exact ⟨_, List.mem_filterMap.mpr ⟨device, hd, by rw [polledDevice, hc]; rfl⟩, rfl⟩

/-- **A cycle loses nothing exactly when it is safe.** -/
theorem cycleKeeps_iff : CycleKeeps db answers store (cycle db answers lock polled store) ↔
    CycleSafe db answers lock store := by
  by_cases hlock : lock = true
  swap
  · have hsame : cycle db answers lock polled store = store := by
      unfold cycle
      rw [if_neg hlock]
    rw [hsame]
    exact iff_of_true ⟨(fun f hb ha => by rw [ha] at hb; cases hb), fun _ => rfl⟩
      fun h => absurd h hlock
  by_cases hasked : answers.pool = true ∧ answers.monitored = true
  · obtain ⟨hpool, hmon⟩ := hasked
    have hloaded := @mem_loadDevices db answers hpool hmon
    constructor
    · refine fun h _ => .inr ⟨hpool, hmon, fun f hstored hmonitors => ?_⟩
      rw [← hloaded]
      by_contra hunloaded
      exact (h.devices f hstored (cycle_none_of_unloaded db answers lock polled store hlock
        hunloaded)).2.2 hmonitors
    · refine fun h => ⟨fun f hb ha => ⟨hpool, hmon, fun hmonitors => ?_⟩, fun hn => ?_⟩
      · rcases h hlock with rfl | ⟨-, -, hsafe⟩
        · cases hb
        · have hkept := cycle_isSome_of_loaded db answers lock polled store hb
            (hloaded.mpr (hsafe f hb hmonitors))
          rw [ha] at hkept
          cases hkept
      · rw [hpool, hmon] at hn
        simp at hn
  · have hunasked : answers.pool = false ∨ answers.monitored = false := by
      rw [not_and_or] at hasked
      exact hasked.imp (by simp) (by simp)
    have hempty : cycle db answers lock polled store = PMap.empty := by
      funext f
      refine cycle_none_of_unloaded db answers lock polled store hlock ?_
      rw [loadDevices_unasked db answers hunasked]
      simp
    rw [hempty]
    constructor
    · exact fun h _ => .inl (h.unasked hunasked).symm
    · intro h
      rcases h hlock with rfl | ⟨hpool, hmon, -⟩
      · exact ⟨(fun f hb _ => by cases hb), fun _ => rfl⟩
      · exact absurd ⟨hpool, hmon⟩ hasked

end Cycle

/-- **The refresh and both cycles** lose nothing exactly when they are safe: a
failed query wipes what it should have kept. -/
theorem cycles_keep_iff (db : Database) (answers : Answers) (lock : Bool) (now : Nat) (imds : Imds)
    (vlans : Vlanpoller.VlanStore) (lags : Lagpoller.LagStore)
    (vlanPolls : List (PolledDevice × Vlanpoller.DeviceVlans))
    (lagPolls : List (PolledDevice × Lagpoller.DeviceLags)) :
    (RefreshKeeps db answers imds (imdsRefresh db answers lock now imds) ↔
      RefreshSafe db answers lock imds) ∧
    (CycleKeeps db answers vlans (vlanCycle db answers lock vlanPolls vlans) ↔
      CycleSafe db answers lock vlans) ∧
    (CycleKeeps db answers lags (lagCycle db answers lock lagPolls lags) ↔
      CycleSafe db answers lock lags) :=
  ⟨refreshKeeps_iff db answers now imds lock, cycleKeeps_iff db answers lock vlanPolls vlans,
    cycleKeeps_iff db answers lock lagPolls lags⟩

/-! ## A failed query wipes a store -/

/-- One monitored switch with one interface. -/
def oneSwitch : Database where
  devices :=
    [{ id := 1, name := "sw1", dnsDomain := "example.com", snmpCommunity := some "public",
       baseMac := none, pollingEnabled := none, osInfo := none, deviceType := none,
       softwareVersion := none }]
  interfaces :=
    [{ id := 10, index := 1, interfaceType := "ethernetCsmacd", connectedInterface := none,
       deviceId := 1, displayName := none, name := "Gi0/1", speedOverride := none,
       virtualConnection := none, ifAlias := none, description := none, pollingEnabled := none,
       media := none, cdpDeviceId := none, cdpDevicePort := none }]

/-- The store after a refresh whose queries all succeed. -/
def refreshed : Imds := imdsRefresh oneSwitch ⟨true, true, fun _ => true⟩ true 1000 Imds.empty

def switchVlans : Vlanpoller.VlanStore := fun fqdn =>
  if fqdn = "sw1.example.com" then some ⟨∅, ∅⟩ else none

/-- **Failed queries wipe the stores**: `Device::interfaces` the interface's entry,
`Device::monitored` and the pool checkout the VLANs. -/
theorem failed_queries_wipe :
    ¬RefreshKeeps oneSwitch ⟨true, true, fun _ => false⟩ refreshed
      (imdsRefresh oneSwitch ⟨true, true, fun _ => false⟩ true 2000 refreshed) ∧
    ¬CycleKeeps oneSwitch ⟨true, false, fun _ => true⟩ switchVlans
      (vlanCycle oneSwitch ⟨true, false, fun _ => true⟩ true [] switchVlans) ∧
    ¬CycleKeeps oneSwitch ⟨false, true, fun _ => true⟩ switchVlans
      (vlanCycle oneSwitch ⟨false, true, fun _ => true⟩ true [] switchVlans) := by
  refine ⟨fun h => ?_, fun h => ?_, fun h => ?_⟩
  · have hlost := h.interfaces "sw1.example.com" 1 (by decide +kernel) (by decide +kernel)
    exact absurd (hlost.1.interfaces _ List.mem_cons_self (by decide)) (by decide)
  · have hlost := h.devices "sw1.example.com" (by decide +kernel) (by decide +kernel)
    exact absurd hlost.2.1 (by decide)
  · have hlost := h.devices "sw1.example.com" (by decide +kernel) (by decide +kernel)
    exact absurd hlost.1 (by decide)

end JaspyNexus.Collectors.Retention
