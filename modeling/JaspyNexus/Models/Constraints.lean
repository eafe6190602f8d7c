import Mathlib
import JaspyNexus.Models.Calls

/-! # Keys and references

What the schema asks of the tables: row ids are unique and given once, and every
reference leads to a row. Every statement keeps it, whether it succeeds or not. -/

namespace JaspyNexus.Models
namespace Store

/-- **The schema's constraints**, `PRIMARY KEY AUTOINCREMENT` and `REFERENCES`. -/
structure Constrained (store : Store) : Prop where
  deviceIds : (store.devices.map Device.id).Nodup
  interfaceIds : (store.interfaces.map Interface.id).Nodup
  locationIds : (store.clientLocations.map ClientLocation.id).Nodup
  infoIds : (store.weathermapInfos.map WeathermapDeviceInfo.id).Nodup
  /-- the next ids are above all that are there -/
  deviceSeq : ∀ row ∈ store.devices, row.id < store.deviceSeq
  interfaceSeq : ∀ row ∈ store.interfaces, row.id < store.interfaceSeq
  refs : ∀ row ∈ store.interfaces, store.interfaceRefs row = true
  locationRefs : ∀ row ∈ store.clientLocations, store.hasDevice row.deviceId = true
  infoRefs : ∀ row ∈ store.weathermapInfos, store.hasDevice row.deviceId = true

section
variable {store store' : Store}

theorem hasInterface_iff {id : Int} :
    store.hasInterface id = true ↔ id ∈ store.interfaces.map Interface.id := by
  simp [hasInterface]

theorem hasDevice_iff {id : Int} : store.hasDevice id = true ↔ id ∈ store.devices.map Device.id := by
  simp [hasDevice]

theorem interfaceRefs_iff {row : Interface} :
    store.interfaceRefs row = true ↔
      (∀ id, row.connectedInterface = some id → store.hasInterface id = true) ∧
      (∀ id, row.virtualConnection = some id → store.hasInterface id = true) ∧
      store.hasDevice row.deviceId = true := by
  simp [interfaceRefs, Option.all_eq_true, and_assoc]

/-- More rows, more references. -/
theorem interfaceRefs_mono {row : Interface} (h : store.interfaceRefs row = true)
    (hi : ∀ id, store.hasInterface id = true → store'.hasInterface id = true)
    (hd : ∀ id, store.hasDevice id = true → store'.hasDevice id = true) :
    store'.interfaceRefs row = true := by
  obtain ⟨hc, hv, hdev⟩ := interfaceRefs_iff.mp h
  exact interfaceRefs_iff.mpr ⟨fun id h => hi id (hc id h), fun id h => hi id (hv id h), hd _ hdev⟩

theorem interfaceReferenced_eq_false {id : Int} :
    store.interfaceReferenced id = false ↔ ∀ row ∈ store.interfaces, row.id ≠ id →
      row.connectedInterface ≠ some id ∧ row.virtualConnection ≠ some id := by
  simp [interfaceReferenced]

theorem deviceReferenced_eq_false {id : Int} :
    store.deviceReferenced id = false ↔ (∀ row ∈ store.interfaces, row.deviceId ≠ id) ∧
      (∀ row ∈ store.clientLocations, row.deviceId ≠ id) ∧
      ∀ row ∈ store.weathermapInfos, row.deviceId ≠ id := by
  simp [deviceReferenced, and_assoc]

/-- A row written in place of that of its id leaves the ids. -/
theorem map_id_writeInterface (written : Interface) :
    (store.writeInterface written).interfaces.map Interface.id = store.interfaces.map Interface.id := by
  rw [writeInterface, List.map_map]
  refine List.map_congr_left fun row _ => ?_
  dsimp only [Function.comp_apply]
  split
  · next h => exact h.symm
  · rfl

theorem hasInterface_writeInterface (written : Interface) (id : Int) :
    (store.writeInterface written).hasInterface id = store.hasInterface id := by
  rw [Bool.eq_iff_iff, hasInterface_iff, hasInterface_iff, map_id_writeInterface]

/-- A row is the only one of its id. -/
theorem Constrained.eq_of_id (h : store.Constrained) {a b : Interface} (ha : a ∈ store.interfaces)
    (hb : b ∈ store.interfaces) (hid : a.id = b.id) : a = b :=
  List.inj_on_of_nodup_map h.interfaceIds ha hb hid

theorem Constrained.writeInterface (h : store.Constrained) {written : Interface}
    (hrefs : store.hasInterface written.id = true → store.interfaceRefs written = true) :
    (store.writeInterface written).Constrained := by
  have hkeep : ∀ row, store.interfaceRefs row = true →
      (store.writeInterface written).interfaceRefs row = true := fun row hrow =>
    interfaceRefs_mono hrow (fun id hid => (hasInterface_writeInterface written id).trans hid)
      fun _ => id
  refine ⟨h.deviceIds, ?_, h.locationIds, h.infoIds, h.deviceSeq, fun row hrow => ?_,
    fun row hrow => hkeep row ?_, h.locationRefs, h.infoRefs⟩
  · rw [map_id_writeInterface]
    exact h.interfaceIds
  all_goals
    obtain ⟨old, hold, rfl⟩ := List.mem_map.mp hrow
    split
  · next hid => exact hid ▸ h.interfaceSeq old hold
  · exact h.interfaceSeq old hold
  · next hid => exact hrefs (hasInterface_iff.mpr (hid ▸ List.mem_map_of_mem hold))
  · exact h.refs old hold

theorem Constrained.deleteInterface (h : store.Constrained) {id : Int}
    (hfree : store.interfaceReferenced id = false) : (store.deleteInterface id).Constrained := by
  refine ⟨h.deviceIds, h.interfaceIds.sublist (List.filter_sublist.map _), h.locationIds, h.infoIds,
    h.deviceSeq, fun row hrow => h.interfaceSeq row (List.mem_of_mem_filter hrow), fun row hrow => ?_,
    h.locationRefs, h.infoRefs⟩
  obtain ⟨hrow, hid⟩ := List.mem_filter.mp hrow
  obtain ⟨hc, hv, hdev⟩ := interfaceRefs_iff.mp (h.refs row hrow)
  obtain ⟨hc', hv'⟩ := interfaceReferenced_eq_false.mp hfree row hrow (by simpa using hid)
  -- what another row refers to is not the row that goes
  have hstay : ∀ i, i ≠ id → store.hasInterface i = true →
      (store.deleteInterface id).hasInterface i = true := by
    intro i hi hhas
    obtain ⟨far, hfar, rfl⟩ := List.mem_map.mp (hasInterface_iff.mp hhas)
    exact hasInterface_iff.mpr (List.mem_map_of_mem (List.mem_filter.mpr ⟨hfar, by simpa using hi⟩))
  exact interfaceRefs_iff.mpr ⟨fun i hi => hstay i (fun h => hc' (h ▸ hi)) (hc i hi),
    fun i hi => hstay i (fun h => hv' (h ▸ hi)) (hv i hi), hdev⟩

theorem Constrained.createInterface (h : store.Constrained) {new : NewInterface}
    (hdev : store.hasDevice new.deviceId = true) : (store.createInterface new).Constrained := by
  have hfresh : store.interfaceSeq ∉ store.interfaces.map Interface.id := fun hmem => by
    obtain ⟨row, hrow, hid⟩ := List.mem_map.mp hmem
    exact absurd (h.interfaceSeq row hrow) (by omega)
  refine ⟨h.deviceIds, ?_, h.locationIds, h.infoIds, h.deviceSeq, fun row hrow => ?_,
    fun row hrow => ?_, h.locationRefs, h.infoRefs⟩
  · dsimp only [Store.createInterface]
    rw [List.map_append, List.nodup_append]
    refine ⟨h.interfaceIds, List.nodup_singleton _, fun a ha b hb hab => ?_⟩
    rw [List.map_singleton, List.mem_singleton] at hb
    exact hfresh (by rw [hab, hb] at ha; exact ha)
  · dsimp only [Store.createInterface] at hrow ⊢
    rcases List.mem_append.mp hrow with hrow | hrow
    · exact (h.interfaceSeq row hrow).trans (by omega)
    · rw [List.mem_singleton.mp hrow]
      dsimp only [NewInterface.row]
      omega
  · rcases List.mem_append.mp hrow with hrow | hrow
    · refine interfaceRefs_mono (h.refs row hrow) (fun i hi => hasInterface_iff.mpr ?_) fun _ => id
      rw [Store.createInterface, List.map_append]
      exact List.mem_append_left _ (hasInterface_iff.mp hi)
    · rw [List.mem_singleton.mp hrow]
      exact interfaceRefs_iff.mpr ⟨(fun _ h => nomatch h), (fun _ h => nomatch h), hdev⟩

theorem Constrained.createDevice (h : store.Constrained) (new : NewDevice) :
    (store.createDevice new).Constrained := by
  have hfresh : store.deviceSeq ∉ store.devices.map Device.id := fun hmem => by
    obtain ⟨row, hrow, hid⟩ := List.mem_map.mp hmem
    exact absurd (h.deviceSeq row hrow) (by omega)
  have hhas : ∀ i, store.hasDevice i = true → (store.createDevice new).hasDevice i = true := by
    intro i hi
    rw [hasDevice_iff, Store.createDevice, List.map_append]
    exact List.mem_append_left _ (hasDevice_iff.mp hi)
  refine ⟨?_, h.interfaceIds, h.locationIds, h.infoIds, fun row hrow => ?_, h.interfaceSeq,
    fun row hrow => interfaceRefs_mono (h.refs row hrow) (fun _ => id) hhas,
    fun row hrow => hhas _ (h.locationRefs row hrow), fun row hrow => hhas _ (h.infoRefs row hrow)⟩
  · dsimp only [Store.createDevice]
    rw [List.map_append, List.nodup_append]
    refine ⟨h.deviceIds, List.nodup_singleton _, fun a ha b hb hab => ?_⟩
    rw [List.map_singleton, List.mem_singleton] at hb
    exact hfresh (by rw [hab, hb] at ha; exact ha)
  · dsimp only [Store.createDevice] at hrow ⊢
    rcases List.mem_append.mp hrow with hrow | hrow
    · exact (h.deviceSeq row hrow).trans (by omega)
    · rw [List.mem_singleton.mp hrow]
      dsimp only [NewDevice.row]
      omega

/-- Devices that keep their ids, in place of those that are there. -/
theorem Constrained.devices (h : store.Constrained) {devices : List Device}
    (hids : devices.map Device.id = store.devices.map Device.id) :
    Constrained { store with devices := devices } := by
  have hhas : ∀ i, store.hasDevice i = true → hasDevice { store with devices := devices } i = true := by
    intro i hi
    rw [hasDevice_iff] at hi ⊢
    exact hids ▸ hi
  refine ⟨hids ▸ h.deviceIds, h.interfaceIds, h.locationIds, h.infoIds, fun row hrow => ?_,
    h.interfaceSeq, fun row hrow => interfaceRefs_mono (h.refs row hrow) (fun _ => id) hhas,
    fun row hrow => hhas _ (h.locationRefs row hrow), fun row hrow => hhas _ (h.infoRefs row hrow)⟩
  obtain ⟨old, hold, hid⟩ := List.mem_map.mp (hids ▸ List.mem_map_of_mem (f := Device.id) hrow)
  exact hid ▸ h.deviceSeq old hold

theorem Constrained.deleteDevice (h : store.Constrained) {id : Int}
    (hfree : store.deviceReferenced id = false) :
    Constrained { store with devices := store.devices.filter fun row => row.id ≠ id } := by
  obtain ⟨hi, hl, hw⟩ := deviceReferenced_eq_false.mp hfree
  have hstay : ∀ i, i ≠ id → store.hasDevice i = true →
      hasDevice { store with devices := store.devices.filter fun row => row.id ≠ id } i = true := by
    intro i hne hhas
    obtain ⟨far, hfar, rfl⟩ := List.mem_map.mp (hasDevice_iff.mp hhas)
    exact hasDevice_iff.mpr (List.mem_map_of_mem (List.mem_filter.mpr ⟨hfar, by simpa using hne⟩))
  refine ⟨h.deviceIds.sublist (List.filter_sublist.map _), h.interfaceIds, h.locationIds, h.infoIds,
    fun row hrow => h.deviceSeq row (List.mem_of_mem_filter hrow), h.interfaceSeq, fun row hrow => ?_,
    fun row hrow => hstay _ (hl row hrow) (h.locationRefs row hrow),
    fun row hrow => hstay _ (hw row hrow) (h.infoRefs row hrow)⟩
  obtain ⟨hc, hv, hdev⟩ := interfaceRefs_iff.mp (h.refs row hrow)
  exact interfaceRefs_iff.mpr ⟨hc, hv, hstay _ (hi row hrow) hdev⟩

end
end Store

/-- **Every statement keeps the schema's constraints.** -/
theorem Call.exec_constrained {β : Type} (c : Call β) (answer : Answer) {store : Store}
    (h : store.Constrained) : (Call.exec β c answer store).1.Constrained := by
  cases c with
  | findDevice | interfacesOf | interfaceById | interfaceByName | interfacesAt | weathermapInfosOf
  | clientLocationsOf => exact h
  | createDevice new =>
    dsimp only [Call.exec]
    split
    · exact h.createDevice new
    · exact h
  | updateDevice device =>
    dsimp only [Call.exec]
    split
    · refine h.devices ?_
      rw [List.map_map]
      refine List.map_congr_left fun row _ => ?_
      dsimp only [Function.comp_apply]
      split
      · next hid => exact hid.symm
      · rfl
    · exact h
  | deleteDevice id =>
    dsimp only [Call.exec]
    split
    · next hok =>
      simp only [Bool.and_eq_true, Bool.or_eq_true, Bool.not_eq_true'] at hok
      rcases hok.2 with hnone | hfree
      · refine h.devices (congrArg _ (List.filter_eq_self.mpr fun row hrow => ?_))
        have := Store.hasDevice_iff.not.mp (by simpa using hnone)
        exact decide_eq_true fun hid => this (hid ▸ List.mem_map_of_mem hrow)
      · exact h.deleteDevice hfree
    · exact h
  | createInterface new =>
    dsimp only [Call.exec]
    split
    · next hok => exact h.createInterface (Bool.and_eq_true_iff.mp hok).2
    · exact h
  | updateInterface snapshot change =>
    dsimp only [Call.exec]
    split
    · next hok =>
      simp only [Bool.and_eq_true, Bool.or_eq_true, Bool.not_eq_true'] at hok
      refine h.writeInterface fun hhas => hok.2.resolve_left fun hno => ?_
      rw [InterfaceChange.apply_id, hno] at hhas
      cases hhas
    · exact h
  | deleteInterface id =>
    dsimp only [Call.exec]
    split
    · next hok =>
      simp only [Bool.and_eq_true, Bool.or_eq_true, Bool.not_eq_true'] at hok
      rcases hok.2 with hnone | hfree
      · have hself : store.deleteInterface id = store := by
          have := Store.hasInterface_iff.not.mp (by simpa using hnone)
          have hrows : store.interfaces.filter (fun row => row.id ≠ id) = store.interfaces :=
            List.filter_eq_self.mpr fun row hrow =>
              decide_eq_true fun hid => this (hid ▸ List.mem_map_of_mem hrow)
          rw [Store.deleteInterface, hrows]
        rw [hself]
        exact h
      · exact h.deleteInterface hfree
    · exact h
  | deleteWeathermapInfo id =>
    dsimp only [Call.exec]
    split
    · exact ⟨h.deviceIds, h.interfaceIds, h.locationIds, h.infoIds.sublist (List.filter_sublist.map _),
        h.deviceSeq, h.interfaceSeq, h.refs, h.locationRefs,
        fun row hrow => h.infoRefs row (List.mem_of_mem_filter hrow)⟩
    · exact h
  | deleteClientLocation id =>
    dsimp only [Call.exec]
    split
    · exact ⟨h.deviceIds, h.interfaceIds, h.locationIds.sublist (List.filter_sublist.map _), h.infoIds,
        h.deviceSeq, h.interfaceSeq, h.refs, fun row hrow => h.locationRefs row (List.mem_of_mem_filter hrow),
        h.infoRefs⟩
    · exact h
  | publish | invalidateWeathermap =>
    dsimp only [Call.exec]
    split
    · exact ⟨h.deviceIds, h.interfaceIds, h.locationIds, h.infoIds, h.deviceSeq, h.interfaceSeq, h.refs,
        h.locationRefs, h.infoRefs⟩
    · exact h

end JaspyNexus.Models
