import Mathlib
import JaspyNexus.Lib.Rows
import JaspyNexus.Models.Constraints
import JaspyNexus.Routes.Devices
import JaspyNexus.Utilities.DiscoveryColumns

/-! # One row for a name

The schema does not keep names unique: a device or an interface is looked up by its
name and inserted when there is none, by every caller for itself. No write changes
the name of a row (`Rows.Known`), so only the inserts matter. They keep names distinct in a
schedule where no look-up fails over a row that is there, and nobody inserts a name
between the look-up of it and the insert (`distinct_run`). -/

namespace JaspyNexus.Utilities.Discovery
open JaspyNexus.Lib JaspyNexus.Models JaspyNexus.Routes

def deviceKey (row : Device) : String × String := (row.name, row.dnsDomain)

def interfaceKey (row : Interface) : Int × String := (row.deviceId, row.name)

/-- **The law**: no two devices of one name and domain, no two interfaces of one
device and name. -/
structure Distinct (store : Store) : Prop where
  devices : (store.devices.map deviceKey).Nodup
  interfaces : (store.interfaces.map interfaceKey).Nodup

/-- **When an insert may be made**: no row of its name is there, whatever the look-up
before it answered. -/
def InsertsNew {β : Type} (c : Call β) (answer : Answer) (store : Store) : Prop :=
  match c with
  | .createDevice new => answer.ok = true →
    ∀ row ∈ store.devices, ¬(row.name = new.name ∧ row.dnsDomain = new.dnsDomain)
  | .createInterface new => answer.ok = true → store.hasDevice new.deviceId = true →
    ∀ row ∈ store.interfaces, ¬(row.deviceId = new.deviceId ∧ row.name = new.name)
  | _ => True

/-- A call that may insert devices: `ingest_device`, or `device_create`. -/
inductive Upsert where
  | ingest (discovered : DiscoveredDevice)
  | create (submitted : NewDevice)

def Upsert.prog : Upsert → Prog Call Unit
  | .ingest discovered => ingestDevice discovered
  | .create submitted => (deviceCreate submitted).bind fun _ => .done ()

/-- Calls made at the same time. -/
def upserting (store : Store) (calls : Nat → Upsert) : Pool Call Store :=
  ⟨store, fun i => (calls i).prog⟩

/-! ## Names stay -/

abbrev KnownDevice (store : Store) (row : Device) : Prop :=
  Rows.Known Device.id deviceKey store.deviceSeq store.devices row.id (deviceKey row)

abbrev KnownInterface (store : Store) (row : Interface) : Prop :=
  Rows.Known Interface.id interfaceKey store.interfaceSeq store.interfaces row.id (interfaceKey row)

/-- The store later on: names of rows have stayed. -/
structure NamesKept (store store' : Store) : Prop where
  devices : Rows.Kept Device.id deviceKey store.deviceSeq store.devices store'.deviceSeq store'.devices
  interfaces : Rows.Kept Interface.id interfaceKey store.interfaceSeq store.interfaces
    store'.interfaceSeq store'.interfaces

/-- A row that is written back has the name that is on record. -/
def WritesKnown {β : Type} (store : Store) (c : Call β) : Prop :=
  match c with
  | .updateDevice device => KnownDevice store device
  | .updateInterface snapshot change => KnownInterface store (change.apply snapshot)
  | _ => True

theorem NamesKept.refl (store : Store) : NamesKept store store := ⟨.refl _ _, .refl _ _⟩

theorem exec_namesKept {β : Type} (c : Call β) (answer : Answer) {store : Store}
    (hc : WritesKnown store c) : NamesKept store (Call.exec β c answer store).1 := by
  cases c with
  | findDevice | interfacesOf | interfaceById | interfaceByName | interfacesAt | weathermapInfosOf
  | clientLocationsOf => exact .refl store
  | deleteWeathermapInfo | deleteClientLocation | publish | invalidateWeathermap =>
    dsimp only [Call.exec]
    split <;> exact ⟨.refl _ _, .refl _ _⟩
  | createDevice new =>
    dsimp only [Call.exec]
    split
    · exact ⟨.insert _ rfl, .refl _ _⟩
    · exact .refl store
  | updateDevice device =>
    dsimp only [Call.exec]
    split
    · exact ⟨.write hc, .refl _ _⟩
    · exact .refl store
  | deleteDevice id =>
    dsimp only [Call.exec]
    split
    · exact ⟨.delete _ _, .refl _ _⟩
    · exact .refl store
  | createInterface new =>
    dsimp only [Call.exec]
    split
    · exact ⟨.refl _ _, .insert _ rfl⟩
    · exact .refl store
  | updateInterface snapshot change =>
    dsimp only [Call.exec]
    split
    · exact ⟨.refl _ _, .write hc⟩
    · exact .refl store
  | deleteInterface id =>
    dsimp only [Call.exec]
    split
    · exact ⟨.refl _ _, .delete _ _⟩
    · exact .refl store

/-- What the calls rely on: keys and references, and names that stay. -/
def namesStay : Prog.Rely Call.exec where
  wf := Store.Constrained
  later := NamesKept
  may := WritesKnown
  refl := .refl
  trans h h' := ⟨h.devices.trans h'.devices, h.interfaces.trans h'.interfaces⟩
  may_later {_ c _ _} h hc := by
    cases c with
    | updateDevice => exact hc.later h.devices
    | updateInterface => exact hc.later h.interfaces
    | _ => trivial
  step_wf c e _ h _ := Call.exec_constrained c e h
  step_later c e _ _ hc := exec_namesKept c e hc

theorem known_device {store : Store} (h : store.Constrained) {row : Device}
    (hrow : row ∈ store.devices) : KnownDevice store row :=
  Rows.Known.of_mem h.deviceIds h.deviceSeq hrow

theorem known_interface {store : Store} (h : store.Constrained) {row : Interface}
    (hrow : row ∈ store.interfaces) : KnownInterface store row :=
  Rows.Known.of_mem h.interfaceIds h.interfaceSeq hrow

/-! ## Each call -/

/-- What is known of rows that were read. -/
def AllKnown (rows : List Interface) (store : Store) : Prop := ∀ row ∈ rows, KnownInterface store row

theorem AllKnown.later {rows : List Interface} {store store' : Store} (h : NamesKept store store')
    (hrows : AllKnown rows store) : AllKnown rows store' :=
  fun row hrow => (hrows row hrow).later h.interfaces

theorem writesKnown_of_name {store : Store} {row : Interface} (change : InterfaceChange)
    (h : KnownInterface store row) (hname : (change.apply row).name = row.name) :
    WritesKnown store (.updateInterface row change) := by
  have hkey : interfaceKey (change.apply row) = interfaceKey row :=
    Prod.ext (change.apply_deviceId row) hname
  have hknown : KnownInterface store (change.apply row) := by
    unfold KnownInterface
    rw [hkey]
    exact h
  exact hknown

theorem ingestInterface_safe {store : Store} {current : List Interface}
    (h : AllKnown current store) (deviceId : Int) (interface : DiscoveredInterface) :
    namesStay.Safe (fun store _ => AllKnown current store) store
      (ingestInterface deviceId current interface) := by
  unfold ingestInterface
  cases hfound : current.find? fun row => row.name = interface.name with
  | none => exact .step AllKnown.later trivial h
  | some row =>
    have hname : row.name = interface.name := by simpa using List.find?_some hfound
    have hknown := h row (List.mem_of_find?_eq_some hfound)
    exact .step AllKnown.later (writesKnown_of_name interface.change hknown hname.symm) h

theorem deleteInterface_safe {store : Store} {current : List Interface} (h : AllKnown current store)
    (id : Int) :
    namesStay.Safe (fun store _ => AllKnown current store) store (deleteInterface id) := by
  refine .bind (.lift trivial fun store' answer hwf hst => ?_)
  -- the rows that are linked to it are read here
  have hpeers : AllKnown (current ++ (Call.exec _ (.interfacesAt id) answer store').2) store' := by
    intro row hrow
    rcases List.mem_append.mp hrow with hrow | hrow
    · exact h.later hst row hrow
    · exact known_interface hwf (List.mem_of_mem_filter (Store.mem_of_select hrow))
  refine .bind (.imp (fun store _ hall => ?_) (.each (fun peer hpeer store hall => ?_) hpeers))
  · have hcurrent : AllKnown current store := fun row hrow => hall row (List.mem_append_left _ hrow)
    exact .lift trivial fun t e _ hst =>
      (hcurrent.later hst).later (exec_namesKept (Call.deleteInterface id) e trivial)
  · have hknown := hall peer (List.mem_append_right _ hpeer)
    exact .step AllKnown.later (writesKnown_of_name (.link none) hknown rfl) hall

theorem deleteStale_safe {store : Store} {current : List Interface} (h : AllKnown current store)
    (names : List String) (row : Interface) :
    namesStay.Safe (fun store _ => AllKnown current store) store (deleteStale names row) := by
  unfold deleteStale
  split
  · exact h
  · exact .bind (deleteInterface_safe h row.id)

theorem ingestDeviceRow_safe (store : Store) (discovered : DiscoveredDevice) :
    namesStay.Safe (fun _ _ => True) store (ingestDeviceRow discovered) := by
  refine .bind (.lift trivial fun store' answer hwf hst => ?_)
  split
  · next existing hfound =>
    let known (store : Store) := KnownDevice store (discovered.update existing)
    have hlater : ∀ {s t}, NamesKept s t → known s → known t := fun h hs => hs.later h.devices
    have hread : KnownDevice store' existing := known_device hwf (Store.mem_of_first hfound).1
    have hknown : known store' := hread
    have hevent : ∀ (p : Prop) [Decidable p] (event : DeviceEvent) (store : Store), known store →
        namesStay.Safe (fun store _ => known store) store
          (if p then .done () else .lift (.publish event)) := by
      intro p _ event store hstore
      split
      · exact hstore
      · exact .step hlater trivial hstore
    refine .bind (.imp (fun store _ hstore => ?_) (hevent _ _ store' hknown))
    refine .bind (.imp (fun store _ hstore => ?_) (hevent _ _ store hstore))
    exact .bind (.lift hstore fun _ _ _ _ => trivial)
  · exact .bind (.lift trivial fun _ _ _ _ => .lift trivial fun _ _ _ _ => trivial)

theorem ingestDevice_safe (store : Store) (discovered : DiscoveredDevice) :
    namesStay.Safe (fun _ _ => True) store (ingestDevice discovered) := by
  refine .bind (.imp (fun store device _ => ?_) (ingestDeviceRow_safe store discovered))
  cases device with
  | none => trivial
  | some device =>
    refine .bind (.lift trivial fun store' answer hwf _ => ?_)
    generalize hcurrent : (Call.exec _ (.interfacesOf device.id) answer store').2 = current
    have hknown : AllKnown current store' := fun row hrow =>
      known_interface hwf (List.mem_of_mem_filter (Store.mem_of_select (hcurrent ▸ hrow)))
    refine .bind (.imp (fun store _ hstore => ?_)
      (.each (fun interface _ store hstore => ingestInterface_safe hstore device.id interface) hknown))
    refine .bind (.imp (fun _ _ _ => .lift trivial fun _ _ _ _ => trivial)
      (.each (fun row _ store hstore => deleteStale_safe hstore _ row) hstore))

theorem deviceCreate_safe (store : Store) (submitted : NewDevice) :
    namesStay.Safe (fun _ _ => True) store (deviceCreate submitted) := by
  unfold deviceCreate
  split
  · trivial
  · refine .bind (.lift trivial fun store' answer _ _ => ?_)
    split
    · trivial
    · refine .bind (.lift trivial fun store' answer _ _ => ?_)
      split
      · trivial
      · exact .bind (.lift trivial fun _ _ _ _ => .bind (.lift trivial fun _ _ _ _ => trivial))

theorem Upsert.safe (call : Upsert) (store : Store) :
    namesStay.Safe (fun _ _ => True) store call.prog := by
  cases call with
  | ingest discovered => exact ingestDevice_safe store discovered
  | create submitted =>
    have h := deviceCreate_safe store submitted
    dsimp only [Upsert.prog]
    generalize deviceCreate submitted = p at h ⊢
    exact .bind (h.imp fun _ _ _ => trivial)

/-! ## Any interleaving -/

/-- One statement keeps names distinct exactly when what it inserts is new. -/
theorem distinct_step {β : Type} (c : Call β) (answer : Answer) {store : Store}
    (hc : WritesKnown store c) (h : Distinct store) :
    Distinct (Call.exec β c answer store).1 ↔ InsertsNew c answer store := by
  cases c with
  | findDevice | interfacesOf | interfaceById | interfaceByName | interfacesAt | weathermapInfosOf
  | clientLocationsOf => exact iff_of_true h trivial
  | deleteWeathermapInfo | deleteClientLocation | publish | invalidateWeathermap =>
    refine iff_of_true ?_ trivial
    dsimp only [Call.exec]
    split <;> exact ⟨h.devices, h.interfaces⟩
  | createDevice new =>
    dsimp only [Call.exec, InsertsNew]
    split
    · next hok =>
      have hnew := Rows.nodup_insert_iff h.devices (new.row store.deviceSeq)
      simp only [hok, true_implies]
      refine ⟨fun h' row hrow hsame => hnew.mp h'.devices row hrow (Prod.ext hsame.1 hsame.2),
        fun h' => ⟨hnew.mpr fun row hrow hkey => h' row hrow ?_, h.interfaces⟩⟩
      exact ⟨congrArg Prod.fst hkey, congrArg Prod.snd hkey⟩
    · next hok => exact iff_of_true h fun h' => absurd h' hok
  | createInterface new =>
    dsimp only [Call.exec, InsertsNew]
    split
    · next hok =>
      have hnew := Rows.nodup_insert_iff h.interfaces (new.row store.interfaceSeq)
      obtain ⟨hok, hdev⟩ := Bool.and_eq_true_iff.mp hok
      simp only [hok, hdev, true_implies]
      refine ⟨fun h' row hrow hsame => hnew.mp h'.interfaces row hrow (Prod.ext hsame.1 hsame.2),
        fun h' => ⟨h.devices, hnew.mpr fun row hrow hkey => h' row hrow ?_⟩⟩
      exact ⟨congrArg Prod.fst hkey, congrArg Prod.snd hkey⟩
    · next hok =>
      exact iff_of_true h fun hok' hdev => absurd (Bool.and_eq_true_iff.mpr ⟨hok', hdev⟩) hok
  | updateDevice device =>
    refine iff_of_true ?_ trivial
    dsimp only [Call.exec]
    split
    · exact ⟨(Rows.map_key_write hc).symm ▸ h.devices, h.interfaces⟩
    · exact h
  | updateInterface snapshot change =>
    refine iff_of_true ?_ trivial
    dsimp only [Call.exec]
    split
    · exact ⟨h.devices, (Rows.map_key_write hc).symm ▸ h.interfaces⟩
    · exact h
  | deleteDevice id =>
    refine iff_of_true ?_ trivial
    dsimp only [Call.exec]
    split
    · exact ⟨h.devices.sublist (List.filter_sublist.map _), h.interfaces⟩
    · exact h
  | deleteInterface id =>
    refine iff_of_true ?_ trivial
    dsimp only [Call.exec]
    split
    · exact ⟨h.devices, h.interfaces.sublist (List.filter_sublist.map _)⟩
    · exact h

/-! ## What was looked up and inserted -/

/-- A name that there should be one row of. -/
inductive RowName where
  | device (name dnsDomain : String)
  | interface (deviceId : Int) (name : String)
  deriving DecidableEq, Repr

/-- A row of the name is there. -/
def Has (store : Store) : RowName → Prop
  | .device name dnsDomain => (name, dnsDomain) ∈ store.devices.map deviceKey
  | .interface deviceId name => (deviceId, name) ∈ store.interfaces.map interfaceKey

def isDevice (name dnsDomain : String) : RowName → Bool
  | .device name' dnsDomain' => decide (name = name' ∧ dnsDomain = dnsDomain')
  | .interface _ _ => false

def isInterfaceOf (deviceId : Int) : RowName → Bool
  | .device _ _ => false
  | .interface deviceId' _ => decide (deviceId = deviceId')

/-- The statement looks for the name: a device by its own, interfaces all of a device. -/
def looksFor {β : Type} (c : Call β) (name : RowName) : Bool :=
  match c with
  | .findDevice hostname dnsDomain => isDevice hostname dnsDomain name
  | .interfacesOf deviceId => isInterfaceOf deviceId name
  | _ => false

/-- What it answered has no row of the name. -/
def lacks : {β : Type} → Call β → β → RowName → Bool
  | _, .findDevice _ _, found, _ => found.isNone
  | _, .interfacesOf _, rows, name => rows.all fun row => RowName.interface row.deviceId row.name ≠ name
  | _, _, _, _ => false

/-- The name of the row that was inserted. -/
def inserted : {β : Type} → Call β → β → Option RowName
  | _, .createDevice new, created => created.map fun _ => .device new.name new.dnsDomain
  | _, .createInterface new, created => if created then some (.interface new.deviceId new.name) else none
  | _, _, _ => none

/-- Nobody has inserted the name since the call looked for it. -/
def NewSince (i : Nat) (name : RowName) (log : List (Entry Call Answer)) : Prop :=
  Log.Followed (fun e => inserted e.call e.result = some name) (fun e => e.caller = i ∧ looksFor e.call name = true) log

/-- **The condition**: a look-up that fails would have found nothing, and an insert is of a name
that nobody, the call itself included, has inserted since the call looked for it. -/
def LookedUp {β : Type} (i : Nat) (c : Call β) (answer : Answer) (store : Store) (log : List (Entry Call Answer)) : Prop :=
  match c with
  | .findDevice name dnsDomain => answer.ok = false → ¬Has store (.device name dnsDomain)
  | .interfacesOf deviceId => answer.ok = false → ∀ row ∈ store.interfaces, row.deviceId ≠ deviceId
  | .createDevice new => answer.ok = true → NewSince i (.device new.name new.dnsDomain) log
  | .createInterface new => answer.ok = true → store.hasDevice new.deviceId = true →
    NewSince i (.interface new.deviceId new.name) log
  | _ => True

/-- The call has looked for the name, and found none whenever it did. -/
def NotFound (done : List (Entry Call Answer)) (name : RowName) : Prop :=
  (∃ e ∈ done, looksFor e.call name = true) ∧
    ∀ e ∈ done, looksFor e.call name = true → lacks e.call e.result name = true

/-- The call inserts what it has not found. -/
def InsertsNotFound {β : Type} (done : List (Entry Call Answer)) (c : Call β) : Prop :=
  match c with
  | .createDevice new => NotFound done (.device new.name new.dnsDomain)
  | .createInterface new => NotFound done (.interface new.deviceId new.name)
  | _ => True

/-! ## What each call looks up -/

/-- Call `i` inserts only what it has not found. -/
abbrev UpsertAlong (i : Nat) {α : Type} : (List (Entry Call Answer) → α → Prop) → List (Entry Call Answer) → Prog Call α → Prop :=
  Journal.Along Call.exec namesStay.wf i InsertsNotFound

/-- No interfaces have been looked for. -/
def NoneRead (done : List (Entry Call Answer)) : Prop :=
  ∀ e ∈ done, ∀ deviceId name, looksFor e.call (.interface deviceId name) = false

/-- The interfaces of the device have been read, and a name that `current` lacks was not found. -/
def RowsRead (deviceId : Int) (current : List Interface) (done : List (Entry Call Answer)) : Prop :=
  ∀ name, (current.find? fun row => row.name = name) = none → NotFound done (.interface deviceId name)

section
variable {i : Nat} {done : List (Entry Call Answer)}

theorem NoneRead.concat (h : NoneRead done) {e : Entry Call Answer}
    (he : ∀ deviceId name, looksFor e.call (.interface deviceId name) = false) : NoneRead (done ++ [e]) := by
  intro x hx
  rcases List.mem_append.mp hx with hx | hx
  · exact h x hx
  · exact List.mem_singleton.mp hx ▸ he

theorem NotFound.concat {name : RowName} (h : NotFound done name) {e : Entry Call Answer}
    (he : looksFor e.call name = false) : NotFound (done ++ [e]) name := by
  refine ⟨?_, fun x hx hlook => ?_⟩
  · obtain ⟨x, hx, hlook⟩ := h.1
    exact ⟨x, List.mem_append_left _ hx, hlook⟩
  · rcases List.mem_append.mp hx with hx | hx
    · exact h.2 x hx hlook
    · rw [List.mem_singleton.mp hx, he] at hlook
      cases hlook

theorem ingestDeviceRow_looks (discovered : DiscoveredDevice) :
    UpsertAlong i (fun done _ => NoneRead done) [] (ingestDeviceRow discovered) := by
  have hevent : ∀ (p : Prop) [Decidable p] (event : DeviceEvent) (done : List (Entry Call Answer)), NoneRead done →
      UpsertAlong i (fun done _ => NoneRead done) done (if p then .done () else .lift (.publish event)) := by
    intro p _ event done h
    split
    · exact h
    · exact .lift trivial fun _ _ _ => h.concat fun _ _ => rfl
  refine .bind (.lift trivial fun e s _ => ?_)
  generalize (Call.exec _ (.findDevice discovered.name discovered.dnsDomain) e s).2 = found
  have hnone : NoneRead [] := fun _ h => absurd h List.not_mem_nil
  have hlooked := hnone.concat (e := ⟨i, .findDevice discovered.name discovered.dnsDomain, e, found⟩) fun _ _ => rfl
  cases found with
  | some existing =>
    refine .bind ((hevent _ _ _ hlooked).imp fun done _ h => .bind ((hevent _ _ done h).imp fun done _ h => ?_))
    exact .bind (.lift trivial fun _ _ _ => h.concat fun _ _ => rfl)
  | none =>
    refine .bind (.lift trivial fun e' s' _ => .lift ?_ fun _ _ _ =>
      (hlooked.concat fun _ _ => rfl).concat fun _ _ => rfl)
    have hfound : NotFound ([] ++ [⟨i, .findDevice discovered.name discovered.dnsDomain, e, none⟩])
        (.device discovered.name discovered.dnsDomain) := by
      simp [NotFound, looksFor, isDevice, lacks]
    exact hfound.concat rfl

theorem deleteStale_looks (done : List (Entry Call Answer)) (names : List String) (row : Interface) :
    UpsertAlong i (fun _ _ => True) done (deleteStale names row) := by
  unfold deleteStale
  split
  · trivial
  · refine .bind (.bind (.lift trivial fun _ _ _ => .bind ((Journal.Along.each (fun _ _ => True)
      (fun _ _ _ _ _ _ => .lift' trivial fun _ _ _ => trivial) trivial).imp fun _ _ _ => ?_)))
    exact .lift trivial fun _ _ _ => trivial

theorem ingestInterface_looks {deviceId : Int} {current : List Interface} (h : RowsRead deviceId current done)
    (interface : DiscoveredInterface) :
    UpsertAlong i (fun done _ => RowsRead deviceId current done) done (ingestInterface deviceId current interface) := by
  unfold ingestInterface
  split
  · exact .lift' trivial fun _ _ _ name hname => (h name hname).concat rfl
  · next hnone => exact .lift' (h interface.name hnone) fun _ _ _ name hname => (h name hname).concat rfl

theorem ingestDevice_looks (discovered : DiscoveredDevice) :
    UpsertAlong i (fun _ _ => True) [] (ingestDevice discovered) := by
  refine .bind ((ingestDeviceRow_looks discovered).imp fun done device hnone => ?_)
  cases device with
  | none => trivial
  | some device =>
    refine .bind (.lift trivial fun e s _ => ?_)
    generalize (Call.exec _ (.interfacesOf device.id) e s).2 = current
    have hread : RowsRead device.id current (done ++ [⟨i, .interfacesOf device.id, e, current⟩]) := by
      refine fun name hname => ⟨⟨_, List.mem_append_right _ (List.mem_singleton_self _), ?_⟩, fun x hx hlook => ?_⟩
      · simp [looksFor, isInterfaceOf]
      · rcases List.mem_append.mp hx with hx | hx
        · rw [hnone x hx] at hlook
          cases hlook
        · rw [List.mem_singleton.mp hx]
          refine List.all_eq_true.mpr fun row hrow => decide_eq_true fun heq => ?_
          have hother := List.find?_eq_none.mp hname row hrow
          exact hother (decide_eq_true (RowName.interface.inj heq).2)
    refine .bind ((Journal.Along.each (fun _ => RowsRead device.id current)
      (fun _ interface _ _ _ h => ingestInterface_looks h interface) hread).imp fun done _ _ => ?_)
    refine .bind ((Journal.Along.each (fun _ _ => True) (fun _ row _ _ done _ => ?_) trivial).imp
      fun _ _ _ => .lift trivial fun _ _ _ => trivial)
    exact deleteStale_looks done _ row

theorem deviceCreate_looks (submitted : NewDevice) : UpsertAlong i (fun _ _ => True) [] (deviceCreate submitted) := by
  unfold deviceCreate
  split
  · trivial
  · next name dnsDomain _ =>
    refine .bind (.lift trivial fun e s _ => ?_)
    generalize (Call.exec _ (.findDevice name dnsDomain) e s).2 = found
    cases found with
    | some existing => trivial
    | none =>
      refine .bind (.lift ?_ fun e s _ => ?_)
      · simp [InsertsNotFound, NotFound, looksFor, isDevice, lacks]
      · split
        · trivial
        · exact .bind (.lift trivial fun _ _ _ => .bind (.lift trivial fun _ _ _ => trivial))

/-- **A call inserts only what it has not found.** -/
theorem Upsert.along (call : Upsert) : UpsertAlong i (fun _ _ => True) [] call.prog := by
  cases call with
  | ingest discovered => exact ingestDevice_looks discovered
  | create submitted =>
    have h := deviceCreate_looks (i := i) submitted
    dsimp only [Upsert.prog]
    generalize deviceCreate submitted = p at h ⊢
    exact .bind (h.imp fun _ _ _ => trivial)

end

/-! ## Any interleaving -/

/-- What a look-up that found none still tells: as long as the name was not inserted, no row of it
is there. -/
def NoneSince (store : Store) (log : List (Entry Call Answer)) : Prop :=
  ∀ before e after name, log = before ++ e :: after → looksFor e.call name = true →
    lacks e.call e.result name = true → (∀ w ∈ after, inserted w.call w.result ≠ some name) → ¬Has store name

/-- A look-up that found none, and had nothing to find where it failed. -/
theorem not_has_of_lacks {β : Type} {i : Nat} {c : Call β} {answer : Answer} {store : Store}
    {log : List (Entry Call Answer)} (hcond : LookedUp i c answer store log) {name : RowName}
    (hlook : looksFor c name = true) (hnone : lacks c (Call.exec β c answer store).2 name = true) :
    (Call.exec β c answer store).1 = store ∧ ¬Has store name := by
  cases c with
  | findDevice hostname dnsDomain =>
    cases name with
    | interface => cases hlook
    | device =>
      obtain ⟨rfl, rfl⟩ := of_decide_eq_true hlook
      refine ⟨rfl, fun hhas => ?_⟩
      cases hok : answer.ok with
      | false => exact hcond hok hhas
      | true =>
        obtain ⟨row, hrow, hkey⟩ := List.mem_map.mp hhas
        have hmissing : store.devices.find? (fun d => d.name = hostname && d.dnsDomain = dnsDomain) = none := by
          simpa [lacks, Call.exec, Store.first, hok] using hnone
        have := List.find?_eq_none.mp hmissing row hrow
        obtain ⟨hname, hdomain⟩ := Prod.mk.inj hkey
        simp [hname, hdomain] at this
  | interfacesOf deviceId =>
    cases name with
    | device => cases hlook
    | interface deviceId' name =>
      obtain rfl := of_decide_eq_true hlook
      refine ⟨rfl, fun hhas => ?_⟩
      obtain ⟨row, hrow, hkey⟩ := List.mem_map.mp hhas
      obtain ⟨hdevice, hname⟩ := Prod.mk.inj hkey
      cases hok : answer.ok with
      | false => exact hcond hok row hrow hdevice
      | true =>
        have hread : row ∈ (Call.exec _ (.interfacesOf deviceId) answer store).2 := by
          dsimp only [Call.exec, Store.select, Store.sorted]
          rw [if_pos hok, List.mem_insertionSort]
          exact List.mem_filter.mpr ⟨hrow, decide_eq_true hdevice⟩
        have hother := of_decide_eq_true (List.all_eq_true.mp hnone row hread)
        exact hother (by rw [hdevice, hname])
  | _ => cases hlook

theorem mem_map_concat {ρ κ : Type} {key : ρ → κ} {rows : List ρ} {new : ρ} {k : κ} (h : k ∈ (rows ++ [new]).map key) :
    k ∈ rows.map key ∨ key new = k := by
  simpa [eq_comm] using h

/-- A name that is there after a statement was there before, or has just been inserted. -/
theorem has_exec {β : Type} {c : Call β} {answer : Answer} {store : Store} (hc : WritesKnown store c) {name : RowName}
    (h : Has (Call.exec β c answer store).1 name) :
    Has store name ∨ inserted c (Call.exec β c answer store).2 = some name := by
  cases c with
  | findDevice | interfacesOf | interfaceById | interfaceByName | interfacesAt | weathermapInfosOf
  | clientLocationsOf => exact .inl h
  | deleteWeathermapInfo | deleteClientLocation | publish | invalidateWeathermap =>
    refine .inl ?_
    dsimp only [Call.exec] at h
    split at h <;> cases name <;> exact h
  | createDevice new =>
    dsimp only [Call.exec] at h ⊢
    split at h
    · next hok =>
      cases name with
      | interface => exact .inl h
      | device hostname dnsDomain =>
        rcases mem_map_concat h with hthere | hkey
        · exact .inl hthere
        · obtain ⟨rfl, rfl⟩ := Prod.mk.inj hkey
          rw [if_pos hok]
          exact .inr rfl
    · exact .inl h
  | createInterface new =>
    dsimp only [Call.exec] at h ⊢
    split at h
    · next hok =>
      cases name with
      | device => exact .inl h
      | interface deviceId name =>
        rcases mem_map_concat h with hthere | hkey
        · exact .inl hthere
        · obtain ⟨rfl, rfl⟩ := Prod.mk.inj hkey
          rw [if_pos hok]
          exact .inr rfl
    · exact .inl h
  | updateDevice device =>
    refine .inl ?_
    dsimp only [Call.exec] at h
    split at h
    · cases name with
      | device =>
        dsimp only [Has] at h ⊢
        rwa [Rows.map_key_write hc] at h
      | interface => exact h
    · exact h
  | updateInterface snapshot change =>
    refine .inl ?_
    dsimp only [Call.exec] at h
    split at h
    · cases name with
      | device => exact h
      | interface =>
        dsimp only [Has, Store.writeInterface] at h ⊢
        rwa [Rows.map_key_write hc] at h
    · exact h
  | deleteDevice id =>
    refine .inl ?_
    dsimp only [Call.exec] at h
    split at h
    · cases name with
      | device => exact (List.filter_sublist.map deviceKey).subset h
      | interface => exact h
    · exact h
  | deleteInterface id =>
    refine .inl ?_
    dsimp only [Call.exec] at h
    split at h
    · cases name with
      | device => exact h
      | interface => exact (List.filter_sublist.map interfaceKey).subset h
    · exact h

theorem NoneSince.step {β : Type} (i : Nat) (c : Call β) (answer : Answer) {store : Store}
    {log : List (Entry Call Answer)} (hc : WritesKnown store c) (h : NoneSince store log)
    (hcond : LookedUp i c answer store log) :
    NoneSince (Call.exec β c answer store).1 (log ++ [⟨i, c, answer, (Call.exec β c answer store).2⟩]) := by
  intro before e after name heq hlook hnone hclean
  rcases Log.concat_eq_append_cons heq with ⟨-, rfl⟩ | ⟨after, rfl, rfl⟩
  · obtain ⟨hstore, hmissing⟩ := not_has_of_lacks hcond hlook hnone
    rw [hstore]
    exact hmissing
  · intro hhas
    rcases has_exec hc hhas with hhas | hnew
    · exact h before e after name rfl hlook hnone (fun w hw => hclean w (List.mem_append_left _ hw)) hhas
    · exact hclean _ (List.mem_append_right _ (List.mem_singleton_self _)) hnew

/-- A name that was not found and not inserted since is not there. -/
theorem NoneSince.not_has {store : Store} {i : Nat} {log : List (Entry Call Answer)} (h : NoneSince store log)
    {name : RowName} (hfound : NotFound (Journal.own i log) name) (hnew : NewSince i name log) : ¬Has store name := by
  have hown : ∀ e, e ∈ Journal.own i log ↔ e ∈ log ∧ e.caller = i := fun e => by simp [Journal.own]
  obtain ⟨e, he, hlook⟩ := hfound.1
  obtain ⟨he, hcaller⟩ := (hown e).mp he
  obtain ⟨before, e, after, rfl, hlast, hafter⟩ := Log.Followed.exists_since hnew ⟨e, he, hcaller, hlook⟩
  have hmem := (hown e).mpr ⟨List.mem_append_right _ List.mem_cons_self, hlast.1⟩
  exact h before e after name rfl hlast.2 (hfound.2 e hmem hlast.2) hafter

theorem NoneSince.insertsNew {β : Type} {i : Nat} {c : Call β} {answer : Answer} {store : Store}
    {log : List (Entry Call Answer)} (h : NoneSince store log) (hfound : InsertsNotFound (Journal.own i log) c)
    (hcond : LookedUp i c answer store log) : InsertsNew c answer store := by
  cases c with
  | createDevice new =>
    intro hok row hrow hsame
    exact h.not_has hfound (hcond hok) (List.mem_map.mpr ⟨row, hrow, Prod.ext hsame.1 hsame.2⟩)
  | createInterface new =>
    intro hok hdevice row hrow hsame
    exact h.not_has hfound (hcond hok hdevice) (List.mem_map.mpr ⟨row, hrow, Prod.ext hsame.1 hsame.2⟩)
  | _ => trivial

/-- **One row for a name** in an interleaving of ingests and devices added by hand in which no
look-up fails over a row that is there and nobody inserts a name between a look-up and the
insert it leads to: names are distinct throughout, whatever else fails. -/
theorem distinct_run {store : Store} (hstore : store.Constrained) (h : Distinct store)
    (calls : Nat → Upsert) (turns : List (Turn Answer))
    (hok : Runs.Allowed (Journal.step Call.exec) (Journal.Meets LookedUp) (.start (upserting store calls)) turns) :
    ∀ pre, pre <+: turns → Distinct (pre.foldl (Pool.step Call.exec) (upserting store calls)).store := by
  intro pre hpre
  have hsafe : Pool.AllSafe namesStay (upserting store calls) := ⟨hstore, fun i => (calls i).safe store⟩
  refine (Journal.run_inv (fun store log => Distinct store ∧ NoneSince store log)
    (fun i c e s log _ hmay hfound hinv hcond => ?_) hsafe (fun i => (calls i).along) ⟨h, ?_⟩ hok hpre).1
  · have hnew := hinv.2.insertsNew hfound hcond
    exact ⟨(distinct_step c e hmay hinv.1).mpr hnew, hinv.2.step i c e hmay hcond⟩
  · intro before e after name heq
    simp at heq

/-! ## A device twice, and once -/

def noStore : Store where
  devices := []
  interfaces := []
  clientLocations := []
  weathermapInfos := []
  deviceSeq := 1
  interfaceSeq := 1
  events := []
  topology := none

theorem noStore_constrained : noStore.Constrained :=
  ⟨by decide, by decide, by decide, by decide, by decide, by decide, by decide, by decide, by decide⟩

/-- Switch `a` is discovered, and is added by hand. -/
def addedTwice : Nat → Upsert
  | 0 => .ingest { rediscovered with interfaces := [] }
  | _ => .create ⟨" a", "lan", none, none, none, none, none, none⟩

/-- The ingest is done when the device is looked up to be added. -/
theorem distinct_run_in_turn :
    ((inTurn [0, 0, 0, 0, 0, 1]).foldl (Pool.step Call.exec) (upserting noStore addedTwice)).store.devices.map
      Device.name = ["a"] ∧
    Distinct ((inTurn [0, 0, 0, 0, 0, 1]).foldl (Pool.step Call.exec) (upserting noStore addedTwice)).store :=
  ⟨by decide +kernel, distinct_run noStore_constrained ⟨by decide, by decide⟩ addedTwice (inTurn [0, 0, 0, 0, 0, 1])
    ⟨(fun h => by cases h), trivial, (fun _ => by unfold NewSince; decide +kernel), (fun h => by cases h), trivial,
      (fun h => by cases h), trivial⟩ _ (List.prefix_refl _)⟩

/-- **A device twice**: both have looked `a` up before either inserts it. -/
theorem device_added_twice : noStore.Constrained ∧ Distinct noStore ∧
    ¬∀ pre, pre <+: inTurn [0, 1, 1, 0, 0] →
      Distinct (pre.foldl (Pool.step Call.exec) (upserting noStore addedTwice)).store := by
  refine ⟨noStore_constrained, ⟨by decide, by decide⟩, fun h => ?_⟩
  have hend := (h _ (List.prefix_refl _)).devices
  revert hend
  decide +kernel

end JaspyNexus.Utilities.Discovery
