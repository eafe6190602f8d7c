import Mathlib
import JaspyNexus.Lib.Prog
import JaspyNexus.Models.Dbo

/-! # Statements

What the handlers do to the database and to the stores beside it, one atomic step
each: the SQL statements of `models/dbo.rs`, an event published, the topology cache
invalidated. A statement fails when the database refuses it, or by its answer; a
query that fails answers like one that finds nothing. -/

namespace JaspyNexus.Models
open JaspyNexus.Lib

/-! ## The tables -/

/-- `NewDevice`. -/
structure NewDevice where
  name : String
  dnsDomain : String
  snmpCommunity : Option String
  baseMac : Option String
  pollingEnabled : Option Bool
  osInfo : Option String
  deviceType : Option String
  softwareVersion : Option String
  deriving DecidableEq, Repr

def NewDevice.row (new : NewDevice) (id : Int) : Device where
  id := id
  name := new.name
  dnsDomain := new.dnsDomain
  snmpCommunity := new.snmpCommunity
  baseMac := new.baseMac
  pollingEnabled := new.pollingEnabled
  osInfo := new.osInfo
  deviceType := new.deviceType
  softwareVersion := new.softwareVersion

/-- `NewInterface`. -/
structure NewInterface where
  index : Int
  interfaceType : String
  deviceId : Int
  name : String
  ifAlias : Option String
  description : Option String
  media : Option String
  cdpDeviceId : Option String
  cdpDevicePort : Option String
  deriving DecidableEq, Repr

def NewInterface.row (new : NewInterface) (id : Int) : Interface where
  id := id
  index := new.index
  interfaceType := new.interfaceType
  connectedInterface := none
  deviceId := new.deviceId
  displayName := none
  name := new.name
  speedOverride := none
  virtualConnection := none
  ifAlias := new.ifAlias
  description := new.description
  pollingEnabled := none
  media := new.media
  cdpDeviceId := new.cdpDeviceId
  cdpDevicePort := new.cdpDevicePort

/-- What a handler sets in its copy of an interface row before it writes it back. -/
structure InterfaceChange where
  index : Option Int := none
  interfaceType : Option String := none
  connectedInterface : Option (Option Int) := none
  name : Option String := none
  ifAlias : Option (Option String) := none
  description : Option (Option String) := none
  media : Option (Option String) := none
  cdpDeviceId : Option (Option String) := none
  cdpDevicePort : Option (Option String) := none
  deriving DecidableEq, Repr

/-- The row with the change made. -/
def InterfaceChange.apply (change : InterfaceChange) (row : Interface) : Interface :=
  { row with
    index := change.index.getD row.index
    interfaceType := change.interfaceType.getD row.interfaceType
    connectedInterface := change.connectedInterface.getD row.connectedInterface
    name := change.name.getD row.name
    ifAlias := change.ifAlias.getD row.ifAlias
    description := change.description.getD row.description
    media := change.media.getD row.media
    cdpDeviceId := change.cdpDeviceId.getD row.cdpDeviceId
    cdpDevicePort := change.cdpDevicePort.getD row.cdpDevicePort }

/-- A link set or cleared. -/
def InterfaceChange.link (peer : Option Int) : InterfaceChange where
  connectedInterface := some peer

@[simp] theorem InterfaceChange.apply_id (change : InterfaceChange) (row : Interface) :
    (change.apply row).id = row.id := rfl

@[simp] theorem InterfaceChange.apply_deviceId (change : InterfaceChange) (row : Interface) :
    (change.apply row).deviceId = row.deviceId := rfl

theorem InterfaceChange.apply_link (peer : Option Int) (row : Interface) :
    (InterfaceChange.link peer).apply row = { row with connectedInterface := peer } := rfl

/-- A row of `client_locations`, by what refers to it and what it refers to. -/
structure ClientLocation where
  id : Int
  deviceId : Int
  deriving DecidableEq, Repr

/-- A row of `weathermap_device_infos`. -/
structure WeathermapDeviceInfo where
  id : Int
  deviceId : Int
  deriving DecidableEq, Repr

/-- The events of discovery. -/
inductive DeviceEvent where
  | created (fqdn : String)
  | osInfoChanged (fqdn : String) (oldState newState : Option String)
  | baseMacChanged (fqdn : String) (oldState newState : Option String)
  deriving DecidableEq, Repr

/-- `CachedWeathermapTopology`, by the database its topology was built from. -/
structure CachedTopology where
  validUntil : Nat
  source : Database

/-- The tables, the next row ids, and the stores beside the database. -/
structure Store extends Database where
  clientLocations : List ClientLocation
  weathermapInfos : List WeathermapDeviceInfo
  deviceSeq : Int
  interfaceSeq : Int
  /-- the events published, in order -/
  events : List DeviceEvent
  topology : Option CachedTopology

/-! ## The statements -/

inductive Call : Type → Type where
  /-- `Device::find_by_hostname_and_domain_name` -/
  | findDevice (name dnsDomain : String) : Call (Option Device)
  | createDevice (new : NewDevice) : Call (Option Device)
  | updateDevice (device : Device) : Call Bool
  | deleteDevice (id : Int) : Call Bool
  /-- `Device::interfaces` -/
  | interfacesOf (deviceId : Int) : Call (List Interface)
  /-- `Interface::by_id` -/
  | interfaceById (id : Int) : Call (Option Interface)
  | interfaceByName (deviceId : Int) (name : String) : Call (Option Interface)
  /-- the rows that `Interface::delete` loads -/
  | interfacesAt (id : Int) : Call (List Interface)
  | createInterface (new : NewInterface) : Call Bool
  /-- `Interface::update` of a copy of `snapshot` in which `change` was made: it
  writes every column of the copy -/
  | updateInterface (snapshot : Interface) (change : InterfaceChange) : Call Bool
  | deleteInterface (id : Int) : Call Bool
  | weathermapInfosOf (deviceId : Int) : Call (List WeathermapDeviceInfo)
  | deleteWeathermapInfo (id : Int) : Call Bool
  | clientLocationsOf (deviceId : Int) : Call (List ClientLocation)
  | deleteClientLocation (id : Int) : Call Bool
  | publish (event : DeviceEvent) : Call Unit
  | invalidateWeathermap : Call Unit

/-- What a step meets: whether it succeeds, and the order in which the rows of a
query come (none is asked for). -/
structure Answer where
  ok : Bool
  order : Int → Nat

namespace Store

def sorted {α : Type} (id : α → Int) (answer : Answer) (rows : List α) : List α :=
  rows.insertionSort fun a b => answer.order (id a) ≤ answer.order (id b)

/-- The rows of a query, in the order they come; none when it fails. -/
def select {α : Type} (id : α → Int) (answer : Answer) (rows : List α) : List α :=
  if answer.ok then sorted id answer rows else []

/-- The first row of a query; none when it fails. -/
def first {α : Type} (answer : Answer) (rows : List α) (p : α → Bool) : Option α :=
  if answer.ok then rows.find? p else none

theorem mem_of_first {α : Type} {answer : Answer} {rows : List α} {p : α → Bool} {row : α}
    (h : first answer rows p = some row) : row ∈ rows ∧ p row = true := by
  unfold first at h
  split at h
  · exact ⟨List.mem_of_find?_eq_some h, List.find?_some h⟩
  · cases h

theorem mem_of_select {α : Type} {id : α → Int} {answer : Answer} {rows : List α} {row : α}
    (h : row ∈ select id answer rows) : row ∈ rows := by
  unfold select sorted at h
  split at h
  · exact (List.mem_insertionSort _).mp h
  · cases h

variable (store : Store)

def hasInterface (id : Int) : Bool := store.interfaces.any fun row => row.id = id

def hasDevice (id : Int) : Bool := store.devices.any fun row => row.id = id

/-- The references of an interface row are there. -/
def interfaceRefs (row : Interface) : Bool :=
  row.connectedInterface.all store.hasInterface && row.virtualConnection.all store.hasInterface &&
    store.hasDevice row.deviceId

/-- Another row refers to the interface. -/
def interfaceReferenced (id : Int) : Bool :=
  store.interfaces.any fun row =>
    row.id ≠ id && (row.connectedInterface = some id || row.virtualConnection = some id)

/-- A row refers to the device. -/
def deviceReferenced (id : Int) : Bool :=
  (store.interfaces.any fun row => row.deviceId = id) ||
    (store.clientLocations.any fun row => row.deviceId = id) ||
    store.weathermapInfos.any fun row => row.deviceId = id

def createDevice (new : NewDevice) : Store :=
  { store with
    devices := store.devices ++ [new.row store.deviceSeq]
    deviceSeq := store.deviceSeq + 1 }

def createInterface (new : NewInterface) : Store :=
  { store with
    interfaces := store.interfaces ++ [new.row store.interfaceSeq]
    interfaceSeq := store.interfaceSeq + 1 }

/-- Every column of the row of that id is written. -/
def writeInterface (written : Interface) : Store :=
  { store with
    interfaces := store.interfaces.map fun row => if row.id = written.id then written else row }

def deleteInterface (id : Int) : Store :=
  { store with interfaces := store.interfaces.filter fun row => row.id ≠ id }

end Store

/-- One statement. A write of a row that is not there succeeds and does nothing. -/
def Call.exec : (β : Type) → Call β → Answer → Store → Store × β
  | _, .findDevice name dnsDomain, answer, store =>
    (store, Store.first answer store.devices fun d => d.name = name && d.dnsDomain = dnsDomain)
  | _, .createDevice new, answer, store =>
    if answer.ok then (store.createDevice new, some (new.row store.deviceSeq)) else (store, none)
  | _, .updateDevice device, answer, store =>
    if answer.ok then
      ({ store with
          devices := store.devices.map fun row => if row.id = device.id then device else row }, true)
    else (store, false)
  | _, .deleteDevice id, answer, store =>
    if answer.ok && (!store.hasDevice id || !store.deviceReferenced id) then
      ({ store with devices := store.devices.filter fun row => row.id ≠ id }, true)
    else (store, false)
  | _, .interfacesOf deviceId, answer, store =>
    (store, Store.select Interface.id answer (store.interfaces.filter fun row => row.deviceId = deviceId))
  | _, .interfaceById id, answer, store =>
    (store, Store.first answer store.interfaces fun row => row.id = id)
  | _, .interfaceByName deviceId name, answer, store =>
    (store, Store.first answer store.interfaces fun row => row.deviceId = deviceId && row.name = name)
  | _, .interfacesAt id, answer, store =>
    (store, Store.select Interface.id answer (store.interfaces.filter fun row =>
      row.connectedInterface = some id || row.virtualConnection = some id))
  | _, .createInterface new, answer, store =>
    if answer.ok && store.hasDevice new.deviceId then (store.createInterface new, true)
    else (store, false)
  | _, .updateInterface snapshot change, answer, store =>
    if answer.ok && (!store.hasInterface snapshot.id || store.interfaceRefs (change.apply snapshot)) then
      (store.writeInterface (change.apply snapshot), true)
    else (store, false)
  | _, .deleteInterface id, answer, store =>
    if answer.ok && (!store.hasInterface id || !store.interfaceReferenced id) then
      (store.deleteInterface id, true)
    else (store, false)
  | _, .weathermapInfosOf deviceId, answer, store =>
    (store, Store.select WeathermapDeviceInfo.id answer
      (store.weathermapInfos.filter fun row => row.deviceId = deviceId))
  | _, .deleteWeathermapInfo id, answer, store =>
    if answer.ok then
      ({ store with weathermapInfos := store.weathermapInfos.filter fun row => row.id ≠ id }, true)
    else (store, false)
  | _, .clientLocationsOf deviceId, answer, store =>
    (store, Store.select ClientLocation.id answer
      (store.clientLocations.filter fun row => row.deviceId = deviceId))
  | _, .deleteClientLocation id, answer, store =>
    if answer.ok then
      ({ store with clientLocations := store.clientLocations.filter fun row => row.id ≠ id }, true)
    else (store, false)
  | _, .publish event, answer, store =>
    (if answer.ok then { store with events := store.events ++ [event] } else store, ())
  | _, .invalidateWeathermap, answer, store =>
    (if answer.ok then
      { store with topology := store.topology.map fun cached => { cached with validUntil := 0 } }
    else store, ())

end JaspyNexus.Models
