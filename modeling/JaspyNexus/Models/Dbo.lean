import Mathlib

/-! # Database rows

The device and interface rows of `models/dbo.rs`. A query that fails answers
like one that finds nothing, so each takes whether it succeeded. -/

namespace JaspyNexus.Models

structure Device where
  id : Int
  name : String
  dnsDomain : String
  snmpCommunity : Option String
  baseMac : Option String
  pollingEnabled : Option Bool
  osInfo : Option String
  deviceType : Option String
  softwareVersion : Option String
  deriving DecidableEq, Repr

def Device.fqdn (device : Device) : String := device.name ++ "." ++ device.dnsDomain

structure Interface where
  id : Int
  index : Int
  interfaceType : String
  connectedInterface : Option Int
  deviceId : Int
  displayName : Option String
  name : String
  speedOverride : Option Int
  virtualConnection : Option Int
  ifAlias : Option String
  description : Option String
  pollingEnabled : Option Bool
  media : Option String
  cdpDeviceId : Option String
  cdpDevicePort : Option String
  deriving DecidableEq, Repr

/-- `Interface::name`. -/
def Interface.shownName (interface : Interface) : String :=
  interface.displayName.getD interface.name

/-- The index is among the rows. -/
def HasIndex (rows : List Interface) (i : Int) : Prop := ∃ row ∈ rows, row.index = i

/-- The rows, in the order the database gives them. -/
structure Database where
  devices : List Device
  interfaces : List Interface

namespace Database

/-- The rows that `Device::monitored` selects. -/
def monitoredDevices (db : Database) : List Device :=
  db.devices.filter fun device => device.pollingEnabled ≠ some false

/-- The rows that `Device::interfaces` selects. -/
def interfacesOf (db : Database) (device : Device) : List Interface :=
  db.interfaces.filter fun interface => interface.deviceId = device.id

/-- A monitored device has the name. -/
def Monitors (db : Database) (f : String) : Prop :=
  ∃ device ∈ db.monitoredDevices, device.fqdn = f

/-- A monitored device of the name has an interface of the index. -/
def Has (db : Database) (f : String) (i : Int) : Prop :=
  ∃ device ∈ db.monitoredDevices, device.fqdn = f ∧ HasIndex (db.interfacesOf device) i

end Database

/-- `Device::monitored`. -/
def Device.monitored (db : Database) (ok : Bool) : List Device :=
  if ok then db.monitoredDevices else []

/-- `Device::interfaces`. -/
def Device.interfaces (db : Database) (ok : Bool) (device : Device) : List Interface :=
  if ok then db.interfacesOf device else []

/-- Which steps of a read of the database succeed. -/
structure Answers where
  /-- a connection is checked out of the pool -/
  pool : Bool
  /-- `Device::monitored` -/
  monitored : Bool
  /-- `Device::interfaces`, by the device's id -/
  interfaces : Int → Bool

end JaspyNexus.Models
