import Mathlib
import JaspyNexus.Lib.PMap
import JaspyNexus.Models.Calls

/-! # Discovery ingest

`utilities/discovery.rs`: a discovered device is upserted with its interfaces
(`ingestDevice`), and the links that a crawl found are reconciled with those on
record (`ingestLinks`). Both are programs of single statements: what they read may
have changed by the time they write. -/

namespace JaspyNexus.Utilities.Discovery
open JaspyNexus.Lib JaspyNexus.Models

/-! ## Payloads -/

structure DiscoveredInterface where
  index : Int
  interfaceType : String
  name : String
  ifAlias : Option String
  description : Option String
  media : Option String
  cdpDeviceId : Option String
  cdpDevicePort : Option String
  deriving DecidableEq, Repr

/-- `DiscoveredDevice`, its interfaces in the order the map gives them. -/
structure DiscoveredDevice where
  name : String
  dnsDomain : String
  snmpCommunity : Option String
  baseMac : Option String
  osInfo : Option String
  interfaces : List DiscoveredInterface
  deviceType : Option String
  softwareVersion : Option String
  deriving DecidableEq, Repr

structure LinkPeerInfo where
  name : String
  dnsDomain : String
  interface : String
  deriving DecidableEq, Repr

structure LinkInfo where
  deviceFqdn : String
  interfaces : PMap String (Option LinkPeerInfo)
  topologyStable : Bool

/-- The peer that a payload names for an interface: a name without an entry, or with
an empty one, has none. -/
def LinkInfo.peer (links : LinkInfo) (name : String) : Option LinkPeerInfo :=
  (links.interfaces name).join

/-- `splitn(2, ".")`, when it gives two parts. -/
def splitFqdn (fqdn : String) : Option (String × String) :=
  match fqdn.toList.dropWhile (· != '.') with
  | [] => none
  | _ :: domain => some (String.ofList (fqdn.toList.takeWhile (· != '.')), String.ofList domain)

/-! ## Devices -/

/-- What a discovered interface sets in its row: the media and the CDP neighbour only
when this crawl has seen them. -/
def DiscoveredInterface.change (interface : DiscoveredInterface) : InterfaceChange where
  index := some interface.index
  interfaceType := some interface.interfaceType
  name := some interface.name
  ifAlias := some interface.ifAlias
  description := some interface.description
  media := if interface.media.isSome then some interface.media else none
  cdpDeviceId := if interface.cdpDeviceId.isSome then some interface.cdpDeviceId else none
  cdpDevicePort := if interface.cdpDeviceId.isSome then some interface.cdpDevicePort else none

def DiscoveredInterface.new (interface : DiscoveredInterface) (deviceId : Int) : NewInterface where
  index := interface.index
  interfaceType := interface.interfaceType
  deviceId := deviceId
  name := interface.name
  ifAlias := interface.ifAlias
  description := interface.description
  media := interface.media
  cdpDeviceId := interface.cdpDeviceId
  cdpDevicePort := interface.cdpDevicePort

def DiscoveredDevice.new (discovered : DiscoveredDevice) : NewDevice where
  name := discovered.name
  dnsDomain := discovered.dnsDomain
  snmpCommunity := discovered.snmpCommunity
  baseMac := discovered.baseMac
  pollingEnabled := none
  osInfo := discovered.osInfo
  deviceType := discovered.deviceType
  softwareVersion := discovered.softwareVersion

/-- The device row with what was discovered set in it. -/
def DiscoveredDevice.update (discovered : DiscoveredDevice) (device : Device) : Device :=
  { device with
    baseMac := discovered.baseMac
    osInfo := discovered.osInfo
    snmpCommunity := discovered.snmpCommunity
    softwareVersion := discovered.softwareVersion
    deviceType := discovered.deviceType }

/-- The device row of the payload, updated or created; none ends the ingest. -/
def ingestDeviceRow (discovered : DiscoveredDevice) : Prog Call (Option Device) :=
  let fqdn := discovered.name ++ "." ++ discovered.dnsDomain
  (Prog.lift (.findDevice discovered.name discovered.dnsDomain)).bind fun
    | some existing =>
      let updated := discovered.update existing
      Prog.bind
        (if existing.osInfo = discovered.osInfo then .done ()
        else .lift (.publish (.osInfoChanged fqdn existing.osInfo discovered.osInfo))) fun _ =>
      Prog.bind
        (if existing.baseMac = discovered.baseMac then .done ()
        else .lift (.publish (.baseMacChanged fqdn existing.baseMac discovered.baseMac))) fun _ =>
      (Prog.lift (.updateDevice updated)).bind fun ok => .done (if ok then some updated else none)
    | none =>
      (Prog.lift (.publish (.created fqdn))).bind fun _ => .lift (.createDevice discovered.new)

/-- One discovered interface: into the first of the device's rows of that name, or
into a new row. -/
def ingestInterface (deviceId : Int) (current : List Interface) (interface : DiscoveredInterface) :
    Prog Call Unit :=
  match current.find? fun row => row.name = interface.name with
  | some row => .lift' (.updateInterface row interface.change)
  | none => .lift' (.createInterface (interface.new deviceId))

/-- `Interface::delete`: the links to the interface are cleared, then its row goes. -/
def deleteInterface (id : Int) : Prog Call Bool :=
  (Prog.lift (.interfacesAt id)).bind fun peers =>
  (Prog.each (fun peer => .lift' (.updateInterface peer (.link none))) peers).bind fun _ =>
  .lift (.deleteInterface id)

/-- One of the device's rows that the payload has no interface for. -/
def deleteStale (names : List String) (row : Interface) : Prog Call Unit :=
  if row.name ∈ names then .done () else (deleteInterface row.id).bind fun _ => .done ()

/-- `ingest_device`. -/
def ingestDevice (discovered : DiscoveredDevice) : Prog Call Unit :=
  (ingestDeviceRow discovered).bind fun
    | none => .done ()
    | some device =>
      (Prog.lift (.interfacesOf device.id)).bind fun current =>
      (Prog.each (ingestInterface device.id current) discovered.interfaces).bind fun _ =>
      (Prog.each (deleteStale (discovered.interfaces.map DiscoveredInterface.name)) current).bind
        fun _ => .lift .invalidateWeathermap

/-! ## Links -/

/-- `clear_connection`. -/
def clearConnection (interface : Interface) : Prog Call Unit :=
  match interface.connectedInterface with
  | none => .done ()
  | some _ => .lift' (.updateInterface interface (.link none))

/-- `Interface::peer_interface`: a virtual connection goes before the discovered one. -/
def peerInterface (interface : Interface) : Prog Call (Option Interface) :=
  match interface.virtualConnection.or interface.connectedInterface with
  | none => .done none
  | some id => .lift (.interfaceById id)

/-- The link of an interface is set to a port of its peer device, if that is there. -/
def createLink (interface : Interface) (peerDevice : Device) (port : String) : Prog Call Unit :=
  (Prog.lift (.interfaceByName peerDevice.id port)).bind fun
    | some peer => .lift' (.updateInterface interface (.link (some peer.id)))
    | none => .done ()

/-- The link of an interface on record leads elsewhere than its payload says. -/
def moved (old : Interface) (peerDevice : Device) (port : String) : Bool :=
  old.deviceId ≠ peerDevice.id || port ≠ old.name

/-- One interface of the local device, as it was read at the start. -/
def ingestLink (links : LinkInfo) (interface : Interface) : Prog Call Unit :=
  match links.peer interface.name with
  | none => if links.topologyStable then .done () else clearConnection interface
  | some peer =>
    (Prog.lift (.findDevice peer.name peer.dnsDomain)).bind fun
      | none => if links.topologyStable then .done () else clearConnection interface
      | some peerDevice =>
        (peerInterface interface).bind fun
          | none => createLink interface peerDevice peer.interface
          | some old =>
            if moved old peerDevice peer.interface then
              (createLink interface peerDevice peer.interface).bind fun _ =>
              -- the far end that the link led to loses its own
              if links.topologyStable then .done () else .lift' (.updateInterface old (.link none))
            else .done ()

/-- `ingest_links`. -/
def ingestLinks (links : LinkInfo) : Prog Call Unit :=
  match splitFqdn links.deviceFqdn with
  | none => .done ()
  | some (hostname, domain) =>
    (Prog.lift (.findDevice hostname domain)).bind fun
      | none => .done ()
      | some localDevice =>
        (Prog.lift (.interfacesOf localDevice.id)).bind fun rows =>
        (Prog.each (ingestLink links) rows).bind fun _ => .lift .invalidateWeathermap

/-- The links of a crawl, one payload after the other, as `perform_discovery_run`
ingests them. -/
def ingestAllLinks (payloads : List LinkInfo) : Prog Call Unit := Prog.each ingestLinks payloads

end JaspyNexus.Utilities.Discovery
