import Mathlib
import JaspyNexus.Collectors.Detection

/-! # Links

Link resolution of `collectors/discovery.rs`: which detected device a neighbour is, which
of its interfaces is meant, and the payload that a device's links are ingested with. The
maps of devices and of interfaces are visited in the order of their entries. -/

namespace JaspyNexus.Collectors.Discovery.Links
open JaspyNexus.Lib JaspyNexus.Lib.Text JaspyNexus.Utilities.Discovery

namespace DetectedDevice
variable (d : DetectedDevice)

def lookupPortByCdpInfo (cdpCacheDevicePort : String) : Option Int := d.anythingToInterface cdpCacheDevicePort

/-- A port id as it is, without decoding. -/
def lookupPortVerbatim (portId subtype : String) : Option Int :=
  (if subtype = "local" then d.lldpLocalMapping portId else none).or (d.anythingToInterface portId)

def lookupPortByLldpRemoteInfo (portId subtype : String) : Option (Option Int) :=
  if subtype = "macAddress" && d.hasBug .lldpMacaddressDuplicate then some none
  else match d.lookupPortVerbatim portId subtype with
    | some ifindex => some (some ifindex)
    | none =>
      if subtype = "local" || subtype = "interfaceName" then
        (tryUnhexAscii portId).map fun decodedPort => decodedPort.bind d.anythingToInterface
      else some none

end DetectedDevice

variable (params : RunParams) (network : Network) (detected : HashMap String DetectedDevice)

/-! ## Neighbours -/

def colond (chassisId : String) : String := replace chassisId " " ":"

def lookupLldpNeighbor (descriptor : LldpNeighbor) : Option DetectedDevice :=
  match (tryResolve params network descriptor.remSysName).bind detected.lookup with
  | some device => some device
  | none => detected.values.find? fun device => device.getChassisId = some (colond descriptor.remChassisId)

def lookupCdpNeighbor (descriptor : CdpNeighbor) : Option DetectedDevice :=
  (tryResolve params network descriptor.deviceId).bind detected.lookup

/-- `lookup_lldp_neighbor_port` in reverse: without a port that is named, it gives up. -/
def lookupReversePort (descriptor : LldpNeighbor) (lldpNeighbor : DetectedDevice) : Option (Option Int) :=
  lldpNeighbor.lookupPortByLldpRemoteInfo descriptor.remPortId descriptor.remPortIdSubtype

/-- What the neighbour says of the local device. -/
inductive Reference where
  | no
  | device
  /-- it points back to the local port -/
  | port
  deriving DecidableEq, Repr

/-- The loop over the entries of one interface of the neighbour. -/
def references (refersTo : LldpNeighbor → Option Reference) : List LldpNeighbor → Reference → Option Reference
  | [], ref => some ref
  | revDescriptor :: rest, ref =>
    (refersTo revDescriptor).bind fun
    | .port => some .port
    | .device => references refersTo rest .device
    | .no => references refersTo rest ref

/-- The loop over the interfaces of the neighbour, with the number of those that refer to
the local device, and the last of them. -/
def searchReverse (refersTo : DiscoveredIface → Option Reference) :
    List DiscoveredIface → Nat → Option Int → Option (Option Int)
  | [], numRefs, lastChecked => some (if numRefs = 1 then lastChecked else none)
  | revInterface :: rest, numRefs, lastChecked =>
    (refersTo revInterface).bind fun
    | .port => some (some revInterface.ifindex)
    | .device => searchReverse refersTo rest (numRefs + 1) (some revInterface.ifindex)
    | .no => searchReverse refersTo rest numRefs lastChecked

section Port
variable (localDeviceFqdn : String) (localPortIfindex : Int)

/-- What an entry that is taken for a device says of the local port. -/
def pointsTo (revDescriptor : LldpNeighbor) (revLldpNeighbor : DetectedDevice) : Option Reference :=
  if revLldpNeighbor.fqdn = localDeviceFqdn then
    (lookupReversePort revDescriptor revLldpNeighbor).map fun port =>
      if port = some localPortIfindex then .port else .device
  else some .no

def entryReference (revDescriptor : LldpNeighbor) : Option Reference :=
  match lookupLldpNeighbor params network detected revDescriptor with
  | none => some .no
  | some revLldpNeighbor => pointsTo localDeviceFqdn localPortIfindex revDescriptor revLldpNeighbor

def interfaceReference (revInterface : DiscoveredIface) : Option Reference :=
  references (entryReference params network detected localDeviceFqdn localPortIfindex) revInterface.lldp .no

def lookupLldpNeighborPort (descriptor : LldpNeighbor) (lldpNeighbor : DetectedDevice) : Option (Option Int) :=
  (lldpNeighbor.lookupPortByLldpRemoteInfo descriptor.remPortId descriptor.remPortIdSubtype).bind fun
  | some remotePort => some (some remotePort)
  | none =>
    searchReverse (interfaceReference params network detected localDeviceFqdn localPortIfindex)
      lldpNeighbor.interfaces.values 0 none

/-! ## Connections -/

/-- The device and the port that an entry leads to. -/
def entryLink (descriptor : LldpNeighbor) : Option (Option (String × Int)) :=
  match lookupLldpNeighbor params network detected descriptor with
  | none => some none
  | some lldpNeighbor =>
    (lookupLldpNeighborPort params network detected localDeviceFqdn localPortIfindex descriptor
      lldpNeighbor).map fun port => port.map fun port => (lldpNeighbor.fqdn, port)

/-- The first entry that leads to a detected device and a port of it. -/
def lldpLinkCandidate (entries : List LldpNeighbor) : Option (Option (String × Int)) :=
  entries.findSomeM? (entryLink params network detected localDeviceFqdn localPortIfindex)

end Port

def cdpLinkCandidate (interface : DiscoveredIface) : Option (String × Int) :=
  interface.cdp.bind fun descriptor =>
    (lookupCdpNeighbor params network detected descriptor).bind fun cdpNeighbor =>
      (cdpNeighbor.lookupPortByCdpInfo descriptor.devicePort).map fun port => (cdpNeighbor.fqdn, port)

/-- The link of one interface. -/
def linkOf (fqdn : String) (ifindex : Int) (interface : DiscoveredIface) : Option (Option (String × Int)) :=
  if interface.lldp.isEmpty && interface.cdp.isNone then some none
  else (lldpLinkCandidate params network detected fqdn ifindex interface.lldp).map fun link =>
    link.or (cdpLinkCandidate params network detected interface)

/-- The links of each device, by the ifIndex they start at. -/
abbrev LinkMap := PMap String (PMap Int (String × Int))

/-- The link of an interface goes into the map, if it has one. -/
def connect (fqdn : String) (links : LinkMap) (e : Sigma fun _ : Int => DiscoveredIface) : Option LinkMap :=
  (linkOf params network detected fqdn e.1 e.2).map fun
  | some link => Nested.insert links fqdn e.1 link
  | none => links

def connectDevice (links : LinkMap) (e : Sigma fun _ : String => DetectedDevice) : Option LinkMap :=
  e.2.interfaces.entries.foldlM (connect params network detected e.1) links

def buildConnections : Option LinkMap :=
  detected.entries.foldlM (connectDevice params network detected) PMap.empty

/-! ## Payloads -/

def peerInfo (peer : String × Int) : Option LinkPeerInfo :=
  (splitFqdn peer.1).bind fun p =>
    ((detected.lookup peer.1).bind fun device => device.interfaces.lookup peer.2).map fun iface =>
      ⟨p.1, p.2, iface.ifName⟩

def linkInfoPayload (device : DetectedDevice) (links : LinkMap) (topologyStable : Bool) : LinkInfo where
  deviceFqdn := device.fqdn
  interfaces := device.interfaces.entries.foldl
    (fun interfaces e => interfaces.insert e.2.ifName
      ((Nested.get links device.fqdn e.1).bind (peerInfo detected))) PMap.empty
  topologyStable := topologyStable

/-! ## What the map of links holds -/

section Map
variable {params network detected} {links : LinkMap}

/-- The interfaces of all devices. -/
def ends (detected : HashMap String DetectedDevice) : List (String × Int × DiscoveredIface) :=
  detected.entries.flatMap fun e => e.2.interfaces.entries.map fun i => (e.1, i.1, i.2)

def endKey (row : String × Int × DiscoveredIface) : String × Int := (row.1, row.2.1)

/-- The interface of a detected device. -/
def endAt (detected : HashMap String DetectedDevice) (fqdn : String) (ifindex : Int) : Option DiscoveredIface :=
  (detected.lookup fqdn).bind fun device => device.interfaces.lookup ifindex

theorem mem_ends {fqdn : String} {ifindex : Int} {iface : DiscoveredIface} :
    (fqdn, ifindex, iface) ∈ ends detected ↔ endAt detected fqdn ifindex = some iface := by
  simp only [ends, List.mem_flatMap, List.mem_map, Prod.mk.injEq, endAt, Option.bind_eq_some_iff]
  constructor
  · intro ⟨e, he, i, hi, hfqdn, hifindex, hiface⟩
    subst hfqdn hifindex hiface
    exact ⟨e.2, HashMap.mem_entries.mp he, HashMap.mem_entries.mp hi⟩
  · intro ⟨device, hdevice, hiface⟩
    exact ⟨⟨fqdn, device⟩, HashMap.mem_entries.mpr hdevice, ⟨ifindex, iface⟩,
      HashMap.mem_entries.mpr hiface, rfl, rfl, rfl⟩

theorem ends_nodup (detected : HashMap String DetectedDevice) : ((ends detected).map endKey).Nodup := by
  have hkeys : detected.entries.Pairwise fun e e' => e.1 ≠ e'.1 :=
    List.pairwise_map.mp detected.nodupKeys
  unfold ends
  rw [List.map_flatMap, List.nodup_flatMap]
  refine ⟨fun e _ => ?_, hkeys.imp fun hne => ?_⟩
  · rw [List.map_map]
    refine List.Nodup.of_map Prod.snd ?_
    rw [List.map_map]
    exact e.2.interfaces.nodupKeys
  · simp only [Function.onFun, List.disjoint_left, List.mem_map]
    intro key ⟨_, ⟨i, _, hi⟩, hkey⟩ ⟨_, ⟨i', _, hi'⟩, hkey'⟩
    subst hi hi' hkey
    exact hne (congrArg Prod.fst hkey').symm

theorem connect_eq_write (fqdn : String) : connect params network detected fqdn =
    fun links e => Nested.write endKey (fun row => linkOf params network detected row.1 row.2.1 row.2.2)
      links (fqdn, e.1, e.2) := by
  funext links e
  unfold connect Nested.write
  dsimp only
  cases linkOf params network detected fqdn e.1 e.2 with
  | none => rfl
  | some link => cases link <;> rfl

theorem buildConnections_eq_foldlM : buildConnections params network detected =
    (ends detected).foldlM
      (Nested.write endKey fun row => linkOf params network detected row.1 row.2.1 row.2.2) PMap.empty := by
  unfold buildConnections ends
  generalize detected.entries = entries
  generalize (PMap.empty : LinkMap) = links
  induction entries generalizing links with
  | nil => rfl
  | cons e rest ih =>
    rw [List.foldlM_cons, List.flatMap_cons, List.foldlM_append, List.foldlM_map]
    simp only [connectDevice, connect_eq_write, ih]

/-- **The map of links**: nothing but the link that each interface has, each by itself. -/
theorem buildConnections_eq_some_iff : buildConnections params network detected = some links ↔
    Nested.Filled links ∧
    (∀ fqdn ifindex iface, endAt detected fqdn ifindex = some iface →
      linkOf params network detected fqdn ifindex iface = some (Nested.get links fqdn ifindex)) ∧
    ∀ fqdn ifindex, endAt detected fqdn ifindex = none → Nested.get links fqdn ifindex = none := by
  have hkeys : ∀ fqdn ifindex, (fqdn, ifindex) ∉ (ends detected).map endKey ↔
      endAt detected fqdn ifindex = none := by
    intro fqdn ifindex
    rw [Option.eq_none_iff_forall_ne_some]
    constructor
    · intro hout iface hiface
      exact hout (List.mem_map.mpr ⟨_, mem_ends.mpr hiface, rfl⟩)
    · intro hout hin
      obtain ⟨⟨fqdn', ifindex', iface⟩, hrow, hkey⟩ := List.mem_map.mp hin
      obtain ⟨rfl, rfl⟩ := Prod.mk.inj hkey
      exact hout iface (mem_ends.mp hrow)
  rw [buildConnections_eq_foldlM, Nested.foldlM_eq_some_iff (ends_nodup detected)]
  refine and_congr_right fun _ => and_congr ⟨fun h fqdn ifindex iface hiface => ?_, fun h row hrow => ?_⟩
    (forall_congr' fun fqdn => forall_congr' fun ifindex => imp_congr_left (hkeys fqdn ifindex))
  · exact h _ (mem_ends.mpr hiface)
  · exact h row.1 row.2.1 row.2.2 (mem_ends.mp hrow)

end Map
end JaspyNexus.Collectors.Discovery.Links
