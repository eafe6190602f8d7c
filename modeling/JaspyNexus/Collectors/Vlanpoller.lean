import Mathlib
import JaspyNexus.Lib.LastWrite
import JaspyNexus.Collectors.Vendor

/-! # VLAN membership

The decoders and sources of `collectors/vlanpoller.rs`: each port's native and
tagged VLANs, from the Cisco tables or from Q-BRIDGE. A set the code only tests
is the list of its elements; a `BTreeSet` is a sorted list. -/

namespace JaspyNexus.Collectors.Vlanpoller
open JaspyNexus.Lib JaspyNexus.Snmp

structure InterfaceVlans where
  nativeVlan : Option Int
  taggedVlans : List Int
  deriving DecidableEq, Repr

/-- `DeviceVlans`: membership by ifIndex, and the VLANs' names. -/
structure DeviceVlans where
  interfaces : AList fun _ : Int => InterfaceVlans
  names : AList fun _ : Int => String

/-! ## Cisco -/

/-- An ethernet row of `vtpVlanTable`, by its VLAN. -/
def vtpEthernet (entry : ResultEntry) : Option Int :=
  if objStr entry.objects "CISCO-VTP-MIB::vtpVlanType" = some "ethernet" then
    entry.index "CISCO-VTP-MIB::vtpVlanIndex"
  else none

/-- `active_vlans`. -/
def activeVlans (vtpVlans : Response) : List Int :=
  vtpVlans.entries.filterMap fun entry =>
    if objStr entry.objects "CISCO-VTP-MIB::vtpVlanState" = some "operational" then vtpEthernet entry
    else none

/-- `cisco_vlan_names`. -/
def ciscoVlanNames (vtpVlans : Response) : AList fun _ : Int => String :=
  writeAll (fun entry => (vtpEthernet entry).bind fun vlan =>
    (objStr entry.objects "CISCO-VTP-MIB::vtpVlanName").bind fun name =>
      if name = "" then none else some (vlan, name)) vtpVlans.entries

/-- The positive value of a column. -/
def positive (objects : PMap String Val) (key : String) : Option Int :=
  (objI64 objects key).filter fun v => 0 < v

/-- The access VLANs of `vmMembershipTable`. -/
def accessVlans (membership : Option Response) : AList fun _ : Int => Int :=
  writeAll (fun entry : ResultEntry => (entry.index "IF-MIB::ifIndex").bind fun ifIndex =>
    (positive entry.objects "CISCO-VLAN-MEMBERSHIP-MIB::vmVlan").map fun vlan => (ifIndex, vlan))
    ((membership.map Response.entries).getD [])

/-- The row's port is a trunk. -/
def trunking (entry : ResultEntry) : Bool :=
  objStr entry.objects "CISCO-VTP-MIB::vlanTrunkPortDynamicStatus" = some "trunking"

def trunkNative (entry : ResultEntry) : Option Int :=
  positive entry.objects "CISCO-VTP-MIB::vlanTrunkPortNativeVlan"

/-- The VLANs a trunk allows. -/
def trunkEnabled (entry : ResultEntry) : List Int :=
  objBitmap entry "CISCO-VTP-MIB::vlanTrunkPortVlansEnabled" 0 ++
    objBitmap entry "CISCO-VTP-MIB::vlanTrunkPortVlansEnabled2k" 1024 ++
    objBitmap entry "CISCO-VTP-MIB::vlanTrunkPortVlansEnabled3k" 2048 ++
    objBitmap entry "CISCO-VTP-MIB::vlanTrunkPortVlansEnabled4k" 3072

/-- What a row of the trunk table says of its port. -/
def ciscoPort (active : List Int) (access : AList fun _ : Int => Int) (entry : ResultEntry) :
    Option (Int × InterfaceVlans) :=
  (entry.index "CISCO-VTP-MIB::vlanTrunkPortIfIndex").bind fun ifIndex =>
    if trunking entry then
      some (ifIndex, ⟨trunkNative entry,
        (trunkEnabled entry).filter fun v => v ∈ active ∧ some v ≠ trunkNative entry⟩)
    else (access.lookup ifIndex).map fun vlan => (ifIndex, ⟨some vlan, []⟩)

/-- `decode_cisco`. -/
def decodeCisco (trunk : Response) (vtpVlans membership : Option Response) :
    AList fun _ : Int => InterfaceVlans :=
  writeAll (ciscoPort ((vtpVlans.map activeVlans).getD []) (accessVlans membership)) trunk.entries

/-- `CiscoVtpSource::collect`. -/
def ciscoCollect (fetch : Fetch) : Option DeviceVlans :=
  (fetch "cisco-vtp" "CISCO-VTP-MIB::jaspyVlanTrunkPortTable").bind fun trunk =>
    if trunk.entries = [] then none
    else
      let vtpVlans := fetch "cisco-vtp" "CISCO-VTP-MIB::vtpVlanTable"
      let membership := fetch "cisco-vtp" "CISCO-VLAN-MEMBERSHIP-MIB::vmMembershipTable"
      let decoded := decodeCisco trunk vtpVlans membership
      if decoded.entries = [] then none
      else some ⟨decoded, (vtpVlans.map ciscoVlanNames).getD ∅⟩

/-! ## Q-BRIDGE -/

/-- The ifIndex of each bridge port. -/
def ifIndexByBridgePort (basePorts : Response) : AList fun _ : Int => Int :=
  writeAll (fun entry : ResultEntry => (entry.index "BRIDGE-MIB::dot1dBasePort").bind fun port =>
    (objI64 entry.objects "BRIDGE-MIB::dot1dBasePortIfIndex").map fun ifIndex => (port, ifIndex))
    basePorts.entries

/-- The native VLANs of `dot1qPortVlanTable`. -/
def bridgeNative (ports : AList fun _ : Int => Int) (pvid : Option Response) :
    AList fun _ : Int => Int :=
  writeAll (fun entry : ResultEntry => (entry.index "BRIDGE-MIB::dot1dBasePort").bind fun port =>
    (ports.lookup port).bind fun ifIndex =>
      (positive entry.objects "Q-BRIDGE-MIB::dot1qPvid").map fun vlan => (ifIndex, vlan))
    ((pvid.map Response.entries).getD [])

/-- The bridge ports a VLAN row tags: egress without untagged, each from the
static column where the current one is empty. -/
def taggedPorts (entry : ResultEntry) : List Int :=
  let column (current static : String) : List Int :=
    let ports := objBitmap entry current 1
    if ports = [] then objBitmap entry static 1 else ports
  let egress := column "Q-BRIDGE-MIB::dot1qVlanCurrentEgressPorts"
    "Q-BRIDGE-MIB::dot1qVlanStaticEgressPorts"
  let untagged := column "Q-BRIDGE-MIB::dot1qVlanCurrentUntaggedPorts"
    "Q-BRIDGE-MIB::dot1qVlanStaticUntaggedPorts"
  egress.filter fun port => port ∉ untagged

/-- Insert into a `BTreeSet`. -/
def insertSorted (v : Int) (set : List Int) : List Int :=
  if v ∈ set then set else set.orderedInsert (· ≤ ·) v

/-- Tag a VLAN on one bridge port, where its ifIndex is known. -/
def tagPort (ports : AList fun _ : Int => Int) (vlan : Int) (tagged : AList fun _ : Int => List Int)
    (port : Int) : AList fun _ : Int => List Int :=
  match ports.lookup port with
  | none => tagged
  | some ifIndex => tagged.insert ifIndex (insertSorted vlan ((tagged.lookup ifIndex).getD []))

/-- The tagged VLANs of each port, over the rows. -/
def bridgeTagged (ports : AList fun _ : Int => Int) (vlanPorts : Option Response) :
    AList fun _ : Int => List Int :=
  ((vlanPorts.map Response.entries).getD []).foldl (fun tagged entry =>
    match entry.index "Q-BRIDGE-MIB::dot1qVlanIndex" with
    | none => tagged
    | some vlan => (taggedPorts entry).foldl (tagPort ports vlan) tagged) ∅

/-- A port's entry with its tagged VLANs, less the native one. -/
def tagEntry (set : List Int) (existing : Option InterfaceVlans) : InterfaceVlans :=
  let entry := existing.getD ⟨none, []⟩
  { entry with taggedVlans := set.filter fun v => some v ≠ entry.nativeVlan }

/-- `decode_qbridge`. -/
def decodeQbridge (pvid vlanPorts : Option Response) (basePorts : Response) :
    AList fun _ : Int => InterfaceVlans :=
  let ports := ifIndexByBridgePort basePorts
  let native := bridgeNative ports pvid
  let tagged := bridgeTagged ports vlanPorts
  tagged.entries.foldl (fun result e => result.insert e.1 (tagEntry e.2 (result.lookup e.1)))
    (native.entries.foldl (fun result e => result.insert e.1 ⟨some e.2, []⟩) ∅)

/-- `qbridge_vlan_names`. -/
def qbridgeVlanNames (vlanStatic : Response) : AList fun _ : Int => String :=
  writeAll (fun entry => (entry.index "Q-BRIDGE-MIB::dot1qVlanIndex").bind fun vlan =>
    (objStr entry.objects "Q-BRIDGE-MIB::dot1qVlanStaticName").bind fun name =>
      if name = "" then none else some (vlan, name)) vlanStatic.entries

/-- The table the port memberships are read from: the current one, when it
answers with rows, else the static one. -/
def vlanPortsOf (current vlanStatic : Option Response) : Option Response :=
  match current with
  | some current => if current.entries = [] then vlanStatic else some current
  | none => vlanStatic

/-- `QBridgeSource::collect`. -/
def qbridgeCollect (fetch : Fetch) : Option DeviceVlans :=
  (fetch "q-bridge" "BRIDGE-MIB::dot1dBasePortTable").bind fun basePorts =>
    let pvid := fetch "q-bridge" "Q-BRIDGE-MIB::dot1qPortVlanTable"
    let vlanStatic := fetch "q-bridge" "Q-BRIDGE-MIB::dot1qVlanStaticTable"
    let vlanPorts := vlanPortsOf (fetch "q-bridge" "Q-BRIDGE-MIB::dot1qVlanCurrentTable") vlanStatic
    let decoded := decodeQbridge pvid vlanPorts basePorts
    if decoded.entries = [] then none
    else some ⟨decoded, (vlanStatic.map qbridgeVlanNames).getD ∅⟩

/-! ## Sources and store -/

def ciscoVtpSource : Source Fetch DeviceVlans := ⟨"cisco-vtp", .cisco, ciscoCollect⟩
def qBridgeSource : Source Fetch DeviceVlans := ⟨"q-bridge", .generic, qbridgeCollect⟩

def sources : List (Source Fetch DeviceVlans) := [ciscoVtpSource, qBridgeSource]

/-- `poll_device`. -/
def pollDevice (fetch : Fetch) (fqdn : String) (hint : Vendor) (cache : SourceCache) :
    Option DeviceVlans × SourceCache := collectFirst cache fqdn hint sources fetch

/-- `VlanStore`. -/
abbrev VlanStore := PMap String DeviceVlans

end JaspyNexus.Collectors.Vlanpoller
