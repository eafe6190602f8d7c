import Mathlib
import JaspyNexus.Lib.HashMap
import JaspyNexus.Collectors.PortChannel
import JaspyNexus.Models.Dbo
import JaspyNexus.Utilities.FleetIssues
import JaspyNexus.Utilities.Imds
import JaspyNexus.Utilities.StpForest

/-! # The issues of the fleet

`collect_issues` of `routes/api/v1.rs`: one pass over the stores and the database, from
which every issue of every device is derived. What the pass reads is a snapshot here. -/

namespace JaspyNexus.Routes.Fleet
open JaspyNexus.Lib JaspyNexus.Lib.Text JaspyNexus.Models JaspyNexus.Utilities JaspyNexus.Utilities.Issues
open JaspyNexus.Collectors.Lagpoller
open JaspyNexus.Utilities.Health (HealthConfig)
open JaspyNexus.Utilities.Stp (StpPort StpBridge StpInputs StpTree InterfaceConnection)

/-! ## Snapshots -/

/-- What is read. -/
structure Snapshot where
  now : Nat
  db : Database
  cfg : HealthConfig
  imds : Imds
  /-- the order in which the interfaces of a device are visited -/
  visited : String → List Int
  lags : LagStore
  stpPorts : HashMap String (List StpPort)
  stpBridges : PMap String (List StpBridge)
  /-- what the read through the topology's cache gives -/
  topology : Stp.WeathermapBase
  vlanMembers : PMap String (PMap Int (Option Int × List Int))
  vlanNames : PMap Int (List String)
  expectedRoots : PMap Int (PMap String (Option String))
  poeBudgets : HashMap String (List PoeBudget)
  /-- the optics of a device's interfaces, by the ids of their rows -/
  media : String → PMap Int String
  suppressed : List String

/-- A snapshot whose names tell devices and interfaces apart, and whose PSE groups have numbers. -/
structure NamedSnapshot extends Snapshot where
  fqdns : (db.devices.map Device.fqdn).Nodup
  plain : ∀ fqdn, fqdn ∈ db.devices.map Device.fqdn ∨ fqdn ∈ stpPorts ∨ fqdn ∈ poeBudgets → '|' ∉ fqdn.toList
  names : ∀ device ∈ db.devices, ((db.interfacesOf device).map Interface.name).Nodup
  groups : ∀ fqdn budgets, poeBudgets.lookup fqdn = some budgets → (budgets.map PoeBudget.group).Nodup
  visits : ∀ fqdn device, imds.devices fqdn = some device →
    (visited fqdn).Nodup ∧ ∀ i, i ∈ visited fqdn ↔ (device.interfaces i).isSome

theorem groups_empty (fqdn : String) (budgets : List PoeBudget)
    (h : (∅ : HashMap String (List PoeBudget)).lookup fqdn = some budgets) :
    (budgets.map PoeBudget.group).Nodup := by
  cases h

theorem visits_empty (fqdn : String) (device : DeviceMetrics) (h : Imds.empty.devices fqdn = some device) :
    ([] : List Int).Nodup ∧ ∀ i, i ∈ [] ↔ (device.interfaces i).isSome := by
  cases h

namespace Snapshot
variable (s : Snapshot)

/-! ## Far ends -/

/-- The end of a link at this interface; its device is on record by the schema. -/
def connection (interface : Interface) : InterfaceConnection :=
  ⟨((s.db.devices.find? fun device => device.id = interface.deviceId).map Device.fqdn).getD "", interface.shownName⟩

/-- The peer of an interface, by its own link. -/
def forward (interface : Interface) : Option InterfaceConnection :=
  (interface.virtualConnection.or interface.connectedInterface).bind fun id =>
    (s.db.interfaces.find? fun row => row.id = id).map s.connection

/-- The first interface that points at this one. -/
def reverse (interface : Interface) : Option InterfaceConnection :=
  (s.db.interfaces.find? fun row =>
    row.connectedInterface = some interface.id || row.virtualConnection = some interface.id).map s.connection

/-- The raw neighbour of an interface whose far end is not monitored. -/
def cdpNeighbor (interface : Interface) (monitored : Option InterfaceConnection) : Option CdpNeighbor :=
  if monitored.isSome then none
  else (interface.cdpDeviceId.filter fun id => trim id ≠ "").map fun id =>
    ⟨id, interface.cdpDevicePort.filter fun port => trim port ≠ ""⟩

def isLagMember (fqdn : String) (ifIndex : Int) : Bool :=
  ((s.lags fqdn).map fun lags => lags.groups.entries.any fun e => decide (ifIndex ∈ e.2.members)).getD false

/-- A member of an aggregate, or a port with a neighbour. -/
def isInfrastructure (fqdn : String) (interface : Interface) : Bool :=
  s.isLagMember fqdn interface.index ||
    (interface.connectedInterface.isSome || interface.virtualConnection.isSome || (s.reverse interface).isSome) ||
    (interface.cdpDeviceId.map fun id => decide (trim id ≠ "")).getD false

/-- The last of the device's infrastructure ports with the ifIndex, as `infra_ports` and
`iface_conns` hold it. -/
def infraPort (device : Device) (ifIndex : Int) : Option Interface :=
  ((s.db.interfacesOf device).filter fun row => row.index = ifIndex && s.isInfrastructure device.fqdn row).getLast?

/-! ## Devices and their interfaces -/

/-- The issues of one interface. -/
def interfaceIssues (device : Device) (metrics : DeviceMetrics) (ifIndex : Int) : List DerivedIssue :=
  match metrics.interfaces ifIndex with
  | none => []
  | some m =>
    let infra := s.infraPort device ifIndex
    let monitored := infra.bind fun row => (s.forward row).or (s.reverse row)
    let cdp := infra.bind fun row => cdpNeighbor row monitored
    (match s.imds.health.summary s.cfg device.fqdn ifIndex s.now m.lastReport with
      | some summary =>
        interfaceHealthIssues device.fqdn ifIndex m.name (apiInterfaceHealth summary) infra.isSome monitored cdp
      | none => []) ++
    (if m.errDisabled then
      [errDisabledIssue device.fqdn ifIndex m.name m.errDisableCause m.errDisableRecoverSecs monitored] else [])

/-- The issues of one device, from the data store. -/
def deviceIssues (device : Device) : List DerivedIssue :=
  match s.imds.devices device.fqdn with
  | none => []
  | some metrics =>
    let sinceLastPoll := if 0 < metrics.lastPoll then some ((s.now - metrics.lastPoll) / 1000) else none
    (deviceDownIssue device.fqdn metrics.up sinceLastPoll).toList ++
      (s.visited device.fqdn).flatMap (s.interfaceIssues device metrics)

/-! ## Spanning trees -/

/-- `lag_members`. -/
def lagMembers : PMap String (AList fun _ : Int => List Int) := fun fqdn =>
  (s.lags fqdn).map fun lags =>
    { entries := lags.groups.entries.map
        (Sigma.map id fun _ (group : LagGroup) => (HashMap.byKey group.members).map Prod.fst)
      nodupKeys := List.NodupKeys.map₂ _ _ lags.groups.nodupKeys }

def stpInputs : StpInputs where
  ports := s.stpPorts
  bridges := s.stpBridges
  baseMacs := (s.db.devices.map fun device => (⟨device.fqdn, device.baseMac⟩ : Sigma fun _ => Option String)).toAList
  topology := s.topology
  lagMembers := s.lagMembers
  vlanMembers := s.vlanMembers

/-- The VLANs with spanning tree data, in order. -/
def vlans : List Int :=
  ((s.stpPorts.entries.flatMap fun e => e.2.map StpPort.vlan).dedup).insertionSort (· ≤ ·)

/-- The tree of a VLAN, on fuel that is enough for any inputs (`buildStpTree_isForest`). -/
def stpTree (vlan : Int) : Option StpTree :=
  Stp.buildStpTree (s.stpPorts.entries.length + 2) s.stpInputs vlan

def stpIssues : List DerivedIssue :=
  s.vlans.flatMap fun vlan => match s.stpTree vlan with
    | some tree => stpTreeIssues ((s.vlanNames vlan).getD []) tree ((s.expectedRoots vlan).getD PMap.empty)
    | none => []

/-- The shallowest depth of each node over all trees. -/
def rootDepth : PMap String Nat :=
  (s.vlans.filterMap s.stpTree).foldl (fun depths tree => tree.nodes.foldl (fun depths node =>
    PMap.insert depths node.fqdn (min node.depth (PMap.getD depths node.fqdn node.depth))) depths) PMap.empty

/-! ## PoE and aggregates -/

def poeIssues : List DerivedIssue := s.poeBudgets.entries.flatMap fun e => poeBudgetIssues e.1 e.2

/-- The device's row of an ifIndex. -/
def rowAt (device : Device) (ifIndex : Int) : Option Interface :=
  (s.db.interfacesOf device).find? fun row => row.index = ifIndex

/-- `meta`: what is known of the members of an aggregate. -/
def memberInfo (device : Device) (group : LagGroup) : PMap Int MemberMeta := fun ifIndex =>
  if ifIndex ∈ group.members then
    (s.rowAt device ifIndex).map fun row => ⟨row.name, (s.forward row).map InterfaceConnection.fqdn⟩
  else none

/-- `peer_lags`: the aggregates of the members' peers. -/
def peerLags (device : Device) (group : LagGroup) : PMap String DeviceLags := fun fqdn =>
  if fqdn ∈ group.peerFqdns (s.memberInfo device group) then s.lags fqdn else none

/-- The live state and speed of an interface. -/
def memberLive (device : Device) (ifIndex : Int) : Option Bool × Option Int :=
  (((s.imds.devices device.fqdn).bind fun metrics => metrics.interfaces ifIndex).map fun m =>
    (m.up, m.speedOverride.or m.speed)).getD (none, none)

def portChannelMember (device : Device) (ifIndex : Int) (member : LagMember) : PortChannelMember :=
  let row := s.rowAt device ifIndex
  let connectedTo := row.bind s.forward
  { ifIndex := ifIndex
    name := row.map Interface.name
    up := (s.memberLive device ifIndex).1
    speed := (s.memberLive device ifIndex).2
    media := row.bind fun row => (s.media device.fqdn row.id).or row.media
    connectedTo := connectedTo
    cdpNeighbor := row.bind fun row => cdpNeighbor row connectedTo
    bundled := lacpBundled member.actorState }

def portChannel (device : Device) (agg : Int) (group : LagGroup) : PortChannel where
  ifIndex := agg
  name := (s.rowAt device agg).map Interface.name
  protocol := group.protocol
  members := (HashMap.byKey group.members).map fun e => s.portChannelMember device e.1 e.2
  warnings := portChannelWarnings group (s.memberInfo device group) (s.peerLags device group)

/-- The aggregates of a device, by ifIndex. -/
def aggregates (device : Device) : List (Int × LagGroup) :=
  ((s.lags device.fqdn).map fun lags => HashMap.byKey lags.groups).getD []

def lagIssues (device : Device) : List DerivedIssue :=
  (s.aggregates device).flatMap fun e =>
    portChannelIssues device.fqdn (s.portChannel device e.1 e.2) s.rootDepth

/-! ## All of them -/

/-- `collect_issues`. -/
def collectIssues : List DerivedIssue :=
  (s.db.devices.flatMap s.deviceIssues ++ s.stpIssues ++ s.poeIssues ++ s.db.devices.flatMap s.lagIssues).filter
    fun issue => issue.kind ∉ s.suppressed

end Snapshot

end JaspyNexus.Routes.Fleet
