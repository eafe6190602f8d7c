import Mathlib
import JaspyNexus.Lib.PMap
import JaspyNexus.Lib.ParentGraph

/-! # The spanning tree of a VLAN

`build_stp_tree` of `utilities/stp.rs`, a pure function of the polled STP ports
and bridges and of the discovered topology. A map that the code iterates is an
association list in iteration order with distinct keys (`AList`), so a result
may depend on that order wherever the code's does; a map it only reads is a
`PMap`. A `BTreeMap` is a list sorted by key.

The cycle guard and the emission run on fuel; `StpForest` shows how much is
enough for any inputs. -/

namespace JaspyNexus.Utilities.Stp
open JaspyNexus.Lib

/-! ## Inputs and results -/

/-- `ApiStpPort`. -/
structure StpPort where
  vlan : Int
  stpPortId : Int
  interfaceName : Option String
  interfaceId : Option Int
  role : String
  state : String
  pathCost : Int
  deriving DecidableEq, Repr

/-- `ApiStpBridge`. -/
structure StpBridge where
  vlan : Int
  rootPriority : Option Int
  rootMac : Option String
  timeSinceTopologyChangeSecs : Option Int
  deriving DecidableEq, Repr

/-- `ApiInterfaceConnection`. -/
structure InterfaceConnection where
  fqdn : String
  interface : String
  deriving DecidableEq, Repr

/-- `WeathermapDeviceInterface`. -/
structure WeathermapInterface where
  name : String
  ifIndex : Int
  connectedTo : Option InterfaceConnection
  deriving DecidableEq, Repr

/-- `WeathermapDevice`, by its interfaces. -/
structure WeathermapDevice where
  interfaces : AList fun _ : String => WeathermapInterface

def WeathermapDevice.values (device : WeathermapDevice) : List WeathermapInterface :=
  device.interfaces.entries.map Sigma.snd

/-- `WeathermapBase`. -/
structure WeathermapBase where
  devices : PMap String WeathermapDevice

structure StpInputs where
  ports : AList fun _ : String => List StpPort
  bridges : PMap String (List StpBridge)
  baseMacs : AList fun _ : String => Option String
  topology : WeathermapBase
  lagMembers : PMap String (AList fun _ : Int => List Int)
  vlanMembers : PMap String (PMap Int (Option Int × List Int))

/-- `ApiStpRootMismatchDetail`. -/
structure RootMismatchDetail where
  computedRootFqdn : String
  computedRootHostname : String
  computedRootMac : Option String
  computedRootPriority : Option Int
  reportedRootMac : Option String
  reportedRootPriority : Option Int
  reportedRootMonitored : Bool
  reportedRootSuperior : Option Bool
  deriving DecidableEq, Repr

/-- `ApiStpNode`. -/
structure StpNode where
  fqdn : String
  depth : Nat
  parent : Option String
  parentInterface : Option String
  rootPortInterfaceName : Option String
  rootPortState : Option String
  pathCost : Option Int
  reported : Option StpBridge
  rootMismatch : Bool
  rootMismatchDetail : Option RootMismatchDetail
  orphan : Bool
  deriving DecidableEq, Repr

/-- `ApiStpBlockedLink`. -/
structure BlockedLink where
  fqdn : String
  stpPortId : Int
  interfaceName : Option String
  role : String
  state : String
  pathCost : Int
  connectedTo : Option InterfaceConnection
  deriving DecidableEq, Repr

/-- `ApiStpRootClaim`. -/
structure RootClaim where
  fqdn : String
  hostname : String
  mac : Option String
  priority : Option Int
  preferred : Bool
  expected : Bool
  note : Option String
  deriving DecidableEq, Repr

/-- `ApiStpLinkEnds`. -/
structure LinkEnds where
  aFqdn : String
  aInterface : String
  aHasVlan : Bool
  bFqdn : String
  bInterface : String
  bHasVlan : Bool
  deriving DecidableEq, Repr

/-- `ApiStpMultipleRootsDetail`. -/
structure MultipleRootsDetail where
  roots : List RootClaim
  adjacent : Option Bool
  connectingLink : Option LinkEnds
  deriving DecidableEq, Repr

/-- `ApiStpTree`; the `names` are joined in elsewhere. -/
structure StpTree where
  vlan : Int
  roots : List String
  nodes : List StpNode
  blockedLinks : List BlockedLink
  flags : List String
  multipleRootsDetail : Option MultipleRootsDetail
  deriving DecidableEq, Repr

/-! ## Values -/

def isAsciiHexdigit (c : Char) : Bool :=
  c.isDigit || ('a' ≤ c && c ≤ 'f') || ('A' ≤ c && c ≤ 'F')

/-- `chunks(2)`. -/
def chunks2 : List Char → List String
  | [] => []
  | [a] => [String.ofList [a]]
  | a :: b :: rest => String.ofList [a, b] :: chunks2 rest

/-- `normalize_mac`: lowercase colon form. -/
def normalizeMac (mac : String) : String :=
  ":".intercalate (chunks2 ((mac.toList.filter isAsciiHexdigit).map Char.toLower))

/-- `fqdn.split('.').next()`. -/
def hostname (fqdn : String) : String := String.ofList (fqdn.toList.takeWhile (· != '.'))

def i64Max : Int := 2 ^ 63 - 1

/-! ## Adjacency -/

/-- `connected_to`: the far end of the interface with this `ifIndex`. -/
def connectedTo (topology : WeathermapBase) (fqdn : String) (ifindex : Option Int) :
    Option InterfaceConnection := do
  let ifindex ← ifindex
  let device ← topology.devices fqdn
  let interface ← device.values.find? fun i => i.ifIndex = ifindex
  interface.connectedTo

/-- `stp_port_connected_to`: the port's own link, or the first one of a member of
its aggregate. -/
def stpPortConnectedTo (inputs : StpInputs) (fqdn : String) (ifindex : Option Int) :
    Option InterfaceConnection :=
  match connectedTo inputs.topology fqdn ifindex with
  | some connection => some connection
  | none => do
    let aggregates ← inputs.lagMembers fqdn
    let ifindex ← ifindex
    let members ← aggregates.lookup ifindex
    members.findSome? fun member => connectedTo inputs.topology fqdn (some member)

/-- `find_link`: the two ends of a link recorded at `src`. -/
def findLink (inputs : StpInputs) (src dst : String) :
    Option (String × Option Int × String × Option Int) := do
  let dev ← inputs.topology.devices src
  dev.values.findSome? fun iface => do
    let conn ← iface.connectedTo
    if conn.fqdn = dst then
      let dstIfindex := (inputs.topology.devices dst).bind fun d =>
        (d.values.find? fun i => i.name = conn.interface).map WeathermapInterface.ifIndex
      some (iface.name, some iface.ifIndex, conn.interface, dstIfindex)
    else none

/-- `iface_has_vlan`: by the interface's own membership or its aggregate's. -/
def ifaceHasVlan (inputs : StpInputs) (fqdn : String) (ifindex : Option Int) (vlan : Int) : Bool :=
  match ifindex, inputs.vlanMembers fqdn with
  | none, _ => false
  | _, none => false
  | some ifindex, some members =>
    let on := fun idx => ((members idx).map fun (m : Option Int × List Int) =>
      m.1 == some vlan || m.2.contains vlan).getD false
    on ifindex || ((inputs.lagMembers fqdn).map fun aggregates =>
      aggregates.entries.any fun agg => agg.2.contains ifindex && on agg.1).getD false

/-- `roots_adjacency`: the first pair of roots with a link recorded at either end. -/
def rootsAdjacency (inputs : StpInputs) (vlan : Int) :
    List String → Option Bool × Option LinkEnds
  | [] => (some false, none)
  | a :: rest =>
    match rest.findSome? fun b =>
      ((findLink inputs a b).or ((findLink inputs b a).map fun l =>
        (l.2.2.1, l.2.2.2, l.1, l.2.1))).map fun l => (b, l) with
    | some (b, aInterface, aIfindex, bInterface, bIfindex) =>
      (some true, some
        { aFqdn := a, aInterface := aInterface, aHasVlan := ifaceHasVlan inputs a aIfindex vlan
          bFqdn := b, bInterface := bInterface, bHasVlan := ifaceHasVlan inputs b bIfindex vlan })
    | none => rootsAdjacency inputs vlan rest

/-! ## Nodes and their parents -/

/-- `vlan_ports`: the ports on this VLAN, for the devices that have any. -/
def vlanPorts (inputs : StpInputs) (vlan : Int) : List (String × List StpPort) :=
  (inputs.ports.entries.filterMap fun e =>
    let onVlan := e.2.filter fun p => p.vlan = vlan
    if onVlan.isEmpty then none else some (e.1, onVlan)).insertionSort fun a b => a.1 ≤ b.1

/-- The ports with role "root", cheapest first. -/
def rootPorts (ports : List StpPort) : List StpPort :=
  (ports.filter fun p => p.role = "root").insertionSort fun a b => a.pathCost ≤ b.pathCost

structure NodeInfo where
  rootPort : Option StpPort
  parent : Option InterfaceConnection
  orphan : Bool
  deriving DecidableEq, Repr

/-- The root port of a node and the upstream end it resolves to. -/
def nodeInfo (inputs : StpInputs) (nodeFqdns : List String) (fqdn : String)
    (ports : List StpPort) : NodeInfo :=
  match (rootPorts ports).head? with
  | none => { rootPort := none, parent := none, orphan := false }
  | some port =>
    match stpPortConnectedTo inputs fqdn port.interfaceId with
    | some connection =>
      if connection.fqdn ∈ nodeFqdns then
        { rootPort := some port, parent := some connection, orphan := false }
      else { rootPort := some port, parent := none, orphan := true }
    | none => { rootPort := some port, parent := none, orphan := true }

/-- `info`, by node. -/
abbrev Info := List (String × NodeInfo)

def buildInfo (inputs : StpInputs) (vlan : Int) : Info :=
  let ports := vlanPorts inputs vlan
  ports.map fun e => (e.1, nodeInfo inputs (ports.map Prod.fst) e.1 e.2)

def multipleRootPortsFlags (inputs : StpInputs) (vlan : Int) : List String :=
  (vlanPorts inputs vlan).filterMap fun e =>
    if 1 < (rootPorts e.2).length then some ("multiple-root-ports:" ++ e.1) else none

def Info.roots (info : Info) : List String :=
  (info.filter fun e => e.2.rootPort.isNone).map Prod.fst

def rootFlags (info : Info) : List String :=
  match info.roots.length with
  | 0 => if info.isEmpty then [] else ["no-root"]
  | 1 => []
  | _ => ["multiple-roots"]

/-- The node upstream of `current`. -/
def Info.up (info : Info) (current : String) : Option String :=
  (info.lookup current).bind fun node => node.parent.bind fun parent =>
    (info.map Prod.fst).find? fun k => k = parent.fqdn

/-! ## The cycle guard -/

/-- The search from each node in turn, over the flags and `cycle_nodes`. -/
def cycleGuard (info : Info) (fuel : Nat) :
    List String → List String × List String → Option (List String × List String)
  | [], st => some st
  | start :: rest, (flags, cycleNodes) =>
    (ParentGraph.findCycle info.up cycleNodes fuel [] start).bind fun members =>
      let flags :=
        if members.isEmpty || flags.contains "cycle" then flags else flags ++ ["cycle"]
      cycleGuard info fuel rest (flags, cycleNodes ++ members)

/-- The members of a cycle become orphans. -/
def Info.demote (info : Info) (cycleNodes : List String) : Info :=
  info.map fun e => if e.1 ∈ cycleNodes then (e.1, { e.2 with parent := none, orphan := true }) else e

/-! ## Emission -/

/-- `children`: under each parent, its children in key order. -/
def Info.children (info : Info) (fqdn : String) : List String :=
  (info.foldl (fun children e =>
    match info.up e.1 with
    | some parent => PMap.insert children parent (PMap.getD children parent [] ++ [e.1])
    | none => children) PMap.empty).getD fqdn []

def Info.starts (info : Info) : List String :=
  (info.filter fun e => e.2.rootPort.isNone || e.2.orphan).map Prod.fst

/-- What the device reports about the VLAN's root. -/
def reportedBridge (inputs : StpInputs) (vlan : Int) (fqdn : String) : Option StpBridge :=
  (inputs.bridges fqdn).bind fun bridges => bridges.find? fun b => b.vlan = vlan

def baseMac (inputs : StpInputs) (fqdn : String) : Option String :=
  (inputs.baseMacs.lookup fqdn).join

/-- `monitored_macs`. -/
def monitoredMacs (inputs : StpInputs) : List String :=
  (inputs.baseMacs.entries.filterMap Sigma.snd).map normalizeMac

/-- `root_mismatch`: the reported root is not the single computed one. -/
def rootMismatch (inputs : StpInputs) (roots : List String) (reported : Option StpBridge) : Bool :=
  match roots, reported.bind StpBridge.rootMac with
  | [root], some reportedMac =>
    match baseMac inputs root with
    | some rootMac => normalizeMac reportedMac != normalizeMac rootMac
    | none => false
  | _, _ => false

/-- `reported_root_superior`: the lower bridge id wins, priority first. -/
def rootSuperior (reportedPriority rootPriority : Option Int) (reportedMac rootMac : Option String) :
    Option Bool :=
  match reportedPriority, rootPriority with
  | some rp, some cp =>
    if rp ≠ cp then some (rp < cp)
    else match reportedMac, rootMac with
      | some a, some b => some (normalizeMac a < normalizeMac b)
      | _, _ => none
  | _, _ => none

def mismatchDetail (inputs : StpInputs) (vlan : Int) (reported : Option StpBridge)
    (root : String) : RootMismatchDetail :=
  let rootMac := baseMac inputs root
  let rootPriority := (reportedBridge inputs vlan root).bind StpBridge.rootPriority
  let reportedMac := reported.bind StpBridge.rootMac
  let reportedPriority := reported.bind StpBridge.rootPriority
  { computedRootFqdn := root
    computedRootHostname := hostname root
    computedRootMac := rootMac.map normalizeMac
    computedRootPriority := rootPriority
    reportedRootMac := reportedMac.map normalizeMac
    reportedRootPriority := reportedPriority
    reportedRootMonitored :=
      (reportedMac.map fun m => (monitoredMacs inputs).contains (normalizeMac m)).getD false
    reportedRootSuperior := rootSuperior reportedPriority rootPriority reportedMac rootMac }

/-- One emitted node. Its `info` entry is there: only nodes are emitted. -/
def stpNode (inputs : StpInputs) (vlan : Int) (info : Info) (fqdn : String) (depth : Nat) :
    StpNode :=
  let node := (info.lookup fqdn).getD { rootPort := none, parent := none, orphan := false }
  let reported := reportedBridge inputs vlan fqdn
  let mismatch := rootMismatch inputs info.roots reported
  { fqdn := fqdn
    depth := depth
    parent := node.parent.map InterfaceConnection.fqdn
    parentInterface := node.parent.map InterfaceConnection.interface
    rootPortInterfaceName := node.rootPort.bind StpPort.interfaceName
    rootPortState := node.rootPort.map StpPort.state
    pathCost := node.rootPort.map StpPort.pathCost
    reported := reported
    rootMismatch := mismatch
    rootMismatchDetail :=
      if mismatch then info.roots.head?.map (mismatchDetail inputs vlan reported) else none
    orphan := node.orphan }

/-! ## Evidence and blocked links -/

def rootClaim (inputs : StpInputs) (vlan : Int) (fqdn : String) : RootClaim :=
  let reported := reportedBridge inputs vlan fqdn
  { fqdn := fqdn
    hostname := hostname fqdn
    mac := (reported.bind StpBridge.rootMac).map normalizeMac
    priority := reported.bind StpBridge.rootPriority
    preferred := false
    expected := false
    note := none }

/-- The order of `bridge_id_key`: priority, then MAC; an unknown priority last. -/
def bridgeIdLe (a b : RootClaim) : Prop :=
  a.priority.getD i64Max < b.priority.getD i64Max ∨
    (a.priority.getD i64Max = b.priority.getD i64Max ∧ a.mac.getD "" ≤ b.mac.getD "")

instance (a b : RootClaim) : Decidable (bridgeIdLe a b) :=
  inferInstanceAs (Decidable (_ ∨ _ ∧ _))

def preferFirst : List RootClaim → List RootClaim
  | [] => []
  | first :: rest => { first with preferred := true } :: rest

def multipleRootsDetail (inputs : StpInputs) (vlan : Int) (roots : List String) :
    Option MultipleRootsDetail :=
  if 1 < roots.length then
    let link := rootsAdjacency inputs vlan roots
    some
      { roots := preferFirst ((roots.map (rootClaim inputs vlan)).insertionSort bridgeIdLe)
        adjacent := link.1
        connectingLink := link.2 }
  else none

/-- `apply_expected_roots`: mark the roots that the operator expects, and count the
others. -/
def applyExpectedRoots (detail : MultipleRootsDetail) (expected : PMap String (Option String)) :
    MultipleRootsDetail × Nat :=
  ({ detail with
      roots := detail.roots.map fun claim =>
        match expected claim.fqdn with
        | some note => { claim with expected := true, note := note }
        | none => { claim with expected := false, note := none } },
    (detail.roots.filter fun claim => (expected claim.fqdn).isNone).length)

def blockedLinks (inputs : StpInputs) (vlan : Int) : List BlockedLink :=
  (vlanPorts inputs vlan).flatMap fun e =>
    (e.2.filter fun p => p.role = "alternate" || p.role = "backUp").map fun port =>
      { fqdn := e.1
        stpPortId := port.stpPortId
        interfaceName := port.interfaceName
        role := port.role
        state := port.state
        pathCost := port.pathCost
        connectedTo := stpPortConnectedTo inputs e.1 port.interfaceId }

/-! ## The tree -/

/-- `build_stp_tree`; `none` when the fuel of its two loops runs out. -/
def buildStpTree (fuel : Nat) (inputs : StpInputs) (vlan : Int) : Option StpTree :=
  let info := buildInfo inputs vlan
  let flags := multipleRootPortsFlags inputs vlan ++ rootFlags info
  (cycleGuard info fuel (info.map Prod.fst) (flags, [])).bind fun (flags, cycleNodes) =>
    let info := info.demote cycleNodes
    (ParentGraph.preorderAll info.children fuel info.starts []).map fun emitted =>
      { vlan := vlan
        roots := info.roots
        nodes := emitted.map fun e => stpNode inputs vlan info e.1 e.2
        blockedLinks := blockedLinks inputs vlan
        flags := flags
        multipleRootsDetail := multipleRootsDetail inputs vlan info.roots }

end JaspyNexus.Utilities.Stp
