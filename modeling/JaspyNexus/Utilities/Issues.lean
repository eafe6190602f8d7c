import Mathlib
import JaspyNexus.Lib.PMap
import JaspyNexus.Lib.Text
import JaspyNexus.Utilities.Stp

/-! # Issues

`utilities/issues.rs`: what an issue is, its types, and the issues of one VLAN's spanning
tree (`stp_tree_issues`). The tree's `names` are an argument here, since they are
joined in between `build_stp_tree` and the derivation. -/

namespace JaspyNexus.Utilities.Issues
open JaspyNexus.Lib JaspyNexus.Lib.Text
open JaspyNexus.Utilities.Stp (StpTree StpNode MultipleRootsDetail LinkEnds applyExpectedRoots)

def sevWarn : String := "warn"
def sevBad : String := "bad"

/-! ## The types of issues -/

structure IssueTypeInfo where
  kind : String
  category : String
  title : String
  description : String
  deriving DecidableEq, Repr

/-- `issue_type_catalog`. -/
def issueTypeCatalog : List IssueTypeInfo :=
  [ ⟨"device-down", "device", "Device down",
      "A monitored device has stopped responding to polls."⟩,
    ⟨"poe-pse-down", "poe", "PoE power supply not operational",
      "A PSE power group is not on and cannot source PoE power."⟩,
    ⟨"poe-budget", "poe", "PoE budget near capacity",
      "A PSE group is running near (or over) its power budget."⟩,
    ⟨"iface-flapping", "interface", "Interface flapping",
      "An infrastructure port has gone up/down repeatedly in a short window."⟩,
    ⟨"iface-stale", "interface", "Interface not polling",
      "An infrastructure port has stopped answering polls."⟩,
    ⟨"iface-errors", "interface", "Interface errors",
      "An infrastructure port is accumulating input/output errors."⟩,
    ⟨"iface-discards", "interface", "Interface discards",
      "An infrastructure port is discarding packets."⟩,
    ⟨"iface-high-util", "interface", "High utilization",
      "An infrastructure port peaked at high link utilization."⟩,
    ⟨"iface-speed", "interface", "Speed renegotiation",
      "An infrastructure port renegotiated its link speed."⟩,
    ⟨"iface-err-disabled", "interface", "Port err-disabled",
      "The switch has error-disabled a port (e.g. BPDU guard, port-security, link-flap); it stays down until recovery."⟩,
    ⟨"stp-flag:no-root", "stp", "STP: no root bridge",
      "A VLAN has spanning-tree nodes but no elected root bridge."⟩,
    ⟨"stp-flag:multiple-roots", "stp", "STP: multiple roots",
      "A VLAN has more than one root bridge."⟩,
    ⟨"stp-flag:cycle", "stp", "STP: cycle",
      "A VLAN's spanning tree contains a cycle."⟩,
    ⟨"stp-flag:multiple-root-ports", "stp", "STP: multiple root ports",
      "A device has multiple root ports on one VLAN."⟩,
    ⟨"stp-unmonitored-root", "stp", "STP root not monitored",
      "A VLAN's root bridge is a superior bridge that jaspy does not monitor."⟩,
    ⟨"stp-root-mismatch", "stp", "STP root mismatch",
      "Devices disagree about a VLAN's root bridge."⟩,
    ⟨"stp-orphan", "stp", "STP orphan",
      "A device has a root port whose upstream neighbour is unresolved."⟩,
    ⟨"lag:member-link-down", "lag", "Port-channel: uplink member down",
      "A port-channel has a member link down while others still carry traffic."⟩,
    ⟨"lag:speed-mismatch", "lag", "Port-channel: member speed mismatch",
      "A port-channel's up members negotiated different link speeds — often a faulty cable forcing one leg down to a lower speed."⟩,
    ⟨"lag:not-lacp", "lag", "Port-channel: not running LACP",
      "A port-channel is negotiated with PAgP or static mode instead of LACP."⟩,
    ⟨"lag:single-member", "lag", "Port-channel: has only one member",
      "A port-channel has only one member (may be an intentional single uplink)."⟩,
    ⟨"lag:member-no-lacp-partner", "lag", "Port-channel: member has no LACP partner",
      "A port-channel member is not seeing an LACP partner."⟩,
    ⟨"lag:member-not-bundled", "lag", "Port-channel: member is not bundled",
      "A port-channel member is not bundled into the aggregate."⟩,
    ⟨"lag:members-report-different-partners", "lag", "Port-channel: members report different LACP partners",
      "A port-channel's members report different LACP partners."⟩,
    ⟨"lag:members-wired-to-different-devices", "lag", "Port-channel: members are wired to different devices",
      "A port-channel's members are wired to different neighbouring devices."⟩,
    ⟨"lag:far-end-lag-not-found", "lag", "Port-channel: far-end aggregate not found",
      "The far-end aggregate of a port-channel could not be found."⟩,
    ⟨"lag:far-end-member-count-mismatch", "lag", "Port-channel: far-end member count mismatch",
      "A port-channel and its far-end aggregate report different member counts."⟩ ]

/-- `is_known_kind`. -/
def isKnownKind (kind : String) : Bool := issueTypeCatalog.any fun t => t.kind = kind

/-! ## Details -/

/-- `ApiCdpNeighbor`. -/
structure CdpNeighbor where
  deviceId : String
  devicePort : Option String
  deriving DecidableEq, Repr

/-- `ApiIssueDetailValue`. -/
inductive DetailValue where
  | text (text : String)
  | mac (mac : String) (monitored : Bool)
  | device (fqdn hostname : String)
  | interface (name : String) (state : Option String)
  | verdict (text tone : String)
  | link (text href : String)
  | stpRoot (fqdn hostname : String) (mac : Option String) (priority : Option Int) (preferred : Bool)
  | member (name : String) (state : Option String) (speed : Option Int) (media : Option String)
      (peer : Option Stp.InterfaceConnection) (cdp : Option CdpNeighbor)
  deriving DecidableEq, Repr

/-- `ApiIssueDetail`. -/
structure IssueDetail where
  label : String
  value : DetailValue
  deriving DecidableEq, Repr

/-- `hostname_of`: the first DNS label. -/
def hostnameOf (fqdn : String) : String := if fqdn = "" then "" else Stp.hostname fqdn

def pair (k v : String) : IssueDetail := ⟨k, .text v⟩
def macRow (k mac : String) (monitored : Bool) : IssueDetail := ⟨k, .mac mac monitored⟩
def deviceRow (k fqdn : String) : IssueDetail := ⟨k, .device fqdn (hostnameOf fqdn)⟩
def ifaceRow (k name : String) (state : Option String) : IssueDetail := ⟨k, .interface name state⟩
def verdictRow (k text tone : String) : IssueDetail := ⟨k, .verdict text tone⟩
def linkRow (k text href : String) : IssueDetail := ⟨k, .link text href⟩

/-- `human_secs`. -/
def humanSecs (secs : Int) : String :=
  let s := max secs 0
  if s < 60 then s!"{s}s"
  else if s < 3600 then s!"{s / 60}m"
  else if s < 86400 then s!"{s / 3600}h {s % 3600 / 60}m"
  else s!"{s / 86400}d"

/-! ## Issues -/

structure DerivedIssue where
  fqdn : String
  hostname : String
  kind : String
  subject : String
  severity : String
  title : String
  description : String
  subjectLabel : Option String
  detail : List IssueDetail
  groupKey : Option String
  deriving DecidableEq, Repr

/-- `issue_key`. -/
def DerivedIssue.issueKey (issue : DerivedIssue) : String :=
  issue.fqdn ++ "|" ++ issue.kind ++ "|" ++ issue.subject

/-! ## Devices -/

/-- `device_down_issue`. -/
def deviceDownIssue (fqdn : String) (up : Option Bool) (secondsSinceLastPoll : Option Nat) :
    Option DerivedIssue :=
  if up ≠ some false then none
  else some
    { fqdn := fqdn
      hostname := hostnameOf fqdn
      kind := "device-down"
      subject := ""
      severity := sevBad
      title := "Device down"
      description := s!"{hostnameOf fqdn} is not responding"
      subjectLabel := none
      detail := [pair "state" "down"] ++
        (secondsSinceLastPoll.map fun secs => pair "seconds since last poll" (toString secs)).toList
      groupKey := none }

/-- The issue of a switch that is down. -/
def downIssue : DerivedIssue where
  fqdn := "sw1.example.com"
  hostname := "sw1"
  kind := "device-down"
  subject := ""
  severity := sevBad
  title := "Device down"
  description := "sw1 is not responding"
  subjectLabel := none
  detail := [pair "state" "down"]
  groupKey := none

example : deviceDownIssue "sw1.example.com" (some false) none = some downIssue := by decide +kernel

/-! ## Multiple roots -/

def claimRow (claim : Stp.RootClaim) : IssueDetail :=
  ⟨if claim.preferred then "claimed root (preferred)" else "claimed root",
    .stpRoot claim.fqdn claim.hostname claim.mac claim.priority claim.preferred⟩

/-- What the VLAN's presence on the two ends of a link says. -/
def linkVerdict (vlan : Int) (link : LinkEnds) (a b : String) : IssueDetail :=
  match link.aHasVlan, link.bHasVlan with
  | true, true => verdictRow "verdict" (s!"VLAN {vlan} is on both ends of this link yet the bridges " ++
      "have not converged — a real spanning-tree failure (loop / black-hole risk). Check BPDU flow " ++
      "across the link.") "bad"
  | false, false => verdictRow "verdict" (s!"the roots are linked but VLAN {vlan} is on neither end " ++
      s!"of that link — they are separate VLAN {vlan} segments, not a shared tree (not a loop)") "neutral"
  | aOk, _ =>
    let present := if aOk then a else b
    let missing := if aOk then b else a
    verdictRow "verdict" (s!"asymmetric trunk — VLAN {vlan} is allowed on {present} but not on " ++
      s!"{missing}, so the two roots cannot merge. Add VLAN {vlan} to {missing}, or ignore if the " ++
      "split is intentional.") "warn"

/-- `multiple_roots_detail`. -/
def multipleRootsDetail (d : MultipleRootsDetail) (stpTreeLink : IssueDetail) (vlan : Int) :
    List IssueDetail :=
  d.roots.map claimRow ++
    (match d.adjacent, d.connectingLink with
    | some true, some link =>
      let a := hostnameOf link.aFqdn ++ " " ++ link.aInterface
      let b := hostnameOf link.bFqdn ++ " " ++ link.bInterface
      [pair "roots connected" (a ++ " ↔ " ++ b), linkVerdict vlan link a b]
    | some _, _ =>
      [pair "roots connected" "no monitored link between them",
        verdictRow "verdict" ("no path between these roots in the discovered topology — most likely " ++
          "independent L2 segments jaspy monitors separately, not a fault") "neutral"]
    | none, _ =>
      [verdictRow "verdict" "could not determine whether these roots are connected" "neutral"]) ++
    [stpTreeLink]

/-- `shared_vlan_path`: the evidence is a link with the VLAN on both ends. -/
def sharedVlanPath (d : MultipleRootsDetail) : Bool :=
  d.adjacent == some true &&
    (d.connectingLink.map fun link => link.aHasVlan && link.bHasVlan).getD false

/-! ## Flags -/

/-- The severity, title and description of a flag. -/
def flagText (vlan : Int) (flag code device : String) : String × String × String :=
  match code with
  | "no-root" => (sevBad, "STP: no root bridge", s!"VLAN {vlan} has STP nodes but no elected root bridge")
  | "multiple-roots" => (sevBad, "STP: multiple roots", s!"VLAN {vlan} has more than one root bridge")
  | "cycle" => (sevBad, "STP: cycle", s!"VLAN {vlan} spanning tree contains a cycle")
  | "multiple-root-ports" => (sevWarn, "STP: multiple root ports",
      s!"{hostnameOf device} has multiple root ports on VLAN {vlan}")
  | _ => (sevWarn, "STP anomaly", s!"VLAN {vlan}: {flag}")

/-- `name_suffix`: only when the switches agree on one name. -/
def nameSuffix : List String → String
  | [name] => " (" ++ name ++ ")"
  | _ => ""

def vlanLabel (names : List String) (vlan : Int) : String := s!"VLAN {vlan}" ++ nameSuffix names

def stpTreeLink (names : List String) (vlan : Int) : IssueDetail :=
  linkRow "spanning tree" (vlanLabel names vlan ++ " tree") s!"/stp?vlan={vlan}"

/-- The code of a flag, which is all of it or what stands before a colon. -/
def flagCode (flag : String) : String := ((splitOnce flag ':').map Prod.fst).getD flag

def flagDevice (flag : String) : String := ((splitOnce flag ':').map Prod.snd).getD ""

/-- A flag about a device says its code and the device. -/
theorem flag_rootPorts (fqdn : String) : flagDevice ("multiple-root-ports:" ++ fqdn) = fqdn ∧
    flagCode ("multiple-root-ports:" ++ fqdn) = "multiple-root-ports" := by
  have hsplit : splitOnce ("multiple-root-ports" ++ String.singleton ':' ++ fqdn) ':' =
      some ("multiple-root-ports", fqdn) := splitOnce_append (by decide)
  have heq : "multiple-root-ports:" = "multiple-root-ports" ++ String.singleton ':' := by decide
  rw [flagDevice, flagCode, heq, hsplit]
  exact ⟨rfl, rfl⟩

/-- The issue of one flag. -/
def flagIssue (names : List String) (tree : StpTree) (expected : PMap String (Option String))
    (flag : String) : Option DerivedIssue :=
  let code := flagCode flag
  let device := flagDevice flag
  let text := flagText tree.vlan flag code device
  let issue := fun (severity : String) (detail : List IssueDetail) =>
    ({ fqdn := device
       hostname := hostnameOf device
       kind := "stp-flag:" ++ code
       subject := s!"vlan{tree.vlan}"
       severity := severity
       title := text.2.1
       description := text.2.2
       subjectLabel := some (vlanLabel names tree.vlan)
       detail := detail
       groupKey := none } : DerivedIssue)
  let plain := [pair "vlan" (toString tree.vlan), pair "flag" flag]
  if code = "multiple-roots" then
    match tree.multipleRootsDetail with
    | some d =>
      let annotated := applyExpectedRoots d expected
      if annotated.2 ≤ 1 then none
      else some (issue (if sharedVlanPath d then text.1 else sevWarn)
        (multipleRootsDetail annotated.1 (stpTreeLink names tree.vlan) tree.vlan))
    | none => some (issue text.1 plain)
  else some (issue text.1 plain)

/-! ## Nodes -/

/-- `root_mismatch_detail`. -/
def rootMismatchDetail (node : StpNode) (stpTreeLink : IssueDetail) : List IssueDetail :=
  match node.rootMismatchDetail with
  | none => [macRow "reported root" ((node.reported.bind Stp.StpBridge.rootMac).getD "—") false]
  | some d =>
    [macRow "reported root" (d.reportedRootMac.getD "—") d.reportedRootMonitored] ++
      (d.reportedRootPriority.map fun p => pair "reported root priority" (toString p)).toList ++
      [deviceRow "jaspy's elected root" d.computedRootFqdn] ++
      (d.computedRootMac.map fun mac => macRow "elected root bridge" mac true).toList ++
      (d.computedRootPriority.map fun p => pair "elected root priority" (toString p)).toList ++
      (match d.reportedRootSuperior, d.reportedRootMonitored with
      | some true, false => [verdictRow "verdict" ("this device sees a superior root (lower bridge ID) " ++
          "that jaspy does not monitor — that off-fleet bridge, not jaspy's elected root, is the " ++
          "VLAN's real root. This device is not at fault; jaspy just doesn't poll the actual root.") "warn"]
      | some true, true => [verdictRow "verdict" ("the reported root has a superior bridge ID and is a " ++
          "monitored device — jaspy's elected root should not be root. Real disagreement between two " ++
          "monitored bridges.") "bad"]
      | some false, _ => [verdictRow "verdict" ("jaspy's elected root has the superior bridge ID; this " ++
          "node reports a weaker root — likely stale or partitioned STP data on this device.") "neutral"]
      | none, _ => []) ++
      (node.rootPortInterfaceName.map fun name => ifaceRow "entered via" name node.rootPortState).toList ++
      (if node.orphan then
        [verdictRow "upstream" "unresolved — see the STP orphan on this VLAN" "warn"] else []) ++
      ((node.reported.bind Stp.StpBridge.timeSinceTopologyChangeSecs).map fun secs =>
        pair "last topology change" (humanSecs secs ++ " ago")).toList ++
      [stpTreeLink]

/-- An issue about a node. -/
def nodeIssue (names : List String) (vlan : Int) (node : StpNode)
    (kind severity title description : String) (detail : List IssueDetail) : DerivedIssue where
  fqdn := node.fqdn
  hostname := hostnameOf node.fqdn
  kind := kind
  subject := s!"vlan{vlan}"
  severity := severity
  title := title
  description := description
  subjectLabel := some (vlanLabel names vlan)
  detail := detail
  groupKey := none

/-- `unmonitored_root`: the winning root is a superior bridge that is not polled. -/
def unmonitoredRoot (node : StpNode) : Bool :=
  (node.rootMismatchDetail.map fun d =>
    d.reportedRootSuperior == some true && !d.reportedRootMonitored).getD false

def mismatchIssue (names : List String) (vlan : Int) (node : StpNode) : DerivedIssue :=
  let host := hostnameOf node.fqdn
  let detail := rootMismatchDetail node (stpTreeLink names vlan)
  if unmonitoredRoot node then
    nodeIssue names vlan node "stp-unmonitored-root" sevWarn "STP root not monitored"
      (s!"VLAN {vlan}'s root bridge is not monitored by jaspy — {host} sees a superior root upstream")
      detail
  else
    nodeIssue names vlan node "stp-root-mismatch" sevBad "STP root mismatch"
      s!"{host} disagrees about the VLAN {vlan} root bridge" detail

def orphanIssue (names : List String) (vlan : Int) (node : StpNode) : DerivedIssue :=
  nodeIssue names vlan node "stp-orphan" sevWarn "STP orphan"
    (s!"{hostnameOf node.fqdn} has a root port on VLAN {vlan} but its upstream is unresolved")
    ([match node.rootPortInterfaceName with
      | some name => ifaceRow "root port" name node.rootPortState
      | none => pair "root port" "—"] ++
      (node.pathCost.map fun cost => pair "path cost" (toString cost)).toList ++
      [verdictRow "upstream" ("unresolved — the neighbour on the root port is not monitored " ++
        "(or has no discovered link)") "warn", stpTreeLink names vlan])

def nodeIssues (names : List String) (vlan : Int) (node : StpNode) : List DerivedIssue :=
  (if node.rootMismatch then [mismatchIssue names vlan node] else []) ++
    (if node.orphan then [orphanIssue names vlan node] else [])

/-- `stp_tree_issues`. -/
def stpTreeIssues (names : List String) (tree : StpTree) (expected : PMap String (Option String)) :
    List DerivedIssue :=
  tree.flags.filterMap (flagIssue names tree expected) ++ tree.nodes.flatMap (nodeIssues names tree.vlan)

end JaspyNexus.Utilities.Issues
