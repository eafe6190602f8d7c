import Mathlib
import JaspyNexus.Utilities.InterfaceIssues

/-! # Issues of PoE budgets and aggregates

`poe_budget_issues` and `port_channel_issues` of `utilities/issues.rs`. -/

namespace JaspyNexus.Utilities.Issues
open JaspyNexus.Lib JaspyNexus.Lib.Text
open JaspyNexus.Utilities.Stp (InterfaceConnection)

/-! ## PoE -/

structure PoeBudget where
  group : Int
  totalW : Int
  consumedW : Int
  operOn : Bool
  thresholdPct : Option Int
  deriving DecidableEq, Repr

def poeDefaultWarnPct : Int := 85
def poeCriticalPct : Int := 95

/-- The issue of one PSE group: a group that is off has no utilization. -/
def poeBudgetIssue (fqdn : String) (budget : PoeBudget) : Option DerivedIssue :=
  let host := hostnameOf fqdn
  let issue := fun (kind severity title description : String) (detail : List IssueDetail) =>
    ({ fqdn := fqdn
       hostname := host
       kind := kind
       subject := toString budget.group
       severity := severity
       title := title
       description := description
       subjectLabel := some s!"PSE {budget.group}"
       detail := detail
       groupKey := none } : DerivedIssue)
  if !budget.operOn then
    some (issue "poe-pse-down" sevBad "PoE power supply not operational" s!"{host} PSE {budget.group} is not on"
      [pair "state" "off"])
  else if budget.totalW ≤ 0 then none
  else
    let utilization := max 0 (min 100 ((budget.consumedW * 100).tdiv budget.totalW))
    if utilization < budget.thresholdPct.getD poeDefaultWarnPct then none
    else some (issue "poe-budget" (if poeCriticalPct ≤ utilization then sevBad else sevWarn)
      "PoE budget near capacity" s!"{host} PSE {budget.group} at {utilization}% of its power budget"
      ([pair "utilization" s!"{utilization}%", pair "consumed" s!"{budget.consumedW} W",
        pair "total budget" s!"{budget.totalW} W",
        pair "remaining" s!"{max 0 (budget.totalW - budget.consumedW)} W"] ++
        (budget.thresholdPct.map fun threshold => pair "threshold" s!"{threshold}%").toList))

/-- `poe_budget_issues`. -/
def poeBudgetIssues (fqdn : String) (budgets : List PoeBudget) : List DerivedIssue :=
  budgets.filterMap (poeBudgetIssue fqdn)

/-! ## Aggregates -/

/-- `ApiPortChannelMember`, without the LACP states that are only shown. -/
structure PortChannelMember where
  ifIndex : Int
  name : Option String
  up : Option Bool
  speed : Option Int
  media : Option String
  connectedTo : Option InterfaceConnection
  cdpNeighbor : Option CdpNeighbor
  bundled : Bool
  deriving DecidableEq, Repr

/-- `ApiPortChannel`, by what issues are derived from. -/
structure PortChannel where
  ifIndex : Int
  name : Option String
  protocol : String
  members : List PortChannelMember
  warnings : List String
  deriving DecidableEq, Repr

/-- `member_row`. -/
def memberRow (k : String) (m : PortChannelMember) : IssueDetail :=
  ⟨k, .member (m.name.getD s!"ifIndex {m.ifIndex}") (m.up.map fun up => if up then "up" else "down") m.speed
    m.media m.connectedTo m.cdpNeighbor⟩

/-- `lag_severity`. -/
def lagSeverity (code : String) : String :=
  if code ∈ ["member-not-bundled", "member-no-lacp-partner", "members-wired-to-different-devices"] then sevBad
  else sevWarn

/-- `lag_human`. -/
def lagHuman (code : String) : String :=
  match code with
  | "not-lacp" => "not running LACP"
  | "single-member" => "has only one member"
  | "member-no-lacp-partner" => "member has no LACP partner"
  | "member-not-bundled" => "member is not bundled"
  | "members-report-different-partners" => "members report different LACP partners"
  | "members-wired-to-different-devices" => "members are wired to different devices"
  | "far-end-lag-not-found" => "far-end aggregate not found"
  | "far-end-member-count-mismatch" => "far-end member count mismatch"
  | _ => "aggregation warning"

namespace PortChannel
variable (pc : PortChannel)

def aggName : String := pc.name.getD s!"ifIndex {pc.ifIndex}"

def down : List PortChannelMember := pc.members.filter fun m => m.up = some false

def healthy : List PortChannelMember := pc.members.filter fun m => m.bundled && m.up = some true

/-- Members are down while the bundle still carries traffic. -/
def degraded : Bool := !pc.down.isEmpty && !pc.healthy.isEmpty

/-- The names of the members that are down; of those without a name nothing is told. -/
def downNames : List String := pc.down.filterMap PortChannelMember.name

end PortChannel

/-- An issue about an aggregate. -/
def lagIssue (fqdn : String) (pc : PortChannel) (kind subject severity title description : String)
    (detail : List IssueDetail) : DerivedIssue where
  fqdn := fqdn
  hostname := hostnameOf fqdn
  kind := kind
  subject := toString pc.ifIndex ++ ":" ++ subject
  severity := severity
  title := title
  description := description
  subjectLabel := some pc.aggName
  detail := detail
  groupKey := none

/-- Which end of the cables is loose, by the distance from the root of a spanning tree. -/
def looseEnd (fqdn : String) (peerFqdn : Option String) (rootDepth : PMap String Nat) : String :=
  match rootDepth fqdn, peerFqdn.bind rootDepth with
  | some here, some there =>
    if there < here then
      s!" The loose end is most likely here — {hostnameOf fqdn} sits further from the STP root."
    else if here < there then
      let peer := (peerFqdn.map hostnameOf).getD ""
      s!" The loose end is most likely at the far end ({peer}), which sits further from the STP root — but check both."
    else " We can't tell which end is loose — check both, starting with the switch furthest from the STP root."
  | _, _ =>
    " We can't tell which end is loose — check both, starting with the switch furthest from the STP root."

/-- The issue of the members that are down. -/
def memberDownIssue (fqdn : String) (pc : PortChannel) (rootDepth : PMap String Nat) : Option DerivedIssue :=
  if !pc.degraded then none
  else
    let host := hostnameOf fqdn
    let namesJoined := if pc.downNames.isEmpty then "a member" else ", ".intercalate pc.downNames
    let count := pc.down.length
    let countWord := if count = 1 then "one" else toString count
    let noun := if count = 1 then "uplink" else "uplinks"
    let cable := if count = 1 then "cable is" else "cables are"
    let peerFqdn := pc.down.findSome? fun m => m.connectedTo.map InterfaceConnection.fqdn
    let upNames := pc.healthy.filterMap PortChannelMember.name
    some (lagIssue fqdn pc "lag:member-link-down"
      (",".intercalate (pc.downNames.insertionSort (· ≤ ·))) sevWarn "Port-channel: uplink member down"
      s!"{host} {pc.aggName} {countWord} member ({namesJoined}) down"
      ([verdictRow "verdict" (s!"{host} has {countWord} {noun} ({namesJoined}) DOWN. Check that the {cable} " ++
          "firmly attached." ++ looseEnd fqdn peerFqdn rootDepth) "warn",
        pair "port-channel" pc.aggName, pair "protocol" pc.protocol] ++
        (pc.down.map fun m => ifaceRow "down member" (m.name.getD (toString m.ifIndex)) (some "down")) ++
        (if upNames.isEmpty then [] else [pair "still up" (", ".intercalate upNames)]) ++
        (peerFqdn.map fun p => deviceRow "upstream" p).toList))

/-- The speeds of the members that are up and have one. -/
def PortChannel.speeds (pc : PortChannel) : List Int :=
  (pc.members.filter fun m => m.up = some true).filterMap fun m => m.speed.filter fun s => 0 < s

/-- The issue of members that run at different speeds. -/
def speedIssue (fqdn : String) (pc : PortChannel) : Option DerivedIssue :=
  let speeds := pc.speeds.dedup
  if pc.speeds.length < 2 || speeds.length < 2 then none
  else
    let low := speeds.min?.getD 0
    let high := speeds.max?.getD 0
    some (lagIssue fqdn pc "lag:speed-mismatch" "speed" sevBad "Port-channel: member speed mismatch"
      s!"{hostnameOf fqdn} {pc.aggName} has members at different link speeds ({low}–{high} Mb/s)"
      ([verdictRow "verdict" (s!"{pc.aggName} bundles members running at different link speeds ({high} Mb/s vs " ++
          s!"{low} Mb/s). A port-channel should aggregate identical-speed links; a member negotiated below the " ++
          "others is almost always a faulty cable or a duplex/auto-negotiation fault. The slow leg caps " ++
          s!"throughput and traffic hashes unevenly — check the {low} Mb/s member's cabling and port settings.")
          "bad",
        pair "port-channel" pc.aggName, pair "protocol" pc.protocol] ++ pc.members.map (memberRow "member")))

/-- What a warning is about, after its code. -/
def warningSuffix (warning : String) : Option String := (splitOnce warning ':').map Prod.snd

/-- The warning is about a member that is down, which has an issue of its own. -/
def covered (pc : PortChannel) (warning : String) : Bool :=
  flagCode warning = "member-not-bundled" && pc.degraded &&
    (warningSuffix warning).any fun name => name ∈ pc.downNames

/-- The issue of a warning. -/
def warningIssue (fqdn : String) (pc : PortChannel) (warning : String) : Option DerivedIssue :=
  let code := flagCode warning
  let suffix := warningSuffix warning
  if covered pc warning then none
  else
    let human := lagHuman code
    some (lagIssue fqdn pc ("lag:" ++ code) (suffix.getD "") (lagSeverity code) ("Port-channel: " ++ human)
      (match suffix with
      | some s => s!"{hostnameOf fqdn} {pc.aggName} {human} ({s})"
      | none => s!"{hostnameOf fqdn} {pc.aggName} {human}")
      ([pair "port-channel" pc.aggName, pair "protocol" pc.protocol] ++
        (if code = "single-member" then
          verdictRow "verdict" ("only one member in this port-channel — normal for a single SFP+ uplink, but a " ++
            "missing second member would look the same. Check the member(s) below.") "neutral" ::
            pc.members.map (memberRow "member")
        else pair "warning" warning :: (suffix.map fun s => pair "detail" s).toList)))

/-- `port_channel_issues`. -/
def portChannelIssues (fqdn : String) (pc : PortChannel) (rootDepth : PMap String Nat) : List DerivedIssue :=
  (memberDownIssue fqdn pc rootDepth).toList ++ (speedIssue fqdn pc).toList ++
    pc.warnings.filterMap (warningIssue fqdn pc)

end JaspyNexus.Utilities.Issues
