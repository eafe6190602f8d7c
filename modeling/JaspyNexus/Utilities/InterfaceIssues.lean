import Mathlib
import JaspyNexus.Utilities.Health
import JaspyNexus.Utilities.Issues

/-! # Issues of interfaces

`interface_health_issues` and `err_disabled_issue` of `utilities/issues.rs`, with
`api_interface_health` of `routes/api/v1.rs` between them and the health store. The
summary carries some of its decisions as flags and some as the counts that were
compared. -/

namespace JaspyNexus.Utilities.Issues
open JaspyNexus.Lib JaspyNexus.Lib.Text JaspyNexus.Utilities.Health
open JaspyNexus.Utilities.Stp (InterfaceConnection)

/-- `as_str`. -/
def severityStr : Severity → String
  | .warn => "warn"
  | .bad => "bad"

/-- `ApiInterfaceHealth`: the figures of the summary, and its severity as text. -/
structure ApiInterfaceHealth where
  severity : Option String
  flapCount : Nat
  flapping : Bool
  lastFlapSecsAgo : Option Nat
  inErrors : Nat
  outErrors : Nat
  discards : Nat
  discardsHigh : Bool
  speedChangeCount : Nat
  lastSpeedChange : Option (Option Int × Int)
  peakUtilizationPct : Option Rat
  highUtilization : Bool
  rxBpsAvg : Option Rat
  txBpsAvg : Option Rat
  stale : Bool
  counterWindowSecs : Nat
  flapWindowSecs : Nat
  utilWindowSecs : Nat
  throughputWindowSecs : Nat

/-- `api_interface_health`. -/
def apiInterfaceHealth (summary : InterfaceHealthSummary) : ApiInterfaceHealth where
  severity := summary.severity.map severityStr
  flapCount := summary.flapCount
  flapping := summary.flapping
  lastFlapSecsAgo := summary.lastFlapSecsAgo
  inErrors := summary.inErrors
  outErrors := summary.outErrors
  discards := summary.discards
  discardsHigh := summary.discardsHigh
  speedChangeCount := summary.speedChangeCount
  lastSpeedChange := summary.lastSpeedChange
  peakUtilizationPct := summary.peakUtilizationPct
  highUtilization := summary.highUtilization
  rxBpsAvg := summary.rxBpsAvg
  txBpsAvg := summary.txBpsAvg
  stale := summary.stale
  counterWindowSecs := summary.counterWindowSecs
  flapWindowSecs := summary.flapWindowSecs
  utilWindowSecs := summary.utilWindowSecs
  throughputWindowSecs := summary.throughputWindowSecs

/-! ## Links with two ends -/

/-- `LINK_GROUPABLE`: the kinds that both ends of a link raise. -/
def linkGroupable : List String :=
  ["iface-high-util", "iface-flapping", "iface-errors", "iface-discards", "iface-speed"]

/-- `link_group_key`: the two ends in an order that does not depend on who asks. -/
def linkGroupKey (kind aFqdn aIface bFqdn bIface : String) : String :=
  let a := aFqdn ++ "|" ++ aIface
  let b := bFqdn ++ "|" ++ bIface
  if a ≤ b then kind ++ "|" ++ a ++ "<->" ++ b else kind ++ "|" ++ b ++ "<->" ++ a

/-! ## Health -/

/-- `mk`: an issue of one interface. -/
def interfaceIssue (fqdn : String) (ifIndex : Int) (ifaceName : String)
    (connectedTo : Option InterfaceConnection) (kind severity title description : String)
    (detail : List IssueDetail) : DerivedIssue where
  fqdn := fqdn
  hostname := hostnameOf fqdn
  kind := kind
  subject := toString ifIndex
  severity := severity
  title := title
  description := description
  subjectLabel := some ifaceName
  detail := detail
  groupKey :=
    if kind ∈ linkGroupable then
      connectedTo.map fun peer => linkGroupKey kind fqdn ifaceName peer.fqdn peer.interface
    else none

/-- The far end of a flapping link, as its issue shows it. -/
def farEndRows (connectedTo : Option InterfaceConnection) (cdpNeighbor : Option CdpNeighbor) :
    List IssueDetail :=
  match connectedTo, cdpNeighbor with
  | some peer, _ =>
    [verdictRow "verdict" (s!"This is an inter-switch link to {hostnameOf peer.fqdn} ({peer.interface}). " ++
      "A flapping link between two switches is usually a bad cable, a dirty/failing SFP, or a " ++
      "duplex/speed mismatch — check both ends.") "bad",
      deviceRow "connected to" peer.fqdn, ifaceRow "far-end port" peer.interface none]
  | none, some cdp =>
    [pair "neighbor (CDP/LLDP)" (match cdp.devicePort.filter fun port => trim port ≠ "" with
      | some port => s!"{cdp.deviceId} ({port})"
      | none => cdp.deviceId)]
  | none, none => []

/-- `interface_health_issues`. -/
def interfaceHealthIssues (fqdn : String) (ifIndex : Int) (ifaceName : String) (h : ApiInterfaceHealth)
    (isInfrastructurePort : Bool) (connectedTo : Option InterfaceConnection)
    (cdpNeighbor : Option CdpNeighbor) : List DerivedIssue :=
  if !isInfrastructurePort || h.severity.isNone then []
  else
    let host := hostnameOf fqdn
    let mk := interfaceIssue fqdn ifIndex ifaceName connectedTo
    let errors := u64 (h.inErrors + h.outErrors)
    let peak := (h.peakUtilizationPct.map fun p => s!"{F64.nearest p}%").getD "—"
    let last := (h.lastSpeedChange.map fun change => match change.1 with
      | some old => s!"{old} → {change.2} Mbps"
      | none => s!"{change.2} Mbps").getD "—"
    (if h.flapping then
      [mk "iface-flapping" sevBad "Interface flapping"
        s!"{host} {ifaceName} bounced down/up {h.flapCount} times in the last {h.flapWindowSecs}s"
        ([pair "recoveries" (toString h.flapCount),
          pair "last came up" ((h.lastFlapSecsAgo.map fun s => s!"{s}s ago").getD "—"),
          pair "window" s!"{h.flapWindowSecs}s"] ++ farEndRows connectedTo cdpNeighbor)] else []) ++
    (if h.stale then
      [mk "iface-stale" sevBad "Interface not polling" s!"{host} {ifaceName} has stopped answering polls"
        [pair "stale" "yes"]] else []) ++
    (if 0 < errors then
      [mk "iface-errors" sevWarn "Interface errors"
        s!"{host} {ifaceName} saw {errors} error(s) in the last {h.counterWindowSecs}s"
        [pair "in errors" (toString h.inErrors), pair "out errors" (toString h.outErrors),
          pair "window" s!"{h.counterWindowSecs}s"]] else []) ++
    (if 0 < h.discards then
      [mk "iface-discards" sevWarn "Interface discards"
        s!"{host} {ifaceName} discarded {h.discards} packet(s) in the last {h.counterWindowSecs}s"
        [pair "discards" (toString h.discards), pair "window" s!"{h.counterWindowSecs}s"]] else []) ++
    (if h.highUtilization then
      [mk "iface-high-util" sevWarn "High utilization"
        s!"{host} {ifaceName} peaked at {peak} in the last {h.utilWindowSecs}s"
        [pair "peak utilization" peak, pair "window" s!"{h.utilWindowSecs}s"]] else []) ++
    (if 0 < h.speedChangeCount then
      [mk "iface-speed" sevWarn "Speed renegotiation" s!"{host} {ifaceName} renegotiated speed ({last})"
        [pair "changes" (toString h.speedChangeCount), pair "last change" last]] else [])

/-! ## Error-disabled ports -/

/-- `err_disable_cause_hint`. -/
def errDisableCauseHint (cause : String) : String :=
  if cause = "bpduGuard" then "BPDU guard tripped — a BPDU arrived on a PortFast/edge port " ++
    "(something running spanning tree, e.g. a switch, was plugged into an access port)."
  else if cause = "portSecurityViolation" then "Port-security violation — a disallowed MAC, or more " ++
    "MACs than permitted, were seen on the port."
  else if cause = "linkFlap" then
    "Link-flap protection — the port bounced up/down too many times in a short window."
  else if cause = "dhcpRateLimit" then "DHCP snooping rate-limit exceeded."
  else if cause = "arpInspection" then "Dynamic ARP inspection rate-limit exceeded."
  else if cause = "stormControl" then
    "Storm control threshold exceeded (broadcast/multicast/unknown-unicast flood)."
  else if cause ∈ ["loopDetect", "portLoopback"] then "A loop was detected on the port."
  else if cause ∈ ["udld", "udldUniDir", "udldTxRxLoop", "udldNeighbourMismatch", "udldEmptyEcho",
    "udldAggrasiveModeLinkFailed"] then "UDLD detected a unidirectional link or miswired fiber."
  else ""

/-- `err_disabled_issue`. -/
def errDisabledIssue (fqdn : String) (ifIndex : Int) (ifaceName : String) (cause : Option String)
    (recoverSecs : Option Int) (connectedTo : Option InterfaceConnection) : DerivedIssue :=
  let causeRaw := cause.getD "unknown"
  let hint := errDisableCauseHint causeRaw
  let verdict :=
    if hint = "" then
      s!"{ifaceName} was error-disabled by the switch (cause: {causeRaw}). The port is forced down until " ++
        "it recovers — investigate the cause, then clear err-disable (shut/no shut) or wait for auto-recovery."
    else
      s!"{ifaceName} was error-disabled by the switch. {hint} The port is forced down until it recovers " ++
        "— fix the cause, then clear err-disable (shut/no shut) or wait for auto-recovery."
  { fqdn := fqdn
    hostname := hostnameOf fqdn
    kind := "iface-err-disabled"
    subject := toString ifIndex
    severity := sevBad
    title := "Port err-disabled"
    description := s!"{hostnameOf fqdn} {ifaceName} is err-disabled ({causeRaw})"
    subjectLabel := some ifaceName
    detail := [verdictRow "verdict" verdict "bad", pair "cause" causeRaw,
      match recoverSecs.filter fun secs => 0 < secs with
      | some secs => pair "auto-recovers in" s!"{secs}s"
      | none => pair "auto-recovery" "not scheduled — manual clear required"] ++
      (match connectedTo with
      | some peer => [deviceRow "connected to" peer.fqdn, ifaceRow "far-end port" peer.interface none]
      | none => [])
    groupKey := none }

end JaspyNexus.Utilities.Issues
