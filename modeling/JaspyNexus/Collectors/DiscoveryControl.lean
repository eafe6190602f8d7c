import Mathlib
import JaspyNexus.Lib.Paths
import JaspyNexus.Lib.Runs
import JaspyNexus.Collectors.Crawl

/-! # Discovery control

The record that the handlers of `routes/dev/discovery.rs` and the supervisor of
`collectors/discovery.rs` share, and its two lanes: the full crawl, which is asked for by a
flag, and the single-device runs, which are queued. Every use of the lock is one step; the
supervisor holds no lock between its own steps. -/

namespace JaspyNexus.Collectors.Discovery
open JaspyNexus.Lib

structure DiscoveryConfig where
  rootDevice : Option String
  community : Option String
  dnsDomains : List String
  ignore : List String
  remap : PMap String String
  topologyStable : Bool
  periodicEnabled : Bool
  intervalSecs : Nat

structure DiscoveryRunRequest where
  rootDevice : Option String
  community : Option String
  dnsDomains : Option (List String)
  topologyStable : Option Bool
  singleDevice : Option Bool
  deriving DecidableEq, Repr

structure DiscoveryStatus where
  running : Bool
  lastStarted : Option Rat
  lastFinished : Option Rat
  devicesFound : Option Nat
  devicesFailed : Option Nat
  linksFound : Option Nat
  lastError : Option String
  deriving DecidableEq, Repr

/-- `DiscoveryStatus::default`. -/
def DiscoveryStatus.default : DiscoveryStatus := ⟨false, none, none, none, none, none, none⟩

structure DiscoveryControl where
  config : DiscoveryConfig
  status : DiscoveryStatus
  triggerRequested : Bool
  triggerOverrides : Option DiscoveryRunRequest
  singleDeviceQueue : List DiscoveryRunRequest

def DiscoveryControl.new (config : DiscoveryConfig) : DiscoveryControl := ⟨config, .default, false, none, []⟩

/-! ## The handlers -/

inductive Response where
  | accepted (status : DiscoveryStatus)
  | badRequest (error : String)
  | conflict (error : String)
  deriving DecidableEq, Repr

def Response.isAccepted : Response → Bool
  | .accepted _ => true
  | _ => false

/-- The request is for the single-device lane. -/
def isSingle (request : Option DiscoveryRunRequest) : Bool :=
  (request.bind DiscoveryRunRequest.singleDevice).getD false

/-- The root device and the community of a run, from the request or from the
configuration. -/
def rootDevice (overrides : Option DiscoveryRunRequest) (config : DiscoveryConfig) : Option String :=
  (overrides.bind DiscoveryRunRequest.rootDevice).or config.rootDevice

def community (overrides : Option DiscoveryRunRequest) (config : DiscoveryConfig) : Option String :=
  (overrides.bind DiscoveryRunRequest.community).or config.community

/-- A full run is possible. -/
def complete (overrides : Option DiscoveryRunRequest) (config : DiscoveryConfig) : Bool :=
  (rootDevice overrides config).isSome && (community overrides config).isSome

namespace DiscoveryControl
variable (control : DiscoveryControl)

/-- `discovery_run`. -/
def discoveryRun (request : Option DiscoveryRunRequest) : DiscoveryControl × Response :=
  match isSingle request, request with
  | true, some single =>
    if single.rootDevice.isSome then
      ({ control with singleDeviceQueue := control.singleDeviceQueue ++ [single] }, .accepted control.status)
    else (control, .badRequest
      "single-device discovery requires a rootDevice (the device fqdn) in the request body")
  | _, overrides =>
    if control.status.running || control.triggerRequested then
      (control, .conflict "a discovery run is already in progress")
    else if complete overrides control.config then
      ({ control with triggerRequested := true, triggerOverrides := overrides }, .accepted control.status)
    else (control, .badRequest ("discovery is not configured: set a root device and SNMP community in the discovery configuration" ++
      " (or pass them in the request body)"))

/-- `discovery_put_config`: what cannot be persisted is not taken over. -/
def putConfig (config : DiscoveryConfig) (persisted : Bool) : DiscoveryControl :=
  if persisted then { control with config := config } else control

/-! ## The supervisor -/

end DiscoveryControl

inductive Trigger where
  | manual
  | periodic
  deriving DecidableEq, Repr

/-- `RunParams` of a full run. -/
structure FullRun where
  params : RunParams
  community : String
  topologyStable : Bool
  trigger : Trigger

structure SingleDeviceConfig where
  dnsDomains : List String
  ignore : List String
  remap : PMap String String
  community : Option String

structure RunResult where
  devicesFound : Nat
  devicesFailed : Nat
  linksFound : Nat
  error : Option String
  deriving DecidableEq, Repr

def notConfigured : String := "discovery not configured: root device and community required"

namespace DiscoveryControl
variable (control : DiscoveryControl)

/-- What is drained from the queue, each with the configuration it needs. -/
def drain : DiscoveryControl × List (DiscoveryRunRequest × SingleDeviceConfig) :=
  let snapshot : SingleDeviceConfig :=
    ⟨control.config.dnsDomains, control.config.ignore, control.config.remap, control.config.community⟩
  ({ control with singleDeviceQueue := [] }, control.singleDeviceQueue.map fun single => (single, snapshot))

/-- The periodic crawl is due: never sooner than ten seconds after the last. -/
def due (now : Rat) : Bool :=
  control.config.periodicEnabled &&
    match control.status.lastFinished with
    | some lastFinished => decide ((max control.config.intervalSecs 10 : Nat) ≤ now - lastFinished)
    | none => true

/-- The run of `next_run_params`, or the error that it records. -/
def begin (skipDns : Bool) (now : Rat) (trigger : Trigger) (overrides : Option DiscoveryRunRequest) :
    DiscoveryControl × Option FullRun :=
  match rootDevice overrides control.config, community overrides control.config with
  | some root, some community =>
    ({ control with
        status := { control.status with running := true, lastStarted := some now, lastError := none } },
      some
        { params :=
            { rootDevice := root
              dnsDomains := (overrides.bind DiscoveryRunRequest.dnsDomains).getD control.config.dnsDomains
              ignore := control.config.ignore
              remap := control.config.remap
              skipDns := skipDns
              singleDevice := false }
          community := community
          topologyStable := (overrides.bind DiscoveryRunRequest.topologyStable).getD control.config.topologyStable
          trigger := trigger })
  | _, _ => ({ control with status := { control.status with lastError := some notConfigured } }, none)

/-- The trigger that `next_run_params` acts on, with its overrides. -/
def trigger (now : Rat) : Option (Trigger × Option DiscoveryRunRequest) :=
  if control.triggerRequested then some (.manual, control.triggerOverrides)
  else if control.due now then some (.periodic, none)
  else none

/-- A manual trigger is taken. -/
def takeTrigger : DiscoveryControl :=
  if control.triggerRequested then { control with triggerRequested := false, triggerOverrides := none } else control

def nextRunParams (skipDns : Bool) (now : Rat) : DiscoveryControl × Option FullRun :=
  match control.trigger now with
  | some (trigger, overrides) => control.takeTrigger.begin skipDns now trigger overrides
  | none => (control, none)

/-- The end of a run, as it is published. -/
def publish (now : Rat) (result : RunResult) : DiscoveryControl :=
  { control with
    status :=
      { control.status with
        running := false
        lastFinished := some now
        devicesFound := some result.devicesFound
        devicesFailed := some result.devicesFailed
        linksFound := some result.linksFound
        lastError := result.error } }

end DiscoveryControl

end JaspyNexus.Collectors.Discovery
