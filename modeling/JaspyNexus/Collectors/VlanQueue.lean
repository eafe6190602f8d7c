import Mathlib
import JaspyNexus.Lib.Paths
import JaspyNexus.Lib.Runs
import JaspyNexus.Lib.WorkerPool
import JaspyNexus.Models.Dbo
import JaspyNexus.Collectors.Vendor

/-! # Polling a device's VLANs on demand

The loop `run` of `collectors/vlanpoller.rs` and the handler `device_vlan_poll` of
`routes/api/v1.rs` share the set of names that are waiting for a poll. Every use of the
lock is one step; the polls of a batch are taken from a queue by a few workers. What a poll
writes to the store is not looked at here. -/

namespace JaspyNexus.Collectors.Vlanpoller
open JaspyNexus.Lib JaspyNexus.Models

structure VlanDevice where
  fqdn : String
  community : String
  vendor : Vendor
  deriving DecidableEq, Repr

/-- `load_devices`: the monitored devices with a community. -/
def loadDevices (db : Database) (pool queried : Bool) : List VlanDevice :=
  if pool then
    (Device.monitored db queried).filterMap fun device =>
      device.snmpCommunity.map fun community =>
        ⟨device.fqdn, community, vendorHint device.osInfo device.deviceType⟩
  else []

def maxPollWorkers : Nat := 16

/-- `poll_batch`, when it starts. -/
def pollBatch (devices : List VlanDevice) : WorkerPool VlanDevice := WorkerPool.spawn devices maxPollWorkers

/-- What is seen of a step. -/
inductive Entry where
  /-- a turn of the loop begins, with polling enabled -/
  | awake
  /-- and ends -/
  | asleep
  /-- a request is answered 202, or 409 because the name is waiting -/
  | accepted (fqdn : String)
  | conflict (fqdn : String)
  /-- the devices are listed -/
  | listed (fqdns : List String)
  /-- worker `i` starts to poll the device, and is done -/
  | started (i : Nat) (fqdn : String)
  | completed (i : Nat) (fqdn : String)
  /-- the name leaves `pending` -/
  | released (fqdn : String)
  deriving DecidableEq, Repr

/-! ## The handler -/

inductive PollResponse where
  | accepted
  | notFound (error : String)
  | conflict (error : String)
  deriving DecidableEq, Repr

def inProgress : String := "a VLAN poll for this device is already in progress"

/-- `device_vlan_poll`, of the device that the name stands for in the database. -/
def deviceVlanPoll (pending : List String) (fqdn : String) (device : Option Device) (enabled : Bool) :
    List String × PollResponse :=
  match device with
  | none => (pending, .notFound ("device not found: " ++ fqdn))
  | some device =>
    if device.snmpCommunity.isNone then (pending, .notFound ("device has no SNMP community: " ++ fqdn))
    else if !enabled then (pending, .conflict "the vlanpoller is disabled (JASPY_ENABLE_VLANPOLLER)")
    else if fqdn ∈ pending then (pending, .conflict inProgress)
    else (pending ++ [fqdn], .accepted)

/-! ## The loop -/

/-- Where the loop is. -/
inductive Stage where
  | asleep
  /-- the interval cycle, before it has listed the devices, and while it polls them -/
  | listing
  | cycling (pool : WorkerPool VlanDevice)
  /-- before the waiting names are copied -/
  | snapshotting
  /-- with the names that were waiting: before the devices are listed, while they are polled,
  and before the names are released -/
  | triggering (triggered : List String)
  | polling (triggered : List String) (pool : WorkerPool VlanDevice)
  | releasing (triggered : List String)

structure VlanPoller where
  pending : List String
  stage : Stage
  nextCycle : Nat
  log : List Entry

inductive Action where
  /-- `POST /devices/<fqdn>/vlans/poll` -/
  | post (fqdn : String) (device : Option Device) (enabled : Bool)
  /-- the loop wakes up, and looks at the master switch and the clock -/
  | wake (enabled : Bool) (now : Nat)
  /-- `load_devices`, and which of its two steps succeed -/
  | load (db : Database) (pool queried : Bool)
  /-- the next step of a worker of the batch -/
  | work (i : Nat)
  /-- the batch returns -/
  | join (now : Nat)
  | snapshot
  | release

def workEntry : WorkerPool.Event VlanDevice → Entry
  | .started i device => .started i device.fqdn
  | .finished i device => .completed i device.fqdn

namespace VlanPoller
variable (intervalMsecs : Nat) (s : VlanPoller)

def start : VlanPoller := ⟨[], .asleep, 0, []⟩

def post (fqdn : String) (device : Option Device) (enabled : Bool) : VlanPoller :=
  let out := deviceVlanPoll s.pending fqdn device enabled
  { s with
    pending := out.1
    log := match out.2 with
      | .accepted => s.log ++ [.accepted fqdn]
      | .conflict error => if error = inProgress then s.log ++ [.conflict fqdn] else s.log
      | .notFound _ => s.log }

/-- While polling is paused, a turn does nothing. -/
def wake (enabled : Bool) (now : Nat) : VlanPoller :=
  match s.stage with
  | .asleep =>
    if enabled then
      { s with stage := if s.nextCycle ≤ now then .listing else .snapshotting, log := s.log ++ [.awake] }
    else s
  | _ => s

def load (db : Database) (pool queried : Bool) : VlanPoller :=
  let devices := loadDevices db pool queried
  let log := s.log ++ [.listed (devices.map VlanDevice.fqdn)]
  match s.stage with
  | .listing => { s with stage := .cycling (pollBatch devices), log := log }
  | .triggering triggered =>
    { s with stage := .polling triggered (pollBatch (devices.filter fun d => d.fqdn ∈ triggered)), log := log }
  | _ => s

def work (i : Nat) : VlanPoller :=
  match s.stage with
  | .cycling pool =>
    { s with stage := .cycling (pool.move i).1, log := s.log ++ ((pool.move i).2.map workEntry).toList }
  | .polling triggered pool =>
    { s with stage := .polling triggered (pool.move i).1, log := s.log ++ ((pool.move i).2.map workEntry).toList }
  | _ => s

def join (now : Nat) : VlanPoller :=
  match s.stage with
  | .cycling pool =>
    if pool.returned then { s with stage := .snapshotting, nextCycle := now + intervalMsecs } else s
  | .polling triggered pool => if pool.returned then { s with stage := .releasing triggered } else s
  | _ => s

def snapshot : VlanPoller :=
  match s.stage with
  | .snapshotting =>
    if s.pending = [] then { s with stage := .asleep, log := s.log ++ [.asleep] }
    else { s with stage := .triggering s.pending }
  | _ => s

def release : VlanPoller :=
  match s.stage with
  | .releasing triggered =>
    { s with
      pending := s.pending.filter fun fqdn => fqdn ∉ triggered
      stage := .asleep
      log := s.log ++ (s.pending.filter fun fqdn => fqdn ∈ triggered).map .released ++ [.asleep] }
  | _ => s

def step : Action → VlanPoller
  | .post fqdn device enabled => s.post fqdn device enabled
  | .wake enabled now => s.wake enabled now
  | .load db pool queried => s.load db pool queried
  | .work i => s.work i
  | .join now => s.join intervalMsecs now
  | .snapshot => s.snapshot
  | .release => s.release

def run (actions : List Action) : VlanPoller := actions.foldl (step intervalMsecs) start

end VlanPoller

/-! ## A ticket -/

/-- What has become of a request since it was accepted. -/
inductive Progress where
  | waiting
  /-- these workers have started a poll of the device since -/
  | polling (workers : List Nat)
  /-- a poll that was started since is over -/
  | polled
  /-- a listing did not have the device -/
  | excused
  deriving DecidableEq, Repr

/-- The request of a name that is waiting, and whether a turn of the loop began since. -/
structure Ticket where
  progress : Progress
  turned : Bool
  deriving DecidableEq, Repr

namespace Progress

def start (i : Nat) : Progress → Progress
  | .waiting => .polling [i]
  | .polling workers => .polling (i :: workers)
  | progress => progress

def complete (i : Nat) : Progress → Progress
  | .polling workers => if i ∈ workers then .polled else .polling workers
  | progress => progress

/-- The request may be released. -/
def isOver : Progress → Bool
  | .polled | .excused => true
  | _ => false

end Progress

/-- **The protocol of one name**: it waits from the request that is accepted until it is
released, which is not before a poll that was started in between is over; meanwhile other
requests conflict, and no turn of the loop that begins ends. -/
def Ticket.next (f : String) : Option Ticket → Entry → Option (Option Ticket)
  | none, .accepted g => some (if g = f then some ⟨.waiting, false⟩ else none)
  | none, .conflict g | none, .released g => if g = f then none else some none
  | none, _ => some none
  | some t, .accepted g => if g = f then none else some (some t)
  | some t, .conflict _ => some (some t)
  | some t, .released g =>
    if g = f then if t.progress.isOver then some none else none else some (some t)
  | some t, .started i g => some (some { t with progress := if g = f then t.progress.start i else t.progress })
  | some t, .completed i g => some (some { t with progress := if g = f then t.progress.complete i else t.progress })
  | some t, .listed fqdns => some (some { t with progress := if f ∈ fqdns then t.progress else .excused })
  | some t, .awake => some (some { t with turned := true })
  | some t, .asleep => if t.turned then none else some (some t)

def Ticket.Step (f : String) (t : Option Ticket) (entry : Entry) (t' : Option Ticket) : Prop :=
  Ticket.next f t entry = some t'

end JaspyNexus.Collectors.Vlanpoller
