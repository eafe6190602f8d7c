import Mathlib
import JaspyNexus.Lib.ForkJoin
import JaspyNexus.Lib.PMap
import JaspyNexus.Lib.Text
import JaspyNexus.Utilities.Discovery

/-! # The crawl

`collectors/discovery.rs`: a worker thread collects one device, records it as detected
or failed, and starts a worker for each neighbour that is not started yet, while
`perform_discovery_run` joins workers until none is left. Every use of a lock is one
step, and the threads take their steps in any order. -/

namespace JaspyNexus.Collectors.Discovery
open JaspyNexus.Lib JaspyNexus.Lib.Text JaspyNexus.Utilities.Discovery

/-! ## One device -/

structure LldpNeighbor where
  remSysName : String

structure CdpNeighbor where
  deviceId : String

structure DiscoveredIface where
  lldp : List LldpNeighbor
  cdp : Option CdpNeighbor

/-- `DetectedDevice`, its interfaces in the order the map gives them. -/
structure DetectedDevice where
  fqdn : String
  interfaces : List DiscoveredIface
  pollingValid : Bool

structure RunParams where
  rootDevice : String
  dnsDomains : List String
  ignore : List String
  remap : PMap String String
  skipDns : Bool
  singleDevice : Bool

/-- What the network answers during a run: to the collection of a device, and to
name look-ups. -/
structure Network where
  collect : String → Except String DetectedDevice
  resolves : String → Bool

variable (params : RunParams) (network : Network)

def isHostChar (c : Char) : Bool := c.isAlphanum || c = '-' || c = '.' || c = '_'

/-- `try_resolve`. -/
def tryResolve (deviceName : String) : Option String :=
  let deviceName := (params.remap deviceName).getD deviceName
  if trim deviceName = "" then none
  else if !deviceName.toList.all isHostChar then none
  else match splitFqdn deviceName with
    | some (hn, dn) =>
      let fqdn := hn ++ "." ++ dn
      if params.skipDns || network.resolves (fqdn ++ ".") then some fqdn else none
    | none =>
      let candidates := params.dnsDomains.map fun domain => deviceName ++ "." ++ domain
      if params.skipDns then candidates.head?
      else candidates.find? fun fqdn => network.resolves (fqdn ++ ".")

/-- One more name that a neighbour gives, kept when it resolves, is not ignored and is
not among those kept. -/
def gather (neighbors : List String) (name : String) : List String :=
  match tryResolve params network (trim name) with
  | some fqdn =>
    if fqdn ∉ neighbors && fqdn ∉ params.ignore then neighbors ++ [fqdn] else neighbors
  | none => neighbors

/-- The neighbours of a collected device that are to be crawled. -/
def discoveredNeighbors (sds : DetectedDevice) : List String :=
  if params.singleDevice then []
  else sds.interfaces.foldl (fun neighbors iface =>
    let neighbors := iface.lldp.foldl (fun neighbors l => gather params network neighbors l.remSysName) neighbors
    match iface.cdp with
    | some cdp => gather params network neighbors cdp.deviceId
    | none => neighbors) []

/-! ## The threads -/

/-- Where a thread is in `start_device_discovery`. -/
inductive Start where
  /-- the device may have been started already -/
  | check (fqdn : String)
  /-- it is marked as in flight; its thread is to be spawned -/
  | spawn (fqdn : String)
  /-- its thread is spawned; the handle is to be pushed -/
  | push (handle : Nat)

/-- Where a worker is in `discover_device`. -/
inductive Phase where
  | collect
  | fail (reason : String)
  | record (sds : DetectedDevice)
  /-- it starts a neighbour, with others to come -/
  | start (st : Start) (rest : List String)
  | ingest
  | done

structure Worker where
  fqdn : String
  phase : Phase

/-- Where `perform_discovery_run` is. -/
inductive Joiner where
  | start (st : Start)
  | drain
  | join (handles : List Nat)
  | exited

/-- `CrawlState`, the handles, and the threads. -/
structure Crawl where
  detected : PMap String DetectedDevice
  inFlight : Finset String
  failures : PMap String String
  handles : List Nat
  workers : List Worker
  joiner : Joiner

/-- The root device is about to be started. -/
def Crawl.start (rootDevice : String) : Crawl where
  detected := PMap.empty
  inFlight := ∅
  failures := PMap.empty
  handles := []
  workers := []
  joiner := .start (.check rootDevice)

/-- The neighbours still to be started, or the ingest. -/
def Phase.next : List String → Phase
  | [] => .ingest
  | fqdn :: rest => .start (.check fqdn) rest

/-- A worker goes on starting a neighbour, or goes to the next. -/
def Phase.resume (rest : List String) : Option Start → Phase
  | some st => .start st rest
  | none => .next rest

def Joiner.resume : Option Start → Joiner
  | some st => .start st
  | none => .drain

namespace Crawl
variable (crawl : Crawl)

def setPhase (i : Nat) (phase : Phase) : Crawl :=
  { crawl with workers := crawl.workers.modify i fun worker => { worker with phase := phase } }

/-- One step of `start_device_discovery`, and where it goes on. -/
def startStep : Start → Crawl × Option Start
  | .check fqdn =>
    if fqdn ∈ crawl.inFlight || (crawl.detected fqdn).isSome then (crawl, none)
    else ({ crawl with inFlight := insert fqdn crawl.inFlight }, some (.spawn fqdn))
  | .spawn fqdn =>
    ({ crawl with workers := crawl.workers ++ [⟨fqdn, .collect⟩] }, some (.push crawl.workers.length))
  | .push handle => ({ crawl with handles := crawl.handles ++ [handle] }, none)

/-- What a collection ends in. -/
def collected (fqdn : String) : Phase :=
  match network.collect fqdn with
  | .error e => .fail e
  | .ok sds =>
    if sds.pollingValid then .record sds
    else .fail "invalid discovery result (critical table failed)"

/-- One step of worker `i`, in `discover_device`. -/
def workerStep (i : Nat) : Crawl :=
  match crawl.workers[i]? with
  | none => crawl
  | some worker =>
    match worker.phase with
    | .collect => crawl.setPhase i (collected network worker.fqdn)
    | .fail reason =>
      setPhase { crawl with failures := crawl.failures.insert worker.fqdn reason } i .done
    | .record sds =>
      setPhase { crawl with detected := crawl.detected.insert worker.fqdn sds } i
        (.next (discoveredNeighbors params network sds))
    | .start st rest =>
      let out := crawl.startStep st
      out.1.setPhase i (.resume rest out.2)
    | .ingest => crawl.setPhase i .done
    | .done => crawl

/-- The worker has returned. -/
def isDone (i : Nat) : Bool :=
  match crawl.workers[i]? with
  | some ⟨_, .done⟩ => true
  | _ => false

/-- One step of `perform_discovery_run`; it waits for a worker that is to be joined. -/
def joinerStep : Crawl :=
  match crawl.joiner with
  | .start st =>
    let out := crawl.startStep st
    { out.1 with joiner := .resume out.2 }
  | .drain =>
    { crawl with
      handles := []
      joiner := if crawl.handles = [] then .exited else .join crawl.handles }
  | .join [] => { crawl with joiner := .drain }
  | .join (handle :: rest) => if crawl.isDone handle then { crawl with joiner := .join rest } else crawl
  | .exited => crawl

/-- The main thread's turn, or a worker's. -/
def step (crawl : Crawl) : Option Nat → Crawl
  | none => crawl.joinerStep
  | some i => crawl.workerStep params network i

def run (crawl : Crawl) (turns : List (Option Nat)) : Crawl := turns.foldl (step params network) crawl

end Crawl
end JaspyNexus.Collectors.Discovery
