import Mathlib
import JaspyNexus.Lib.PMap

/-! # Interface and device metrics

The in-memory state of `models/metrics.rs` and the reports of `models/json.rs`
that update it. The eleven counters of an interface are one function of the
counter's name. -/

namespace JaspyNexus.Models
open JaspyNexus.Lib

/-- The counters of an interface. -/
inductive Counter where
  | inOctets
  | outOctets
  | inUnicastPackets
  | inMulticastPackets
  | inBroadcastPackets
  | outUnicastPackets
  | outMulticastPackets
  | outBroadcastPackets
  | inErrors
  | outErrors
  | outDiscards
  deriving DecidableEq, Repr

/-- Every counter, in the order of the fields. -/
def Counter.all : List Counter :=
  [.inOctets, .outOctets, .inUnicastPackets, .inMulticastPackets, .inBroadcastPackets,
    .outUnicastPackets, .outMulticastPackets, .outBroadcastPackets, .inErrors, .outErrors,
    .outDiscards]

theorem Counter.mem_all (c : Counter) : c ∈ Counter.all := by cases c <;> decide

/-- Each counter's value, if known. -/
abbrev Counters := Counter → Option Nat

structure InterfaceMetrics where
  name : String
  neighbors : Bool
  interfaceType : String
  lastReport : Nat
  speedOverride : Option Int
  counters : Counters
  up : Option Bool
  speed : Option Int
  adminUp : Option Bool
  errDisabled : Bool
  errDisableCause : Option String
  errDisableRecoverSecs : Option Int
  counterViolations : Nat

/-- `reset_counters`: never polled, under the same identity. -/
def InterfaceMetrics.resetCounters (m : InterfaceMetrics) : InterfaceMetrics :=
  { m with
    lastReport := 0
    counters := fun _ => none
    up := none
    speed := none
    adminUp := none
    errDisabled := false
    errDisableCause := none
    errDisableRecoverSecs := none
    counterViolations := 0 }

structure DeviceMetrics where
  fqdn : String
  hostname : String
  baseMac : Option String
  up : Option Bool
  lastReport : Nat
  lastPoll : Nat
  interfaces : PMap Int InterfaceMetrics

/-- `InterfaceMonitorInterfaceReport`. -/
structure InterfaceReport where
  ifIndex : Int
  counters : Counters
  up : Option Bool
  speed : Option Int
  adminUp : Option Bool
  errDisabled : Option Bool
  errDisableCause : Option String
  errDisableRecoverSecs : Option Int

/-- `InterfaceMonitorReport`. -/
structure InterfaceMonitorReport where
  deviceFqdn : String
  interfaces : List InterfaceReport

/-- `link_event`: what a linkUp or linkDown trap reports. -/
def InterfaceMonitorReport.linkEvent (deviceFqdn : String) (ifIndex : Int) (up : Bool) :
    InterfaceMonitorReport where
  deviceFqdn := deviceFqdn
  interfaces :=
    [{ ifIndex := ifIndex
       counters := fun _ => none
       up := some up
       speed := none
       adminUp := none
       errDisabled := none
       errDisableCause := none
       errDisableRecoverSecs := none }]

/-- `DeviceMonitorReport`. -/
structure DeviceMonitorReport where
  fqdn : String
  up : Bool

/-- Who is at the other end of a link, as an event names it. -/
structure Neighbor where
  fqdn : String
  interfaceName : String
  deriving DecidableEq, Repr

/-- The events that reports emit. -/
inductive Event where
  | pingChange (fqdn : String) (neighbors : List String) (oldState newState : Bool)
  | interfaceUpDown (fqdn name : String) (neighbor : Option Neighbor)
      (neighborLinksState : List (String × String)) (oldState newState : Bool)
  | interfaceSpeed (fqdn name : String) (neighbor : Option Neighbor) (oldState newState : Int)
  deriving DecidableEq, Repr

end JaspyNexus.Models
