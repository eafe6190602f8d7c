import Mathlib
import JaspyNexus.Lib.HashMap
import JaspyNexus.Lib.Text
import JaspyNexus.Models.LabeledMetric
import JaspyNexus.Utilities.Stp

/-! # Spanning tree through the metrics store

The poller of `collectors/entitypoller.rs` keeps what it polls as labelled metrics, and
decodes them for the API. Here are the decoder and the encoder of HP's RPVST tables. -/

namespace JaspyNexus.Collectors.Entitypoller
open JaspyNexus.Lib JaspyNexus.Lib.Text JaspyNexus.Models JaspyNexus.Snmp

/-! ## The codes of the enumerations -/

def rstpPortRoleNumeric (role : String) : Int :=
  match role with
  | "disabled" => 1
  | "root" => 2
  | "designated" => 3
  | "alternate" => 4
  | "backUp" | "backup" => 5
  | "boundary" => 6
  | "master" => 7
  | _ => 0

def stpPortStateNumeric (state : String) : Int :=
  match state with
  | "disabled" => 1
  | "blocking" => 2
  | "listening" => 3
  | "learning" => 4
  | "forwarding" => 5
  | "broken" => 6
  | _ => 0

def rstpPortRoleText (role : Int) : String :=
  match role with
  | 1 => "disabled"
  | 2 => "root"
  | 3 => "designated"
  | 4 => "alternate"
  | 5 => "backUp"
  | 6 => "boundary"
  | 7 => "master"
  | _ => "unknown"

def stpPortStateText (state : Int) : String :=
  match state with
  | 1 => "disabled"
  | 2 => "blocking"
  | 3 => "listening"
  | 4 => "learning"
  | 5 => "forwarding"
  | 6 => "broken"
  | _ => "unknown"

def stpPortEnableBool (enable : Int) : Option Bool :=
  match enable with
  | 1 => some true
  | 2 => some false
  | _ => none

/-! ## Decoding -/

/-- `ApiEntitySensor`. -/
structure ApiEntitySensor where
  sensorId : Int
  name : String
  description : String
  value : Rat
  valueType : String
  interfaceName : Option String
  interfaceId : Option Int
  timestamp : Nat
  deriving DecidableEq, Repr

/-- `ApiStpPort`. -/
structure ApiStpPort extends Utilities.Stp.StpPort where
  enabled : Option Bool
  designatedCost : Int
  priority : Int
  forwardTransitions : Int
  timestamp : Nat
  deriving DecidableEq, Repr

/-- `ApiStpBridge`. -/
structure ApiStpBridge extends Utilities.Stp.StpBridge where
  rootCost : Option Int
  rootPort : Option Int
  rootPortInterfaceName : Option String
  topologyChanges : Option Int
  timestamp : Nat
  deriving DecidableEq, Repr

/-- `ApiDeviceEntity`; the QoS classes are attached later. -/
structure ApiDeviceEntity where
  sensors : List ApiEntitySensor
  stp : List ApiStpPort
  stpBridges : List ApiStpBridge
  deriving DecidableEq, Repr

def label (metric : LabeledMetric Rat) (key : String) : String := (metric.labels.lookup key).getD ""

/-- Nothing, where the poller could not tell the interface. -/
def optName (name : String) : Option String := if name = "" ∨ name = "UNKNOWN" then none else some name

def optId (id : String) : Option Int :=
  match parseI64 id with
  | none | some 0 => none
  | some v => some v

/-- What the loop over the samples has gathered. -/
structure Decoding where
  sensors : List ApiEntitySensor
  stp : HashMap (Int ×ₗ Int) ApiStpPort
  bridges : HashMap Int ApiStpBridge

def newBridge (vlan : Int) : ApiStpBridge where
  vlan := vlan
  rootPriority := none
  rootMac := none
  timeSinceTopologyChangeSecs := none
  rootCost := none
  rootPort := none
  rootPortInterfaceName := none
  topologyChanges := none
  timestamp := 0

def setBridge (key : String) (metric : LabeledMetric Rat) (bridge : ApiStpBridge) : ApiStpBridge :=
  let value := metric.value.asI64
  let bridge := match key with
    | "root_priority" =>
      let mac := label metric "root_mac"
      { bridge with
        rootPriority := some value
        rootMac := if mac ≠ "" then some mac else bridge.rootMac }
    | "root_cost" => { bridge with rootCost := some value }
    | "root_port" => { bridge with rootPort := some value }
    | "topology_changes" => { bridge with topologyChanges := some value }
    | "time_since_topology_change" => { bridge with timeSinceTopologyChangeSecs := some value }
    | _ => bridge
  { bridge with timestamp := max bridge.timestamp metric.timestamp }

def newPort (vlan stpPortId : Int) (metric : LabeledMetric Rat) : ApiStpPort where
  vlan := vlan
  stpPortId := stpPortId
  interfaceName := optName (label metric "interface_name")
  interfaceId := optId (label metric "interface_id")
  role := "unknown"
  state := "unknown"
  pathCost := 0
  enabled := none
  designatedCost := 0
  priority := 0
  forwardTransitions := 0
  timestamp := 0

def setPort (key : String) (metric : LabeledMetric Rat) (port : ApiStpPort) : ApiStpPort :=
  let value := metric.value.asI64
  let port := match key with
    | "port_role" => { port with role := rstpPortRoleText value }
    | "port_state" => { port with state := stpPortStateText value }
    | "port_enabled" => { port with enabled := stpPortEnableBool value }
    | "port_designated_cost" => { port with designatedCost := value }
    | "port_path_cost" => { port with pathCost := value }
    | "port_priority" => { port with priority := value }
    | "port_forward_transitions" => { port with forwardTransitions := value }
    | _ => port
  { port with timestamp := max port.timestamp metric.timestamp }

def decodeSensor (metric : LabeledMetric Rat) : ApiEntitySensor where
  sensorId := (parseI64 (label metric "sensor_id")).getD 0
  name := label metric "sensor_name"
  description := label metric "sensor_description"
  value := metric.value.asF64
  valueType := label metric "value_type"
  interfaceName := optName (label metric "interface_name")
  interfaceId := optId (label metric "interface_id")
  timestamp := metric.timestamp

/-- One sample. The names of the bridges' samples begin with those of the ports'. -/
def decodeMetric (d : Decoding) (metric : LabeledMetric Rat) : Decoding :=
  if metric.name = "jaspy_sensors" then { d with sensors := d.sensors ++ [decodeSensor metric] }
  else match stripPrefix metric.name "jaspy_stp_bridge_" with
    | some key =>
      match parseI64 (label metric "vlan") with
      | some vlan => { d with bridges := d.bridges.upsert vlan (newBridge vlan) (setBridge key metric) }
      | none => d
    | none =>
      match stripPrefix metric.name "jaspy_stp_" with
      | some key =>
        match parseI64 (label metric "vlan"), parseI64 (label metric "stp_port_id") with
        | some vlan, some stpPortId =>
          { d with stp := d.stp.upsert (toLex (vlan, stpPortId)) (newPort vlan stpPortId metric) (setPort key metric) }
        | _, _ => d
      | none => d

/-- No name comes before any name. -/
def nameOrder : Option String → WithBot String
  | some name => name
  | none => ⊥

/-- By VLAN, then by name, then by id. -/
def portOrder (port : ApiStpPort) : Int ×ₗ (WithBot String ×ₗ Int) :=
  toLex (port.vlan, toLex (nameOrder port.interfaceName, port.stpPortId))

def sensorOrder (sensor : ApiEntitySensor) : String ×ₗ Int := toLex (sensor.name, sensor.sensorId)

/-- The reported root port of a bridge, by the name of its VLAN's port. -/
def resolveRootPort (stp : List ApiStpPort) (bridge : ApiStpBridge) : ApiStpBridge :=
  match bridge.rootPort with
  | some rootPort =>
    { bridge with
      rootPortInterfaceName := (stp.find? fun p => p.vlan = bridge.vlan ∧ p.stpPortId = rootPort).bind
        fun p => p.interfaceName }
  | none => bridge

def decodeEntity (metrics : List (LabeledMetric Rat)) : ApiDeviceEntity :=
  let d := metrics.foldl decodeMetric ⟨[], ∅, ∅⟩
  let stp := (d.stp.byKey.map Prod.snd).mergeSort fun a b => decide (portOrder a ≤ portOrder b)
  { sensors := d.sensors.mergeSort fun a b => decide (sensorOrder a ≤ sensorOrder b)
    stp := stp
    stpBridges := (d.bridges.byKey.map Prod.snd).map (resolveRootPort stp) }

/-! ## Encoding the RPVST tables -/

/-- `EntityDevice`, as far as its samples name it. -/
structure EntityDevice where
  hostname : String
  fqdn : String

/-- `StpPortInfo`. -/
structure StpPortInfo where
  role : String
  interfaceId : String
  interfaceName : String

def deviceLabels (device : EntityDevice) : HashMap String String :=
  ((∅ : HashMap String String).insert "hostname" device.hostname).insert "fqdn" device.fqdn

/-- `push_stp_metric`. -/
def stpMetric (device : EntityDevice) (port : StpPortInfo) (vlan bridgePort : Int) (key : String) (value : Int)
    (timestamp : Nat) : LabeledMetric Rat where
  name := "jaspy_stp_" ++ key
  labels := ((((deviceLabels device).insert "vlan" (toString vlan)).insert "stp_port_id" (toString bridgePort)).insert
    "interface_name" port.interfaceName).insert "interface_id" port.interfaceId
  value := .int64 value
  timestamp := timestamp

/-- `push_stp_bridge_metric`. -/
def stpBridgeMetric (device : EntityDevice) (vlan : Int) (key : String) (value : Int)
    (extraLabels : List (String × String)) (timestamp : Nat) : LabeledMetric Rat where
  name := "jaspy_stp_bridge_" ++ key
  labels := extraLabels.foldl (fun labels l => labels.insert l.1 l.2)
    ((deviceLabels device).insert "vlan" (toString vlan))
  value := .int64 value
  timestamp := timestamp

/-- `rpvst_row_key`. -/
def rpvstRowKey (entry : ResultEntry) : Option (Int × Int) :=
  (entry.index "HP-ICF-RPVST-MIB::hpicfRpvstVlanId").bind fun vlan =>
    (entry.index "HP-ICF-RPVST-MIB::hpicfRpvstPortIndex").map fun port => (vlan, port)

/-- One row of a column. -/
def insertColumn {α : Type} (column : ResultEntry → Option α) (m : PMap (Int × Int) α) (entry : ResultEntry) :
    PMap (Int × Int) α :=
  match rpvstRowKey entry, column entry with
  | some key, some v => m.insert key v
  | _, _ => m

/-- A column of a table, under the keys of its rows; the last row of a key stays. -/
def byRowKey {α : Type} (table : Option Response) (column : ResultEntry → Option α) : PMap (Int × Int) α :=
  (table.elim [] Response.entries).foldl (insertColumn column) PMap.empty

/-- `str::parse::<f64>` and `as i64` of it: a decimal number, with or without a point and an
exponent, or one of the words for what is no number. -/
def parseF64AsI64 (s : String) : Option Int :=
  let (negative, l) := match s.toList with
    | '-' :: rest => (true, rest)
    | '+' :: rest => (false, rest)
    | l => (false, l)
  let word := String.ofList (l.map Char.toLower)
  if word = "nan" then some 0
  else if word = "inf" ∨ word = "infinity" then some (if negative then -2 ^ 63 else 2 ^ 63 - 1)
  else
    let mantissa := l.takeWhile fun c => c ≠ 'e' ∧ c ≠ 'E'
    let whole := mantissa.takeWhile (· ≠ '.')
    let fraction := (mantissa.drop whole.length).tail
    let exponent : Option Int := match l.drop mantissa.length with
      | [] => some 0
      | _ :: '-' :: rest => (digits rest).map fun n => -(n : Int)
      | _ :: '+' :: rest => (digits rest).map fun n => (n : Int)
      | _ :: rest => (digits rest).map fun n => (n : Int)
    (digits (whole ++ fraction)).bind fun n => exponent.map fun e : Int =>
      let v := F64.round (n * (10 : Rat) ^ (e - (fraction.length : Int)))
      f64AsI64 (if negative then -v else v)

/-- `timeticks_secs`. -/
def timeticksSecs (value : Val) : Option Int :=
  match value with
  | .uint64 v => some (asI64 v)
  | .float64 v => some (f64AsI64 v)
  | .str s => parseF64AsI64 (trim s)
  | _ => none

/-- The samples of a row of the roles; a role that is no text is left out. -/
def portMetrics (device : EntityDevice) (interfaces : PMap Int String) (states : PMap (Int × Int) String)
    (costs : PMap (Int × Int) Int) (timestamp : Nat) (entry : ResultEntry) : List (LabeledMetric Rat) :=
  match rpvstRowKey entry, objStr entry.objects "HP-ICF-RPVST-MIB::hpicfRpvstPortVlanRole" with
  | some (vlan, port), some role =>
    let info : StpPortInfo := ⟨role, toString port, (interfaces port).getD "UNKNOWN"⟩
    let state := (states (vlan, port)).getD ""
    let cost := (costs (vlan, port)).getD 0
    [stpMetric device info vlan port "port_path_cost" cost timestamp,
      stpMetric device info vlan port "port_role" (rstpPortRoleNumeric info.role) timestamp,
      stpMetric device info vlan port "port_state" (stpPortStateNumeric state) timestamp]
  | _, _ => []

/-- The samples of a row of the VLANs: of each scalar that it has. -/
def bridgeMetrics (device : EntityDevice) (timestamp : Nat) (entry : ResultEntry) : List (LabeledMetric Rat) :=
  match entry.index "HP-ICF-RPVST-MIB::hpicfRpvstVlanId" with
  | none => []
  | some vlan =>
    let mac := ((objStr entry.objects "HP-ICF-RPVST-MIB::hpicfRpvstVlanRootMacAddress").map
      Utilities.Stp.normalizeMac).getD ""
    let scalar (key : String) (value : Option Int) (extraLabels : List (String × String)) :=
      value.toList.map fun value => stpBridgeMetric device vlan key value extraLabels timestamp
    scalar "root_priority" (objI64 entry.objects "HP-ICF-RPVST-MIB::hpicfRpvstVlanRootPriority") [("root_mac", mac)] ++
    scalar "root_cost" (objI64 entry.objects "HP-ICF-RPVST-MIB::hpicfRpvstVlanRootPathCost") [] ++
    scalar "root_port" (objI64 entry.objects "HP-ICF-RPVST-MIB::hpicfRpvstVlanRootPort") [] ++
    scalar "topology_changes" (objI64 entry.objects "HP-ICF-RPVST-MIB::hpicfVlanTopoChangeCount") [] ++
    scalar "time_since_topology_change"
      ((entry.objects "HP-ICF-RPVST-MIB::hpicfRpvstVlanTimeSinceLastTopoChange").bind timeticksSecs) []

def rpvstMetrics (device : EntityDevice) (interfaces : PMap Int String) (roles : Response)
    (states costs vlans : Option Response) (timestamp : Nat) : List (LabeledMetric Rat) :=
  let stateByKey := byRowKey states fun entry =>
    objStr entry.objects "HP-ICF-RPVST-MIB::hpicfRpvstPortVlanState"
  let costByKey := byRowKey costs fun entry =>
    objI64 entry.objects "HP-ICF-RPVST-MIB::hpicfRpvstPortVlanPathCost"
  roles.entries.flatMap (portMetrics device interfaces stateByKey costByKey timestamp) ++
    (vlans.elim [] Response.entries).flatMap (bridgeMetrics device timestamp)

end JaspyNexus.Collectors.Entitypoller
