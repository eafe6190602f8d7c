import Mathlib
import JaspyNexus.Collectors.StpMetrics
import JaspyNexus.Lib.Samples

/-! # The RPVST tables, there and back

What HP's tables say of a device's spanning trees is encoded as metrics and decoded
again: `rpvst_decoded` states what comes back. -/

namespace JaspyNexus.Collectors.Entitypoller
open JaspyNexus.Lib JaspyNexus.Lib.HashMap JaspyNexus.Lib.Text JaspyNexus.Models JaspyNexus.Snmp

/-! ## What the tables say -/

/-- The rows of a table, if it was polled. -/
def rowsOf (table : Option Response) : List ResultEntry := table.elim [] Response.entries

/-- The names of the roles. -/
def roleNames : List String := ["disabled", "root", "designated", "alternate", "backUp", "boundary", "master"]

def stateNames : List String := ["disabled", "blocking", "listening", "learning", "forwarding", "broken"]

/-- A role in its canonical spelling. -/
def canonicalRole (role : String) : String :=
  if role = "backup" then "backUp" else if role ∈ roleNames then role else "unknown"

def canonicalState (state : String) : String := if state ∈ stateNames then state else "unknown"

/-- What the row under a key has in a column. -/
def columnAt {α : Type} (table : Option Response) (column : ResultEntry → Option α) (key : Int × Int) : Option α :=
  ((rowsOf table).find? fun entry => rpvstRowKey entry = some key).bind column

def roleColumn (entry : ResultEntry) : Option String :=
  objStr entry.objects "HP-ICF-RPVST-MIB::hpicfRpvstPortVlanRole"

def stateColumn (entry : ResultEntry) : Option String :=
  objStr entry.objects "HP-ICF-RPVST-MIB::hpicfRpvstPortVlanState"

def costColumn (entry : ResultEntry) : Option Int :=
  objI64 entry.objects "HP-ICF-RPVST-MIB::hpicfRpvstPortVlanPathCost"

def vlanIndex (entry : ResultEntry) : Option Int := entry.index "HP-ICF-RPVST-MIB::hpicfRpvstVlanId"

def priorityColumn (entry : ResultEntry) : Option Int :=
  objI64 entry.objects "HP-ICF-RPVST-MIB::hpicfRpvstVlanRootPriority"

def macColumn (entry : ResultEntry) : Option String :=
  objStr entry.objects "HP-ICF-RPVST-MIB::hpicfRpvstVlanRootMacAddress"

def rootCostColumn (entry : ResultEntry) : Option Int :=
  objI64 entry.objects "HP-ICF-RPVST-MIB::hpicfRpvstVlanRootPathCost"

def rootPortColumn (entry : ResultEntry) : Option Int :=
  objI64 entry.objects "HP-ICF-RPVST-MIB::hpicfRpvstVlanRootPort"

def changesColumn (entry : ResultEntry) : Option Int :=
  objI64 entry.objects "HP-ICF-RPVST-MIB::hpicfVlanTopoChangeCount"

def timeSinceColumn (entry : ResultEntry) : Option Int :=
  (entry.objects "HP-ICF-RPVST-MIB::hpicfRpvstVlanTimeSinceLastTopoChange").bind timeticksSecs

/-- The port of a row of the roles, if its role is a text. -/
def portOf (interfaces : PMap Int String) (states costs : Option Response) (timestamp : Nat) (entry : ResultEntry) :
    Option ApiStpPort :=
  (rpvstRowKey entry).bind fun key => (roleColumn entry).map fun role =>
    { vlan := key.1
      stpPortId := key.2
      interfaceName := (interfaces key.2).filter fun name => name ≠ "" ∧ name ≠ "UNKNOWN"
      interfaceId := if key.2 = 0 then none else some key.2
      role := canonicalRole role
      state := ((columnAt states stateColumn key).map canonicalState).getD "unknown"
      pathCost := (columnAt costs costColumn key).getD 0
      enabled := none
      designatedCost := 0
      priority := 0
      forwardTransitions := 0
      timestamp := timestamp }

/-- A row of the VLANs has at least one of the scalars that come with samples of their
own. -/
def HasScalar (entry : ResultEntry) : Prop :=
  (priorityColumn entry).isSome ∨ (rootCostColumn entry).isSome ∨ (rootPortColumn entry).isSome ∨
    (changesColumn entry).isSome ∨ (timeSinceColumn entry).isSome

instance (entry : ResultEntry) : Decidable (HasScalar entry) := inferInstanceAs (Decidable (_ ∨ _))

/-- The bridge of a row of the VLANs, if it has any scalar. The root's address goes with
the root's priority. -/
def bridgeOf (ports : List ApiStpPort) (timestamp : Nat) (entry : ResultEntry) : Option ApiStpBridge :=
  (vlanIndex entry).bind fun vlan =>
    if HasScalar entry then
      some
        { vlan := vlan
          rootPriority := priorityColumn entry
          rootMac := (priorityColumn entry).bind fun _ =>
            ((macColumn entry).map Utilities.Stp.normalizeMac).filter (· ≠ "")
          timeSinceTopologyChangeSecs := timeSinceColumn entry
          rootCost := rootCostColumn entry
          rootPort := rootPortColumn entry
          rootPortInterfaceName := (rootPortColumn entry).bind fun rootPort =>
            (ports.find? fun p => p.vlan = vlan ∧ p.stpPortId = rootPort).bind fun p => p.interfaceName
          topologyChanges := changesColumn entry
          timestamp := timestamp }
    else none

/-- **What comes back** is what the tables say. -/
structure DecodedRpvst (interfaces : PMap Int String) (roles : Response) (states costs vlans : Option Response)
    (timestamp : Nat) (entity : ApiDeviceEntity) : Prop where
  sensors : entity.sensors = []
  /-- a port for each row of the roles -/
  ports : entity.stp.Perm (roles.entries.filterMap (portOf interfaces states costs timestamp))
  portsSorted : entity.stp.Pairwise fun a b => portOrder a < portOrder b
  /-- a bridge for each VLAN with a scalar -/
  bridges : entity.stpBridges.Perm ((rowsOf vlans).filterMap
    (bridgeOf (roles.entries.filterMap (portOf interfaces states costs timestamp)) timestamp))
  bridgesSorted : entity.stpBridges.Pairwise fun a b => a.vlan < b.vlan

/-- The indices are `i64`s. -/
def IndicesFit (entry : ResultEntry) : Prop := ∀ key v, entry.index key = some v → -2 ^ 63 ≤ v ∧ v < 2 ^ 63

/-- No two rows of a table have one key. -/
structure DistinctKeys (roles : Response) (states costs vlans : Option Response) : Prop where
  roles : (roles.entries.filterMap rpvstRowKey).Nodup
  states : ((rowsOf states).filterMap rpvstRowKey).Nodup
  costs : ((rowsOf costs).filterMap rpvstRowKey).Nodup
  vlans : ((rowsOf vlans).filterMap vlanIndex).Nodup

/-! ## The enumerations -/

theorem rstpPortRoleText_numeric (role : String) : rstpPortRoleText (rstpPortRoleNumeric role) = canonicalRole role := by
  unfold rstpPortRoleNumeric
  split
  all_goals try rfl
  next h1 h2 h3 h4 h5 h6 h7 h8 =>
    have hbackup : role ≠ "backup" := h6
    have hrole : role ∉ roleNames := by
      simp only [roleNames, List.mem_cons, List.not_mem_nil, or_false, not_or]
      exact ⟨h1, h2, h3, h4, h5, h7, h8⟩
    rw [canonicalRole, if_neg hbackup, if_neg hrole]
    rfl

theorem stpPortStateText_numeric (state : String) :
    stpPortStateText (stpPortStateNumeric state) = canonicalState state := by
  unfold stpPortStateNumeric
  split
  all_goals try rfl
  next h1 h2 h3 h4 h5 h6 =>
    have hstate : state ∉ stateNames := by
      simp only [stateNames, List.mem_cons, List.not_mem_nil, or_false, not_or]
      exact ⟨h1, h2, h3, h4, h5, h6⟩
    rw [canonicalState, if_neg hstate]
    rfl

/-! ## Tables by key -/

theorem insertColumn_of_ne {α : Type} {column : ResultEntry → Option α} {entry : ResultEntry} {key : Int × Int}
    (h : rpvstRowKey entry ≠ some key) (m : PMap (Int × Int) α) : insertColumn column m entry key = m key := by
  unfold insertColumn
  cases hkey : rpvstRowKey entry with
  | none => rfl
  | some key' =>
    cases column entry with
    | none => rfl
    | some v =>
      refine PMap.insert_of_ne m v fun heq => h ?_
      rw [hkey, heq]

theorem foldl_insertColumn {α : Type} {rows : List ResultEntry} (hnd : (rows.filterMap rpvstRowKey).Nodup)
    (column : ResultEntry → Option α) (m : PMap (Int × Int) α) (key : Int × Int) :
    rows.foldl (insertColumn column) m key =
      ((rows.find? fun entry => rpvstRowKey entry = some key).bind column).or (m key) := by
  induction rows generalizing m with
  | nil => rfl
  | cons entry rest ih =>
    have hrest : (rest.filterMap rpvstRowKey).Nodup :=
      hnd.sublist ((List.sublist_cons_self entry rest).filterMap rpvstRowKey)
    rw [List.foldl_cons, ih hrest, List.find?_cons]
    by_cases hkey : rpvstRowKey entry = some key
    · have hnone : rest.find? (fun entry => rpvstRowKey entry = some key) = none := by
        rw [List.filterMap_cons_some hkey, List.nodup_cons] at hnd
        refine List.find?_eq_none.mpr fun other hother heq => hnd.1 ?_
        exact List.mem_filterMap.mpr ⟨other, hother, of_decide_eq_true heq⟩
      rw [hnone]
      cases hcolumn : column entry with
      | none => simp [insertColumn, hkey, hcolumn]
      | some v => simp [insertColumn, hkey, hcolumn]
    · rw [insertColumn_of_ne hkey]
      simp [hkey]

/-- The map of a column has what the row of the key has. -/
theorem byRowKey_eq {α : Type} {table : Option Response} (hnd : ((rowsOf table).filterMap rpvstRowKey).Nodup)
    (column : ResultEntry → Option α) : byRowKey table column = columnAt table column := by
  funext key
  refine (foldl_insertColumn hnd column PMap.empty key).trans ?_
  rw [PMap.empty_apply, Option.or_none]
  rfl

/-! ## The samples -/

/-- A sample that the decoder takes for one of a port: its key and its field. -/
structure IsPortSample (metric : LabeledMetric Rat) (key : Int ×ₗ Int) (field : String) : Prop where
  sensor : metric.name ≠ "jaspy_sensors"
  bridge : stripPrefix metric.name "jaspy_stp_bridge_" = none
  field : stripPrefix metric.name "jaspy_stp_" = some field
  vlan : parseI64 (label metric "vlan") = some (ofLex key).1
  port : parseI64 (label metric "stp_port_id") = some (ofLex key).2

/-- A sample that the decoder takes for one of a bridge. -/
structure IsBridgeSample (metric : LabeledMetric Rat) (vlan : Int) (field : String) : Prop where
  sensor : metric.name ≠ "jaspy_sensors"
  field : stripPrefix metric.name "jaspy_stp_bridge_" = some field
  vlan : parseI64 (label metric "vlan") = some vlan

/-- The key, the start and the change of a port's sample. -/
def portKeyOf (metric : LabeledMetric Rat) : Int ×ₗ Int :=
  toLex ((parseI64 (label metric "vlan")).getD 0, (parseI64 (label metric "stp_port_id")).getD 0)

def newPortOf (metric : LabeledMetric Rat) : ApiStpPort :=
  newPort (ofLex (portKeyOf metric)).1 (ofLex (portKeyOf metric)).2 metric

def setPortOf (metric : LabeledMetric Rat) : ApiStpPort → ApiStpPort :=
  setPort ((stripPrefix metric.name "jaspy_stp_").getD "") metric

def bridgeKeyOf (metric : LabeledMetric Rat) : Int := (parseI64 (label metric "vlan")).getD 0

def setBridgeOf (metric : LabeledMetric Rat) : ApiStpBridge → ApiStpBridge :=
  setBridge ((stripPrefix metric.name "jaspy_stp_bridge_").getD "") metric

section
variable {metric : LabeledMetric Rat} {d : Decoding} {metrics : List (LabeledMetric Rat)}

theorem IsPortSample.keyOf {key : Int ×ₗ Int} {field : String} (h : IsPortSample metric key field) :
    portKeyOf metric = key := by
  rw [portKeyOf, h.vlan, h.port]
  rfl

theorem IsPortSample.decode {key : Int ×ₗ Int} {field : String} (h : IsPortSample metric key field) :
    decodeMetric d metric =
      { d with stp := d.stp.upsert (portKeyOf metric) (newPortOf metric) (setPortOf metric) } := by
  rw [newPortOf, setPortOf, h.keyOf, h.field, decodeMetric, if_neg h.sensor, h.bridge]
  simp only [h.field, h.vlan, h.port, Option.getD_some]
  rfl

theorem IsBridgeSample.keyOf {vlan : Int} {field : String} (h : IsBridgeSample metric vlan field) :
    bridgeKeyOf metric = vlan := by
  rw [bridgeKeyOf, h.vlan]
  rfl

theorem IsBridgeSample.decode {vlan : Int} {field : String} (h : IsBridgeSample metric vlan field) :
    decodeMetric d metric =
      { d with bridges := d.bridges.upsert (bridgeKeyOf metric) (newBridge (bridgeKeyOf metric)) (setBridgeOf metric) } := by
  rw [setBridgeOf, h.keyOf, h.field, decodeMetric, if_neg h.sensor, h.field]
  simp only [h.vlan, Option.getD_some]

/-- The loop over samples of ports, and over samples of bridges. -/
def gatherPorts (metrics : List (LabeledMetric Rat)) (m : HashMap (Int ×ₗ Int) ApiStpPort) :
    HashMap (Int ×ₗ Int) ApiStpPort :=
  metrics.foldl (fun m r => m.upsert (portKeyOf r) (newPortOf r) (setPortOf r)) m

def gatherBridges (metrics : List (LabeledMetric Rat)) (m : HashMap Int ApiStpBridge) : HashMap Int ApiStpBridge :=
  metrics.foldl (fun m r => m.upsert (bridgeKeyOf r) (newBridge (bridgeKeyOf r)) (setBridgeOf r)) m

/-- Samples of ports make ports. -/
theorem foldl_portSamples (h : ∀ metric ∈ metrics, ∃ key field, IsPortSample metric key field) (d : Decoding) :
    metrics.foldl decodeMetric d = { d with stp := gatherPorts metrics d.stp } := by
  induction metrics generalizing d with
  | nil => rfl
  | cons metric rest ih =>
    obtain ⟨key, field, hmetric⟩ := h metric List.mem_cons_self
    rw [List.foldl_cons, ih fun m hm => h m (List.mem_cons_of_mem metric hm), hmetric.decode]
    rfl

/-- Samples of bridges make bridges. -/
theorem foldl_bridgeSamples (h : ∀ metric ∈ metrics, ∃ vlan field, IsBridgeSample metric vlan field) (d : Decoding) :
    metrics.foldl decodeMetric d = { d with bridges := gatherBridges metrics d.bridges } := by
  induction metrics generalizing d with
  | nil => rfl
  | cons metric rest ih =>
    obtain ⟨vlan, field, hmetric⟩ := h metric List.mem_cons_self
    rw [List.foldl_cons, ih fun m hm => h m (List.mem_cons_of_mem metric hm), hmetric.decode]
    rfl

end

/-! ## The encoder's samples -/

section
variable {device : EntityDevice} {info : StpPortInfo} {vlan port value : Int} {timestamp : Nat}

/-- The fields that the RPVST tables give of a port. -/
def portFields : List String := ["port_path_cost", "port_role", "port_state"]

def bridgeFields : List String :=
  ["root_priority", "root_cost", "root_port", "topology_changes", "time_since_topology_change"]

theorem portFields_names : ∀ field ∈ portFields, "jaspy_stp_" ++ field ≠ "jaspy_sensors" ∧
    stripPrefix ("jaspy_stp_" ++ field) "jaspy_stp_bridge_" = none ∧
    stripPrefix ("jaspy_stp_" ++ field) "jaspy_stp_" = some field := by decide +kernel

theorem bridgeFields_names : ∀ field ∈ bridgeFields, "jaspy_stp_bridge_" ++ field ≠ "jaspy_sensors" ∧
    stripPrefix ("jaspy_stp_bridge_" ++ field) "jaspy_stp_bridge_" = some field := by decide +kernel

theorem stpMetric_labels (field : String) : (stpMetric device info vlan port field value timestamp).labels =
    ((((deviceLabels device).insert "vlan" (toString vlan)).insert "stp_port_id" (toString port)).insert
      "interface_name" info.interfaceName).insert "interface_id" info.interfaceId := rfl

theorem label_stpMetric_vlan (field : String) :
    label (stpMetric device info vlan port field value timestamp) "vlan" = toString vlan := by
  simp [label, stpMetric_labels, AList.lookup_insert_ne]

theorem label_stpMetric_port (field : String) :
    label (stpMetric device info vlan port field value timestamp) "stp_port_id" = toString port := by
  simp [label, stpMetric_labels, AList.lookup_insert_ne]

theorem label_stpMetric_name (field : String) :
    label (stpMetric device info vlan port field value timestamp) "interface_name" = info.interfaceName := by
  simp [label, stpMetric_labels, AList.lookup_insert_ne]

theorem label_stpMetric_id (field : String) :
    label (stpMetric device info vlan port field value timestamp) "interface_id" = info.interfaceId := by
  simp [label, stpMetric_labels]

theorem isPortSample {field : String} (hfield : field ∈ portFields) (hvlan : -2 ^ 63 ≤ vlan ∧ vlan < 2 ^ 63)
    (hport : -2 ^ 63 ≤ port ∧ port < 2 ^ 63) :
    IsPortSample (stpMetric device info vlan port field value timestamp) (toLex (vlan, port)) field := by
  obtain ⟨hsensor, hbridge, hstp⟩ := portFields_names field hfield
  refine ⟨hsensor, hbridge, hstp, ?_, ?_⟩
  · rw [label_stpMetric_vlan]
    exact parseI64_toString hvlan
  · rw [label_stpMetric_port]
    exact parseI64_toString hport

theorem stpBridgeMetric_labels (field : String) (extraLabels : List (String × String)) :
    (stpBridgeMetric device vlan field value extraLabels timestamp).labels =
      extraLabels.foldl (fun labels l => labels.insert l.1 l.2)
        ((deviceLabels device).insert "vlan" (toString vlan)) := rfl

theorem label_stpBridgeMetric_vlan (field : String) {extraLabels : List (String × String)}
    (hextra : extraLabels = [] ∨ ∃ mac, extraLabels = [("root_mac", mac)]) :
    label (stpBridgeMetric device vlan field value extraLabels timestamp) "vlan" = toString vlan := by
  rcases hextra with rfl | ⟨mac, rfl⟩
  · simp [label, stpBridgeMetric_labels]
  · simp [label, stpBridgeMetric_labels, AList.lookup_insert_ne]

theorem label_stpBridgeMetric_mac (field mac : String) :
    label (stpBridgeMetric device vlan field value [("root_mac", mac)] timestamp) "root_mac" = mac := by
  simp [label, stpBridgeMetric_labels]

theorem isBridgeSample {field : String} {extraLabels : List (String × String)} (hfield : field ∈ bridgeFields)
    (hextra : extraLabels = [] ∨ ∃ mac, extraLabels = [("root_mac", mac)]) (hvlan : -2 ^ 63 ≤ vlan ∧ vlan < 2 ^ 63) :
    IsBridgeSample (stpBridgeMetric device vlan field value extraLabels timestamp) vlan field := by
  obtain ⟨hsensor, hbridge⟩ := bridgeFields_names field hfield
  refine ⟨hsensor, hbridge, ?_⟩
  rw [label_stpBridgeMetric_vlan field hextra]
  exact parseI64_toString hvlan

end

/-! ## Row by row -/

section
variable {device : EntityDevice} {interfaces : PMap Int String} {roles : Response} {states costs vlans : Option Response}
  {timestamp : Nat} {entry : ResultEntry}

theorem optName_getD (name : Option String) :
    optName (name.getD "UNKNOWN") = name.filter fun name => name ≠ "" ∧ name ≠ "UNKNOWN" := by
  cases name with
  | none => rfl
  | some name =>
    by_cases h : name = "" ∨ name = "UNKNOWN"
    · rw [Option.getD_some, optName, if_pos h]
      rcases h with rfl | rfl <;> rfl
    · rw [Option.getD_some, optName, if_neg h]
      rw [not_or] at h
      simp [Option.filter, h.1, h.2]

theorem optId_toString {port : Int} (hport : -2 ^ 63 ≤ port ∧ port < 2 ^ 63) :
    optId (toString port) = if port = 0 then none else some port := by
  rw [optId, parseI64_toString hport]
  by_cases h : port = 0
  · subst h
    rfl
  · rw [if_neg h]
    split
    next heq => cases heq
    next heq => exact absurd (Option.some.inj heq) h
    next heq => exact heq.symm

theorem rpvstRowKey_fit (hfit : IndicesFit entry) {key : Int × Int} (h : rpvstRowKey entry = some key) :
    (-2 ^ 63 ≤ key.1 ∧ key.1 < 2 ^ 63) ∧ (-2 ^ 63 ≤ key.2 ∧ key.2 < 2 ^ 63) := by
  obtain ⟨vlan, hvlan, h⟩ := Option.bind_eq_some_iff.mp h
  obtain ⟨port, hport, rfl⟩ := Option.map_eq_some_iff.mp h
  exact ⟨hfit _ _ hvlan, hfit _ _ hport⟩

theorem mem_portMetrics {states : PMap (Int × Int) String} {costs : PMap (Int × Int) Int} {metric : LabeledMetric Rat}
    (h : metric ∈ portMetrics device interfaces states costs timestamp entry) :
    ∃ key info field value, rpvstRowKey entry = some key ∧ field ∈ portFields ∧
      metric = stpMetric device info key.1 key.2 field value timestamp := by
  unfold portMetrics at h
  split at h
  next vlan port role hkey _ =>
    simp only [List.mem_cons, List.not_mem_nil, or_false] at h
    rcases h with rfl | rfl | rfl
    · exact ⟨(vlan, port), _, "port_path_cost", _, hkey, by simp [portFields], rfl⟩
    · exact ⟨(vlan, port), _, "port_role", _, hkey, by simp [portFields], rfl⟩
    · exact ⟨(vlan, port), _, "port_state", _, hkey, by simp [portFields], rfl⟩
  next => cases h

/-- The samples of a row are under the row's key. -/
theorem portMetrics_key (hfit : IndicesFit entry) {states : PMap (Int × Int) String} {costs : PMap (Int × Int) Int}
    {metric : LabeledMetric Rat} (h : metric ∈ portMetrics device interfaces states costs timestamp entry) :
    ∃ key field, (rpvstRowKey entry).map toLex = some key ∧ IsPortSample metric key field := by
  obtain ⟨key, info, field, value, hkey, hfield, rfl⟩ := mem_portMetrics h
  obtain ⟨hvlan, hport⟩ := rpvstRowKey_fit hfit hkey
  exact ⟨toLex key, field, by rw [hkey]; rfl, isPortSample hfield hvlan hport⟩

/-- **A row of the roles comes back as its port.** -/
theorem foldl_portMetrics (hfit : IndicesFit entry) :
    (portMetrics device interfaces (columnAt states stateColumn) (columnAt costs costColumn) timestamp entry).foldl
      (sampled newPortOf setPortOf) none = portOf interfaces states costs timestamp entry := by
  unfold portMetrics portOf roleColumn
  cases hkey : rpvstRowKey entry with
  | none => rfl
  | some key =>
    obtain ⟨vlan, port⟩ := key
    obtain ⟨hvlan, hport⟩ := rpvstRowKey_fit hfit hkey
    cases objStr entry.objects "HP-ICF-RPVST-MIB::hpicfRpvstPortVlanRole" with
    | none => rfl
    | some role =>
      have hset : ∀ field ∈ portFields, ∀ info value, setPortOf (stpMetric device info vlan port field value timestamp) =
          setPort field (stpMetric device info vlan port field value timestamp) := by
        intro field hfield info value
        rw [setPortOf, (isPortSample hfield hvlan hport).field, Option.getD_some]
      have hnew : ∀ field ∈ portFields, ∀ info value, newPortOf (stpMetric device info vlan port field value timestamp) =
          newPort vlan port (stpMetric device info vlan port field value timestamp) := by
        intro field hfield info value
        rw [newPortOf, (isPortSample hfield hvlan hport).keyOf]
        rfl
      have hcost : "port_path_cost" ∈ portFields := by simp [portFields]
      have hrole : "port_role" ∈ portFields := by simp [portFields]
      have hstate : "port_state" ∈ portFields := by simp [portFields]
      simp only [List.foldl_cons, List.foldl_nil, sampled, Option.getD_none, Option.getD_some, hset _ hcost, hset _ hrole,
        hset _ hstate, hnew _ hcost]
      simp only [newPort, label_stpMetric_name, label_stpMetric_id, optName_getD, optId_toString hport]
      simp only [setPort, stpMetric, MetricValue.asI64, rstpPortRoleText_numeric, stpPortStateText_numeric]
      have hunknown : ∀ state : Option String,
          canonicalState (state.getD "") = (state.map canonicalState).getD "unknown" := fun state => by
        cases state <;> rfl
      rw [hunknown, Nat.zero_max, max_self, max_self]
      rfl

/-! ## Bridges -/

theorem mem_scalar {vlan : Int} {key : String} {value : Option Int} {extraLabels : List (String × String)}
    {metric : LabeledMetric Rat}
    (h : metric ∈ value.toList.map fun value => stpBridgeMetric device vlan key value extraLabels timestamp) :
    ∃ value, metric = stpBridgeMetric device vlan key value extraLabels timestamp := by
  obtain ⟨v, -, rfl⟩ := List.mem_map.mp h
  exact ⟨v, rfl⟩

/-- The samples of a row are under the row's VLAN. -/
theorem bridgeMetrics_key (hfit : IndicesFit entry) {metric : LabeledMetric Rat}
    (h : metric ∈ bridgeMetrics device timestamp entry) :
    ∃ vlan field, vlanIndex entry = some vlan ∧ IsBridgeSample metric vlan field := by
  unfold bridgeMetrics at h
  cases hvlan : entry.index "HP-ICF-RPVST-MIB::hpicfRpvstVlanId" with
  | none =>
    rw [hvlan] at h
    cases h
  | some vlan =>
    rw [hvlan] at h
    simp only [List.mem_append] at h
    have hrange := hfit _ _ hvlan
    rcases h with (((h | h) | h) | h) | h
    · obtain ⟨value, rfl⟩ := mem_scalar h
      exact ⟨vlan, "root_priority", hvlan, isBridgeSample (by simp [bridgeFields]) (.inr ⟨_, rfl⟩) hrange⟩
    · obtain ⟨value, rfl⟩ := mem_scalar h
      exact ⟨vlan, "root_cost", hvlan, isBridgeSample (by simp [bridgeFields]) (.inl rfl) hrange⟩
    · obtain ⟨value, rfl⟩ := mem_scalar h
      exact ⟨vlan, "root_port", hvlan, isBridgeSample (by simp [bridgeFields]) (.inl rfl) hrange⟩
    · obtain ⟨value, rfl⟩ := mem_scalar h
      exact ⟨vlan, "topology_changes", hvlan, isBridgeSample (by simp [bridgeFields]) (.inl rfl) hrange⟩
    · obtain ⟨value, rfl⟩ := mem_scalar h
      exact ⟨vlan, "time_since_topology_change", hvlan,
        isBridgeSample (by simp [bridgeFields]) (.inl rfl) hrange⟩

/-- What is held after the samples of one scalar. -/
def afterScalar (held : Option ApiStpBridge) (start : ApiStpBridge) (value : Option Int)
    (set : Int → ApiStpBridge → ApiStpBridge) : Option ApiStpBridge :=
  match value with
  | some v => some (set v (held.getD start))
  | none => held

theorem foldl_scalar {vlan : Int} (hrange : -2 ^ 63 ≤ vlan ∧ vlan < 2 ^ 63) {field : String} (hfield : field ∈ bridgeFields)
    {extraLabels : List (String × String)} (hextra : extraLabels = [] ∨ ∃ mac, extraLabels = [("root_mac", mac)])
    (held : Option ApiStpBridge) (value : Option Int) :
    (value.toList.map fun value => stpBridgeMetric device vlan field value extraLabels timestamp).foldl
        (sampled (fun r => newBridge (bridgeKeyOf r)) setBridgeOf) held =
      afterScalar held (newBridge vlan) value fun value =>
        setBridge field (stpBridgeMetric device vlan field value extraLabels timestamp) := by
  cases value with
  | none => rfl
  | some value =>
    have hsample : IsBridgeSample (stpBridgeMetric device vlan field value extraLabels timestamp) vlan field :=
      isBridgeSample hfield hextra hrange
    simp only [Option.toList_some, List.map_cons, List.map_nil, List.foldl_cons, List.foldl_nil, sampled, setBridgeOf,
      hsample.keyOf, hsample.field, Option.getD_some, afterScalar]

/-- One more scalar: the bridge with it, if there was a bridge before or there is the scalar. -/
theorem afterScalar_ite {before : Prop} [Decidable before] {held start : ApiStpBridge} (next : ApiStpBridge)
    {value : Option Int} {set : Int → ApiStpBridge → ApiStpBridge} (hnone : value = none → held = next)
    (hheld : ∀ v, value = some v → before → set v held = next)
    (hstart : ∀ v, value = some v → ¬before → set v start = next) :
    afterScalar (if before then some held else none) start value set =
      if before ∨ value.isSome then some next else none := by
  by_cases hbefore : before
  · rw [if_pos hbefore, if_pos (.inl hbefore)]
    cases value with
    | none => exact congrArg some (hnone rfl)
    | some v => exact congrArg some (hheld v rfl hbefore)
  · rw [if_neg hbefore]
    cases value with
    | none => exact (if_neg (by simpa using hbefore)).symm
    | some v => rw [if_pos (.inr rfl), ← hstart v rfl hbefore]; rfl

section
variable {vlan : Int} {bridge : ApiStpBridge} (htime : bridge.timestamp ≤ timestamp)
include htime

theorem setBridge_rootCost (v : Int) :
    setBridge "root_cost" (stpBridgeMetric device vlan "root_cost" v [] timestamp) bridge =
      { bridge with rootCost := some v, timestamp := timestamp } := by
  show { bridge with rootCost := some v, timestamp := max bridge.timestamp timestamp } = _
  rw [max_eq_right htime]

theorem setBridge_rootPort (v : Int) :
    setBridge "root_port" (stpBridgeMetric device vlan "root_port" v [] timestamp) bridge =
      { bridge with rootPort := some v, timestamp := timestamp } := by
  show { bridge with rootPort := some v, timestamp := max bridge.timestamp timestamp } = _
  rw [max_eq_right htime]

theorem setBridge_topologyChanges (v : Int) :
    setBridge "topology_changes" (stpBridgeMetric device vlan "topology_changes" v [] timestamp) bridge =
      { bridge with topologyChanges := some v, timestamp := timestamp } := by
  show { bridge with topologyChanges := some v, timestamp := max bridge.timestamp timestamp } = _
  rw [max_eq_right htime]

theorem setBridge_timeSince (v : Int) :
    setBridge "time_since_topology_change" (stpBridgeMetric device vlan "time_since_topology_change" v [] timestamp) bridge =
      { bridge with timeSinceTopologyChangeSecs := some v, timestamp := timestamp } := by
  show { bridge with timeSinceTopologyChangeSecs := some v, timestamp := max bridge.timestamp timestamp } = _
  rw [max_eq_right htime]

/-- The root's address comes with its priority, if it is spelled. -/
theorem setBridge_rootPriority (hroot : bridge.rootMac = none) (v : Int) (spelled : Option String) :
    setBridge "root_priority"
        (stpBridgeMetric device vlan "root_priority" v [("root_mac", spelled.getD "")] timestamp) bridge =
      { bridge with rootPriority := some v, rootMac := spelled.filter (· ≠ ""), timestamp := timestamp } := by
  have hmac : (if spelled.getD "" ≠ "" then some (spelled.getD "") else none) = spelled.filter (· ≠ "") := by
    cases spelled with
    | none => rfl
    | some m =>
      by_cases h : m = ""
      · subst h
        rfl
      · simp [h, Option.filter]
  unfold setBridge
  dsimp only
  rw [label_stpBridgeMetric_mac, hroot, hmac]
  show { bridge with
    rootPriority := some v
    rootMac := spelled.filter (· ≠ "")
    timestamp := max bridge.timestamp timestamp } = _
  rw [max_eq_right htime]

end

/-- The five scalars, one after the other. -/
theorem afterScalars (vlan : Int) (priority rootCost rootPort changes timeSince : Option Int) (mac : Option String) :
    afterScalar (afterScalar (afterScalar (afterScalar (afterScalar none
      (newBridge vlan) priority fun value => setBridge "root_priority" (stpBridgeMetric device vlan "root_priority" value
        [("root_mac", (mac.map Utilities.Stp.normalizeMac).getD "")] timestamp))
      (newBridge vlan) rootCost fun value => setBridge "root_cost"
        (stpBridgeMetric device vlan "root_cost" value [] timestamp))
      (newBridge vlan) rootPort fun value => setBridge "root_port"
        (stpBridgeMetric device vlan "root_port" value [] timestamp))
      (newBridge vlan) changes fun value => setBridge "topology_changes"
        (stpBridgeMetric device vlan "topology_changes" value [] timestamp))
      (newBridge vlan) timeSince (fun value => setBridge "time_since_topology_change"
        (stpBridgeMetric device vlan "time_since_topology_change" value [] timestamp)) =
    if priority.isSome ∨ rootCost.isSome ∨ rootPort.isSome ∨ changes.isSome ∨ timeSince.isSome then
      some
        { vlan := vlan
          rootPriority := priority
          rootMac := priority.bind fun _ => (mac.map Utilities.Stp.normalizeMac).filter (· ≠ "")
          timeSinceTopologyChangeSecs := timeSince
          rootCost := rootCost
          rootPort := rootPort
          rootPortInterfaceName := none
          topologyChanges := changes
          timestamp := timestamp }
    else none := by
  let bridge (priority rootCost rootPort changes timeSince : Option Int) : ApiStpBridge :=
    { vlan := vlan
      rootPriority := priority
      rootMac := priority.bind fun _ => (mac.map Utilities.Stp.normalizeMac).filter (· ≠ "")
      timeSinceTopologyChangeSecs := timeSince
      rootCost := rootCost
      rootPort := rootPort
      rootPortInterfaceName := none
      topologyChanges := changes
      timestamp := timestamp }
  have hfirst : (none : Option ApiStpBridge) = if False then some (bridge none none none none none) else none := rfl
  have hnew : (newBridge vlan).timestamp ≤ timestamp := Nat.zero_le _
  rw [hfirst, afterScalar_ite (bridge priority none none none none) (fun h => by rw [h])
      (fun v h hbefore => hbefore.elim)
      (fun v h _ => by rw [h, setBridge_rootPriority hnew rfl]; rfl),
    afterScalar_ite (bridge priority rootCost none none none) (fun h => by rw [h])
      (fun v h _ => by rw [h, setBridge_rootCost (Nat.le_refl timestamp)])
      (fun v h hbefore => ?_),
    afterScalar_ite (bridge priority rootCost rootPort none none) (fun h => by rw [h])
      (fun v h _ => by rw [h, setBridge_rootPort (Nat.le_refl timestamp)])
      (fun v h hbefore => ?_),
    afterScalar_ite (bridge priority rootCost rootPort changes none) (fun h => by rw [h])
      (fun v h _ => by rw [h, setBridge_topologyChanges (Nat.le_refl timestamp)])
      (fun v h hbefore => ?_),
    afterScalar_ite (bridge priority rootCost rootPort changes timeSince) (fun h => by rw [h])
      (fun v h _ => by rw [h, setBridge_timeSince (Nat.le_refl timestamp)])
      (fun v h hbefore => ?_)]
  · simp only [false_or, or_assoc]
    rfl
  -- the first scalar of the row: the ones before it are none
  · have hnone : ((priority = none ∧ rootCost = none) ∧ rootPort = none) ∧ changes = none := by
      simpa using hbefore
    rw [h, setBridge_timeSince hnew, hnone.1.1.1, hnone.1.1.2, hnone.1.2, hnone.2]
    rfl
  · have hnone : (priority = none ∧ rootCost = none) ∧ rootPort = none := by simpa using hbefore
    rw [h, setBridge_topologyChanges hnew, hnone.1.1, hnone.1.2, hnone.2]
    rfl
  · have hnone : priority = none ∧ rootCost = none := by simpa using hbefore
    rw [h, setBridge_rootPort hnew, hnone.1, hnone.2]
    rfl
  · have hnone : priority = none := by simpa using hbefore
    rw [h, setBridge_rootCost hnew, hnone]
    rfl

/-- **A row of the VLANs comes back as its bridge**, if it has any scalar. -/
theorem foldl_bridgeMetrics (hfit : IndicesFit entry) :
    (bridgeMetrics device timestamp entry).foldl (sampled (fun r => newBridge (bridgeKeyOf r)) setBridgeOf) none =
      bridgeOf [] timestamp entry := by
  unfold bridgeMetrics bridgeOf
  show _ = (entry.index "HP-ICF-RPVST-MIB::hpicfRpvstVlanId").bind _
  cases hvlan : entry.index "HP-ICF-RPVST-MIB::hpicfRpvstVlanId" with
  | none => rfl
  | some vlan =>
    have hrange := hfit _ _ hvlan
    simp only [List.foldl_append]
    rw [foldl_scalar hrange (by simp [bridgeFields]) (.inr ⟨_, rfl⟩),
      foldl_scalar hrange (by simp [bridgeFields]) (.inl rfl),
      foldl_scalar hrange (by simp [bridgeFields]) (.inl rfl),
      foldl_scalar hrange (by simp [bridgeFields]) (.inl rfl),
      foldl_scalar hrange (by simp [bridgeFields]) (.inl rfl)]
    refine (afterScalars vlan (priorityColumn entry) (rootCostColumn entry) (rootPortColumn entry)
      (changesColumn entry) (timeSinceColumn entry) (macColumn entry)).trans ?_
    have hname : ((rootPortColumn entry).bind fun rootPort => (([] : List ApiStpPort).find? fun p =>
        p.vlan = vlan ∧ p.stpPortId = rootPort).bind fun p => p.interfaceName) = none := by
      cases rootPortColumn entry <;> rfl
    rw [Option.bind_some, hname]
    by_cases h : HasScalar entry
    · exact (if_pos h).trans (if_pos h).symm
    · exact (if_neg h).trans (if_neg h).symm

end

/-! ## There and back -/

section
variable {device : EntityDevice} {interfaces : PMap Int String} {roles : Response} {states costs vlans : Option Response}
  {timestamp : Nat}

/-- What the decoder gathers from the samples of the tables. -/
theorem foldl_rpvstMetrics (device : EntityDevice) (interfaces : PMap Int String) (timestamp : Nat)
    (hkeys : DistinctKeys roles states costs vlans)
    (hroles : ∀ entry ∈ roles.entries, IndicesFit entry) (hvlans : ∀ entry ∈ rowsOf vlans, IndicesFit entry) :
    (rpvstMetrics device interfaces roles states costs vlans timestamp).foldl decodeMetric ⟨[], ∅, ∅⟩ =
      ⟨[], gatherPorts (roles.entries.flatMap (portMetrics device interfaces (columnAt states stateColumn)
          (columnAt costs costColumn) timestamp)) ∅,
        gatherBridges ((rowsOf vlans).flatMap (bridgeMetrics device timestamp)) ∅⟩ := by
  have hstates : byRowKey states (fun entry => objStr entry.objects "HP-ICF-RPVST-MIB::hpicfRpvstPortVlanState") =
      columnAt states stateColumn := byRowKey_eq hkeys.states stateColumn
  have hcosts : byRowKey costs (fun entry => objI64 entry.objects "HP-ICF-RPVST-MIB::hpicfRpvstPortVlanPathCost") =
      columnAt costs costColumn := byRowKey_eq hkeys.costs costColumn
  have hports : ∀ metric ∈ roles.entries.flatMap (portMetrics device interfaces (columnAt states stateColumn)
      (columnAt costs costColumn) timestamp), ∃ key field, IsPortSample metric key field := by
    intro metric hmetric
    obtain ⟨entry, hentry, hmetric⟩ := List.mem_flatMap.mp hmetric
    obtain ⟨key, field, -, hsample⟩ := portMetrics_key (hroles entry hentry) hmetric
    exact ⟨key, field, hsample⟩
  have hbridges : ∀ metric ∈ (rowsOf vlans).flatMap (bridgeMetrics device timestamp),
      ∃ vlan field, IsBridgeSample metric vlan field := by
    intro metric hmetric
    obtain ⟨entry, hentry, hmetric⟩ := List.mem_flatMap.mp hmetric
    obtain ⟨vlan, field, -, hsample⟩ := bridgeMetrics_key (hvlans entry hentry) hmetric
    exact ⟨vlan, field, hsample⟩
  unfold rpvstMetrics
  rw [hstates, hcosts, List.foldl_append, foldl_portSamples hports]
  exact foldl_bridgeSamples hbridges _

theorem nodup_lexKeys (hkeys : DistinctKeys roles states costs vlans) :
    (roles.entries.filterMap fun entry => (rpvstRowKey entry).map toLex).Nodup := by
  rw [← List.map_filterMap]
  exact hkeys.roles.map toLex.injective

theorem portOf_key {entry : ResultEntry} {port : ApiStpPort} (h : portOf interfaces states costs timestamp entry = some port) :
    (rpvstRowKey entry).map toLex = some (toLex (port.vlan, port.stpPortId)) := by
  obtain ⟨key, hkey, h⟩ := Option.bind_eq_some_iff.mp h
  obtain ⟨role, -, rfl⟩ := Option.map_eq_some_iff.mp h
  rw [hkey]
  rfl

theorem bridgeOf_vlan {ports : List ApiStpPort} {entry : ResultEntry} {bridge : ApiStpBridge}
    (h : bridgeOf ports timestamp entry = some bridge) : vlanIndex entry = some bridge.vlan := by
  obtain ⟨vlan, hvlan, h⟩ := Option.bind_eq_some_iff.mp h
  split at h
  next =>
    cases h
    exact hvlan
  next => cases h

/-- The ports that are gathered. -/
theorem gatherPorts_perm (device : EntityDevice) (interfaces : PMap Int String) (timestamp : Nat)
    (hkeys : DistinctKeys roles states costs vlans)
    (hroles : ∀ entry ∈ roles.entries, IndicesFit entry) :
    (gatherPorts (roles.entries.flatMap (portMetrics device interfaces (columnAt states stateColumn)
      (columnAt costs costColumn) timestamp)) ∅).values.Perm
        (roles.entries.filterMap (portOf interfaces states costs timestamp)) := by
  refine values_perm (nodup_lexKeys hkeys) (fun entry port h => ⟨_, portOf_key h⟩) fun k port => ?_
  refine (lookup_foldl_rows (nodup_lexKeys hkeys) fun entry hentry metric hmetric => ?_).trans ?_
  · obtain ⟨key, field, hkey, hsample⟩ := portMetrics_key (hroles entry hentry) hmetric
    rw [hkey, hsample.keyOf]
  · refine exists_congr fun entry => and_congr_right fun hentry => and_congr_right fun _ => ?_
    rw [foldl_portMetrics (hroles entry hentry)]

/-- The bridges that are gathered, under their VLANs. -/
theorem lookup_gatherBridges (device : EntityDevice) (timestamp : Nat) (hkeys : DistinctKeys roles states costs vlans)
    (hvlans : ∀ entry ∈ rowsOf vlans, IndicesFit entry) (vlan : Int) (bridge : ApiStpBridge) :
    (gatherBridges ((rowsOf vlans).flatMap (bridgeMetrics device timestamp)) ∅).lookup vlan = some bridge ↔
      ∃ entry ∈ rowsOf vlans, vlanIndex entry = some vlan ∧ bridgeOf [] timestamp entry = some bridge := by
  refine (lookup_foldl_rows hkeys.vlans fun entry hentry metric hmetric => ?_).trans ?_
  · obtain ⟨key, field, hkey, hsample⟩ := bridgeMetrics_key (hvlans entry hentry) hmetric
    rw [hkey, hsample.keyOf]
  · refine exists_congr fun entry => and_congr_right fun hentry => and_congr_right fun _ => ?_
    rw [foldl_bridgeMetrics (hvlans entry hentry)]

/-- A bridge with its root port resolved. -/
theorem resolveRootPort_bridgeOf (ports : List ApiStpPort) (timestamp : Nat) (entry : ResultEntry) :
    (bridgeOf [] timestamp entry).map (resolveRootPort ports) = bridgeOf ports timestamp entry := by
  unfold bridgeOf
  cases vlanIndex entry with
  | none => rfl
  | some vlan =>
    rw [Option.bind_some, Option.bind_some]
    split
    next h =>
      unfold resolveRootPort
      cases rootPortColumn entry <;> rfl
    next => rfl

theorem nodup_ports (hkeys : DistinctKeys roles states costs vlans) :
    ((roles.entries.filterMap (portOf interfaces states costs timestamp)).map fun port =>
      toLex (port.vlan, port.stpPortId)).Nodup :=
  nodup_map_filterMap (fun _ _ => portOf_key) (nodup_lexKeys hkeys)

/-- Which port a bridge's root port is does not depend on the order of the ports. -/
theorem bridgeOf_perm (hkeys : DistinctKeys roles states costs vlans) {ports : List ApiStpPort}
    (hperm : ports.Perm (roles.entries.filterMap (portOf interfaces states costs timestamp))) (entry : ResultEntry) :
    bridgeOf ports timestamp entry =
      bridgeOf (roles.entries.filterMap (portOf interfaces states costs timestamp)) timestamp entry := by
  have hnd := (hperm.map fun port => toLex (port.vlan, port.stpPortId)).nodup_iff.mpr (nodup_ports hkeys)
  have hfind : ∀ vlan rootPort : Int, ports.find? (fun p => p.vlan = vlan ∧ p.stpPortId = rootPort) =
      (roles.entries.filterMap (portOf interfaces states costs timestamp)).find?
        fun p => p.vlan = vlan ∧ p.stpPortId = rootPort := by
    intro vlan rootPort
    refine find?_perm hperm fun a ha b hb hpa hpb => List.inj_on_of_nodup_map hnd ha hb ?_
    obtain ⟨hvlan, hport⟩ := of_decide_eq_true hpa
    obtain ⟨hvlan', hport'⟩ := of_decide_eq_true hpb
    rw [hvlan, hport, hvlan', hport']
  simp only [bridgeOf, hfind]

/-- The ports ascend. -/
theorem pairwise_portOrder (ports : List ApiStpPort) (hnd : (ports.map fun p => toLex (p.vlan, p.stpPortId)).Nodup) :
    (ports.mergeSort fun a b => decide (portOrder a ≤ portOrder b)).Pairwise fun a b => portOrder a < portOrder b := by
  have hsorted : (ports.mergeSort fun a b => decide (portOrder a ≤ portOrder b)).Pairwise
      fun a b => decide (portOrder a ≤ portOrder b) = true := by
    refine List.pairwise_mergeSort (fun a b c hab hbc => ?_) (fun a b => ?_) ports
    · exact decide_eq_true ((of_decide_eq_true hab).trans (of_decide_eq_true hbc))
    · rw [Bool.or_eq_true, decide_eq_true_iff, decide_eq_true_iff]
      exact le_total _ _
  have hperm := List.mergeSort_perm ports fun a b => decide (portOrder a ≤ portOrder b)
  have hdistinct : (ports.mergeSort fun a b => decide (portOrder a ≤ portOrder b)).Pairwise
      fun a b => toLex (a.vlan, a.stpPortId) ≠ toLex (b.vlan, b.stpPortId) := by
    have hkeys := (hperm.map fun p => toLex (p.vlan, p.stpPortId)).nodup_iff.mpr hnd
    exact List.pairwise_map.mp hkeys
  refine (hsorted.and hdistinct).imp fun {a b} h => lt_of_le_of_ne (of_decide_eq_true h.1) fun heq => h.2 ?_
  have hkeys := congrArg ofLex heq
  obtain ⟨hvlan, hrest⟩ := Prod.mk.inj hkeys
  obtain ⟨-, hport⟩ := Prod.mk.inj (congrArg ofLex hrest)
  rw [hvlan, hport]

@[simp] theorem resolveRootPort_vlan (ports : List ApiStpPort) (bridge : ApiStpBridge) :
    (resolveRootPort ports bridge).vlan = bridge.vlan := by
  unfold resolveRootPort
  split <;> rfl

/-- The bridges ascend. -/
theorem pairwise_bridges {bridges : HashMap Int ApiStpBridge}
    (hvlan : ∀ vlan bridge, bridges.lookup vlan = some bridge → bridge.vlan = vlan) (ports : List ApiStpPort) :
    ((bridges.byKey.map Prod.snd).map (resolveRootPort ports)).Pairwise fun a b => a.vlan < b.vlan := by
  refine List.pairwise_map.mp ?_
  have hkeys : ((bridges.byKey.map Prod.snd).map (resolveRootPort ports)).map (fun b => b.vlan) =
      bridges.byKey.map Prod.fst := by
    rw [List.map_map, List.map_map]
    refine List.map_congr_left fun e he => ?_
    exact (resolveRootPort_vlan ports e.2).trans (hvlan e.1 e.2 (mem_byKey.mp he))
  rw [hkeys]
  exact pairwise_byKey bridges

/-- **The RPVST tables come back**: what is decoded of their samples is what they say. -/
theorem rpvst_decoded (device : EntityDevice) (interfaces : PMap Int String) (timestamp : Nat)
    (hkeys : DistinctKeys roles states costs vlans) (hroles : ∀ entry ∈ roles.entries, IndicesFit entry)
    (hvlans : ∀ entry ∈ rowsOf vlans, IndicesFit entry) :
    DecodedRpvst interfaces roles states costs vlans timestamp
      (decodeEntity (rpvstMetrics device interfaces roles states costs vlans timestamp)) := by
  have hd := foldl_rpvstMetrics device interfaces timestamp hkeys hroles hvlans
  have hgathered := (values_byKey_perm _).trans (gatherPorts_perm device interfaces timestamp hkeys hroles)
  have hperm := (List.mergeSort_perm _ fun a b => decide (portOrder a ≤ portOrder b)).trans hgathered
  have hlookup := lookup_gatherBridges device timestamp hkeys hvlans
  have hnd := (hgathered.map fun port => toLex (port.vlan, port.stpPortId)).nodup_iff.mpr (nodup_ports hkeys)
  unfold decodeEntity
  rw [hd]
  refine ⟨List.mergeSort_nil, hperm, pairwise_portOrder _ hnd, ?_, pairwise_bridges ?_ _⟩
  · have hvalues := (values_byKey_perm _).trans
      (values_perm hkeys.vlans (fun entry bridge h => ⟨_, bridgeOf_vlan h⟩) hlookup)
    refine (hvalues.map (resolveRootPort _)).trans (List.Perm.of_eq ?_)
    rw [List.map_filterMap]
    refine List.filterMap_congr fun entry _ => ?_
    rw [resolveRootPort_bridgeOf, bridgeOf_perm hkeys hperm]
  · intro vlan bridge hbridge
    obtain ⟨entry, -, hvlan, hentry⟩ := (hlookup vlan bridge).mp hbridge
    rw [bridgeOf_vlan hentry] at hvlan
    exact Option.some.inj hvlan

/-! ## Two switches -/

/-- A port's value in a column. -/
def portRow (vlan port : Int) (column : String) (v : Val) : ResultEntry :=
  tableRow [("HP-ICF-RPVST-MIB::hpicfRpvstVlanId", vlan), ("HP-ICF-RPVST-MIB::hpicfRpvstPortIndex", port)] [(column, v)]

theorem row_fit {index : List (String × Int)} (h : ∀ e ∈ index, -2 ^ 63 ≤ e.2 ∧ e.2 < 2 ^ 63)
    (columns : List (String × Val)) : IndicesFit (tableRow index columns) := by
  intro key v hv
  obtain ⟨before, after, rfl, -⟩ := List.lookup_eq_some_iff.mp hv
  exact h (key, v) (by simp)

theorem portRow_fit {vlan port : Int} (hvlan : -2 ^ 63 ≤ vlan ∧ vlan < 2 ^ 63) (hport : -2 ^ 63 ≤ port ∧ port < 2 ^ 63)
    (column : String) (v : Val) : IndicesFit (portRow vlan port column v) :=
  row_fit (by simpa using ⟨hvlan, hport⟩) _

/-- Port 5 is the root port of VLAN 100 and port 6 a designated one, whose cost is not told. -/
def treeRoles : Response :=
  tableOf [portRow 100 5 "HP-ICF-RPVST-MIB::hpicfRpvstPortVlanRole" (.str "root"),
    portRow 100 6 "HP-ICF-RPVST-MIB::hpicfRpvstPortVlanRole" (.str "designated")]

def treeStates : Response :=
  tableOf [portRow 100 5 "HP-ICF-RPVST-MIB::hpicfRpvstPortVlanState" (.str "forwarding"),
    portRow 100 6 "HP-ICF-RPVST-MIB::hpicfRpvstPortVlanState" (.str "learning")]

def treeCosts : Response := tableOf [portRow 100 5 "HP-ICF-RPVST-MIB::hpicfRpvstPortVlanPathCost" (.uint64 20000)]

def treeVlans : Response :=
  tableOf [tableRow [("HP-ICF-RPVST-MIB::hpicfRpvstVlanId", 100)]
    [("HP-ICF-RPVST-MIB::hpicfRpvstVlanRootPriority", .uint64 4096),
      ("HP-ICF-RPVST-MIB::hpicfRpvstVlanRootMacAddress", .str "70 10 6f 63 f2 70"),
      ("HP-ICF-RPVST-MIB::hpicfRpvstVlanRootPathCost", .uint64 20000),
      ("HP-ICF-RPVST-MIB::hpicfRpvstVlanRootPort", .uint64 5)]]

def treeInterfaces : PMap Int String := PMap.insert PMap.empty 5 "A5"

theorem rpvst_decoded_tree :
    DecodedRpvst treeInterfaces treeRoles (some treeStates) (some treeCosts) (some treeVlans) 77
      (decodeEntity (rpvstMetrics ⟨"sw1", "sw1.lan"⟩ treeInterfaces treeRoles (some treeStates) (some treeCosts)
        (some treeVlans) 77)) := by
  refine rpvst_decoded ⟨"sw1", "sw1.lan"⟩ treeInterfaces 77 ⟨by decide +kernel, by decide +kernel, by decide +kernel,
    by decide +kernel⟩ (fun entry hentry => ?_) fun entry hentry => ?_
  · simp only [treeRoles, tableOf, List.mem_cons, List.not_mem_nil, or_false] at hentry
    rcases hentry with rfl | rfl
    · exact portRow_fit (by decide) (by decide) _ _
    · exact portRow_fit (by decide) (by decide) _ _
  · obtain rfl := List.mem_singleton.mp hentry
    exact row_fit (by decide) _

example : (treeRoles.entries.filterMap (portOf treeInterfaces (some treeStates) (some treeCosts) 77)).map
    (fun p => (p.interfaceName, p.state, p.pathCost)) = [(some "A5", "forwarding", 20000), (none, "learning", 0)] := by
  decide +kernel

/-- Port 5 is a root port, and port 8 has a role that is no text. -/
def switchRoles : Response :=
  tableOf [portRow 100 5 "HP-ICF-RPVST-MIB::hpicfRpvstPortVlanRole" (.str "root"),
    portRow 100 8 "HP-ICF-RPVST-MIB::hpicfRpvstPortVlanRole" (.uint64 0)]

/-- The VLAN has the address of its root and nothing else. -/
def switchVlans : Response :=
  tableOf [tableRow [("HP-ICF-RPVST-MIB::hpicfRpvstVlanId", 100)]
    [("HP-ICF-RPVST-MIB::hpicfRpvstVlanRootMacAddress", .str "70 10 6f 63 f2 70")]]

/-- The row of port 8 has no port, port 5 has an id without its interface, and the address
has no bridge. -/
theorem switch_decoded :
    switchRoles.entries.map rpvstRowKey = [some (100, 5), some (100, 8)] ∧
    ((decodeEntity (rpvstMetrics ⟨"sw1", "sw1.lan"⟩ PMap.empty switchRoles none none (some switchVlans) 77)).stp.map
      fun p => (p.stpPortId, p.interfaceName, p.interfaceId)) = [(5, none, some 5)] ∧
    (decodeEntity (rpvstMetrics ⟨"sw1", "sw1.lan"⟩ PMap.empty switchRoles none none (some switchVlans) 77)).stpBridges =
      [] := by
  refine ⟨by decide +kernel, by decide +kernel, by decide +kernel⟩

end

end JaspyNexus.Collectors.Entitypoller
