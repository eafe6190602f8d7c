import Mathlib
import JaspyNexus.Lib.HashMap
import JaspyNexus.Lib.LastWrite
import JaspyNexus.Lib.ParentGraph
import JaspyNexus.Lib.StableSort
import JaspyNexus.Collectors.Tables

/-! # Class-based QoS

The decoder of `collectors/qos.rs`. The objects of a policy form a hierarchy by parent
pointers, which the agent may get wrong: a class climbs to the nearest policy-map, and stops
where the pointers end, dangle or go round. -/

namespace JaspyNexus.Collectors.Qos
open JaspyNexus.Lib JaspyNexus.Lib.ParentGraph JaspyNexus.Snmp

/-! ## Classes -/

inductive QosDirection where
  | input
  | output
  deriving DecidableEq, Repr

/-- `QosDirection::from_snmp`. -/
def QosDirection.fromSnmp (value : String) : QosDirection := if value = "output" then .output else .input

def QosDirection.asStr : QosDirection → String
  | .input => "input"
  | .output => "output"

structure QosPolice where
  conformPkts : Option Nat
  conformBytes : Option Nat
  exceedPkts : Option Nat
  exceedBytes : Option Nat
  violatePkts : Option Nat
  violateBytes : Option Nat
  deriving DecidableEq, Repr

structure QosClass where
  interfaceIfindex : Int
  interfaceName : Option String
  interfaceId : Option Int
  direction : QosDirection
  policymap : String
  classmap : String
  prepolicyPkts : Option Nat
  prepolicyBytes : Option Nat
  postpolicyBytes : Option Nat
  dropPkts : Option Nat
  dropBytes : Option Nat
  police : Option QosPolice
  deriving DecidableEq, Repr

/-! ## Rows -/

/-- `v as u64` of a float that is not negative. -/
def f64AsU64 (v : Rat) : Nat := min (2 ^ 64 - 1) v.floor.toNat

/-- `obj_u64`. -/
def objU64 (objects : PMap String Val) (key : String) : Option Nat :=
  match objects key with
  | some (.uint64 v) => some v
  | some (.float64 v) => if 0 ≤ v then some (f64AsU64 v) else none
  | _ => none

/-- The policy and the number of an object. -/
abbrev Key := Int × Int

/-- `policy_obj_key`. -/
def policyObjKey (entry : ResultEntry) : Option Key :=
  (entry.index "CISCO-CLASS-BASED-QOS-MIB::cbQosPolicyIndex").bind fun policy =>
    (entry.index "CISCO-CLASS-BASED-QOS-MIB::cbQosObjectsIndex").map fun obj => (policy, obj)

def configIndex (entry : ResultEntry) : Option Int :=
  entry.index "CISCO-CLASS-BASED-QOS-MIB::cbQosConfigIndex"

/-- `config_names`. -/
def configNames (cfg : Response) (nameCol : String) : AList fun _ : Int => String :=
  writeAll (fun entry : ResultEntry => (configIndex entry).bind fun idx =>
    (objStr entry.objects nameCol).map fun name => (idx, name)) cfg.entries

structure ObjInfo where
  configIndex : Int
  otype : String
  parent : Int
  deriving DecidableEq, Repr

/-- What is read of a row of the objects table. -/
def objInfo (entry : ResultEntry) : ObjInfo where
  configIndex := (objI64 entry.objects "CISCO-CLASS-BASED-QOS-MIB::cbQosConfigIndex").getD 0
  otype := (objStr entry.objects "CISCO-CLASS-BASED-QOS-MIB::cbQosObjectsType").getD ""
  parent := (objI64 entry.objects "CISCO-CLASS-BASED-QOS-MIB::cbQosParentObjectsIndex").getD 0

/-- The objects by key, a map that is iterated. -/
def objectsOf (objects : Response) : HashMap Key ObjInfo :=
  writeAll (fun entry => (policyObjKey entry).map fun key => (key, objInfo entry)) objects.entries

/-- The police object a row puts under its parent. -/
def policeRow (entry : ResultEntry) : Option (Key × Int) :=
  (policyObjKey entry).bind fun key =>
    if (objInfo entry).otype = "police" then some ((key.1, (objInfo entry).parent), key.2) else none

/-- `police_child`: of several police objects of one parent, the last row's. -/
def policeChild (objects : Response) : AList fun _ : Key => Int := writeAll policeRow objects.entries

/-- `index_by_policy_obj`. -/
def indexByPolicyObj (stats : Response) : AList fun _ : Key => PMap String Val :=
  writeAll (fun entry : ResultEntry => (policyObjKey entry).map fun key => (key, entry.objects)) stats.entries

/-- `policy_meta`: the interface and the direction a policy is applied to. -/
def policyMeta (servicePolicy : Response) : AList fun _ : Int => Int × QosDirection :=
  writeAll (fun entry : ResultEntry =>
    (entry.index "CISCO-CLASS-BASED-QOS-MIB::cbQosPolicyIndex").map fun policy =>
      (policy, (objI64 entry.objects "CISCO-CLASS-BASED-QOS-MIB::cbQosIfIndex").getD 0,
        ((objStr entry.objects "CISCO-CLASS-BASED-QOS-MIB::cbQosPolicyDirection").map
          QosDirection.fromSnmp).getD .input)) servicePolicy.entries

/-- The counters of a row of the police table. -/
def policeCounters (o : PMap String Val) : QosPolice where
  conformPkts := objU64 o "CISCO-CLASS-BASED-QOS-MIB::cbQosPoliceConformedPkt64"
  conformBytes := objU64 o "CISCO-CLASS-BASED-QOS-MIB::cbQosPoliceConformedByte64"
  exceedPkts := objU64 o "CISCO-CLASS-BASED-QOS-MIB::cbQosPoliceExceededPkt64"
  exceedBytes := objU64 o "CISCO-CLASS-BASED-QOS-MIB::cbQosPoliceExceededByte64"
  violatePkts := objU64 o "CISCO-CLASS-BASED-QOS-MIB::cbQosPoliceViolatedPkt64"
  violateBytes := objU64 o "CISCO-CLASS-BASED-QOS-MIB::cbQosPoliceViolatedByte64"

/-! ## The decoder -/

/-- What `decode_qos` is given; distinct keys in the objects table. -/
structure QosTables where
  servicePolicy : Response
  objects : Response
  policymapCfg : Response
  cmCfg : Response
  cmStats : Response
  policeStats : Response
  ifNames : PMap Int String
  objectKeys : (objects.entries.filterMap policyObjKey).Nodup

/-- The loop of `resolve_policymap`, with the turns left. -/
def climb (objs : HashMap Key ObjInfo) (policymapNames : AList fun _ : Int => String) (policy : Int) :
    Nat → Int → String
  | 0, _ => ""
  | turns + 1, current =>
    match objs.lookup (policy, current) with
    | none => ""
    | some info =>
      if info.otype = "policymap" then (policymapNames.lookup info.configIndex).getD ""
      else if info.parent = 0 ∨ info.parent = current then ""
      else climb objs policymapNames policy turns info.parent

/-- `resolve_policymap`. -/
def resolvePolicymap (policy objIndex : Int) (objs : HashMap Key ObjInfo)
    (policymapNames : AList fun _ : Int => String) : String :=
  climb objs policymapNames policy (objs.entries.length + 1) objIndex

variable (t : QosTables)

def QosTables.policymapNames : AList fun _ : Int => String :=
  configNames t.policymapCfg "CISCO-CLASS-BASED-QOS-MIB::cbQosPolicyMapName"

def QosTables.cmNames : AList fun _ : Int => String := configNames t.cmCfg "CISCO-CLASS-BASED-QOS-MIB::cbQosCMName"

/-- The class of a class-map object. -/
def classOf (objs : HashMap Key ObjInfo) (key : Key) (info : ObjInfo) : QosClass :=
  let applied := ((policyMeta t.servicePolicy).lookup key.1).getD (0, .input)
  let cm := (indexByPolicyObj t.cmStats).lookup key
  let counter (column : String) : Option Nat := cm.bind fun o => objU64 o column
  { interfaceIfindex := applied.1
    interfaceName := t.ifNames applied.1
    interfaceId := none
    direction := applied.2
    policymap := resolvePolicymap key.1 key.2 objs t.policymapNames
    classmap := (t.cmNames.lookup info.configIndex).getD ""
    prepolicyPkts := counter "CISCO-CLASS-BASED-QOS-MIB::cbQosCMPrePolicyPkt64"
    prepolicyBytes := counter "CISCO-CLASS-BASED-QOS-MIB::cbQosCMPrePolicyByte64"
    postpolicyBytes := counter "CISCO-CLASS-BASED-QOS-MIB::cbQosCMPostPolicyByte64"
    dropPkts := counter "CISCO-CLASS-BASED-QOS-MIB::cbQosCMDropPkt64"
    dropBytes := counter "CISCO-CLASS-BASED-QOS-MIB::cbQosCMDropByte64"
    police := ((policeChild t.objects).lookup key).bind fun policeObj =>
      ((indexByPolicyObj t.policeStats).lookup (key.1, policeObj)).map policeCounters }

/-- What the classes are sorted by. -/
def sortKey (c : QosClass) : Int ×ₗ String ×ₗ String ×ₗ String :=
  toLex (c.interfaceIfindex, toLex (c.direction.asStr, toLex (c.policymap, c.classmap)))

/-- The classes of the objects, in the order in which they are visited. -/
def visited (objs : HashMap Key ObjInfo) : List QosClass :=
  objs.entries.filterMap fun e => if e.2.otype = "classmap" then some (classOf t objs e.1 e.2) else none

/-- The map of the objects, in an order in which it may be iterated. -/
abbrev QosTables.Order : Type := { objs : HashMap Key ObjInfo // HashMap.Reorders (objectsOf t.objects) objs }

/-- `decode_qos`. -/
def decodeQos (order : t.Order) : List QosClass := sortByKey sortKey (visited t order.val)

/-! ## The hierarchy -/

/-- The row of an object. -/
def QosTables.row (key : Key) : Option ResultEntry := t.objects.entries.find? fun row => policyObjKey row = some key

/-- The parent a row points to, in the same policy; 0 is none. -/
def QosTables.up (key : Key) : Option Key :=
  (t.row key).bind fun row => if (objInfo row).parent = 0 then none else some (key.1, (objInfo row).parent)

/-- A policy-map object of this name. -/
def QosTables.IsPolicymap (key : Key) : Prop := ∃ row, t.row key = some row ∧ (objInfo row).otype = "policymap"

/-- The configured name of a policy-map object. -/
def QosTables.nameOf (key : Key) : String :=
  ((t.row key).bind fun row => t.policymapNames.lookup (objInfo row).configIndex).getD ""

/-- The rows of class-maps, which have a key. -/
def QosTables.classmapRows : List ResultEntry :=
  t.objects.entries.filter fun row => (policyObjKey row).isSome ∧ (objInfo row).otype = "classmap"

/-- The class of a row. -/
def QosTables.rowClass (row : ResultEntry) : QosClass :=
  classOf t (objectsOf t.objects) ((policyObjKey row).getD (0, 0)) (objInfo row)

/-- The name of the nearest policy-map up the parent pointers; empty where there is none. -/
def QosTables.Encloses (key : Key) (name : String) : Prop :=
  (∃ n policymap, Nearest t.up t.IsPolicymap key n policymap ∧ name = t.nameOf policymap) ∨
    (¬∃ n policymap, Nearest t.up t.IsPolicymap key n policymap) ∧ name = ""

/-- **One class for each class-map row**, under the policy-map that encloses it. -/
structure Classes (out : List QosClass) : Prop where
  perm : out.Perm (t.classmapRows.map t.rowClass)
  encloses : ∀ row ∈ t.classmapRows, ∀ key, policyObjKey row = some key → t.Encloses key (t.rowClass row).policymap

/-! ## Objects and rows -/

theorem row_eq_some_iff {key : Key} {row : ResultEntry} :
    t.row key = some row ↔ row ∈ t.objects.entries ∧ policyObjKey row = some key := by
  constructor
  · intro h
    have hkey := List.find?_some (p := fun row => policyObjKey row = some key) h
    exact ⟨List.mem_of_find?_eq_some h, of_decide_eq_true hkey⟩
  · rintro ⟨hrow, hkey⟩
    obtain ⟨found, hfound⟩ := Option.isSome_iff_exists.mp
      (List.find?_isSome.mpr ⟨row, hrow, decide_eq_true hkey⟩ : (t.row key).isSome = true)
    have hmem := List.mem_of_find?_eq_some hfound
    have hkey' := of_decide_eq_true (List.find?_some (p := fun row => policyObjKey row = some key) hfound)
    rw [show t.row key = some found from hfound, eq_of_nodup_filterMap t.objectKeys hmem hrow hkey' hkey]

/-- The map holds what is read of the rows. -/
theorem lookup_objectsOf (key : Key) : (objectsOf t.objects).lookup key = (t.row key).map objInfo := by
  refine Option.ext fun info => ?_
  refine (lookup_writeAll_of_nodup (fun row e he => ?_) t.objectKeys).trans ?_
  · obtain ⟨key, hkey, rfl⟩ := Option.map_eq_some_iff.mp he
    exact hkey
  · simp only [Option.map_eq_some_iff, row_eq_some_iff]
    constructor
    · rintro ⟨row, hrow, key', hkey, heq⟩
      cases heq
      exact ⟨row, ⟨hrow, hkey⟩, rfl⟩
    · rintro ⟨row, ⟨hrow, hkey⟩, rfl⟩
      exact ⟨row, hrow, key, hkey, rfl⟩

theorem mem_keys_of_row {key : Key} {row : ResultEntry} (h : t.row key = some row) :
    key ∈ (objectsOf t.objects).keys := by
  refine AList.lookup_isSome.mp ?_
  rw [lookup_objectsOf, h]
  rfl

/-! ## The climb -/

/-- One turn of the loop, in terms of the rows. -/
theorem climb_succ (policy : Int) (turns : Nat) (current : Int) :
    climb (objectsOf t.objects) t.policymapNames policy (turns + 1) current =
      match t.row (policy, current) with
      | none => ""
      | some row =>
        if (objInfo row).otype = "policymap" then t.nameOf (policy, current)
        else if (objInfo row).parent = 0 ∨ (objInfo row).parent = current then ""
        else climb (objectsOf t.objects) t.policymapNames policy turns (objInfo row).parent := by
  rw [climb, lookup_objectsOf]
  cases hrow : t.row (policy, current) with
  | none => rfl
  | some row => simp only [Option.map_some, QosTables.nameOf, hrow, Option.bind_some]

/-- With turns enough to get there, the climb ends at the nearest policy-map. -/
theorem climb_nearest {policy : Int} {policymap : Key} {n : Nat} {current : Int}
    (h : Nearest t.up t.IsPolicymap (policy, current) n policymap) {turns : Nat} (hturns : n < turns) :
    climb (objectsOf t.objects) t.policymapNames policy turns current = t.nameOf policymap := by
  induction n generalizing current turns with
  | zero =>
    obtain ⟨k, rfl⟩ : ∃ k, turns = k + 1 := ⟨turns - 1, by omega⟩
    have hreach : (policy, current) = policymap := Option.some.inj h.reach
    subst hreach
    obtain ⟨row, hrow, htype⟩ := h.found
    rw [climb_succ, hrow]
    dsimp only
    rw [if_pos htype]
  | succ n ih =>
    obtain ⟨k, rfl⟩ : ∃ k, turns = k + 1 := ⟨turns - 1, by omega⟩
    obtain ⟨next, hnext, -⟩ := Option.bind_eq_some_iff.mp h.reach
    obtain ⟨row, hrow, hup⟩ := Option.bind_eq_some_iff.mp hnext
    obtain ⟨hparent, heq⟩ := Option.ite_none_left_eq_some.mp hup
    obtain rfl := Option.some.inj heq
    have htype : (objInfo row).otype ≠ "policymap" := fun htype =>
      h.before 0 (by omega) (policy, current) rfl ⟨row, hrow, htype⟩
    -- a self pointer would lead to the same policy-map sooner
    have hself : (objInfo row).parent ≠ current := by
      intro hself
      rw [hself] at hnext
      exact h.ne (i := 0) (j := 1) (by omega) (by omega) rfl (by simp [ancestor, hnext])
    rw [climb_succ, hrow]
    dsimp only
    rw [if_neg htype, if_neg (by simp [hparent, hself])]
    exact ih (h.tail hnext) (by omega)

/-- A climb that finds no policy-map gives nothing. -/
theorem climb_eq_empty (policy : Int) (turns : Nat) (current : Int)
    (h : ∀ n z, ancestor t.up n (policy, current) = some z → ¬t.IsPolicymap z) :
    climb (objectsOf t.objects) t.policymapNames policy turns current = "" := by
  induction turns generalizing current with
  | zero => rfl
  | succ turns ih =>
    rw [climb_succ]
    cases hrow : t.row (policy, current) with
    | none => rfl
    | some row =>
      dsimp only
      rw [if_neg fun htype => h 0 _ rfl ⟨row, hrow, htype⟩]
      split
      · rfl
      · next hparent =>
        have hup : t.up (policy, current) = some (policy, (objInfo row).parent) := by
          rw [QosTables.up, hrow, Option.bind_some, if_neg (fun h0 => hparent (.inl h0))]
        refine ih _ fun n z hz => h (n + 1) z ?_
        rw [ancestor, hup]
        exact hz

/-- **The bound of the loop is no limit**: the policy-map of an object is the one that
encloses it. -/
theorem resolvePolicymap_encloses (policy objIndex : Int) :
    t.Encloses (policy, objIndex) (resolvePolicymap policy objIndex (objectsOf t.objects) t.policymapNames) := by
  unfold resolvePolicymap
  by_cases hnone : ∃ n policymap, Nearest t.up t.IsPolicymap (policy, objIndex) n policymap
  · obtain ⟨n, policymap, h⟩ := hnone
    have hlt : n < (objectsOf t.objects).keys.length := h.lt_length
      (fun z z' hz => by
        obtain ⟨row, hrow, -⟩ := Option.bind_eq_some_iff.mp hz
        exact mem_keys_of_row t hrow)
      (fun z hz => by
        obtain ⟨row, hrow, -⟩ := hz
        exact mem_keys_of_row t hrow)
    have hlength : (objectsOf t.objects).keys.length = (objectsOf t.objects).entries.length := List.length_map _
    exact .inl ⟨n, policymap, h, climb_nearest t h (by omega)⟩
  · exact .inr ⟨hnone, climb_eq_empty t policy _ objIndex fun n z hz hp => hnone (exists_nearest hz hp)⟩

/-! ## The classes -/

/-- The climb only looks objects up, and counts them. -/
theorem resolvePolicymap_reorders {objs objs' : HashMap Key ObjInfo} (h : HashMap.Reorders objs objs')
    (policy objIndex : Int) (names : AList fun _ : Int => String) :
    resolvePolicymap policy objIndex objs' names = resolvePolicymap policy objIndex objs names := by
  have hclimb : ∀ turns current, climb objs' names policy turns current = climb objs names policy turns current := by
    intro turns
    induction turns with
    | zero => exact fun _ => rfl
    | succ turns ih => intro current; simp only [climb, h.lookup, ih]
  rw [resolvePolicymap, resolvePolicymap, List.Perm.length_eq h, hclimb]

theorem classOf_reorders {objs objs' : HashMap Key ObjInfo} (h : HashMap.Reorders objs objs') (key : Key)
    (info : ObjInfo) : classOf t objs' key info = classOf t objs key info := by
  unfold classOf
  rw [resolvePolicymap_reorders h]

theorem visited_perm {objs objs' : HashMap Key ObjInfo} (h : HashMap.Reorders objs objs') :
    (visited t objs').Perm (visited t objs) := by
  have hclass : visited t objs' = objs'.entries.filterMap fun e =>
      if e.2.otype = "classmap" then some (classOf t objs e.1 e.2) else none := by
    simp only [visited, classOf_reorders t h]
  rw [hclass]
  exact (List.Perm.filterMap _ h).symm

/-- The entries of the map are those of the rows. -/
theorem objects_perm : ((objectsOf t.objects).entries.map fun e => (e.1, e.2)).Perm
    (t.objects.entries.filterMap fun row => (policyObjKey row).map fun key => (key, objInfo row)) := by
  have hmap : ((objectsOf t.objects).entries.map fun e => (e.1, e.2)).Nodup :=
    List.Nodup.of_map Prod.fst (by rw [List.map_map]; exact (objectsOf t.objects).nodupKeys)
  have hrows : (t.objects.entries.filterMap fun row => (policyObjKey row).map fun key => (key, objInfo row)).Nodup := by
    refine List.Nodup.of_map Prod.fst ?_
    have hkeys := t.objectKeys
    rwa [List.map_filterMap, List.filterMap_congr (g := policyObjKey)]
    intro row _
    cases policyObjKey row <;> rfl
  refine (List.perm_ext_iff_of_nodup hmap hrows).mpr fun e => ?_
  obtain ⟨key, info⟩ := e
  have hentry : (key, info) ∈ (objectsOf t.objects).entries.map (fun e => (e.1, e.2)) ↔
      (objectsOf t.objects).lookup key = some info := by
    rw [← HashMap.mem_entries, List.mem_map]
    exact ⟨fun ⟨e, he, heq⟩ => by cases heq; exact he, fun h => ⟨_, h, rfl⟩⟩
  rw [hentry, lookup_objectsOf]
  simp only [Option.map_eq_some_iff, row_eq_some_iff, List.mem_filterMap, Prod.mk.injEq]
  constructor
  · rintro ⟨row, ⟨hrow, hkey⟩, hinfo⟩
    exact ⟨row, hrow, key, hkey, rfl, hinfo⟩
  · rintro ⟨row, hrow, key', hkey, rfl, hinfo⟩
    exact ⟨row, ⟨hrow, hkey⟩, hinfo⟩

/-- One class is visited for each class-map row. -/
theorem visited_objectsOf : (visited t (objectsOf t.objects)).Perm (t.classmapRows.map t.rowClass) := by
  have hvisited : visited t (objectsOf t.objects) = ((objectsOf t.objects).entries.map fun e => (e.1, e.2)).filterMap
      fun e => if e.2.otype = "classmap" then some (classOf t (objectsOf t.objects) e.1 e.2) else none := by
    rw [List.filterMap_map]
    rfl
  rw [hvisited]
  refine ((objects_perm t).filterMap _).trans (List.Perm.of_eq ?_)
  rw [List.filterMap_filterMap, QosTables.classmapRows, ← List.filterMap_eq_map, List.filterMap_filter]
  refine List.filterMap_congr fun row _ => ?_
  unfold QosTables.rowClass
  cases hkey : policyObjKey row with
  | none => rfl
  | some key => simp [hkey]

/-- **One class for each class-map row, named after the policy-map that encloses it**, whatever
the parent pointers are. -/
theorem decodeQos_classes (t : QosTables) (order : t.Order) : Classes t (decodeQos t order) := by
  refine ⟨?_, fun row hrow key hkey => ?_⟩
  · exact (sortByKey_perm sortKey _).trans ((visited_perm t order.property).trans (visited_objectsOf t))
  · have hclass : (t.rowClass row).policymap =
        resolvePolicymap key.1 key.2 (objectsOf t.objects) t.policymapNames := by
      unfold QosTables.rowClass
      rw [hkey]
      rfl
    rw [hclass]
    exact resolvePolicymap_encloses t key.1 key.2

end JaspyNexus.Collectors.Qos
