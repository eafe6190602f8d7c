import Mathlib
import JaspyNexus.Collectors.Qos

/-! # The order of the classes

The classes are sorted by four fields after they are taken from a map. Classes that share the
four keep the order of the map, and of several police objects of a class the last row counts:
the list is free of both orders only where neither can make a difference. -/

namespace JaspyNexus.Collectors.Qos
open JaspyNexus.Lib JaspyNexus.Snmp

/-! ## Orders -/

def policyIndex (entry : ResultEntry) : Option Int := entry.index "CISCO-CLASS-BASED-QOS-MIB::cbQosPolicyIndex"

/-- Tables of distinct row keys, each. -/
structure DistinctTables extends QosTables where
  policies : (servicePolicy.entries.filterMap policyIndex).Nodup
  policymaps : (policymapCfg.entries.filterMap configIndex).Nodup
  classmaps : (cmCfg.entries.filterMap configIndex).Nodup
  cmKeys : (cmStats.entries.filterMap policyObjKey).Nodup
  policeKeys : (policeStats.entries.filterMap policyObjKey).Nodup

/-- The same rows in each table, in any order. -/
structure SameRows (t t' : QosTables) : Prop where
  servicePolicy : t.servicePolicy.entries.Perm t'.servicePolicy.entries
  objects : t.objects.entries.Perm t'.objects.entries
  policymapCfg : t.policymapCfg.entries.Perm t'.policymapCfg.entries
  cmCfg : t.cmCfg.entries.Perm t'.cmCfg.entries
  cmStats : t.cmStats.entries.Perm t'.cmStats.entries
  policeStats : t.policeStats.entries.Perm t'.policeStats.entries
  ifNames : t.ifNames = t'.ifNames

/-- The list is the same for every order of the rows, and of the map it is taken from. -/
def OrderFree (t : DistinctTables) : Prop :=
  ∀ t' : DistinctTables, SameRows t.toQosTables t'.toQosTables →
    ∀ (order : t.Order) (order' : t'.Order), decodeQos t.toQosTables order = decodeQos t'.toQosTables order'

/-! ## The condition -/

section
variable (t : QosTables)

/-- The key of a row that has one. -/
def keyOf (row : ResultEntry) : Key := (policyObjKey row).getD (0, 0)

/-- How a class-map is shown: its interface and direction, and the names of its policy-map and
of itself. -/
def QosTables.shownAs (row : ResultEntry) : Int × QosDirection × String × String :=
  let applied := ((policyMeta t.servicePolicy).lookup (keyOf row).1).getD (0, .input)
  (applied.1, applied.2, resolvePolicymap (keyOf row).1 (keyOf row).2 (objectsOf t.objects) t.policymapNames,
    (t.cmNames.lookup (objInfo row).configIndex).getD "")

def cmColumns : List String :=
  ["CISCO-CLASS-BASED-QOS-MIB::cbQosCMPrePolicyPkt64", "CISCO-CLASS-BASED-QOS-MIB::cbQosCMPrePolicyByte64",
    "CISCO-CLASS-BASED-QOS-MIB::cbQosCMPostPolicyByte64", "CISCO-CLASS-BASED-QOS-MIB::cbQosCMDropPkt64",
    "CISCO-CLASS-BASED-QOS-MIB::cbQosCMDropByte64"]

/-- The counters that the stats table has for a class-map. -/
def QosTables.cmCounters (row : ResultEntry) : List (Option Nat) :=
  cmColumns.map fun column => ((indexByPolicyObj t.cmStats).lookup (keyOf row)).bind fun o => objU64 o column

/-- The counters of a police object, where the table has them. -/
def QosTables.policer (policy obj : Int) : Option QosPolice :=
  ((indexByPolicyObj t.policeStats).lookup (policy, obj)).map policeCounters

/-- The counters of one of a class-map's police objects; none when it has no such object. -/
def QosTables.PolicedBy (row : ResultEntry) (police : Option QosPolice) : Prop :=
  (∃ child ∈ t.objects.entries, ∃ obj, policeRow child = some (keyOf row, obj) ∧ police = t.policer (keyOf row).1 obj) ∨
    (∀ child ∈ t.objects.entries, ∀ obj, policeRow child ≠ some (keyOf row, obj)) ∧ police = none

/-- **The condition.** Class-map rows that are shown alike have the same counters, and so have
all their police objects. -/
def QosTables.Settled : Prop :=
  ∀ row ∈ t.classmapRows, ∀ row' ∈ t.classmapRows, t.shownAs row = t.shownAs row' →
    t.cmCounters row = t.cmCounters row' ∧ ∀ p p', t.PolicedBy row p → t.PolicedBy row' p' → p = p'

/-! ## What a class is made of -/

theorem sortKey_rowClass (row : ResultEntry) : sortKey (t.rowClass row) = toLex ((t.shownAs row).1,
    toLex ((t.shownAs row).2.1.asStr, toLex ((t.shownAs row).2.2.1, (t.shownAs row).2.2.2))) := rfl

theorem asStr_injective {d d' : QosDirection} (h : d.asStr = d'.asStr) : d = d' := by
  revert h
  cases d <;> cases d' <;> decide

/-- The sort compares what is shown. -/
theorem sortKey_eq_iff {t' : QosTables} {row row' : ResultEntry} :
    sortKey (t.rowClass row) = sortKey (t'.rowClass row') ↔ t.shownAs row = t'.shownAs row' := by
  rw [sortKey_rowClass, sortKey_rowClass]
  constructor
  · intro h
    obtain ⟨hif, hrest⟩ := Prod.mk.inj (toLex.injective h)
    obtain ⟨hdir, hrest⟩ := Prod.mk.inj (toLex.injective hrest)
    obtain ⟨hpolicy, hclass⟩ := Prod.mk.inj (toLex.injective hrest)
    exact Prod.ext hif (Prod.ext (asStr_injective hdir) (Prod.ext hpolicy hclass))
  · intro h
    rw [h]

/-- Where the interface has a name, it is that of its number; so a class is known by what is
shown of it, its counters and its policer. -/
theorem rowClass_eq {t' : QosTables} {row row' : ResultEntry} (hnames : t.ifNames = t'.ifNames)
    (hshown : t.shownAs row = t'.shownAs row') (hcounters : t.cmCounters row = t'.cmCounters row') :
    t.rowClass row = { t'.rowClass row' with police := (t.rowClass row).police } := by
  obtain ⟨hif, hrest⟩ := Prod.mk.inj hshown
  obtain ⟨hdir, hrest⟩ := Prod.mk.inj hrest
  obtain ⟨hpolicy, hclass⟩ := Prod.mk.inj hrest
  simp only [QosTables.cmCounters, cmColumns, List.map_cons, List.map_nil, List.cons.injEq, and_true] at hcounters
  obtain ⟨hprePkts, hpreBytes, hpostBytes, hdropPkts, hdropBytes⟩ := hcounters
  refine QosClass.mk.injEq .. |>.mpr ⟨hif, ?_, rfl, hdir, hpolicy, hclass, hprePkts, hpreBytes, hpostBytes, hdropPkts,
    hdropBytes, rfl⟩
  rw [hnames]
  exact congrArg _ hif

theorem cmCounters_rowClass (row : ResultEntry) : t.cmCounters row =
    [(t.rowClass row).prepolicyPkts, (t.rowClass row).prepolicyBytes, (t.rowClass row).postpolicyBytes,
      (t.rowClass row).dropPkts, (t.rowClass row).dropBytes] := rfl

theorem policedBy_rowClass (row : ResultEntry) : t.PolicedBy row (t.rowClass row).police := by
  have hpolice : (t.rowClass row).police =
      ((policeChild t.objects).lookup (keyOf row)).bind fun obj => t.policer (keyOf row).1 obj := rfl
  cases hchild : (policeChild t.objects).lookup (keyOf row) with
  | none =>
    refine .inr ⟨fun child hmem obj hsay => ?_, by rw [hpolice, hchild]; rfl⟩
    have hsome := lookup_writeAll_isSome.mpr ⟨child, hmem, obj, hsay⟩
    rw [show (writeAll policeRow t.objects.entries).lookup (keyOf row) = none from hchild] at hsome
    cases hsome
  | some obj =>
    obtain ⟨child, hmem, hsay⟩ := exists_of_lookup_writeAll hchild
    exact .inl ⟨child, hmem, obj, hsay, by rw [hpolice, hchild]; rfl⟩

end

/-! ## The same rows -/

theorem SameRows.refl (t : QosTables) : SameRows t t := ⟨.refl _, .refl _, .refl _, .refl _, .refl _, .refl _, rfl⟩

theorem lookup_configNames_perm {cfg cfg' : Response} (hnd : (cfg.entries.filterMap configIndex).Nodup)
    (h : cfg.entries.Perm cfg'.entries) (nameCol : String) (idx : Int) :
    (configNames cfg nameCol).lookup idx = (configNames cfg' nameCol).lookup idx := by
  refine lookup_writeAll_perm (fun row e he => ?_) hnd h idx
  obtain ⟨idx, hidx, hrest⟩ := Option.bind_eq_some_iff.mp he
  obtain ⟨name, -, rfl⟩ := Option.map_eq_some_iff.mp hrest
  exact hidx

theorem lookup_indexByPolicyObj_perm {stats stats' : Response} (hnd : (stats.entries.filterMap policyObjKey).Nodup)
    (h : stats.entries.Perm stats'.entries) (key : Key) :
    (indexByPolicyObj stats).lookup key = (indexByPolicyObj stats').lookup key := by
  refine lookup_writeAll_perm (fun row e he => ?_) hnd h key
  obtain ⟨key, hkey, rfl⟩ := Option.map_eq_some_iff.mp he
  exact hkey

section
variable {t : DistinctTables} {t' : QosTables}

theorem lookup_policyMeta_perm (h : SameRows t.toQosTables t') (policy : Int) :
    (policyMeta t.servicePolicy).lookup policy = (policyMeta t'.servicePolicy).lookup policy := by
  refine lookup_writeAll_perm (fun row e he => ?_) t.policies h.servicePolicy policy
  obtain ⟨policy, hpolicy, rfl⟩ := Option.map_eq_some_iff.mp he
  exact hpolicy

theorem objectsOf_reorders (h : SameRows t.toQosTables t') :
    HashMap.Reorders (objectsOf t.objects) (objectsOf t'.objects) := by
  refine HashMap.reorders_of_lookup fun key => ?_
  refine lookup_writeAll_perm (fun row e he => ?_) t.objectKeys h.objects key
  obtain ⟨key, hkey, rfl⟩ := Option.map_eq_some_iff.mp he
  exact hkey

/-- The climb looks names up, too. -/
theorem climb_congr {names names' : AList fun _ : Int => String} (hnames : ∀ idx, names.lookup idx = names'.lookup idx)
    (objs : HashMap Key ObjInfo) (policy : Int) (turns : Nat) (current : Int) :
    climb objs names policy turns current = climb objs names' policy turns current := by
  induction turns generalizing current with
  | zero => rfl
  | succ turns ih => simp only [climb, hnames, ih]

theorem shownAs_perm (h : SameRows t.toQosTables t') (row : ResultEntry) : t.shownAs row = t'.shownAs row := by
  have hpolicymap : resolvePolicymap (keyOf row).1 (keyOf row).2 (objectsOf t.objects) t.policymapNames =
      resolvePolicymap (keyOf row).1 (keyOf row).2 (objectsOf t'.objects) t'.policymapNames := by
    rw [resolvePolicymap_reorders (objectsOf_reorders h)]
    exact climb_congr (lookup_configNames_perm t.policymaps h.policymapCfg _) _ _ _ _
  have hclassmap : t.cmNames.lookup (objInfo row).configIndex = t'.cmNames.lookup (objInfo row).configIndex :=
    lookup_configNames_perm t.classmaps h.cmCfg _ _
  unfold QosTables.shownAs
  rw [lookup_policyMeta_perm h, hpolicymap, hclassmap]

theorem cmCounters_perm (h : SameRows t.toQosTables t') (row : ResultEntry) : t.cmCounters row = t'.cmCounters row := by
  unfold QosTables.cmCounters
  rw [lookup_indexByPolicyObj_perm t.cmKeys h.cmStats]

theorem policer_perm (h : SameRows t.toQosTables t') (policy obj : Int) : t.policer policy obj = t'.policer policy obj := by
  unfold QosTables.policer
  rw [lookup_indexByPolicyObj_perm t.policeKeys h.policeStats]

theorem policedBy_perm (h : SameRows t.toQosTables t') (row : ResultEntry) (p : Option QosPolice) :
    t.PolicedBy row p ↔ t'.PolicedBy row p := by
  unfold QosTables.PolicedBy
  simp only [h.objects.mem_iff, policer_perm h]

theorem classmapRows_perm (h : SameRows t.toQosTables t') : t.classmapRows.Perm t'.classmapRows := h.objects.filter _

/-! ## Enough -/

/-- Where everything is settled, another order of the rows gives the same class. -/
theorem rowClass_perm (hsettled : t.Settled) (h : SameRows t.toQosTables t') {row : ResultEntry}
    (hrow : row ∈ t.classmapRows) : t'.rowClass row = t.rowClass row := by
  have hpolice : (t.rowClass row).police = (t'.rowClass row).police :=
    (hsettled row hrow row hrow rfl).2 _ _ (policedBy_rowClass _ row)
      ((policedBy_perm h row _).mpr (policedBy_rowClass t' row))
  rw [rowClass_eq t.toQosTables h.ifNames (shownAs_perm h row) (cmCounters_perm h row), hpolice]

theorem orderFree_of_settled (hsettled : t.Settled) : OrderFree t := by
  intro t' h order order'
  have hclasses : (t.classmapRows.map t.rowClass).Perm (t'.classmapRows.map t'.rowClass) := by
    refine ((classmapRows_perm h).map t.rowClass).trans (List.Perm.of_eq (List.map_congr_left fun row hrow => ?_))
    exact (rowClass_perm hsettled h ((classmapRows_perm h).mem_iff.mpr hrow)).symm
  have hvisited := (visited_perm t.toQosTables order.property).trans (visited_objectsOf t.toQosTables)
  have hvisited' := (visited_perm t'.toQosTables order'.property).trans (visited_objectsOf t'.toQosTables)
  refine sortByKey_congr sortKey (hvisited.trans (hclasses.trans hvisited'.symm)) fun a ha b hb hkey => ?_
  obtain ⟨row, hrow, rfl⟩ := List.mem_map.mp (hvisited.mem_iff.mp ha)
  obtain ⟨row', hrow', rfl⟩ := List.mem_map.mp (hvisited.mem_iff.mp hb)
  have hshown := (sortKey_eq_iff t.toQosTables).mp hkey
  obtain ⟨hcounters, hpolicers⟩ := hsettled row hrow row' hrow' hshown
  have hpolice := hpolicers _ _ (policedBy_rowClass _ row) (policedBy_rowClass _ row')
  rw [rowClass_eq t.toQosTables rfl hshown hcounters, hpolice]

/-! ## Needed -/

/-- Any of its police objects may be the one whose row comes last. -/
theorem exists_last_policer {row : ResultEntry} {p : Option QosPolice} (hp : t.PolicedBy row p) :
    ∃ t' : DistinctTables, SameRows t.toQosTables t'.toQosTables ∧ (t'.rowClass row).police = p := by
  rcases hp with ⟨child, hmem, obj, hsay, rfl⟩ | ⟨hnone, rfl⟩
  · obtain ⟨before, after, hsplit⟩ := List.append_of_mem hmem
    have hperm : t.objects.entries.Perm (before ++ after ++ [child]) := by
      rw [hsplit, List.append_assoc]
      exact List.Perm.append_left _ (List.perm_append_singleton child after).symm
    let moved : DistinctTables := { t with
      objects := { t.objects with entries := before ++ after ++ [child] }
      objectKeys := (hperm.filterMap policyObjKey).nodup_iff.mp t.objectKeys }
    have hsame : SameRows t.toQosTables moved.toQosTables := { SameRows.refl t.toQosTables with objects := hperm }
    refine ⟨moved, hsame, ?_⟩
    have hlast : (policeChild moved.objects).lookup (keyOf row) = some obj := by
      refine (lookup_writeAll policeRow (before ++ after ++ [child]) (keyOf row)).trans ?_
      rw [List.filterMap_append, List.filterMap_cons, sayOf_eq_some_iff.mpr hsay]
      exact List.getLast?_concat
    have hpolice : (moved.rowClass row).police =
      ((policeChild moved.objects).lookup (keyOf row)).bind fun obj => t.policer (keyOf row).1 obj := rfl
    rw [hpolice, hlast, Option.bind_some]
  · refine ⟨t, SameRows.refl _, ?_⟩
    rcases policedBy_rowClass t.toQosTables row with ⟨child, hmem, obj, hsay, -⟩ | ⟨-, hpolice⟩
    · exact absurd hsay (hnone child hmem obj)
    · exact hpolice

/-- Any class may be the first of those that are shown like it. -/
theorem exists_first {row : ResultEntry} (hrow : row ∈ t.classmapRows) : ∃ order : t.Order,
    ((decodeQos t.toQosTables order).filter fun c => sortKey c = sortKey (t.rowClass row)).head? =
      some (t.rowClass row) := by
  obtain ⟨hmem, hclassmap⟩ := List.mem_filter.mp hrow
  obtain ⟨hsome, htype⟩ := of_decide_eq_true hclassmap
  obtain ⟨key, hkey⟩ := Option.isSome_iff_exists.mp hsome
  have hlookup : (objectsOf t.objects).lookup key = some (objInfo row) := by
    rw [lookup_objectsOf, (row_eq_some_iff t.toQosTables).mpr ⟨hmem, hkey⟩, Option.map_some]
  obtain ⟨rest, hrest⟩ := HashMap.entries_toFront hlookup
  refine ⟨⟨(objectsOf t.objects).toFront fun e => e.1 = key, HashMap.reorders_toFront _⟩, ?_⟩
  have hclass : classOf t.toQosTables ((objectsOf t.objects).toFront fun e => e.1 = key) key (objInfo row) =
      t.rowClass row := by
    rw [classOf_reorders t.toQosTables (HashMap.reorders_toFront _), QosTables.rowClass, hkey, Option.getD_some]
  rw [decodeQos, filter_sortByKey, visited, hrest, List.filterMap_cons]
  dsimp only
  rw [if_pos htype, hclass]
  simp

/-- Whatever a class may be, some order puts it first of its kind. -/
theorem exists_shown {row : ResultEntry} (hrow : row ∈ t.classmapRows) {p : Option QosPolice} (hp : t.PolicedBy row p) :
    ∃ t' : DistinctTables, SameRows t.toQosTables t'.toQosTables ∧ ∃ order : t'.Order,
      ((decodeQos t'.toQosTables order).filter fun c => sortKey c = sortKey (t.rowClass row)).head? =
        some { t.rowClass row with police := p } := by
  obtain ⟨t', hsame, hpolice⟩ := exists_last_policer hp
  have hrow' : row ∈ t'.classmapRows := (classmapRows_perm hsame).mem_iff.mp hrow
  obtain ⟨order, hfirst⟩ := exists_first hrow'
  have hkey : sortKey (t.rowClass row) = sortKey (t'.rowClass row) :=
    (sortKey_eq_iff t.toQosTables).mpr (shownAs_perm hsame row)
  refine ⟨t', hsame, order, ?_⟩
  rw [hkey, hfirst, rowClass_eq t.toQosTables hsame.ifNames (shownAs_perm hsame row) (cmCounters_perm hsame row), ← hpolice]

theorem settled_of_orderFree (hfree : OrderFree t) : t.Settled := by
  intro row hrow row' hrow' hshown
  have hsame : ∀ p p', t.PolicedBy row p → t.PolicedBy row' p' →
      ({ t.rowClass row with police := p } : QosClass) = { t.rowClass row' with police := p' } := by
    intro p p' hp hp'
    obtain ⟨t₁, hsame₁, order₁, hfirst₁⟩ := exists_shown hrow hp
    obtain ⟨t₂, hsame₂, order₂, hfirst₂⟩ := exists_shown hrow' hp'
    let order : t.Order := ⟨objectsOf t.objects, HashMap.Reorders.refl _⟩
    have hlists := (hfree t₁ hsame₁ order order₁).symm.trans (hfree t₂ hsame₂ order order₂)
    rw [(sortKey_eq_iff t.toQosTables).mpr hshown, hlists, hfirst₂] at hfirst₁
    exact (Option.some.inj hfirst₁).symm
  refine ⟨?_, fun p p' hp hp' => congrArg QosClass.police (hsame p p' hp hp')⟩
  have hclass := hsame _ _ (policedBy_rowClass _ row) (policedBy_rowClass _ row')
  rw [cmCounters_rowClass, cmCounters_rowClass]
  obtain ⟨-, -, -, -, -, -, hprePkts, hpreBytes, hpostBytes, hdropPkts, hdropBytes, -⟩ := (QosClass.mk.injEq ..).mp hclass
  rw [hprePkts, hpreBytes, hpostBytes, hdropPkts, hdropBytes]

end

/-- **The order of the classes is free of every other order exactly where it is settled.** -/
theorem decodeQos_orderFree_iff (t : DistinctTables) : OrderFree t ↔ t.Settled :=
  ⟨settled_of_orderFree, orderFree_of_settled⟩

/-! ## A hierarchy -/

/-- A row about an object of policy 1. -/
def policyRow (obj : Int) (columns : List (String × Val)) : ResultEntry :=
  tableRow [("CISCO-CLASS-BASED-QOS-MIB::cbQosPolicyIndex", 1), ("CISCO-CLASS-BASED-QOS-MIB::cbQosObjectsIndex", obj)]
    columns

def objectRow (obj : Int) (otype : String) (config parent : Nat) : ResultEntry :=
  policyRow obj [("CISCO-CLASS-BASED-QOS-MIB::cbQosObjectsType", .str otype),
    ("CISCO-CLASS-BASED-QOS-MIB::cbQosConfigIndex", .uint64 config),
    ("CISCO-CLASS-BASED-QOS-MIB::cbQosParentObjectsIndex", .uint64 parent)]

def dropRow (obj : Int) (packets : Nat) : ResultEntry :=
  policyRow obj [("CISCO-CLASS-BASED-QOS-MIB::cbQosCMDropPkt64", .uint64 packets)]

def nameRow (config : Int) (column name : String) : ResultEntry :=
  tableRow [("CISCO-CLASS-BASED-QOS-MIB::cbQosConfigIndex", config)] [(column, .str name)]

/-- A policy-map whose two classes each apply the same child policy: the classes in it are
shown alike, and have dropped different numbers of packets. -/
def nestedPolicies : DistinctTables where
  servicePolicy := tableOf [tableRow [("CISCO-CLASS-BASED-QOS-MIB::cbQosPolicyIndex", 1)]
    [("CISCO-CLASS-BASED-QOS-MIB::cbQosIfIndex", .uint64 9)]]
  objects := tableOf [objectRow 1 "policymap" 10 0, objectRow 2 "classmap" 20 1, objectRow 3 "policymap" 11 2,
    objectRow 4 "classmap" 22 3, objectRow 5 "classmap" 21 1, objectRow 6 "policymap" 11 5, objectRow 7 "classmap" 22 6]
  policymapCfg := tableOf [nameRow 10 "CISCO-CLASS-BASED-QOS-MIB::cbQosPolicyMapName" "uplink",
    nameRow 11 "CISCO-CLASS-BASED-QOS-MIB::cbQosPolicyMapName" "shape"]
  cmCfg := tableOf [nameRow 20 "CISCO-CLASS-BASED-QOS-MIB::cbQosCMName" "gold",
    nameRow 21 "CISCO-CLASS-BASED-QOS-MIB::cbQosCMName" "silver",
    nameRow 22 "CISCO-CLASS-BASED-QOS-MIB::cbQosCMName" "voice"]
  cmStats := tableOf [dropRow 4 10, dropRow 7 20]
  policeStats := tableOf []
  ifNames := fun _ => none
  objectKeys := by decide +kernel
  policies := by decide +kernel
  policymaps := by decide +kernel
  classmaps := by decide +kernel
  cmKeys := by decide +kernel
  policeKeys := List.nodup_nil

/-- The order of the map decides which of them comes first. -/
theorem nestedPolicies_not_orderFree : ¬OrderFree nestedPolicies := by
  intro hfree
  have hlists := hfree nestedPolicies (SameRows.refl _) ⟨_, HashMap.reorders_toFront fun e => e.1 = (1, 4)⟩
    ⟨_, HashMap.reorders_toFront fun e => e.1 = (1, 7)⟩
  have hdrops := congrArg (List.map QosClass.dropPkts) hlists
  revert hdrops
  decide +kernel

end JaspyNexus.Collectors.Qos
