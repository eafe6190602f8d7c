import Mathlib
import JaspyNexus.Lib.LastWrite
import JaspyNexus.Collectors.Vendor
import JaspyNexus.Utilities.Stp

/-! # Link aggregation

The decoders and sources of `collectors/lagpoller.rs`: each aggregate and its
members, from the LACP tables and, on Cisco switches, the PAgP table. -/

namespace JaspyNexus.Collectors.Lagpoller
open JaspyNexus.Lib JaspyNexus.Snmp JaspyNexus.Utilities

structure LagMember where
  actorState : List String
  partnerState : List String
  partnerSystemId : Option String
  partnerPort : Option Int
  deriving DecidableEq, Repr

/-- `LagMember::default`. -/
def LagMember.default : LagMember := ⟨[], [], none, none⟩

structure LagGroup where
  protocol : String
  actorSystemId : Option String
  partnerSystemId : Option String
  members : AList fun _ : Int => LagMember

abbrev Groups := AList fun _ : Int => LagGroup

/-- `DeviceLags`: the aggregates by ifIndex. -/
structure DeviceLags where
  groups : Groups

/-- `nonzero_mac`. -/
def nonzeroMac (mac : Option String) : Option String :=
  (mac.map Stp.normalizeMac).filter fun m => m ≠ "" ∧ m ≠ "00:00:00:00:00:00"

/-! ## PAgP -/

/-- The group of a row's port, when it is bundled. -/
def pagpMember (entry : ResultEntry) : Option (Int × Int) :=
  (entry.index "IF-MIB::ifIndex").bind fun ifIndex =>
    (objI64 entry.objects "CISCO-PAGP-MIB::pagpGroupIfIndex").bind fun group =>
      if 0 < group ∧ group ≠ ifIndex then some (group, ifIndex) else none

/-- The groups of `decode_pagp`, with their ports. -/
def pagpGroups (pagp : Response) : AList fun _ : Int => List Int :=
  pagp.entries.foldl (fun groups entry => match pagpMember entry with
    | some (group, ifIndex) =>
      let ports := (groups.lookup group).getD []
      groups.insert group (if ifIndex ∈ ports then ports else ports.orderedInsert (· ≤ ·) ifIndex)
    | none => groups) ∅

/-- The modes of `decode_pagp`. -/
def pagpModes (pagp : Response) : AList fun _ : Int => Int :=
  writeAll (fun entry : ResultEntry => (entry.index "IF-MIB::ifIndex").bind fun ifIndex =>
    (objI64 entry.objects "CISCO-PAGP-MIB::pagpEthcOperationMode").map fun mode => (ifIndex, mode))
    pagp.entries

/-! ## LACP -/

/-- The positive admin key of an aggregate's row. -/
def aggKey (entry : ResultEntry) : Option (Int × Int) :=
  (entry.index "IEEE8023-LAG-MIB::dot3adAggIndex").bind fun agg =>
    ((objI64 entry.objects "IEEE8023-LAG-MIB::dot3adAggActorAdminKey").filter fun k => 0 < k).map
      fun key => (key, agg)

/-- The aggregate of each admin key; a key with several aggregates has none. -/
def aggByKey (aggTable : Option Response) : AList fun _ : Int => Option Int :=
  ((aggTable.map Response.entries).getD []).foldl (fun byKey entry => match aggKey entry with
    | some (key, agg) => byKey.insert key (if key ∈ byKey then none else some agg)
    | none => byKey) ∅

/-- The aggregate a port's row says it is attached to. -/
def attachedTo (ifIndex : Int) (entry : ResultEntry) : Option Int :=
  let attached := (objI64 entry.objects "IEEE8023-LAG-MIB::dot3adAggPortAttachedAggID").getD 0
  if 0 < attached ∧ attached ≠ ifIndex then some attached else none

def attachedMember (entry : ResultEntry) : LagMember where
  actorState := objBits entry.objects "IEEE8023-LAG-MIB::dot3adAggPortActorOperState"
  partnerState := objBits entry.objects "IEEE8023-LAG-MIB::dot3adAggPortPartnerOperState"
  partnerSystemId :=
    nonzeroMac (objStr entry.objects "IEEE8023-LAG-MIB::dot3adAggPortPartnerOperSystemID")
  partnerPort :=
    (objI64 entry.objects "IEEE8023-LAG-MIB::dot3adAggPortPartnerOperPort").filter fun p => 0 < p

/-- The aggregate whose admin key a port's row has. -/
def keyedTo (byKey : AList fun _ : Int => Option Int) (entry : ResultEntry) : Option Int :=
  ((objI64 entry.objects "IEEE8023-LAG-MIB::dot3adAggPortActorAdminKey").filter fun k => 0 < k).bind
    fun key => (byKey.lookup key).join

/-- The membership a port's row adds: attached, or else configured by its key. -/
def portMember (byKey : AList fun _ : Int => Option Int) (entry : ResultEntry) :
    Option (Int × Int × LagMember) :=
  (entry.index "IEEE8023-LAG-MIB::dot3adAggPortIndex").bind fun ifIndex =>
    match attachedTo ifIndex entry with
    | some agg => some (agg, ifIndex, attachedMember entry)
    | none => (keyedTo byKey entry).map fun agg => (agg, ifIndex, LagMember.default)

/-- A group without members. -/
def emptyGroup (protocol : String) : LagGroup := ⟨protocol, none, none, ∅⟩

/-- `add_member`. -/
def addMember (groups : Groups) (agg ifIndex : Int) (member : LagMember) : Groups :=
  let group := (groups.lookup agg).getD (emptyGroup "lacp")
  groups.insert agg { group with members := group.members.insert ifIndex member }

/-- The system ids an aggregate's row gives its group. -/
def setSystemIds (groups : Groups) (entry : ResultEntry) : Groups :=
  match entry.index "IEEE8023-LAG-MIB::dot3adAggIndex" with
  | none => groups
  | some agg =>
    match groups.lookup agg with
    | none => groups
    | some group => groups.insert agg
        { group with
          actorSystemId := nonzeroMac (objStr entry.objects "IEEE8023-LAG-MIB::dot3adAggActorSystemID")
          partnerSystemId :=
            nonzeroMac (objStr entry.objects "IEEE8023-LAG-MIB::dot3adAggPartnerSystemID") }

/-- `decode_dot3ad`. -/
def decodeDot3ad (aggTable portTable : Option Response) : Groups :=
  let byKey := aggByKey aggTable
  let groups := ((portTable.map Response.entries).getD []).foldl (fun groups entry =>
    match portMember byKey entry with
    | some (agg, ifIndex, member) => addMember groups agg ifIndex member
    | none => groups) ∅
  ((aggTable.map Response.entries).getD []).foldl setSystemIds groups

/-- One PAgP group of `merge_cisco`, over the group LACP has. -/
def mergeGroup (modes : AList fun _ : Int => Int) (ports : List Int) (group? : Option LagGroup) :
    LagGroup :=
  let protocol := if ports.any fun m => (modes.lookup m).any fun mode => 3 ≤ mode then "pagp"
    else "static"
  let group := group?.getD (emptyGroup protocol)
  { group with
    members := ports.foldl (fun members m =>
      if m ∈ members then members else members.insert m LagMember.default) group.members }

/-- `merge_cisco`: PAgP adds its groups and members to those of LACP. -/
def mergeCisco (dot3ad : Groups) (groups : AList fun _ : Int => List Int)
    (modes : AList fun _ : Int => Int) : DeviceLags :=
  ⟨groups.entries.foldl (fun result e =>
    result.insert e.1 (mergeGroup modes e.2 (result.lookup e.1))) dot3ad⟩

/-! ## Sources and store -/

/-- `CiscoLagSource::collect`. -/
def ciscoCollect (fetch : Fetch) : Option DeviceLags :=
  (fetch "cisco-pagp" "CISCO-PAGP-MIB::pagpPortTable").bind fun pagp =>
    if pagp.entries = [] then none
    else
      let agg := fetch "cisco-pagp" "IEEE8023-LAG-MIB::dot3adAggTable"
      let ports := fetch "cisco-pagp" "IEEE8023-LAG-MIB::dot3adAggPortTable"
      some (mergeCisco (decodeDot3ad agg ports) (pagpGroups pagp) (pagpModes pagp))

/-- `Dot3adLagSource::collect`. -/
def dot3adCollect (fetch : Fetch) : Option DeviceLags :=
  (fetch "dot3ad" "IEEE8023-LAG-MIB::dot3adAggPortTable").bind fun ports =>
    let agg := fetch "dot3ad" "IEEE8023-LAG-MIB::dot3adAggTable"
    let groups := decodeDot3ad agg (some ports)
    if groups.entries = [] then none else some ⟨groups⟩

def ciscoLagSource : Source Fetch DeviceLags := ⟨"cisco-pagp", .cisco, ciscoCollect⟩
def dot3adLagSource : Source Fetch DeviceLags := ⟨"dot3ad", .generic, dot3adCollect⟩

def sources : List (Source Fetch DeviceLags) := [ciscoLagSource, dot3adLagSource]

/-- `poll_device`. -/
def pollDevice (fetch : Fetch) (fqdn : String) (hint : Vendor) (cache : SourceCache) :
    Option DeviceLags × SourceCache := collectFirst cache fqdn hint sources fetch

/-- `LagStore`. -/
abbrev LagStore := PMap String DeviceLags

end JaspyNexus.Collectors.Lagpoller
