import Mathlib
import JaspyNexus.Collectors.LagSpec

/-! # Members of the aggregates

Three sources of one membership: attachment, an admin key that one aggregate alone claims,
and the groups of PAgP. The first two exclude each other; the third only adds. -/

namespace JaspyNexus.Collectors.Lagpoller
open JaspyNexus.Lib JaspyNexus.Snmp

/-! ## What the tables say -/

def aggIndex (row : ResultEntry) : Option Int := row.index "IEEE8023-LAG-MIB::dot3adAggIndex"

def portIndex (row : ResultEntry) : Option Int := row.index "IEEE8023-LAG-MIB::dot3adAggPortIndex"

def rowsOf (table : Option Response) : List ResultEntry := (table.map Response.entries).getD []

/-- The tables of a device, with distinct aggregates and distinct LACP ports. Nothing is asked
of the PAgP rows. -/
structure LagTables where
  aggTable : Option Response
  portTable : Option Response
  pagp : Response
  aggs : ((rowsOf aggTable).filterMap aggIndex).Nodup
  ports : ((rowsOf portTable).filterMap portIndex).Nodup

/-- The port's row is attached to the aggregate, another than itself. -/
def LagTables.AttachedTo (t : LagTables) (port agg : Int) : Prop :=
  ∃ row ∈ rowsOf t.portTable, portIndex row = some port ∧
    objI64 row.objects "IEEE8023-LAG-MIB::dot3adAggPortAttachedAggID" = some agg ∧ 0 < agg ∧ agg ≠ port

def LagTables.AdminKey (t : LagTables) (port key : Int) : Prop :=
  ∃ row ∈ rowsOf t.portTable, portIndex row = some port ∧
    objI64 row.objects "IEEE8023-LAG-MIB::dot3adAggPortActorAdminKey" = some key ∧ 0 < key

def LagTables.Claims (t : LagTables) (agg key : Int) : Prop :=
  ∃ row ∈ rowsOf t.aggTable, aggIndex row = some agg ∧
    objI64 row.objects "IEEE8023-LAG-MIB::dot3adAggActorAdminKey" = some key ∧ 0 < key

/-- The port's PAgP group, another than itself. -/
def LagTables.PagpGroup (t : LagTables) (port agg : Int) : Prop :=
  ∃ row ∈ t.pagp.entries, row.index "IF-MIB::ifIndex" = some port ∧
    objI64 row.objects "CISCO-PAGP-MIB::pagpGroupIfIndex" = some agg ∧ 0 < agg ∧ agg ≠ port

/-- Not attached, with a positive admin key that the aggregate claims, and no other. -/
def LagTables.KeyedTo (t : LagTables) (port agg : Int) : Prop :=
  (¬∃ other, t.AttachedTo port other) ∧
    ∃ key, t.AdminKey port key ∧ t.Claims agg key ∧ ∀ other, t.Claims other key → other = agg

def LagTables.dot3ad (t : LagTables) : Groups := decodeDot3ad t.aggTable t.portTable

def LagTables.merged (t : LagTables) : Groups :=
  (mergeCisco t.dot3ad (pagpGroups t.pagp) (pagpModes t.pagp)).groups

/-- What the merge leaves of a group: its protocol and system ids, and every member's state. -/
structure KeepsGroup (group group' : LagGroup) : Prop where
  protocol : group'.protocol = group.protocol
  actorSystemId : group'.actorSystemId = group.actorSystemId
  partnerSystemId : group'.partnerSystemId = group.partnerSystemId
  members : ∀ port member, group.members.lookup port = some member → group'.members.lookup port = some member

/-- **The members are those of the tables**, and the merge only adds. -/
structure LagExact (t : LagTables) : Prop where
  member_iff : ∀ agg port, t.merged.Knows (.member agg port) ↔
    t.AttachedTo port agg ∨ t.KeyedTo port agg ∨ t.PagpGroup port agg
  one_agg : ∀ agg agg' port, t.dot3ad.Knows (.member agg port) → t.dot3ad.Knows (.member agg' port) → agg = agg'
  keeps : ∀ agg group, t.dot3ad.lookup agg = some group → ∃ group', t.merged.lookup agg = some group' ∧
    KeepsGroup group group'

/-! ## Admin keys -/

/-- The aggregates that claim a key, row by row. -/
def claimers (aggTable : Option Response) (key : Int) : List Int := (rowsOf aggTable).filterMap (sayOf aggKey key)

/-- What the claimers leave under a key: the one, or nobody when there are several. -/
def soleClaimer : List Int → Option (Option Int)
  | [] => none
  | [agg] => some (some agg)
  | _ => some none

theorem soleClaimer_append (claimed : List Int) (agg : Int) :
    soleClaimer (claimed ++ [agg]) = some (if (soleClaimer claimed).isSome then none else some agg) := by
  match claimed with
  | [] => rfl
  | [_] => rfl
  | _ :: _ :: _ => rfl

theorem soleClaimer_eq_iff {claimed : List Int} (hnd : claimed.Nodup) {agg : Int} :
    soleClaimer claimed = some (some agg) ↔ agg ∈ claimed ∧ ∀ other ∈ claimed, other = agg := by
  match claimed with
  | [] => simp [soleClaimer]
  | [a] => simp [soleClaimer, eq_comm]
  | a :: b :: rest =>
    simp only [soleClaimer, Option.some.injEq, reduceCtorEq, false_iff, not_and]
    intro _ hall
    have hab : a = b := (hall a (by simp)).trans (hall b (by simp)).symm
    exact (List.nodup_cons.mp hnd).1 (by simp [hab])

theorem lookup_aggByKey (aggTable : Option Response) (key : Int) :
    (aggByKey aggTable).lookup key = soleClaimer (claimers aggTable key) := by
  unfold aggByKey claimers rowsOf
  induction (aggTable.map Response.entries).getD [] using List.reverseRecOn with
  | nil => rfl
  | append_singleton rows row ih =>
    rw [List.foldl_append, List.foldl_cons, List.foldl_nil, List.filterMap_append]
    cases hrow : aggKey row with
    | none =>
      have hsay : sayOf aggKey key row = none := by simp [sayOf, hrow]
      simp [hsay, ih]
    | some e =>
      by_cases hkey : e.1 = key
      · subst hkey
        have hsay : [row].filterMap (sayOf aggKey e.1) = [e.2] := by simp [sayOf, hrow]
        rw [hsay, soleClaimer_append, ← ih, AList.lookup_insert]
        simp only [AList.lookup_isSome]
      · have hsay : sayOf aggKey key row = none := by simp [sayOf, hrow, hkey]
        simp [hsay, AList.lookup_insert_ne (Ne.symm hkey), ih]

theorem aggKey_eq_some_iff {row : ResultEntry} {key agg : Int} : aggKey row = some (key, agg) ↔
    aggIndex row = some agg ∧ objI64 row.objects "IEEE8023-LAG-MIB::dot3adAggActorAdminKey" = some key ∧ 0 < key := by
  unfold aggKey aggIndex
  cases row.index "IEEE8023-LAG-MIB::dot3adAggIndex" with
  | none => simp
  | some a => simp [Option.filter_eq_some_iff]; tauto

variable (t : LagTables)

theorem mem_claimers {agg key : Int} : agg ∈ claimers t.aggTable key ↔ t.Claims agg key := by
  simp only [claimers, List.mem_filterMap, sayOf_eq_some_iff, aggKey_eq_some_iff]
  rfl

theorem nodup_claimers (key : Int) : (claimers t.aggTable key).Nodup := by
  refine List.pairwise_filterMap.mpr ((List.pairwise_filterMap.mp t.aggs).imp ?_)
  intro row row' hne a ha a' ha'
  have hindex := (aggKey_eq_some_iff.mp (sayOf_eq_some_iff.mp ha)).1
  have hindex' := (aggKey_eq_some_iff.mp (sayOf_eq_some_iff.mp ha')).1
  exact hne a hindex a' hindex'

/-- The aggregate of a row's key is the only one that claims it. -/
theorem keyedTo_iff {row : ResultEntry} {agg : Int} : keyedTo (aggByKey t.aggTable) row = some agg ↔
    ∃ key, objI64 row.objects "IEEE8023-LAG-MIB::dot3adAggPortActorAdminKey" = some key ∧ 0 < key ∧
      t.Claims agg key ∧ ∀ other, t.Claims other key → other = agg := by
  unfold keyedTo
  simp only [Option.bind_eq_some_iff, Option.filter_eq_some_iff, decide_eq_true_eq, and_assoc, lookup_aggByKey,
    Option.join_eq_some_iff, soleClaimer_eq_iff (nodup_claimers t _), mem_claimers]

/-! ## Attachment -/

theorem attachedTo_iff {port agg : Int} {row : ResultEntry} : attachedTo port row = some agg ↔
    objI64 row.objects "IEEE8023-LAG-MIB::dot3adAggPortAttachedAggID" = some agg ∧ 0 < agg ∧ agg ≠ port := by
  unfold attachedTo
  cases objI64 row.objects "IEEE8023-LAG-MIB::dot3adAggPortAttachedAggID" with
  | none => simp
  | some a =>
    simp only [Option.getD_some, Option.ite_none_right_eq_some, Option.some.injEq]
    constructor
    · rintro ⟨h, rfl⟩
      exact ⟨rfl, h⟩
    · rintro ⟨rfl, h⟩
      exact ⟨h, rfl⟩

theorem eq_of_port {port : Int} {row row' : ResultEntry} (hrow : row ∈ rowsOf t.portTable)
    (hrow' : row' ∈ rowsOf t.portTable) (hport : portIndex row = some port) (hport' : portIndex row' = some port) :
    row = row' := eq_of_nodup_filterMap t.ports hrow hrow' hport hport'

/-- The members LACP gives: attached, or keyed. -/
theorem dot3ad_member_iff {agg port : Int} :
    t.dot3ad.Knows (.member agg port) ↔ t.AttachedTo port agg ∨ t.KeyedTo port agg := by
  refine (knows_decodeDot3ad t.aggTable t.portTable (.member agg port)).trans ?_
  simp only [Names, portMember_iff, keyedTo_iff]
  constructor
  · rintro ⟨row, hrow, hport, hattached | ⟨hdetached, key, hkey, hpos, hclaims⟩⟩
    · exact .inl ⟨row, hrow, hport, attachedTo_iff.mp hattached⟩
    · refine .inr ⟨?_, key, ⟨row, hrow, hport, hkey, hpos⟩, hclaims⟩
      rintro ⟨other, row', hrow', hport', hattached⟩
      obtain rfl := eq_of_port t hrow hrow' hport hport'
      rw [attachedTo_iff.mpr hattached] at hdetached
      cases hdetached
  · rintro (⟨row, hrow, hport, hattached⟩ | ⟨hnone, key, ⟨row, hrow, hport, hkey, hpos⟩, hclaims⟩)
    · exact ⟨row, hrow, hport, .inl (attachedTo_iff.mpr hattached)⟩
    · refine ⟨row, hrow, hport, .inr ⟨?_, key, hkey, hpos, hclaims⟩⟩
      refine Option.eq_none_iff_forall_ne_some.mpr fun other hother => hnone ⟨other, row, hrow, hport, ?_⟩
      exact attachedTo_iff.mp hother

/-- Either source names one aggregate of a port, and they exclude each other. -/
theorem dot3ad_one_agg {agg agg' port : Int} (h : t.dot3ad.Knows (.member agg port))
    (h' : t.dot3ad.Knows (.member agg' port)) : agg = agg' := by
  rw [dot3ad_member_iff] at h h'
  rcases h with h | ⟨hnone, key, ⟨row, hrow, hport, hkey, -⟩, hclaims, -⟩
  · rcases h' with h' | ⟨hnone, -⟩
    · obtain ⟨row, hrow, hport, hagg, -⟩ := h
      obtain ⟨row', hrow', hport', hagg', -⟩ := h'
      obtain rfl := eq_of_port t hrow hrow' hport hport'
      exact Option.some.inj (hagg.symm.trans hagg')
    · exact absurd ⟨agg, h⟩ hnone
  · rcases h' with h' | ⟨-, key', ⟨row', hrow', hport', hkey', -⟩, -, hsole'⟩
    · exact absurd ⟨agg', h'⟩ hnone
    · obtain rfl := eq_of_port t hrow hrow' hport hport'
      obtain rfl := Option.some.inj (hkey.symm.trans hkey')
      exact hsole' agg hclaims

/-! ## Merge -/

theorem bundled_iff {agg port : Int} : Bundled t.pagp agg port ↔ t.PagpGroup port agg := by
  refine exists_congr fun row => and_congr_right fun _ => ?_
  unfold pagpMember
  cases row.index "IF-MIB::ifIndex" with
  | none => simp
  | some p =>
    cases objI64 row.objects "CISCO-PAGP-MIB::pagpGroupIfIndex" with
    | none => simp
    | some a =>
      simp only [Option.bind_some, Option.ite_none_right_eq_some, Option.some.injEq, Prod.mk.injEq]
      constructor
      · rintro ⟨h, rfl, rfl⟩
        exact ⟨rfl, rfl, h⟩
      · rintro ⟨rfl, rfl, h⟩
        exact ⟨h, rfl, rfl⟩

/-- An insert where nothing is yet keeps what is there. -/
theorem lookup_insertAbsent {members : AList fun _ : Int => LagMember} {port : Int} {member : LagMember}
    (h : members.lookup port = some member) (ports : List Int) :
    (ports.foldl (fun members m => if m ∈ members then members else members.insert m LagMember.default)
      members).lookup port = some member := by
  induction ports generalizing members with
  | nil => exact h
  | cons m rest ih =>
    refine ih ?_
    dsimp only
    split
    · exact h
    · next habsent =>
      have hne : port ≠ m := by
        rintro rfl
        exact habsent (AList.lookup_isSome.mp (by rw [h]; rfl))
      rw [AList.lookup_insert_ne hne]
      exact h

theorem keepsGroup_mergeGroup (modes : AList fun _ : Int => Int) (ports : List Int) (group : LagGroup) :
    KeepsGroup group (mergeGroup modes ports (some group)) :=
  ⟨rfl, rfl, rfl, fun _ _ h => lookup_insertAbsent h ports⟩

theorem merge_keeps {dot3ad : Groups} {agg : Int} {group : LagGroup} (h : dot3ad.lookup agg = some group)
    (groups : AList fun _ : Int => List Int) (modes : AList fun _ : Int => Int) :
    ∃ group', (mergeCisco dot3ad groups modes).groups.lookup agg = some group' ∧ KeepsGroup group group' := by
  have hlookup := lookup_foldl_entries (fun _ ports group? => mergeGroup modes ports group?) groups.entries
    groups.nodupKeys dot3ad agg
  rw [h] at hlookup
  cases hports : groups.entries.dlookup agg with
  | none =>
    rw [hports] at hlookup
    exact ⟨group, hlookup, rfl, rfl, rfl, fun _ _ hm => hm⟩
  | some ports =>
    rw [hports] at hlookup
    exact ⟨_, hlookup, keepsGroup_mergeGroup modes ports group⟩

/-- **The membership of the tables**: attached, or keyed, or grouped by PAgP. -/
theorem lagMembers_exact (t : LagTables) : LagExact t where
  member_iff agg port := by
    refine (knows_mergeCisco t.dot3ad t.pagp (pagpModes t.pagp) (.member agg port)).trans ?_
    rw [dot3ad_member_iff, or_assoc]
    exact or_congr_right (or_congr_right (bundled_iff t))
  one_agg _ _ _ := dot3ad_one_agg t
  keeps _ _ h := merge_keeps h _ _

/-! ## A switch -/

def aggRow (agg : Int) (key : Nat) : ResultEntry :=
  tableRow [("IEEE8023-LAG-MIB::dot3adAggIndex", agg)] [("IEEE8023-LAG-MIB::dot3adAggActorAdminKey", .uint64 key)]

def lacpRow (port : Int) (columns : List (String × Val)) : ResultEntry :=
  tableRow [("IEEE8023-LAG-MIB::dot3adAggPortIndex", port)] columns

def pagpRow (port : Int) (group : Nat) : ResultEntry :=
  tableRow [("IF-MIB::ifIndex", port)] [("CISCO-PAGP-MIB::pagpGroupIfIndex", .uint64 group)]

/-- Port 1 is attached to aggregate 10; port 2 is down and has its key; the key of port 3 is
that of two aggregates; port 4 is in a group of PAgP. -/
def fourPorts : LagTables where
  aggTable := some (tableOf [aggRow 10 100, aggRow 11 200, aggRow 12 200])
  portTable := some (tableOf [lacpRow 1 [("IEEE8023-LAG-MIB::dot3adAggPortAttachedAggID", .uint64 10)],
    lacpRow 2 [("IEEE8023-LAG-MIB::dot3adAggPortActorAdminKey", .uint64 100)],
    lacpRow 3 [("IEEE8023-LAG-MIB::dot3adAggPortActorAdminKey", .uint64 200)]])
  pagp := tableOf [pagpRow 4 20]
  aggs := by decide +kernel
  ports := by decide +kernel

theorem lagMembers_exact_fourPorts : LagExact fourPorts ∧ fourPorts.merged.Knows (.member 10 1) ∧
    fourPorts.merged.Knows (.member 20 4) := by
  have hexact := lagMembers_exact fourPorts
  refine ⟨hexact, (hexact.member_iff 10 1).mpr (.inl ?_), (hexact.member_iff 20 4).mpr (.inr (.inr ?_))⟩
  · exact ⟨_, List.mem_cons_self, rfl, rfl, by decide, by decide⟩
  · exact ⟨_, List.mem_cons_self, rfl, rfl, by decide, by decide⟩

example : fourPorts.merged.Knows (.member 10 2) ∧ ¬fourPorts.merged.Knows (.member 11 3) := by decide +kernel

end JaspyNexus.Collectors.Lagpoller
