import Mathlib
import JaspyNexus.Collectors.Lagpoller

/-! # What the LAG tables show

The decoded aggregates and members, row by row: a port is a member of an
aggregate when a row of the PAgP table bundles it, when its LACP row is attached
to it, or when that row is detached but has the aggregate's own admin key. -/

namespace JaspyNexus.Collectors.Lagpoller
open JaspyNexus.Lib JaspyNexus.Snmp

/-- What a store knows of a device's aggregates. -/
inductive LagMembership where
  | aggregate (agg : Int)
  | member (agg ifIndex : Int)
  deriving DecidableEq, Repr

/-- The decoded groups have it. -/
def Groups.Knows (groups : Groups) : LagMembership → Prop
  | .aggregate agg => agg ∈ groups
  | .member agg ifIndex => ∃ group, groups.lookup agg = some group ∧ ifIndex ∈ group.members

instance (groups : Groups) : ∀ m, Decidable (groups.Knows m)
  | .aggregate agg => inferInstanceAs (Decidable (agg ∈ groups))
  | .member agg ifIndex =>
    decidable_of_iff (∃ group ∈ groups.lookup agg, ifIndex ∈ group.members) Iff.rfl

/-- A relation of aggregates and ports shows its pairs and their aggregates. -/
def Names (pairs : Int → Int → Prop) : LagMembership → Prop
  | .aggregate agg => ∃ ifIndex, pairs agg ifIndex
  | .member agg ifIndex => pairs agg ifIndex

theorem names_congr {pairs pairs' : Int → Int → Prop} (h : ∀ agg i, pairs agg i ↔ pairs' agg i)
    (m : LagMembership) : Names pairs m ↔ Names pairs' m := by
  cases m <;> simp [Names, h]

theorem names_or {pairs pairs' : Int → Int → Prop} (m : LagMembership) :
    Names (fun agg i => pairs agg i ∨ pairs' agg i) m ↔ Names pairs m ∨ Names pairs' m := by
  cases m <;> simp [Names, exists_or]

/-- A PAgP row bundles the port. -/
def Bundled (pagp : Response) (agg ifIndex : Int) : Prop :=
  ∃ row ∈ pagp.entries, pagpMember row = some (agg, ifIndex)

/-- An LACP row of the port is attached to the aggregate. -/
def Attached (ports : Response) (agg ifIndex : Int) : Prop :=
  ∃ row ∈ ports.entries, row.index "IEEE8023-LAG-MIB::dot3adAggPortIndex" = some ifIndex ∧
    attachedTo ifIndex row = some agg

/-- A detached LACP row of the port has the aggregate's own admin key. -/
def Keyed (aggTable ports : Response) (agg ifIndex : Int) : Prop :=
  ∃ row ∈ ports.entries, row.index "IEEE8023-LAG-MIB::dot3adAggPortIndex" = some ifIndex ∧
    attachedTo ifIndex row = none ∧ keyedTo (aggByKey (some aggTable)) row = some agg

/-! ## LACP -/

theorem knows_addMember {groups : Groups} {agg ifIndex : Int} {member : LagMember}
    (m : LagMembership) : (addMember groups agg ifIndex member).Knows m ↔
      Names (fun a i => a = agg ∧ i = ifIndex) m ∨ groups.Knows m := by
  unfold addMember
  cases m with
  | aggregate a => simp [Groups.Knows, Names, AList.mem_insert]
  | member a i =>
    simp only [Groups.Knows, Names]
    by_cases ha : a = agg
    · subst ha
      rw [AList.lookup_insert]
      cases hg : groups.lookup a with
      | none => simp [emptyGroup, AList.mem_keys]
      | some group => simp [AList.mem_insert]
    · simp [ha, AList.lookup_insert_ne ha]

theorem knows_setSystemIds {groups : Groups} (row : ResultEntry) (m : LagMembership) :
    (setSystemIds groups row).Knows m ↔ groups.Knows m := by
  unfold setSystemIds
  split
  · exact Iff.rfl
  · next agg hagg =>
    split
    · exact Iff.rfl
    · next group hgroup =>
      have hmem : agg ∈ groups := AList.lookup_isSome.mp (by rw [hgroup]; rfl)
      cases m with
      | aggregate a =>
        simp only [Groups.Knows, AList.mem_insert]
        exact ⟨fun h => h.elim (fun h => h ▸ hmem) id, Or.inr⟩
      | member a i =>
        simp only [Groups.Knows]
        by_cases ha : a = agg
        · subst ha; simp [hgroup]
        · simp [AList.lookup_insert_ne ha]

/-- The members added in the order of the rows. -/
theorem knows_foldl_addMember (aggTable : Option Response) (rows : List ResultEntry) (m : LagMembership) :
    (rows.foldl (fun groups entry =>
      match portMember (aggByKey aggTable) entry with
      | some (agg, ifIndex, member) => addMember groups agg ifIndex member
      | none => groups) (∅ : Groups)).Knows m ↔ Names (fun agg ifIndex => ∃ row ∈ rows, ∃ member,
        portMember (aggByKey aggTable) row = some (agg, ifIndex, member)) m := by
  induction rows using List.reverseRecOn with
  | nil => cases m <;> simp [Groups.Knows, Names]
  | append_singleton rows row ih =>
    rw [List.foldl_append, List.foldl_cons, List.foldl_nil]
    cases hrow : portMember (aggByKey aggTable) row with
    | none =>
      refine ih.trans (names_congr (fun agg i => ?_) m)
      simp [or_and_right, exists_or, hrow]
    | some e =>
      obtain ⟨agg, ifIndex, member⟩ := e
      refine (knows_addMember m).trans ?_
      rw [ih, ← names_or]
      refine names_congr (fun a i => ?_) m
      simp only [List.mem_append, List.mem_singleton, or_and_right, exists_or]
      rw [or_comm]
      refine or_congr_right ⟨?_, ?_⟩
      · intro hnew
        obtain ⟨rfl, rfl⟩ := hnew
        exact ⟨row, rfl, member, hrow⟩
      · intro hnew
        obtain ⟨_, rfl, _, he⟩ := hnew
        rw [hrow] at he
        cases he
        exact ⟨rfl, rfl⟩

/-- The memberships of LACP are those its port rows add. -/
theorem knows_decodeDot3ad (aggTable portTable : Option Response) (m : LagMembership) :
    (decodeDot3ad aggTable portTable).Knows m ↔ Names (fun agg ifIndex =>
      ∃ row ∈ (portTable.map Response.entries).getD [], ∃ member,
        portMember (aggByKey aggTable) row = some (agg, ifIndex, member)) m := by
  have hset : ∀ (rows : List ResultEntry) (groups : Groups),
      (rows.foldl setSystemIds groups).Knows m ↔ groups.Knows m := by
    intro rows
    induction rows with
    | nil => intro groups; exact Iff.rfl
    | cons row rows ih => intro groups; exact (ih _).trans (knows_setSystemIds row m)
  exact (hset _ _).trans (knows_foldl_addMember aggTable _ m)

@[simp] theorem keyedTo_none (row : ResultEntry) : keyedTo (aggByKey none) row = none := by
  unfold keyedTo aggByKey
  simp only [Option.map_none, Option.getD_none, List.foldl_nil]
  rw [Option.bind_eq_none_iff]
  intro key _
  simp

/-- A port row adds its attachment, or else the aggregate of its key. -/
theorem portMember_iff {byKey : AList fun _ : Int => Option Int} {row : ResultEntry}
    {agg ifIndex : Int} : (∃ member, portMember byKey row = some (agg, ifIndex, member)) ↔
      row.index "IEEE8023-LAG-MIB::dot3adAggPortIndex" = some ifIndex ∧
        (attachedTo ifIndex row = some agg ∨
          (attachedTo ifIndex row = none ∧ keyedTo byKey row = some agg)) := by
  unfold portMember
  cases hi : row.index "IEEE8023-LAG-MIB::dot3adAggPortIndex" with
  | none => simp
  | some i =>
    rw [Option.bind_some]
    cases ha : attachedTo i row with
    | some a =>
      constructor
      · rintro ⟨member, h⟩
        cases h
        exact ⟨rfl, .inl ha⟩
      · rintro ⟨hii, h⟩
        cases hii
        rw [ha] at h
        simp only [Option.some.injEq, reduceCtorEq, false_and, or_false] at h
        subst h
        exact ⟨_, rfl⟩
    | none =>
      constructor
      · rintro ⟨member, h⟩
        obtain ⟨a, hk, he⟩ := Option.map_eq_some_iff.mp h
        cases he
        exact ⟨rfl, .inr ⟨ha, hk⟩⟩
      · rintro ⟨hii, h⟩
        cases hii
        rw [ha] at h
        simp only [reduceCtorEq, true_and, false_or] at h
        exact ⟨_, by rw [h]; rfl⟩

/-- What LACP shows when its tables are answered. -/
theorem knows_decodeDot3ad_iff (p : Polled) (source : String) (m : LagMembership) :
    (decodeDot3ad (p.fetch source "IEEE8023-LAG-MIB::dot3adAggTable")
      (p.fetch source "IEEE8023-LAG-MIB::dot3adAggPortTable")).Knows m ↔
      Names (fun agg ifIndex =>
        p.answered source "IEEE8023-LAG-MIB::dot3adAggPortTable" = true ∧
        (Attached (p.tables "IEEE8023-LAG-MIB::dot3adAggPortTable") agg ifIndex ∨
          (p.answered source "IEEE8023-LAG-MIB::dot3adAggTable" = true ∧
            Keyed (p.tables "IEEE8023-LAG-MIB::dot3adAggTable")
              (p.tables "IEEE8023-LAG-MIB::dot3adAggPortTable") agg ifIndex))) m := by
  rw [knows_decodeDot3ad]
  refine names_congr (fun agg i => ?_) m
  simp only [portMember_iff, Polled.fetch]
  cases p.answered source "IEEE8023-LAG-MIB::dot3adAggPortTable" with
  | false => simp
  | true =>
    cases p.answered source "IEEE8023-LAG-MIB::dot3adAggTable" with
    | false => simp [Attached]
    | true =>
      simp only [if_true, Option.map_some, Option.getD_some, true_and, Attached, Keyed]
      constructor
      · rintro ⟨row, hrow, hi, h | h⟩
        · exact .inl ⟨row, hrow, hi, h⟩
        · exact .inr ⟨row, hrow, hi, h⟩
      · rintro (⟨row, hrow, hi, h⟩ | ⟨row, hrow, hi, h⟩)
        · exact ⟨row, hrow, hi, .inl h⟩
        · exact ⟨row, hrow, hi, .inr h⟩

/-! ## PAgP -/

/-- The ports of each PAgP group. -/
theorem mem_pagpGroups (pagp : Response) (agg : Int) :
    (∀ i, i ∈ ((pagpGroups pagp).lookup agg).getD [] ↔ Bundled pagp agg i) ∧
      (agg ∈ pagpGroups pagp ↔ ∃ i, Bundled pagp agg i) := by
  unfold pagpGroups Bundled
  induction pagp.entries using List.reverseRecOn with
  | nil => simp
  | append_singleton rows row ih =>
    obtain ⟨hports, hgroup⟩ := ih
    rw [List.foldl_append, List.foldl_cons, List.foldl_nil]
    cases hrow : pagpMember row with
    | none =>
      simp only [List.mem_append, List.mem_singleton, or_and_right, exists_or, exists_eq_left, hrow,
        reduceCtorEq, or_false]
      exact ⟨hports, hgroup⟩
    | some e =>
      obtain ⟨group, ifIndex⟩ := e
      simp only [List.mem_append, List.mem_singleton, or_and_right, exists_or, exists_eq_left, hrow,
        Option.some.injEq, Prod.mk.injEq]
      by_cases hagg : agg = group
      · subst hagg
        refine ⟨fun i => ?_, ?_⟩
        · rw [AList.lookup_insert, Option.getD_some, ← hports i]
          split
          · next hin =>
            refine ⟨Or.inl, ?_⟩
            rintro (h | ⟨-, rfl⟩)
            · exact h
            · exact hin
          · rw [List.mem_orderedInsert, or_comm]
            simp [eq_comm]
        · simp [AList.mem_insert]
      · refine ⟨fun i => ?_, ?_⟩
        · rw [AList.lookup_insert_ne hagg, hports i]
          simp [Ne.symm hagg]
        · rw [AList.mem_insert, hgroup]
          simp [hagg, Ne.symm hagg]

/-- The Cisco merge adds the PAgP bundles. -/
theorem knows_mergeCisco (dot3ad : Groups) (pagp : Response) (modes : AList fun _ : Int => Int)
    (m : LagMembership) : (mergeCisco dot3ad (pagpGroups pagp) modes).groups.Knows m ↔
      dot3ad.Knows m ∨ Names (Bundled pagp) m := by
  have hports : ∀ (ports : List Int) (members : AList fun _ : Int => LagMember) (i : Int),
      i ∈ ports.foldl (fun members m =>
        if m ∈ members then members else members.insert m LagMember.default) members ↔
        i ∈ ports ∨ i ∈ members := by
    intro ports
    induction ports with
    | nil => simp
    | cons port ports ih =>
      intro members i
      rw [List.foldl_cons, ih, List.mem_cons]
      split
      · next hin =>
        refine ⟨fun h => h.imp_left .inr, ?_⟩
        rintro ((rfl | h) | h)
        · exact .inr hin
        · exact .inl h
        · exact .inr h
      · rw [AList.mem_insert]
        tauto
  have hlookup : ∀ agg, (mergeCisco dot3ad (pagpGroups pagp) modes).groups.lookup agg =
      (((pagpGroups pagp).lookup agg).map fun ports =>
        mergeGroup modes ports (dot3ad.lookup agg)).or (dot3ad.lookup agg) :=
    fun agg => lookup_foldl_entries (fun _ ports group? => mergeGroup modes ports group?)
      (pagpGroups pagp).entries (pagpGroups pagp).nodupKeys dot3ad agg
  cases m with
  | aggregate agg =>
    obtain ⟨-, hgroup⟩ := mem_pagpGroups pagp agg
    simp only [Groups.Knows, Names]
    rw [← AList.lookup_isSome, hlookup, ← hgroup, ← AList.lookup_isSome, ← AList.lookup_isSome]
    cases (pagpGroups pagp).lookup agg <;> simp
  | member agg i =>
    obtain ⟨hbundled, -⟩ := mem_pagpGroups pagp agg
    simp only [Groups.Knows, Names, hlookup]
    rw [← hbundled i]
    cases (pagpGroups pagp).lookup agg with
    | none => simp
    | some ports =>
      simp only [Option.map_some, Option.some_or, Option.some.injEq, exists_eq_left',
        Option.getD_some, mergeGroup]
      rw [hports]
      cases dot3ad.lookup agg with
      | none => simp [emptyGroup]
      | some group => simp [or_comm]

/-! ## The sources -/

/-- The memberships a source's answered tables show. -/
def Shows (p : Polled) (source : String) (agg ifIndex : Int) : Prop :=
  (source = "cisco-pagp" ∧ Bundled (p.tables "CISCO-PAGP-MIB::pagpPortTable") agg ifIndex) ∨
  (p.answered source "IEEE8023-LAG-MIB::dot3adAggPortTable" = true ∧
    (Attached (p.tables "IEEE8023-LAG-MIB::dot3adAggPortTable") agg ifIndex ∨
      (p.answered source "IEEE8023-LAG-MIB::dot3adAggTable" = true ∧
        Keyed (p.tables "IEEE8023-LAG-MIB::dot3adAggTable")
          (p.tables "IEEE8023-LAG-MIB::dot3adAggPortTable") agg ifIndex)))

/-- The source answers: the Cisco one when its PAgP table has rows, the standard
one when its LACP tables show a membership. -/
def Answers (p : Polled) (source : String) : Prop :=
  if source = "cisco-pagp" then p.answered source "CISCO-PAGP-MIB::pagpPortTable" = true ∧
    (p.tables "CISCO-PAGP-MIB::pagpPortTable").entries ≠ []
  else p.answered source "IEEE8023-LAG-MIB::dot3adAggPortTable" = true ∧
    ∃ agg ifIndex, Shows p source agg ifIndex

theorem ciscoCollect_spec (p : Polled) :
    ((ciscoCollect p.fetch).isSome = true ↔ Answers p "cisco-pagp") ∧
    ∀ out, ciscoCollect p.fetch = some out → ∀ m,
      out.groups.Knows m ↔ Names (Shows p "cisco-pagp") m := by
  unfold ciscoCollect Answers
  have hpagp : p.fetch "cisco-pagp" "CISCO-PAGP-MIB::pagpPortTable" =
      if p.answered "cisco-pagp" "CISCO-PAGP-MIB::pagpPortTable" then
        some (p.tables "CISCO-PAGP-MIB::pagpPortTable") else none := rfl
  rw [hpagp]
  cases p.answered "cisco-pagp" "CISCO-PAGP-MIB::pagpPortTable" with
  | false => simp
  | true =>
    simp only [if_true, Option.bind_some]
    by_cases hempty : (p.tables "CISCO-PAGP-MIB::pagpPortTable").entries = []
    · simp [hempty]
    · rw [if_neg hempty]
      refine ⟨by simp [hempty], fun out hout m => ?_⟩
      cases hout
      rw [knows_mergeCisco, knows_decodeDot3ad_iff, or_comm, ← names_or]
      exact names_congr (fun agg i => by simp [Shows]) m

theorem dot3adCollect_spec (p : Polled) :
    ((dot3adCollect p.fetch).isSome = true ↔ Answers p "dot3ad") ∧
    ∀ out, dot3adCollect p.fetch = some out → ∀ m,
      out.groups.Knows m ↔ Names (Shows p "dot3ad") m := by
  have hknows := knows_decodeDot3ad_iff p "dot3ad"
  have hshows : ∀ agg i, Shows p "dot3ad" agg i ↔ _ := fun agg i =>
    or_iff_right (a := "dot3ad" = "cisco-pagp" ∧ _) fun h => absurd h.1 (by decide)
  unfold dot3adCollect Answers
  have hports : p.fetch "dot3ad" "IEEE8023-LAG-MIB::dot3adAggPortTable" =
      if p.answered "dot3ad" "IEEE8023-LAG-MIB::dot3adAggPortTable" then
        some (p.tables "IEEE8023-LAG-MIB::dot3adAggPortTable") else none := rfl
  rw [if_neg (by decide)]
  cases hans : p.answered "dot3ad" "IEEE8023-LAG-MIB::dot3adAggPortTable" with
  | false => simp [hports, hans]
  | true =>
    rw [hans] at hports
    rw [hports]
    simp only [if_true] at hports
    rw [hports] at hknows
    simp only [if_true, Option.bind_some, true_and]
    -- no entries means no membership
    have hnil : (decodeDot3ad (p.fetch "dot3ad" "IEEE8023-LAG-MIB::dot3adAggTable")
        (some (p.tables "IEEE8023-LAG-MIB::dot3adAggPortTable"))).entries = [] ↔
        ¬∃ agg i, Shows p "dot3ad" agg i := by
      rw [entries_eq_nil_iff, not_exists]
      refine forall_congr' fun agg => ?_
      rw [AList.lookup_eq_none, show agg ∈ _ ↔ _ from hknows (.aggregate agg)]
      simp only [Names, hshows]
    by_cases hempty : (decodeDot3ad (p.fetch "dot3ad" "IEEE8023-LAG-MIB::dot3adAggTable")
        (some (p.tables "IEEE8023-LAG-MIB::dot3adAggPortTable"))).entries = []
    · rw [if_pos hempty]
      refine ⟨?_, fun out hout => by cases hout⟩
      simpa using hnil.mp hempty
    · rw [if_neg hempty]
      refine ⟨?_, fun out hout m => ?_⟩
      · simpa using not_not.mp (mt hnil.mpr hempty)
      · cases hout
        rw [hknows]
        exact names_congr (fun agg i => (hshows agg i).symm) m

end JaspyNexus.Collectors.Lagpoller
