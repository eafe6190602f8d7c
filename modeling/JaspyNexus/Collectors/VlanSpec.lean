import Mathlib
import JaspyNexus.Collectors.Vlanpoller
import JaspyNexus.Lib.Log

/-! # What the VLAN tables show

The decoded memberships in terms of the rows that carry them. On a Cisco switch
the last row of a port that is a trunk, or whose port has an access VLAN, decides
for the port; on a bridge the native VLANs and the port lists are read apart. -/

namespace JaspyNexus.Collectors.Vlanpoller
open JaspyNexus.Lib JaspyNexus.Snmp

/-- What a store knows of a device's ports. -/
inductive VlanMembership where
  | native (ifIndex vlan : Int)
  | tagged (ifIndex vlan : Int)
  deriving DecidableEq, Repr

/-- The port's decoded entry has it. -/
def Knows (interfaces : AList fun _ : Int => InterfaceVlans) : VlanMembership → Prop
  | .native ifIndex vlan => ∃ e, interfaces.lookup ifIndex = some e ∧ e.nativeVlan = some vlan
  | .tagged ifIndex vlan => ∃ e, interfaces.lookup ifIndex = some e ∧ vlan ∈ e.taggedVlans

/-! ## Cisco -/

/-- The answered membership table gives the port this access VLAN. -/
def AccessVlan (p : Polled) (ifIndex vlan : Int) : Prop :=
  p.answered "cisco-vtp" "CISCO-VLAN-MEMBERSHIP-MIB::vmMembershipTable" = true ∧
    (accessVlans (some (p.tables "CISCO-VLAN-MEMBERSHIP-MIB::vmMembershipTable"))).lookup ifIndex =
      some vlan

/-- The row speaks of the port: a trunk, or a port with an access VLAN. -/
def Speaks (p : Polled) (ifIndex : Int) (row : ResultEntry) : Prop :=
  row.index "CISCO-VTP-MIB::vlanTrunkPortIfIndex" = some ifIndex ∧
    (trunking row = true ∨ ∃ vlan, AccessVlan p ifIndex vlan)

/-- The last row that speaks of the port. -/
def Decides (p : Polled) (ifIndex : Int) (row : ResultEntry) : Prop :=
  ∃ before after, (p.tables "CISCO-VTP-MIB::jaspyVlanTrunkPortTable").entries = before ++ row :: after ∧
    Speaks p ifIndex row ∧ ∀ later ∈ after, ¬Speaks p ifIndex later

/-- The memberships the Cisco tables show. -/
def CiscoShows (p : Polled) : VlanMembership → Prop
  | .native ifIndex vlan => ∃ row, Decides p ifIndex row ∧
      (if trunking row then trunkNative row = some vlan else AccessVlan p ifIndex vlan)
  | .tagged ifIndex vlan => ∃ row, Decides p ifIndex row ∧ trunking row = true ∧
      vlan ∈ trunkEnabled row ∧ trunkNative row ≠ some vlan ∧
      p.answered "cisco-vtp" "CISCO-VTP-MIB::vtpVlanTable" = true ∧
      vlan ∈ activeVlans (p.tables "CISCO-VTP-MIB::vtpVlanTable")

/-- The Cisco source answers: its trunk table has a row that speaks of a port. -/
def CiscoAnswers (p : Polled) : Prop :=
  p.answered "cisco-vtp" "CISCO-VTP-MIB::jaspyVlanTrunkPortTable" = true ∧
    ∃ row ∈ (p.tables "CISCO-VTP-MIB::jaspyVlanTrunkPortTable").entries, ∃ ifIndex,
      Speaks p ifIndex row

theorem Decides.speaks {p : Polled} {ifIndex : Int} {row : ResultEntry} (h : Decides p ifIndex row) :
    Speaks p ifIndex row := by
  obtain ⟨-, -, -, hspeaks, -⟩ := h
  exact hspeaks

/-- The last element that says something decides what the last word is. -/
theorem getLast?_filterMap_eq_some_iff {ρ β : Type} {g : ρ → Option β} {rows : List ρ} {b : β} :
    (rows.filterMap g).getLast? = some b ↔ ∃ before row after, rows = before ++ row :: after ∧
      g row = some b ∧ ∀ later ∈ after, g later = none := by
  induction rows using List.reverseRecOn generalizing b with
  | nil => simp
  | append_singleton rows row ih =>
    rw [List.filterMap_append, List.getLast?_append]
    cases hg : g row with
    | some c =>
      simp only [List.filterMap_cons, hg, List.filterMap_nil, List.getLast?_singleton,
        Option.some_or, Option.some.injEq]
      constructor
      · rintro rfl
        exact ⟨rows, row, [], rfl, hg, by simp⟩
      · rintro ⟨before, row', after, heq, hrow', hafter⟩
        rcases Log.concat_eq_append_cons heq with ⟨-, rfl⟩ | ⟨rest, rfl, -⟩
        · rw [hg] at hrow'
          exact Option.some.inj hrow'
        · have hlast := hafter row (by simp)
          rw [hg] at hlast
          cases hlast
    | none =>
      simp only [List.filterMap_cons, hg, List.filterMap_nil, List.getLast?_nil, Option.none_or]
      rw [ih]
      constructor
      · rintro ⟨before, row', after, rfl, hrow', hafter⟩
        refine ⟨before, row', after ++ [row], by simp, hrow', fun later hl => ?_⟩
        rcases List.mem_append.mp hl with hl | hl
        · exact hafter later hl
        · rw [List.mem_singleton.mp hl]; exact hg
      · rintro ⟨before, row', after, heq, hrow', hafter⟩
        rcases Log.concat_eq_append_cons heq with ⟨-, rfl⟩ | ⟨rest, rfl, hrows⟩
        · rw [hg] at hrow'
          cases hrow'
        · exact ⟨before, row', rest, hrows, hrow', fun later hl => hafter later (by simp [hl])⟩

/-- What the code reads of the Cisco tables. -/
abbrev fetchedActive (p : Polled) : List Int :=
  ((p.fetch "cisco-vtp" "CISCO-VTP-MIB::vtpVlanTable").map activeVlans).getD []

abbrev fetchedAccess (p : Polled) : AList fun _ : Int => Int :=
  accessVlans (p.fetch "cisco-vtp" "CISCO-VLAN-MEMBERSHIP-MIB::vmMembershipTable")

/-- What the Cisco source decodes. -/
def ciscoDecoded (p : Polled) : AList fun _ : Int => InterfaceVlans :=
  writeAll (ciscoPort (fetchedActive p) (fetchedAccess p))
    (p.tables "CISCO-VTP-MIB::jaspyVlanTrunkPortTable").entries

theorem lookup_fetchedAccess {p : Polled} {ifIndex vlan : Int} :
    (fetchedAccess p).lookup ifIndex = some vlan ↔ AccessVlan p ifIndex vlan := by
  unfold fetchedAccess AccessVlan Polled.fetch
  cases p.answered "cisco-vtp" "CISCO-VLAN-MEMBERSHIP-MIB::vmMembershipTable" with
  | false => simp [accessVlans, writeAll]
  | true => simp

theorem mem_fetchedActive {p : Polled} {vlan : Int} : vlan ∈ fetchedActive p ↔
    p.answered "cisco-vtp" "CISCO-VTP-MIB::vtpVlanTable" = true ∧
      vlan ∈ activeVlans (p.tables "CISCO-VTP-MIB::vtpVlanTable") := by
  unfold fetchedActive Polled.fetch
  cases p.answered "cisco-vtp" "CISCO-VTP-MIB::vtpVlanTable" with
  | false => simp
  | true => simp

/-- What a row of the trunk table says, in words. -/
theorem ciscoPort_eq_some_iff {p : Polled} {row : ResultEntry} {ifIndex : Int} {e : InterfaceVlans} :
    ciscoPort (fetchedActive p) (fetchedAccess p) row = some (ifIndex, e) ↔
      row.index "CISCO-VTP-MIB::vlanTrunkPortIfIndex" = some ifIndex ∧
      ((trunking row = true ∧ e = ⟨trunkNative row, (trunkEnabled row).filter fun v =>
          v ∈ fetchedActive p ∧ some v ≠ trunkNative row⟩) ∨
        (trunking row = false ∧ ∃ vlan, AccessVlan p ifIndex vlan ∧ e = ⟨some vlan, []⟩)) := by
  unfold ciscoPort
  cases hi : row.index "CISCO-VTP-MIB::vlanTrunkPortIfIndex" with
  | none => simp
  | some i =>
    rw [Option.bind_some]
    cases ht : trunking row with
    | true =>
      simp only [if_true, Option.some.injEq, Prod.mk.injEq, true_and, Bool.true_eq_false, false_and,
        or_false]
      exact and_congr_right fun _ => eq_comm
    | false =>
      simp only [Bool.false_eq_true, if_false, Option.map_eq_some_iff, Prod.mk.injEq,
        Option.some.injEq, false_and, true_and, false_or]
      constructor
      · rintro ⟨vlan, hvlan, rfl, rfl⟩
        exact ⟨rfl, vlan, lookup_fetchedAccess.mp hvlan, rfl⟩
      · rintro ⟨rfl, vlan, hvlan, rfl⟩
        exact ⟨vlan, lookup_fetchedAccess.mpr hvlan, rfl, rfl⟩

/-- A row is decoded exactly when it speaks of its port. -/
theorem ciscoPort_isSome_iff {p : Polled} {row : ResultEntry} {ifIndex : Int} :
    (∃ e, ciscoPort (fetchedActive p) (fetchedAccess p) row = some (ifIndex, e)) ↔
      Speaks p ifIndex row := by
  simp only [ciscoPort_eq_some_iff, Speaks]
  constructor
  · rintro ⟨e, hi, ⟨ht, -⟩ | ⟨-, vlan, hvlan, -⟩⟩
    · exact ⟨hi, .inl ht⟩
    · exact ⟨hi, .inr ⟨vlan, hvlan⟩⟩
  · rintro ⟨hi, h⟩
    cases ht : trunking row with
    | true => exact ⟨_, hi, .inl ⟨rfl, rfl⟩⟩
    | false =>
      rcases h with h | ⟨vlan, hvlan⟩
      · rw [ht] at h; cases h
      · exact ⟨_, hi, .inr ⟨rfl, vlan, hvlan, rfl⟩⟩

/-- The port's entry is the deciding row's. -/
theorem lookup_decodeCisco {p : Polled} {ifIndex : Int} {e : InterfaceVlans} :
    (ciscoDecoded p).lookup ifIndex = some e ↔
      ∃ row, Decides p ifIndex row ∧
        ciscoPort (fetchedActive p) (fetchedAccess p) row = some (ifIndex, e) := by
  have hnone : ∀ row, sayOf (ciscoPort (fetchedActive p) (fetchedAccess p)) ifIndex row = none ↔
      ¬Speaks p ifIndex row := by
    intro row
    rw [← ciscoPort_isSome_iff, Option.eq_none_iff_forall_ne_some]
    simp [sayOf_eq_some_iff]
  rw [ciscoDecoded, lookup_writeAll, getLast?_filterMap_eq_some_iff]
  constructor
  · rintro ⟨before, row, after, heq, hrow, hafter⟩
    have hsay := sayOf_eq_some_iff.mp hrow
    exact ⟨row, ⟨before, after, heq, ciscoPort_isSome_iff.mp ⟨e, hsay⟩,
      fun later hl => (hnone later).mp (hafter later hl)⟩, hsay⟩
  · rintro ⟨row, ⟨before, after, heq, -, hafter⟩, hsay⟩
    exact ⟨before, row, after, heq, sayOf_eq_some_iff.mpr hsay,
      fun later hl => (hnone later).mpr (hafter later hl)⟩

theorem knows_decodeCisco (p : Polled) (m : VlanMembership) :
    Knows (ciscoDecoded p) m ↔ CiscoShows p m := by
  cases m with
  | native ifIndex vlan =>
    simp only [Knows, CiscoShows, lookup_decodeCisco]
    constructor
    · rintro ⟨e, ⟨row, hdec, hrow⟩, hnative⟩
      refine ⟨row, hdec, ?_⟩
      rcases (ciscoPort_eq_some_iff.mp hrow).2 with ⟨ht, rfl⟩ | ⟨ht, v, hv, rfl⟩
      · rw [if_pos ht]; exact hnative
      · rw [ht, if_neg Bool.false_ne_true]
        cases hnative
        exact hv
    · rintro ⟨row, hdec, hrow⟩
      have hi := hdec.speaks.1
      cases ht : trunking row with
      | true =>
        rw [ht, if_pos rfl] at hrow
        exact ⟨_, ⟨row, hdec, ciscoPort_eq_some_iff.mpr ⟨hi, .inl ⟨ht, rfl⟩⟩⟩, hrow⟩
      | false =>
        rw [ht, if_neg Bool.false_ne_true] at hrow
        exact ⟨_, ⟨row, hdec, ciscoPort_eq_some_iff.mpr ⟨hi, .inr ⟨ht, vlan, hrow, rfl⟩⟩⟩, rfl⟩
  | tagged ifIndex vlan =>
    simp only [Knows, CiscoShows, lookup_decodeCisco, ← mem_fetchedActive]
    constructor
    · rintro ⟨e, ⟨row, hdec, hrow⟩, htagged⟩
      rcases (ciscoPort_eq_some_iff.mp hrow).2 with ⟨ht, rfl⟩ | ⟨ht, v, hv, rfl⟩
      · obtain ⟨hmem, hkeep⟩ := List.mem_filter.mp htagged
        simp only [decide_eq_true_eq] at hkeep
        exact ⟨row, hdec, ht, hmem, Ne.symm hkeep.2, hkeep.1⟩
      · cases htagged
    · rintro ⟨row, hdec, ht, hmem, hne, hactive⟩
      have hi := hdec.speaks.1
      exact ⟨_, ⟨row, hdec, ciscoPort_eq_some_iff.mpr ⟨hi, .inl ⟨ht, rfl⟩⟩⟩,
        List.mem_filter.mpr ⟨hmem, by simpa using ⟨hactive, Ne.symm hne⟩⟩⟩

/-- Nothing is decoded exactly when no row speaks of a port. -/
theorem ciscoDecoded_eq_nil_iff (p : Polled) : (ciscoDecoded p).entries = [] ↔
    ¬∃ row ∈ (p.tables "CISCO-VTP-MIB::jaspyVlanTrunkPortTable").entries, ∃ ifIndex,
      Speaks p ifIndex row := by
  rw [entries_eq_nil_iff, ciscoDecoded]
  constructor
  · rintro h ⟨row, hrow, i, hspeaks⟩
    obtain ⟨e, he⟩ := ciscoPort_isSome_iff.mpr hspeaks
    have hsome := lookup_writeAll_isSome.mpr ⟨row, hrow, e, he⟩
    rw [h i] at hsome
    cases hsome
  · intro h i
    by_contra hne
    obtain ⟨row, hrow, e, he⟩ := lookup_writeAll_isSome.mp (Option.isSome_iff_ne_none.mpr hne)
    exact h ⟨row, hrow, i, ciscoPort_isSome_iff.mp ⟨e, he⟩⟩

theorem ciscoCollect_fetch (p : Polled) : ciscoCollect p.fetch =
    if p.answered "cisco-vtp" "CISCO-VTP-MIB::jaspyVlanTrunkPortTable" = true ∧
        (ciscoDecoded p).entries ≠ [] then
      some ⟨ciscoDecoded p,
        ((p.fetch "cisco-vtp" "CISCO-VTP-MIB::vtpVlanTable").map ciscoVlanNames).getD ∅⟩
    else none := by
  have htrunk : p.fetch "cisco-vtp" "CISCO-VTP-MIB::jaspyVlanTrunkPortTable" =
      if p.answered "cisco-vtp" "CISCO-VTP-MIB::jaspyVlanTrunkPortTable" then
        some (p.tables "CISCO-VTP-MIB::jaspyVlanTrunkPortTable") else none := rfl
  have hdecoded : decodeCisco (p.tables "CISCO-VTP-MIB::jaspyVlanTrunkPortTable")
      (p.fetch "cisco-vtp" "CISCO-VTP-MIB::vtpVlanTable")
      (p.fetch "cisco-vtp" "CISCO-VLAN-MEMBERSHIP-MIB::vmMembershipTable") = ciscoDecoded p := rfl
  unfold ciscoCollect
  rw [htrunk]
  cases p.answered "cisco-vtp" "CISCO-VTP-MIB::jaspyVlanTrunkPortTable" with
  | false => simp
  | true =>
    simp only [if_true, Option.bind_some, true_and, hdecoded]
    by_cases hrows : (p.tables "CISCO-VTP-MIB::jaspyVlanTrunkPortTable").entries = []
    · have hnil : (ciscoDecoded p).entries = [] := by
        rw [ciscoDecoded_eq_nil_iff, hrows]
        simp
      simp [hrows, hnil]
    · rw [if_neg hrows, ite_not]

theorem ciscoCollect_spec (p : Polled) :
    ((ciscoCollect p.fetch).isSome = true ↔ CiscoAnswers p) ∧
    ∀ out, ciscoCollect p.fetch = some out → ∀ m, Knows out.interfaces m ↔ CiscoShows p m := by
  have hnil := ciscoDecoded_eq_nil_iff p
  rw [ciscoCollect_fetch]
  split
  · next h =>
    refine ⟨by simpa [CiscoAnswers, h.1] using not_not.mp (mt hnil.mpr h.2), fun out hout m => ?_⟩
    cases hout
    exact knows_decodeCisco p m
  · next h =>
    refine ⟨?_, fun out hout => by cases hout⟩
    simp only [Option.isSome_none, Bool.false_eq_true, false_iff]
    rintro ⟨hans, hrow⟩
    exact h ⟨hans, fun hempty => hnil.mp hempty hrow⟩

/-! ## Q-BRIDGE -/

/-- The ifIndex of each bridge port of the device. -/
abbrev basePorts (p : Polled) : AList fun _ : Int => Int :=
  ifIndexByBridgePort (p.tables "BRIDGE-MIB::dot1dBasePortTable")

/-- The answered PVID table gives the port this native VLAN. -/
def BridgeNative (p : Polled) (ifIndex vlan : Int) : Prop :=
  p.answered "q-bridge" "Q-BRIDGE-MIB::dot1qPortVlanTable" = true ∧
    (bridgeNative (basePorts p) (some (p.tables "Q-BRIDGE-MIB::dot1qPortVlanTable"))).lookup
      ifIndex = some vlan

/-- The table the port lists are read from: the current one when it answers with
rows, else the static one when that answers. -/
def MemberRows (p : Polled) (row : ResultEntry) : Prop :=
  if p.answered "q-bridge" "Q-BRIDGE-MIB::dot1qVlanCurrentTable" = true ∧
      (p.tables "Q-BRIDGE-MIB::dot1qVlanCurrentTable").entries ≠ [] then
    row ∈ (p.tables "Q-BRIDGE-MIB::dot1qVlanCurrentTable").entries
  else p.answered "q-bridge" "Q-BRIDGE-MIB::dot1qVlanStaticTable" = true ∧
    row ∈ (p.tables "Q-BRIDGE-MIB::dot1qVlanStaticTable").entries

/-- A row of that table tags the VLAN on the port. -/
def BridgeTagged (p : Polled) (ifIndex vlan : Int) : Prop :=
  ∃ row, MemberRows p row ∧ row.index "Q-BRIDGE-MIB::dot1qVlanIndex" = some vlan ∧
    ∃ port ∈ taggedPorts row, (basePorts p).lookup port = some ifIndex

/-- The memberships the Q-BRIDGE tables show. -/
def QBridgeShows (p : Polled) : VlanMembership → Prop
  | .native ifIndex vlan => BridgeNative p ifIndex vlan
  | .tagged ifIndex vlan => BridgeTagged p ifIndex vlan ∧ ¬BridgeNative p ifIndex vlan

/-- The Q-BRIDGE source answers: the bridge ports are there, and a membership. -/
def QBridgeAnswers (p : Polled) : Prop :=
  p.answered "q-bridge" "BRIDGE-MIB::dot1dBasePortTable" = true ∧ ∃ m, QBridgeShows p m

theorem mem_insertSorted {v w : Int} {set : List Int} :
    v ∈ insertSorted w set ↔ v = w ∨ v ∈ set := by
  unfold insertSorted
  split
  · next h => exact ⟨Or.inr, fun hv => hv.elim (fun hv => hv ▸ h) id⟩
  · exact List.mem_orderedInsert _

/-- One row's ports are added to the sets. -/
theorem mem_tagPorts (ports : AList fun _ : Int => Int) (vlan : Int) (row : List Int)
    (tagged : AList fun _ : Int => List Int) (ifIndex v : Int) :
    v ∈ ((row.foldl (tagPort ports vlan) tagged).lookup ifIndex).getD [] ↔
      (v = vlan ∧ ∃ port ∈ row, ports.lookup port = some ifIndex) ∨
        v ∈ (tagged.lookup ifIndex).getD [] := by
  induction row generalizing tagged with
  | nil => simp
  | cons port row ih =>
    rw [List.foldl_cons, ih, tagPort]
    cases hp : ports.lookup port with
    | none => simp [hp]
    | some i =>
      dsimp only
      by_cases hi : ifIndex = i
      · subst hi
        simp only [AList.lookup_insert, Option.getD_some, mem_insertSorted, List.mem_cons,
          exists_eq_or_imp, hp, true_or, and_true]
        tauto
      · simp [AList.lookup_insert_ne hi, hp, Ne.symm hi]

theorem mem_bridgeTagged (ports : AList fun _ : Int => Int) (vlanPorts : Option Response)
    (ifIndex vlan : Int) : vlan ∈ ((bridgeTagged ports vlanPorts).lookup ifIndex).getD [] ↔
      ∃ row ∈ (vlanPorts.map Response.entries).getD [],
        row.index "Q-BRIDGE-MIB::dot1qVlanIndex" = some vlan ∧
        ∃ port ∈ taggedPorts row, ports.lookup port = some ifIndex := by
  unfold bridgeTagged
  induction (vlanPorts.map Response.entries).getD [] using List.reverseRecOn with
  | nil => simp
  | append_singleton rows row ih =>
    rw [List.foldl_append, List.foldl_cons, List.foldl_nil]
    cases hrow : row.index "Q-BRIDGE-MIB::dot1qVlanIndex" with
    | none =>
      dsimp only
      rw [ih]
      simp [or_and_right, exists_or, hrow]
    | some v =>
      dsimp only
      rw [mem_tagPorts, ih]
      simp only [List.mem_append, List.mem_singleton, or_and_right, exists_or, exists_eq_left, hrow,
        Option.some.injEq]
      rw [or_comm, eq_comm (a := v)]

/-- What every insert into a set gives, the sets of one row's ports have. -/
theorem forall_tagPorts {P : List Int → Prop} (hinsert : ∀ v set, P set ∨ set = [] → P (insertSorted v set))
    (ports : AList fun _ : Int => Int) (vlan : Int) (row : List Int) (tagged : AList fun _ : Int => List Int)
    (h : ∀ i set, tagged.lookup i = some set → P set) :
    ∀ i set, (row.foldl (tagPort ports vlan) tagged).lookup i = some set → P set := by
  induction row generalizing tagged with
  | nil => exact h
  | cons port row ih =>
    refine ih _ fun i set hset => ?_
    unfold tagPort at hset
    cases hp : ports.lookup port with
    | none => rw [hp] at hset; exact h i set hset
    | some j =>
      rw [hp] at hset
      dsimp only at hset
      by_cases hi : i = j
      · subst hi
        rw [AList.lookup_insert] at hset
        obtain rfl := Option.some.inj hset
        cases hold : tagged.lookup i with
        | none => exact hinsert _ _ (.inr rfl)
        | some old => exact hinsert _ _ (.inl (h i old hold))
      · rw [AList.lookup_insert_ne hi] at hset
        exact h i set hset

theorem forall_bridgeTagged {P : List Int → Prop} (hinsert : ∀ v set, P set ∨ set = [] → P (insertSorted v set))
    (ports : AList fun _ : Int => Int) (vlanPorts : Option Response) :
    ∀ ifIndex set, (bridgeTagged ports vlanPorts).lookup ifIndex = some set → P set := by
  unfold bridgeTagged
  refine List.foldlRecOn (motive := fun tagged : AList fun _ : Int => List Int =>
    ∀ i s, tagged.lookup i = some s → P s) _ _ ?_ ?_
  · intro i s hs; simp at hs
  · intro tagged ht row _
    split
    · exact ht
    · exact forall_tagPorts hinsert _ _ _ _ ht

/-- A port of the tagged map has a VLAN. -/
theorem bridgeTagged_nonempty (ports : AList fun _ : Int => Int) (vlanPorts : Option Response)
    (ifIndex : Int) {set : List Int}
    (h : (bridgeTagged ports vlanPorts).lookup ifIndex = some set) : set ≠ [] :=
  forall_bridgeTagged (P := (· ≠ [])) (fun _ _ _ => List.ne_nil_of_mem (mem_insertSorted.mpr (.inl rfl)))
    ports vlanPorts ifIndex set h

/-- What the Q-BRIDGE source decodes. -/
def qbridgeDecoded (p : Polled) : AList fun _ : Int => InterfaceVlans :=
  decodeQbridge (p.fetch "q-bridge" "Q-BRIDGE-MIB::dot1qPortVlanTable")
    (vlanPortsOf (p.fetch "q-bridge" "Q-BRIDGE-MIB::dot1qVlanCurrentTable")
      (p.fetch "q-bridge" "Q-BRIDGE-MIB::dot1qVlanStaticTable"))
    (p.tables "BRIDGE-MIB::dot1dBasePortTable")

theorem lookup_fetchedNative {p : Polled} {ifIndex vlan : Int} :
    (bridgeNative (basePorts p) (p.fetch "q-bridge" "Q-BRIDGE-MIB::dot1qPortVlanTable")).lookup
      ifIndex = some vlan ↔ BridgeNative p ifIndex vlan := by
  unfold BridgeNative Polled.fetch
  cases p.answered "q-bridge" "Q-BRIDGE-MIB::dot1qPortVlanTable" with
  | false => simp [bridgeNative, writeAll]
  | true => simp

theorem mem_fetchedRows {p : Polled} {row : ResultEntry} :
    row ∈ ((vlanPortsOf (p.fetch "q-bridge" "Q-BRIDGE-MIB::dot1qVlanCurrentTable")
      (p.fetch "q-bridge" "Q-BRIDGE-MIB::dot1qVlanStaticTable")).map Response.entries).getD [] ↔
      MemberRows p row := by
  unfold MemberRows vlanPortsOf Polled.fetch
  cases p.answered "q-bridge" "Q-BRIDGE-MIB::dot1qVlanCurrentTable" <;>
    cases p.answered "q-bridge" "Q-BRIDGE-MIB::dot1qVlanStaticTable" <;>
    by_cases hrows : (p.tables "Q-BRIDGE-MIB::dot1qVlanCurrentTable").entries = [] <;> simp [hrows]

theorem mem_fetchedTagged {p : Polled} {ifIndex vlan : Int} :
    vlan ∈ ((bridgeTagged (basePorts p)
      (vlanPortsOf (p.fetch "q-bridge" "Q-BRIDGE-MIB::dot1qVlanCurrentTable")
        (p.fetch "q-bridge" "Q-BRIDGE-MIB::dot1qVlanStaticTable"))).lookup ifIndex).getD [] ↔
      BridgeTagged p ifIndex vlan := by
  rw [mem_bridgeTagged]
  simp only [mem_fetchedRows, BridgeTagged]

/-- A port's entry joins its native VLAN and its tagged ones. -/
theorem lookup_decodeQbridge (pvid vlanPorts : Option Response) (base : Response) (ifIndex : Int) :
    (decodeQbridge pvid vlanPorts base).lookup ifIndex =
      let native := (bridgeNative (ifIndexByBridgePort base) pvid).lookup ifIndex
      (((bridgeTagged (ifIndexByBridgePort base) vlanPorts).lookup ifIndex).map fun set =>
        ⟨native, set.filter fun v => some v ≠ native⟩).or
          (native.map fun vlan => ⟨some vlan, []⟩) := by
  unfold decodeQbridge
  dsimp only
  rw [lookup_foldl_entries (fun _ set existing => tagEntry set existing) _ (AList.nodupKeys _)]
  have hnative : ∀ native : AList fun _ : Int => Int, (native.entries.foldl
      (fun (result : AList fun _ : Int => InterfaceVlans) e => result.insert e.1 ⟨some e.2, []⟩)
      ∅).lookup ifIndex = (native.lookup ifIndex).map fun vlan => ⟨some vlan, []⟩ := by
    intro native
    rw [lookup_foldl_entries (fun _ vlan (_ : Option InterfaceVlans) => ⟨some vlan, []⟩)
      _ native.nodupKeys, AList.lookup_empty, Option.or_none]
    rfl
  rw [hnative]
  cases (bridgeNative (ifIndexByBridgePort base) pvid).lookup ifIndex <;> rfl

theorem knows_qbridgeDecoded (p : Polled) (m : VlanMembership) :
    Knows (qbridgeDecoded p) m ↔ QBridgeShows p m := by
  unfold qbridgeDecoded
  cases m with
  | native ifIndex vlan =>
    simp only [Knows, QBridgeShows, lookup_decodeQbridge, ← lookup_fetchedNative]
    cases (bridgeTagged (basePorts p) _).lookup ifIndex <;>
      cases (bridgeNative (basePorts p) _).lookup ifIndex <;> simp
  | tagged ifIndex vlan =>
    simp only [Knows, QBridgeShows, lookup_decodeQbridge, ← lookup_fetchedNative,
      ← mem_fetchedTagged]
    cases (bridgeTagged (basePorts p) _).lookup ifIndex <;>
      cases (bridgeNative (basePorts p) _).lookup ifIndex <;> simp
    exact fun _ => not_congr eq_comm

/-- Nothing is decoded exactly when nothing is shown. -/
theorem qbridgeDecoded_eq_nil_iff (p : Polled) :
    (qbridgeDecoded p).entries = [] ↔ ¬∃ m, QBridgeShows p m := by
  rw [entries_eq_nil_iff, not_exists]
  constructor
  · intro h m hm
    rw [← knows_qbridgeDecoded] at hm
    cases m with
    | native ifIndex vlan =>
      obtain ⟨e, he, -⟩ := hm
      rw [h ifIndex] at he
      cases he
    | tagged ifIndex vlan =>
      obtain ⟨e, he, -⟩ := hm
      rw [h ifIndex] at he
      cases he
  · intro h ifIndex
    unfold qbridgeDecoded
    rw [lookup_decodeQbridge]
    have hnative : (bridgeNative (basePorts p)
        (p.fetch "q-bridge" "Q-BRIDGE-MIB::dot1qPortVlanTable")).lookup ifIndex = none :=
      Option.eq_none_iff_forall_ne_some.mpr fun vlan hv =>
        h (.native ifIndex vlan) (lookup_fetchedNative.mp hv)
    dsimp only
    rw [hnative, Option.map_none, Option.or_none, Option.map_eq_none_iff]
    refine Option.eq_none_iff_forall_ne_some.mpr fun set hset => ?_
    obtain ⟨vlan, hvlan⟩ := List.exists_mem_of_ne_nil _ (bridgeTagged_nonempty _ _ _ hset)
    refine h (.tagged ifIndex vlan) ⟨mem_fetchedTagged.mp (by rw [hset]; exact hvlan), fun hn => ?_⟩
    exact h (.native ifIndex vlan) hn

theorem qbridgeCollect_spec (p : Polled) :
    ((qbridgeCollect p.fetch).isSome = true ↔ QBridgeAnswers p) ∧
    ∀ out, qbridgeCollect p.fetch = some out → ∀ m, Knows out.interfaces m ↔ QBridgeShows p m := by
  have hnil := qbridgeDecoded_eq_nil_iff p
  have hbase : p.fetch "q-bridge" "BRIDGE-MIB::dot1dBasePortTable" =
      if p.answered "q-bridge" "BRIDGE-MIB::dot1dBasePortTable" then
        some (p.tables "BRIDGE-MIB::dot1dBasePortTable") else none := rfl
  have hdecoded : decodeQbridge (p.fetch "q-bridge" "Q-BRIDGE-MIB::dot1qPortVlanTable")
      (vlanPortsOf (p.fetch "q-bridge" "Q-BRIDGE-MIB::dot1qVlanCurrentTable")
        (p.fetch "q-bridge" "Q-BRIDGE-MIB::dot1qVlanStaticTable"))
      (p.tables "BRIDGE-MIB::dot1dBasePortTable") = qbridgeDecoded p := rfl
  unfold qbridgeCollect QBridgeAnswers
  rw [hbase]
  cases p.answered "q-bridge" "BRIDGE-MIB::dot1dBasePortTable" with
  | false => simp
  | true =>
    simp only [if_true, Option.bind_some, true_and, hdecoded]
    by_cases hempty : (qbridgeDecoded p).entries = []
    · rw [if_pos hempty]
      exact ⟨by simpa using hnil.mp hempty, fun out hout => by cases hout⟩
    · rw [if_neg hempty]
      refine ⟨by simpa using not_not.mp (mt hnil.mpr hempty), fun out hout m => ?_⟩
      cases hout
      exact knows_qbridgeDecoded p m

end JaspyNexus.Collectors.Vlanpoller
