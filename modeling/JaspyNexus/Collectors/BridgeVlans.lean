import Mathlib
import JaspyNexus.Collectors.CiscoVlans
import JaspyNexus.Collectors.VlanSpec

/-! # Q-BRIDGE tables, port by port

What `decode_qbridge` makes of the rows: the port lists of the VLANs, turned into the VLANs
of each port. The sets are ordered and the maps read by key, so the order of the rows does
not matter. -/

namespace JaspyNexus.Collectors.Vlanpoller
open JaspyNexus.Lib JaspyNexus.Snmp

/-! ## What the tables say -/

def bridgePort (row : ResultEntry) : Option Int := row.index "BRIDGE-MIB::dot1dBasePort"

/-- A row of the base-port table: the ifIndex of a bridge port. -/
def MapsPort (basePorts : Response) (port ifIndex : Int) : Prop :=
  ∃ row ∈ basePorts.entries, bridgePort row = some port ∧
    objI64 row.objects "BRIDGE-MIB::dot1dBasePortIfIndex" = some ifIndex

/-- A row with a bridge port's positive PVID. -/
def HasPvid (pvid : Option Response) (port vlan : Int) : Prop :=
  ∃ row ∈ rowsOf pvid, bridgePort row = some port ∧
    objI64 row.objects "Q-BRIDGE-MIB::dot1qPvid" = some vlan ∧ 0 < vlan

/-- The bit of the port is set in the column; the first bit is port 1. -/
def PortBit (row : ResultEntry) (key : String) (port : Int) : Prop :=
  ∃ hex, objStr row.objects key = some hex ∧ ∃ n : Nat, port = 1 + n ∧ octetBit (parseHexOctets hex) n = true

/-- The port is in the current list, or in the static one where the current is empty. -/
def Listed (row : ResultEntry) (current static : String) (port : Int) : Prop :=
  PortBit row current port ∨ (∀ other, ¬PortBit row current other) ∧ PortBit row static port

def Egress (row : ResultEntry) : Int → Prop :=
  Listed row "Q-BRIDGE-MIB::dot1qVlanCurrentEgressPorts" "Q-BRIDGE-MIB::dot1qVlanStaticEgressPorts"

def Untagged (row : ResultEntry) : Int → Prop :=
  Listed row "Q-BRIDGE-MIB::dot1qVlanCurrentUntaggedPorts" "Q-BRIDGE-MIB::dot1qVlanStaticUntaggedPorts"

/-- The tables of a bridge: one ifIndex and one PVID at most for a bridge port, and bridge
ports of different ifIndexes. Of the VLAN rows nothing is asked. -/
structure BridgeTables where
  pvid : Option Response
  vlanPorts : Option Response
  basePorts : Response
  functional : ∀ port i i', MapsPort basePorts port i → MapsPort basePorts port i' → i = i'
  injective : ∀ port port' i, MapsPort basePorts port i → MapsPort basePorts port' i → port = port'
  one_pvid : ∀ port v v', HasPvid pvid port v → HasPvid pvid port v' → v = v'

def BridgeTables.Native (t : BridgeTables) (ifIndex vlan : Int) : Prop :=
  ∃ port, MapsPort t.basePorts port ifIndex ∧ HasPvid t.pvid port vlan

/-- Some row of the VLAN tags it on the port. -/
def BridgeTables.Tagged (t : BridgeTables) (ifIndex vlan : Int) : Prop :=
  ∃ row ∈ rowsOf t.vlanPorts, row.index "Q-BRIDGE-MIB::dot1qVlanIndex" = some vlan ∧
    ∃ port, MapsPort t.basePorts port ifIndex ∧ Egress row port ∧ ¬Untagged row port

def BridgeTables.decoded (t : BridgeTables) : AList fun _ : Int => InterfaceVlans :=
  decodeQbridge t.pvid t.vlanPorts t.basePorts

/-- The same rows, in any order. -/
structure SameRows (t t' : BridgeTables) : Prop where
  pvid : (rowsOf t.pvid).Perm (rowsOf t'.pvid)
  vlanPorts : (rowsOf t.vlanPorts).Perm (rowsOf t'.vlanPorts)
  basePorts : t.basePorts.entries.Perm t'.basePorts.entries

/-- The entry of a port. -/
structure BridgeEntry (t : BridgeTables) (ifIndex : Int) (e : InterfaceVlans) : Prop where
  native : ∀ vlan, e.nativeVlan = some vlan ↔ t.Native ifIndex vlan
  sorted : e.taggedVlans.Pairwise (· < ·)
  tagged : ∀ v, v ∈ e.taggedVlans ↔ t.Tagged ifIndex v ∧ e.nativeVlan ≠ some v

/-- **The entries are those of the tables**, in whatever order the rows come. A bridge port
that maps to no ifIndex gives no port anything. -/
structure BridgeExact (t : BridgeTables) : Prop where
  isSome_iff : ∀ ifIndex, (t.decoded.lookup ifIndex).isSome ↔
    (∃ vlan, t.Native ifIndex vlan) ∨ ∃ vlan, t.Tagged ifIndex vlan
  entry : ∀ ifIndex e, t.decoded.lookup ifIndex = some e → BridgeEntry t ifIndex e
  order : ∀ t', SameRows t t' → ∀ ifIndex, t.decoded.lookup ifIndex = t'.decoded.lookup ifIndex

/-! ## Port lists -/

theorem mem_objBitmap {row : ResultEntry} {key : String} {port : Int} :
    port ∈ objBitmap row key 1 ↔ PortBit row key port := by
  unfold objBitmap PortBit
  cases objStr row.objects key with
  | none => simp
  | some hex => simp [mem_bitmapValues]

/-- The list the code reads is the one listed. -/
theorem mem_listed {row : ResultEntry} {current static : String} {port : Int} :
    port ∈ (if objBitmap row current 1 = [] then objBitmap row static 1 else objBitmap row current 1) ↔
      Listed row current static port := by
  simp only [Listed, ← mem_objBitmap, ← List.eq_nil_iff_forall_not_mem]
  by_cases hnil : objBitmap row current 1 = []
  · simp [hnil]
  · simp [hnil]

theorem mem_taggedPorts {row : ResultEntry} {port : Int} :
    port ∈ taggedPorts row ↔ Egress row port ∧ ¬Untagged row port := by
  unfold taggedPorts
  rw [List.mem_filter, decide_eq_true_eq, mem_listed, mem_listed]
  rfl

/-! ## Sets in order -/

theorem pairwise_insertSorted {v : Int} {set : List Int} (h : set.Pairwise (· < ·)) :
    (insertSorted v set).Pairwise (· < ·) := by
  unfold insertSorted
  split
  · exact h
  · next hv =>
    have hle : (set.orderedInsert (· ≤ ·) v).Pairwise (· ≤ ·) := (h.imp le_of_lt).orderedInsert v set
    have hnd : (set.orderedInsert (· ≤ ·) v).Nodup :=
      (List.perm_orderedInsert _ v set).nodup_iff.mpr (List.nodup_cons.mpr ⟨hv, h.imp ne_of_lt⟩)
    exact (hle.and hnd).imp fun hab => lt_of_le_of_ne hab.1 hab.2

/-! ## Maps -/

variable (t : BridgeTables)

theorem lookup_basePorts {port ifIndex : Int} :
    (ifIndexByBridgePort t.basePorts).lookup port = some ifIndex ↔ MapsPort t.basePorts port ifIndex := by
  unfold ifIndexByBridgePort
  rw [lookup_writeAll_eq_some_iff]
  · simp only [bind_map_pair_eq_some_iff]
    rfl
  · intro row hrow row' hrow' i i' hi hi'
    rw [bind_map_pair_eq_some_iff] at hi hi'
    exact t.functional port i i' ⟨row, hrow, hi⟩ ⟨row', hrow', hi'⟩

/-- What a PVID row says: the native VLAN of the ifIndex of its port. -/
theorem pvidRow_iff {row : ResultEntry} {ifIndex vlan : Int} :
    ((bridgePort row).bind fun port => ((ifIndexByBridgePort t.basePorts).lookup port).bind fun ifIndex =>
      (positive row.objects "Q-BRIDGE-MIB::dot1qPvid").map fun vlan => (ifIndex, vlan)) = some (ifIndex, vlan) ↔
    ∃ port, bridgePort row = some port ∧ MapsPort t.basePorts port ifIndex ∧
      objI64 row.objects "Q-BRIDGE-MIB::dot1qPvid" = some vlan ∧ 0 < vlan := by
  rw [Option.bind_eq_some_iff]
  refine exists_congr fun port => and_congr_right fun _ => ?_
  rw [bind_map_pair_eq_some_iff, lookup_basePorts, positive_eq_some_iff]

theorem lookup_native {ifIndex vlan : Int} :
    (bridgeNative (ifIndexByBridgePort t.basePorts) t.pvid).lookup ifIndex = some vlan ↔ t.Native ifIndex vlan := by
  have hagree : ∀ v v', t.Native ifIndex v → t.Native ifIndex v' → v = v' := by
    rintro v v' ⟨port, hport, hv⟩ ⟨port', hport', hv'⟩
    obtain rfl := t.injective port port' ifIndex hport hport'
    exact t.one_pvid port v v' hv hv'
  have hnative : ∀ row ∈ rowsOf t.pvid, ∀ v port, bridgePort row = some port → MapsPort t.basePorts port ifIndex →
      objI64 row.objects "Q-BRIDGE-MIB::dot1qPvid" = some v ∧ 0 < v → t.Native ifIndex v :=
    fun row hrow v port hport hmaps hv => ⟨port, hmaps, row, hrow, hport, hv⟩
  refine (lookup_writeAll_eq_some_iff ?_).trans ?_
  · intro row hrow row' hrow' v v' hv hv'
    obtain ⟨port, hport, hmaps, hpvid⟩ := (pvidRow_iff t).mp hv
    obtain ⟨port', hport', hmaps', hpvid'⟩ := (pvidRow_iff t).mp hv'
    exact hagree v v' (hnative row hrow v port hport hmaps hpvid) (hnative row' hrow' v' port' hport' hmaps' hpvid')
  · constructor
    · rintro ⟨row, hrow, hv⟩
      obtain ⟨port, hport, hmaps, hpvid⟩ := (pvidRow_iff t).mp hv
      exact hnative row hrow vlan port hport hmaps hpvid
    · rintro ⟨port, hmaps, row, hrow, hport, hpvid⟩
      exact ⟨row, hrow, (pvidRow_iff t).mpr ⟨port, hport, hmaps, hpvid⟩⟩

theorem mem_tagged {ifIndex vlan : Int} :
    vlan ∈ ((bridgeTagged (ifIndexByBridgePort t.basePorts) t.vlanPorts).lookup ifIndex).getD [] ↔
      t.Tagged ifIndex vlan := by
  rw [mem_bridgeTagged]
  refine exists_congr fun row => and_congr_right fun _ => and_congr_right fun _ => exists_congr fun port => ?_
  rw [mem_taggedPorts, lookup_basePorts, and_comm]

theorem pairwise_tagged (ifIndex : Int) :
    (((bridgeTagged (ifIndexByBridgePort t.basePorts) t.vlanPorts).lookup ifIndex).getD []).Pairwise (· < ·) := by
  cases hset : (bridgeTagged (ifIndexByBridgePort t.basePorts) t.vlanPorts).lookup ifIndex with
  | none => exact List.Pairwise.nil
  | some set =>
    refine forall_bridgeTagged (P := List.Pairwise (· < ·)) (fun v set h => ?_) _ _ ifIndex set hset
    rcases h with h | rfl
    · exact pairwise_insertSorted h
    · exact pairwise_insertSorted List.Pairwise.nil

/-! ## Entries -/

/-- A port with a native or a tagged VLAN has an entry, made of both. -/
theorem lookup_decoded_bridge (ifIndex : Int) : t.decoded.lookup ifIndex =
    let native := (bridgeNative (ifIndexByBridgePort t.basePorts) t.pvid).lookup ifIndex
    let set := ((bridgeTagged (ifIndexByBridgePort t.basePorts) t.vlanPorts).lookup ifIndex).getD []
    if native = none ∧ set = [] then none else some ⟨native, set.filter fun v => some v ≠ native⟩ := by
  unfold BridgeTables.decoded
  rw [lookup_decodeQbridge]
  dsimp only
  cases hset : (bridgeTagged (ifIndexByBridgePort t.basePorts) t.vlanPorts).lookup ifIndex with
  | none =>
    cases (bridgeNative (ifIndexByBridgePort t.basePorts) t.pvid).lookup ifIndex with
    | none => rfl
    | some vlan => rfl
  | some set =>
    have hne := bridgeTagged_nonempty _ _ _ hset
    simp [hne]

theorem bridgeEntry (ifIndex : Int) : BridgeEntry t ifIndex
    ⟨(bridgeNative (ifIndexByBridgePort t.basePorts) t.pvid).lookup ifIndex,
      (((bridgeTagged (ifIndexByBridgePort t.basePorts) t.vlanPorts).lookup ifIndex).getD []).filter fun v =>
        some v ≠ (bridgeNative (ifIndexByBridgePort t.basePorts) t.pvid).lookup ifIndex⟩ where
  native _ := lookup_native t
  sorted := (pairwise_tagged t ifIndex).filter _
  tagged v := by rw [List.mem_filter, mem_tagged, decide_eq_true_eq, ne_comm]

theorem bridge_isSome_iff (ifIndex : Int) : (t.decoded.lookup ifIndex).isSome ↔
    (∃ vlan, t.Native ifIndex vlan) ∨ ∃ vlan, t.Tagged ifIndex vlan := by
  have hnative : (bridgeNative (ifIndexByBridgePort t.basePorts) t.pvid).lookup ifIndex = none ↔
      ¬∃ vlan, t.Native ifIndex vlan := by
    simp only [← lookup_native, not_exists]
    exact Option.eq_none_iff_forall_ne_some
  have htagged : ((bridgeTagged (ifIndexByBridgePort t.basePorts) t.vlanPorts).lookup ifIndex).getD [] = [] ↔
      ¬∃ vlan, t.Tagged ifIndex vlan := by
    simp only [← mem_tagged, not_exists]
    exact List.eq_nil_iff_forall_not_mem
  rw [lookup_decoded_bridge]
  dsimp only
  split
  · next h =>
    rw [hnative, htagged, ← not_or] at h
    exact iff_of_false Bool.false_ne_true h
  · next h =>
    rw [hnative, htagged, ← not_or, not_not] at h
    exact iff_of_true rfl h

theorem bridge_entry {ifIndex : Int} {e : InterfaceVlans} (h : t.decoded.lookup ifIndex = some e) :
    BridgeEntry t ifIndex e := by
  rw [lookup_decoded_bridge] at h
  dsimp only at h
  split at h
  · cases h
  · obtain rfl := Option.some.inj h
    exact bridgeEntry t ifIndex

/-! ## Order -/

variable {t} {t' : BridgeTables}

theorem SameRows.maps_iff (h : SameRows t t') (port ifIndex : Int) :
    MapsPort t.basePorts port ifIndex ↔ MapsPort t'.basePorts port ifIndex := by
  simp only [MapsPort, h.basePorts.mem_iff]

theorem SameRows.native_iff (h : SameRows t t') (ifIndex vlan : Int) :
    t.Native ifIndex vlan ↔ t'.Native ifIndex vlan := by
  simp only [BridgeTables.Native, HasPvid, h.maps_iff, h.pvid.mem_iff]

theorem SameRows.tagged_iff (h : SameRows t t') (ifIndex vlan : Int) :
    t.Tagged ifIndex vlan ↔ t'.Tagged ifIndex vlan := by
  simp only [BridgeTables.Tagged, h.maps_iff, h.vlanPorts.mem_iff]

/-- Entries that answer for the same memberships are the same. -/
theorem BridgeEntry.unique (h : SameRows t t') {ifIndex : Int} {e e' : InterfaceVlans} (he : BridgeEntry t ifIndex e)
    (he' : BridgeEntry t' ifIndex e') : e = e' := by
  have hnative : e.nativeVlan = e'.nativeVlan := Option.ext fun vlan => by
    rw [he.native, he'.native, h.native_iff]
  have htagged : e.taggedVlans = e'.taggedVlans := he.sorted.eq_of_mem_iff he'.sorted fun v => by
    rw [he.tagged, he'.tagged, h.tagged_iff, hnative]
  cases e
  cases e'
  congr

theorem lookup_of_sameRows (h : SameRows t t') (ifIndex : Int) :
    t.decoded.lookup ifIndex = t'.decoded.lookup ifIndex := by
  have hsome : (t.decoded.lookup ifIndex).isSome ↔ (t'.decoded.lookup ifIndex).isSome := by
    simp only [bridge_isSome_iff, h.native_iff, h.tagged_iff]
  cases he : t.decoded.lookup ifIndex with
  | none =>
    rw [he] at hsome
    cases he' : t'.decoded.lookup ifIndex with
    | none => rfl
    | some e' => rw [he'] at hsome; exact absurd hsome (by simp)
  | some e =>
    rw [he] at hsome
    cases he' : t'.decoded.lookup ifIndex with
    | none => rw [he'] at hsome; exact absurd hsome (by simp)
    | some e' => exact congrArg some ((bridge_entry t he).unique h (bridge_entry t' he'))

/-- **The decoded memberships are exactly those of the tables.** -/
theorem decodeQbridge_exact (t : BridgeTables) : BridgeExact t :=
  ⟨bridge_isSome_iff t, fun _ _ => bridge_entry t, fun _ => lookup_of_sameRows⟩

/-! ## A bridge -/

def portRow (port : Int) (columns : List (String × Val)) : ResultEntry :=
  tableRow [("BRIDGE-MIB::dot1dBasePort", port)] columns

def vlanRow (vlan : Int) (columns : List (String × Val)) : ResultEntry :=
  tableRow [("Q-BRIDGE-MIB::dot1qVlanIndex", vlan)] columns

def twoPorts : Response :=
  tableOf [portRow 1 [("BRIDGE-MIB::dot1dBasePortIfIndex", .uint64 101)],
    portRow 2 [("BRIDGE-MIB::dot1dBasePortIfIndex", .uint64 102)]]

theorem mapsPort_twoPorts {port ifIndex : Int} (h : MapsPort twoPorts port ifIndex) :
    port = 1 ∧ ifIndex = 101 ∨ port = 2 ∧ ifIndex = 102 := by
  obtain ⟨row, hrow, hport, hindex⟩ := h
  simp only [twoPorts, tableOf, List.mem_cons, List.not_mem_nil, or_false] at hrow
  rcases hrow with rfl | rfl
  · exact .inl ⟨(Option.some.inj hport).symm, (Option.some.inj hindex).symm⟩
  · exact .inr ⟨(Option.some.inj hport).symm, (Option.some.inj hindex).symm⟩

/-- Port 1 is native in VLAN 10, of which it is an untagged member, and a tagged one of VLAN 30. -/
def twoVlans : BridgeTables where
  pvid := some (tableOf [portRow 1 [("Q-BRIDGE-MIB::dot1qPvid", .uint64 10)]])
  vlanPorts := some (tableOf [
    vlanRow 10 [("Q-BRIDGE-MIB::dot1qVlanCurrentEgressPorts", .str "80"),
      ("Q-BRIDGE-MIB::dot1qVlanCurrentUntaggedPorts", .str "80")],
    vlanRow 30 [("Q-BRIDGE-MIB::dot1qVlanStaticEgressPorts", .str "c0")]])
  basePorts := twoPorts
  functional port i i' h h' := by
    have hmaps := mapsPort_twoPorts h
    have hmaps' := mapsPort_twoPorts h'
    omega
  injective port port' i h h' := by
    have hmaps := mapsPort_twoPorts h
    have hmaps' := mapsPort_twoPorts h'
    omega
  one_pvid port v v' h h' := by
    obtain ⟨row, hrow, -, hvlan, -⟩ := h
    obtain ⟨row', hrow', -, hvlan', -⟩ := h'
    rw [List.mem_singleton.mp hrow] at hvlan
    rw [List.mem_singleton.mp hrow', hvlan] at hvlan'
    exact Option.some.inj hvlan'

theorem decodeQbridge_exact_twoVlans : BridgeExact twoVlans ∧ BridgeEntry twoVlans 101 ⟨some 10, [30]⟩ := by
  have hexact := decodeQbridge_exact twoVlans
  have hlookup : twoVlans.decoded.lookup 101 = some ⟨some 10, [30]⟩ := by decide +kernel
  exact ⟨hexact, hexact.entry 101 _ hlookup⟩

end JaspyNexus.Collectors.Vlanpoller
