import Mathlib
import JaspyNexus.Collectors.Bitmaps
import JaspyNexus.Collectors.Vlanpoller

/-! # Cisco tables, bit by bit

What `decode_cisco` makes of the octets an agent answers with: the VLANs of a trunk are the
positions of the bits set in its four columns, those that are operational ethernet VLANs and
not the native one. -/

namespace JaspyNexus.Collectors.Vlanpoller
open JaspyNexus.Lib JaspyNexus.Snmp JaspyNexus.Snmp.Render

/-! ## The tables -/

/-- The four columns of a trunk's VLANs, 1024 in each. -/
def enabledColumn : Nat → String
  | 0 => "CISCO-VTP-MIB::vlanTrunkPortVlansEnabled"
  | 1 => "CISCO-VTP-MIB::vlanTrunkPortVlansEnabled2k"
  | 2 => "CISCO-VTP-MIB::vlanTrunkPortVlansEnabled3k"
  | _ => "CISCO-VTP-MIB::vlanTrunkPortVlansEnabled4k"

def trunkPort (row : ResultEntry) : Option Int := row.index "CISCO-VTP-MIB::vlanTrunkPortIfIndex"

def memberPort (row : ResultEntry) : Option Int := row.index "IF-MIB::ifIndex"

def rowsOf (table : Option Response) : List ResultEntry := (table.map Response.entries).getD []

/-- The column holds these octets, as text. -/
def Holds (row : ResultEntry) (i : Nat) (octets : List UInt8) : Prop :=
  objStr row.objects (enabledColumn i) = some (hexSpaces octets)

/-- The tables of a switch: distinct ports in each, and bitmap columns of at most 128 octets,
where a column is there. -/
structure CiscoTables where
  trunk : Response
  vtpVlans : Option Response
  membership : Option Response
  ports : (trunk.entries.filterMap trunkPort).Nodup
  members : ((rowsOf membership).filterMap memberPort).Nodup
  columns : ∀ row ∈ trunk.entries, ∀ i < 4, objStr row.objects (enabledColumn i) = none ∨
    ∃ octets, octets.length ≤ 128 ∧ Holds row i octets

/-! ## What the tables say -/

/-- The bit of the VLAN, one of 4096, is set in the row's columns. -/
def Allows (row : ResultEntry) (v : Int) : Prop :=
  0 ≤ v ∧ v ≤ 4095 ∧ ∃ octets, Holds row (v.toNat / 1024) octets ∧
    octetBit (octets.map UInt8.toNat) (v.toNat % 1024) = true

/-- An operational ethernet VLAN of the switch. -/
def CiscoTables.Operational (t : CiscoTables) (v : Int) : Prop :=
  ∃ row ∈ rowsOf t.vtpVlans, row.index "CISCO-VTP-MIB::vtpVlanIndex" = some v ∧
    objStr row.objects "CISCO-VTP-MIB::vtpVlanState" = some "operational" ∧
    objStr row.objects "CISCO-VTP-MIB::vtpVlanType" = some "ethernet"

/-- The port's positive `vmVlan`. -/
def CiscoTables.Access (t : CiscoTables) (ifIndex vlan : Int) : Prop :=
  ∃ row ∈ rowsOf t.membership, memberPort row = some ifIndex ∧
    objI64 row.objects "CISCO-VLAN-MEMBERSHIP-MIB::vmVlan" = some vlan ∧ 0 < vlan

def CiscoTables.decoded (t : CiscoTables) : AList fun _ : Int => InterfaceVlans :=
  decodeCisco t.trunk t.vtpVlans t.membership

/-- A port that is no trunk and has a positive `vmVlan` has that VLAN, whether the trunk table
has a row of the port or not. -/
def CiscoTables.AccessAnywhere (t : CiscoTables) : Prop :=
  ∀ ifIndex vlan, (∀ row ∈ t.trunk.entries, trunkPort row = some ifIndex → trunking row = false) →
    t.Access ifIndex vlan → t.decoded.lookup ifIndex = some ⟨some vlan, []⟩

/-- The entry of a trunk. -/
structure TrunkEntry (t : CiscoTables) (row : ResultEntry) (e : InterfaceVlans) : Prop where
  native : ∀ vlan, e.nativeVlan = some vlan ↔
    objI64 row.objects "CISCO-VTP-MIB::vlanTrunkPortNativeVlan" = some vlan ∧ 0 < vlan
  sorted : e.taggedVlans.Pairwise (· < ·)
  tagged : ∀ v, v ∈ e.taggedVlans ↔ Allows row v ∧ t.Operational v ∧ e.nativeVlan ≠ some v

/-- **The entries are those of the tables.** A port is a row of the trunk table. -/
structure CiscoExact (t : CiscoTables) : Prop where
  trunk : ∀ row ∈ t.trunk.entries, ∀ ifIndex, trunkPort row = some ifIndex → trunking row = true →
    ∃ e, t.decoded.lookup ifIndex = some e ∧ TrunkEntry t row e
  access : ∀ row ∈ t.trunk.entries, ∀ ifIndex, trunkPort row = some ifIndex → trunking row = false →
    ∀ vlan, t.Access ifIndex vlan → t.decoded.lookup ifIndex = some ⟨some vlan, []⟩
  other : ∀ ifIndex e, t.decoded.lookup ifIndex = some e → ∃ row ∈ t.trunk.entries,
    trunkPort row = some ifIndex ∧ (trunking row = true ∨ ∃ vlan, t.Access ifIndex vlan)

/-- No bit is lost or shifted between the octets and the values. -/
def KeepsBits (octets : List UInt8) (base : Int) : Prop :=
  ∀ v, v ∈ bitmapValues (parseHexOctets (hexSpaces octets)) base ↔
    ∃ n : Nat, v = base + n ∧ octetBit (octets.map UInt8.toNat) n = true

theorem keepsBits (octets : List UInt8) (base : Int) : KeepsBits octets base := by
  intro v
  rw [parseHexOctets_hexSpaces]
  exact mem_bitmapValues

theorem positive_eq_some_iff {objects : PMap String Val} {key : String} {v : Int} :
    positive objects key = some v ↔ objI64 objects key = some v ∧ 0 < v := by
  simp [positive, Option.filter_eq_some_iff]

/-- A row that says a value under its key. -/
theorem bind_map_pair_eq_some_iff {κ υ : Type} {key : Option κ} {value : Option υ} {k : κ} {v : υ} :
    (key.bind fun k => value.map fun v => (k, v)) = some (k, v) ↔ key = some k ∧ value = some v := by
  cases key <;> cases value <;> simp

/-! ## Columns -/

variable (t : CiscoTables)

/-- A column's values are within its 1024 VLANs. -/
theorem column_range {row : ResultEntry} (hrow : row ∈ t.trunk.entries) {i : Nat} (hi : i < 4) {base v : Int}
    (hv : v ∈ objBitmap row (enabledColumn i) base) :
    base ≤ v ∧ v < base + 1024 ∧ ∃ octets, Holds row i octets ∧
      octetBit (octets.map UInt8.toNat) (v - base).toNat = true := by
  rcases t.columns row hrow i hi with hnone | ⟨octets, hlen, hholds⟩
  · rw [objBitmap, hnone] at hv
    cases hv
  · rw [objBitmap, hholds] at hv
    obtain ⟨n, rfl, hbit⟩ := (keepsBits octets base v).mp hv
    have hlt := octetBit_lt hbit
    rw [List.length_map] at hlt
    refine ⟨by omega, by omega, octets, hholds, ?_⟩
    rw [show (base + n - base).toNat = n by omega]
    exact hbit

theorem mem_column {row : ResultEntry} {i : Nat} {octets : List UInt8} (hholds : Holds row i octets) (base : Int)
    {n : Nat} (hbit : octetBit (octets.map UInt8.toNat) n = true) : base + n ∈ objBitmap row (enabledColumn i) base := by
  rw [objBitmap, hholds]
  exact (keepsBits octets base _).mpr ⟨n, rfl, hbit⟩

theorem trunkEnabled_eq (row : ResultEntry) : trunkEnabled row =
    (List.range 4).flatMap fun i : Nat => objBitmap row (enabledColumn i) (i * 1024) := by
  simp [trunkEnabled, List.range_succ, enabledColumn, List.append_assoc]

/-- The VLANs a trunk allows are the bits set. -/
theorem mem_trunkEnabled {row : ResultEntry} (hrow : row ∈ t.trunk.entries) {v : Int} :
    v ∈ trunkEnabled row ↔ Allows row v := by
  rw [trunkEnabled_eq]
  simp only [List.mem_flatMap, List.mem_range]
  constructor
  · rintro ⟨i, hi, hv⟩
    obtain ⟨hlow, hhigh, octets, hholds, hbit⟩ := column_range t hrow hi hv
    have hcolumn : v.toNat / 1024 = i := by omega
    have hposition : v.toNat % 1024 = (v - i * 1024).toNat := by omega
    exact ⟨by omega, by omega, octets, hcolumn ▸ hholds, hposition ▸ hbit⟩
  · rintro ⟨hlow, hhigh, octets, hholds, hbit⟩
    have hv : ((v.toNat / 1024 : Nat) : Int) * 1024 + (v.toNat % 1024 : Nat) = v := by omega
    refine ⟨v.toNat / 1024, by omega, ?_⟩
    have hmem := mem_column hholds (((v.toNat / 1024 : Nat) : Int) * 1024) hbit
    rwa [hv] at hmem

/-- One column ends below where the next begins. -/
theorem pairwise_trunkEnabled {row : ResultEntry} (hrow : row ∈ t.trunk.entries) :
    (trunkEnabled row).Pairwise (· < ·) := by
  rw [trunkEnabled_eq, List.pairwise_flatMap]
  refine ⟨fun i _ => ?_, ?_⟩
  · unfold objBitmap
    split
    · exact pairwise_bitmapValues _ _
    · exact List.Pairwise.nil
  · refine List.pairwise_lt_range.imp_of_mem fun {i j} hi hj hlt v hv v' hv' => ?_
    obtain ⟨-, hhigh, -⟩ := column_range t hrow (List.mem_range.mp hi) hv
    obtain ⟨hlow, -⟩ := column_range t hrow (List.mem_range.mp hj) hv'
    omega

/-! ## Rows -/

theorem mem_active {v : Int} : v ∈ (t.vtpVlans.map activeVlans).getD [] ↔ t.Operational v := by
  unfold CiscoTables.Operational rowsOf
  cases t.vtpVlans with
  | none => simp
  | some vtpVlans =>
    simp only [Option.map_some, Option.getD_some, activeVlans, vtpEthernet, List.mem_filterMap,
      Option.ite_none_right_eq_some]
    refine exists_congr fun row => and_congr_right fun _ => ?_
    tauto

theorem lookup_access {ifIndex vlan : Int} : (accessVlans t.membership).lookup ifIndex = some vlan ↔ t.Access ifIndex vlan := by
  refine (lookup_writeAll_of_nodup ?_ t.members).trans ?_
  rotate_left
  · refine exists_congr fun row => and_congr_right fun _ => ?_
    rw [bind_map_pair_eq_some_iff, positive_eq_some_iff]
    rfl
  · intro row e he
    obtain ⟨port, hport, hvlan⟩ := Option.bind_eq_some_iff.mp he
    obtain ⟨vlan, -, rfl⟩ := Option.map_eq_some_iff.mp hvlan
    exact hport

theorem ciscoPort_key {active : List Int} {access : AList fun _ : Int => Int} (row : ResultEntry)
    (e : Int × InterfaceVlans) (he : ciscoPort active access row = some e) : trunkPort row = some e.1 := by
  obtain ⟨port, hport, hrest⟩ := Option.bind_eq_some_iff.mp he
  split at hrest
  · cases hrest
    exact hport
  · obtain ⟨vlan, -, rfl⟩ := Option.map_eq_some_iff.mp hrest
    exact hport

theorem lookup_decoded {ifIndex : Int} {e : InterfaceVlans} : t.decoded.lookup ifIndex = some e ↔
    ∃ row ∈ t.trunk.entries, ciscoPort ((t.vtpVlans.map activeVlans).getD []) (accessVlans t.membership) row =
      some (ifIndex, e) :=
  lookup_writeAll_of_nodup ciscoPort_key t.ports

theorem ciscoPort_of_trunking {active : List Int} {access : AList fun _ : Int => Int} {row : ResultEntry} {ifIndex : Int}
    (hport : trunkPort row = some ifIndex) (ht : trunking row = true) : ciscoPort active access row =
      some (ifIndex, ⟨trunkNative row, (trunkEnabled row).filter fun v => v ∈ active ∧ some v ≠ trunkNative row⟩) := by
  rw [ciscoPort, show row.index _ = some ifIndex from hport, Option.bind_some, if_pos ht]

theorem ciscoPort_of_not_trunking {active : List Int} {access : AList fun _ : Int => Int} {row : ResultEntry}
    {ifIndex : Int} (hport : trunkPort row = some ifIndex) (ht : trunking row = false) :
    ciscoPort active access row = (access.lookup ifIndex).map fun vlan => (ifIndex, ⟨some vlan, []⟩) := by
  rw [ciscoPort, show row.index _ = some ifIndex from hport, Option.bind_some, if_neg (ht ▸ Bool.false_ne_true)]

theorem trunkEntry {row : ResultEntry} (hrow : row ∈ t.trunk.entries) : TrunkEntry t row
    ⟨trunkNative row, (trunkEnabled row).filter fun v =>
      v ∈ (t.vtpVlans.map activeVlans).getD [] ∧ some v ≠ trunkNative row⟩ where
  native _ := positive_eq_some_iff
  sorted := (pairwise_trunkEnabled t hrow).filter _
  tagged v := by
    rw [List.mem_filter, mem_trunkEnabled t hrow, decide_eq_true_eq, mem_active t, ne_comm]

/-- **The decoded memberships are exactly those of the tables**, and the text between an
agent's octets and the values keeps every bit. -/
theorem decodeCisco_exact : CiscoExact t ∧ ∀ octets base, KeepsBits octets base := by
  refine ⟨⟨fun row hrow ifIndex hport ht => ?_, fun row hrow ifIndex hport ht vlan hvlan => ?_,
    fun ifIndex e he => ?_⟩, keepsBits⟩
  · exact ⟨_, (lookup_decoded t).mpr ⟨row, hrow, ciscoPort_of_trunking hport ht⟩, trunkEntry t hrow⟩
  · refine (lookup_decoded t).mpr ⟨row, hrow, ?_⟩
    rw [ciscoPort_of_not_trunking hport ht, (lookup_access t).mpr hvlan, Option.map_some]
  · obtain ⟨row, hrow, hsaid⟩ := (lookup_decoded t).mp he
    have hport := ciscoPort_key row _ hsaid
    refine ⟨row, hrow, hport, ?_⟩
    cases ht : trunking row with
    | true => exact .inl rfl
    | false =>
      rw [ciscoPort_of_not_trunking hport ht] at hsaid
      obtain ⟨vlan, hvlan, -⟩ := Option.map_eq_some_iff.mp hsaid
      exact .inr ⟨vlan, (lookup_access t).mp hvlan⟩

/-! ## A switch -/

def trunkRow (port : Int) (status : String) (columns : List (String × Val)) : ResultEntry :=
  tableRow [("CISCO-VTP-MIB::vlanTrunkPortIfIndex", port)]
    (("CISCO-VTP-MIB::vlanTrunkPortDynamicStatus", .str status) :: columns)

def vtpRow (vlan : Int) (state : String) : ResultEntry :=
  tableRow [("CISCO-VTP-MIB::vtpVlanIndex", vlan)]
    [("CISCO-VTP-MIB::vtpVlanState", .str state), ("CISCO-VTP-MIB::vtpVlanType", .str "ethernet")]

def memberRow (port : Int) (vlan : Nat) : ResultEntry :=
  tableRow [("IF-MIB::ifIndex", port)] [("CISCO-VLAN-MEMBERSHIP-MIB::vmVlan", .uint64 vlan)]

/-- Port 1 is a trunk of the VLANs 1 to 4, native 1, in its first column; port 2 is an access
port; port 3 is a member of VLAN 30 and has no row in the trunk table. -/
def threePorts : CiscoTables where
  trunk := tableOf [trunkRow 1 "trunking" [("CISCO-VTP-MIB::vlanTrunkPortNativeVlan", .uint64 1),
    ("CISCO-VTP-MIB::vlanTrunkPortVlansEnabled", .str (hexSpaces [0x78]))], trunkRow 2 "notTrunking" []]
  vtpVlans := some (tableOf [vtpRow 1 "operational", vtpRow 2 "operational", vtpRow 3 "suspended", vtpRow 4 "operational"])
  membership := some (tableOf [memberRow 2 20, memberRow 3 30])
  ports := by decide +kernel
  members := by decide +kernel
  columns := by
    intro row hrow i hi
    simp only [tableOf, List.mem_cons, List.not_mem_nil, or_false] at hrow
    rcases hrow with rfl | rfl
    · interval_cases i
      · exact .inr ⟨[0x78], by decide, rfl⟩
      · exact .inl rfl
      · exact .inl rfl
      · exact .inl rfl
    · interval_cases i <;> exact .inl rfl

theorem decodeCisco_exact_threePorts : CiscoExact threePorts ∧ ∀ octets base, KeepsBits octets base :=
  decodeCisco_exact threePorts

example : threePorts.decoded.lookup 1 = some ⟨some 1, [2, 4]⟩ := by decide +kernel

/-- **A member without a row in the trunk table** has no VLAN. -/
theorem threePorts_not_accessAnywhere : ¬∀ t : CiscoTables, t.AccessAnywhere := by
  intro h
  have hno : ∀ row ∈ threePorts.trunk.entries, trunkPort row = some 3 → trunking row = false := by
    decide +kernel
  have haccess : threePorts.Access 3 30 := ⟨memberRow 3 30, by simp [rowsOf, threePorts, tableOf], rfl, rfl, by decide⟩
  have hentry := h threePorts 3 30 hno haccess
  have hnone : threePorts.decoded.lookup 3 = none := by decide +kernel
  rw [hnone] at hentry
  cases hentry

end JaspyNexus.Collectors.Vlanpoller
